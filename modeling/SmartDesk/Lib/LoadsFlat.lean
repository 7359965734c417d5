import Mathlib
import SmartDesk.Lib.FlatJson
import SmartDesk.Lib.PyJson

/-!
# `json.loads` of flat objects

* `ofObject` — what a flat object is in Python.
* `loads_render` — **`json.loads` reads the compact text of a flat object as that object**, if its
  keys are distinct and its integers are not too long.
* `braces_of_loads` — an object is only read from a text that begins with `{` and has a `}`.
* `whole_of_fragment` — **a part of such a line that is read as an object is the whole of it.**
-/

namespace PyJson

open PyText FlatJson

/-! ## Values -/

def ofValue : Value → PyValue
  | .string s => .str (decode s)
  | .integer n => .int n
  | .decimal _ _ => .float

def ofObject (o : Object) : List (PyStr × PyValue) := o.map fun m => (decode m.1, ofValue m.2)

/-- The integers of a value are not longer than `int` converts. -/
def Fits (limits : Limits) : Value → Prop
  | .integer n => limits.intDigits = 0 ∨ (natText n.natAbs).length ≤ limits.intDigits
  | _ => True

/-! ## Strings -/

theorem decode_cons (c : Char) (s : List Char) : decode (c :: s) = .scalar c :: decode s := rfl

theorem decode_append (a b : List Char) : decode (a ++ b) = decode a ++ decode b := List.map_append

theorem scanString_plain {s : List Char} (hs : PlainString s) (rest : PyStr) :
    scanString (decode s ++ .scalar '"' :: rest) = some ((decode s).map (·, false), rest) := by
  induction s with
  | nil => rfl
  | cons c s ih =>
    obtain ⟨hquote, hslash, hcontrol⟩ := hs c List.mem_cons_self
    have hplain : isControl (.scalar c) = false := by
      unfold isControl
      simpa using hcontrol
    have htail := ih fun d hd => hs d (List.mem_cons_of_mem _ hd)
    rw [decode_cons, List.cons_append, scanString]
    · simp [hplain, hslash, htail]
    · intro h
      exact hquote (by simpa using h)
    · intro a b c' d rest' h _
      exact hslash (by simpa using h)
    · intro d rest' h _
      exact hslash (by simpa using h)

theorem joinPairs_plain (s : List Char) : joinPairs ((decode s).map (·, false)) = decode s := by
  induction s with
  | nil => rfl
  | cons c s ih =>
    rw [decode_cons, List.map_cons, joinPairs]
    · rw [ih]
    · nofun

/-! ## Numbers -/

theorem isDigit_scalar (c : Char) : isDigit (.scalar c) = c.isDigit := by
  have hlow : '0' ≤ c ↔ 48 ≤ c.val := Iff.rfl
  have hhigh : c ≤ '9' ↔ c.val ≤ 57 := Iff.rfl
  show (if '0' ≤ c ∧ c ≤ '9' then some (c.toNat - 48) else none).isSome =
    (decide (48 ≤ c.val) && decide (c.val ≤ 57))
  by_cases h : '0' ≤ c ∧ c ≤ '9'
  · rw [if_pos h, decide_eq_true (hlow.mp h.1), decide_eq_true (hhigh.mp h.2)]
    rfl
  · rw [if_neg h]
    by_cases hc : '0' ≤ c
    · rw [decide_eq_false fun hle => h ⟨hc, hhigh.mpr hle⟩, Bool.and_false]
      rfl
    · rw [decide_eq_false fun hle => hc (hlow.mpr hle), Bool.false_and]
      rfl

/-- Only zero is written with a leading zero. -/
theorem natText_head_ne_zero {n : ℕ} (hn : 0 < n) : ∃ d ds, natText n = d :: ds ∧ d ≠ '0' := by
  induction n using Nat.strongRecOn with
  | ind n ih =>
    unfold natText
    by_cases hsmall : n < 10
    · refine ⟨n.digitChar, [], Nat.toDigits_of_lt_base hsmall, ?_⟩
      have hall : ∀ k : Fin 10, 0 < k.val → k.val.digitChar ≠ '0' := by decide
      exact hall ⟨n, hsmall⟩ hn
    · obtain ⟨d, ds, hds, hd⟩ := ih (n / 10) (Nat.div_lt_self hn (by decide)) (by omega)
      refine ⟨d, ds ++ [(n % 10).digitChar], ?_, hd⟩
      rw [Nat.toDigits_of_base_le (by decide) (by omega), ← natText, hds, List.cons_append]

theorem digitsValue_decode {ds : List Char} (h : ∀ c ∈ ds, c.isDigit = true) :
    digitsValue (decode ds) = FlatJson.digitsValue ds := by
  have hfold : ∀ (ds : List Char) (n : ℕ), (∀ c ∈ ds, c.isDigit = true) →
      (decode ds).foldl (fun n c => n * 10 + (digitValue c).getD 0) n =
        Nat.ofDigitChars 10 ds n := by
    intro ds
    induction ds with
    | nil =>
      intro n _
      rfl
    | cons c ds ih =>
      intro n hds
      have hc : digitValue (.scalar c) = some (c.toNat - 48) := by
        have hdigit := (isDigit_scalar c).trans (hds c List.mem_cons_self)
        simp only [isDigit, digitValue] at hdigit ⊢
        split_ifs at hdigit ⊢
        · rfl
        · cases hdigit
      rw [decode_cons, List.foldl_cons, ih _ fun d hd => hds d (List.mem_cons_of_mem _ hd), hc,
        Nat.ofDigitChars_cons, Nat.mul_comm]
      rfl
  exact hfold ds 0 h

/-- What follows a number continues it in no way. -/
structure Closes (rest : PyStr) : Prop where
  digit : ∀ c ∈ rest.head?, isDigit c = false
  point : rest.head? ≠ some (.scalar '.')
  exponent : rest.head? ≠ some (.scalar 'e') ∧ rest.head? ≠ some (.scalar 'E')

theorem takeWhile_decode {ds : List Char} (hds : ∀ c ∈ ds, c.isDigit = true) {rest : PyStr}
    (hrest : ∀ c ∈ rest.head?, isDigit c = false) :
    (decode ds ++ rest).takeWhile isDigit = decode ds ∧
      (decode ds ++ rest).dropWhile isDigit = rest := by
  induction ds with
  | nil =>
    cases rest with
    | nil => exact ⟨rfl, rfl⟩
    | cons c rest =>
      have hc := hrest c rfl
      exact ⟨List.takeWhile_cons_of_neg (by simp [hc]), List.dropWhile_cons_of_neg (by simp [hc])⟩
  | cons c ds ih =>
    have hc : isDigit (.scalar c) = true := (isDigit_scalar c).trans (hds c List.mem_cons_self)
    obtain ⟨htake, hdrop⟩ := ih fun d hd => hds d (List.mem_cons_of_mem _ hd)
    rw [decode_cons, List.cons_append, List.takeWhile_cons_of_pos hc, List.dropWhile_cons_of_pos hc]
    exact ⟨by rw [htake], hdrop⟩

theorem integerPart_natText (n : ℕ) {rest : PyStr} (hrest : ∀ c ∈ rest.head?, isDigit c = false) :
    integerPart (decode (natText n) ++ rest) = some (decode (natText n), rest) := by
  rcases Nat.eq_zero_or_pos n with rfl | hn
  · rfl
  · obtain ⟨d, ds, hds, hd⟩ := natText_head_ne_zero hn
    have hdigits : ∀ c ∈ natText n, c.isDigit = true := fun _ => isDigit_of_mem_natText
    obtain ⟨htake, hdrop⟩ := takeWhile_decode hdigits hrest
    have hdigit : isDigit (.scalar d) = true := by
      rw [isDigit_scalar]
      exact hdigits d (by rw [hds]; exact List.mem_cons_self)
    rw [hds, decode_cons, List.cons_append] at htake hdrop ⊢
    rw [integerPart, if_pos hdigit, htake, hdrop]
    intro h
    exact hd (by simpa using h)

theorem fraction_none {rest : PyStr} (h : Closes rest) : fraction rest = none := by
  unfold fraction
  split
  · exact absurd rfl h.point
  · rfl

theorem exponent_none {rest : PyStr} (h : Closes rest) : exponent rest = none := by
  have hfirst {e : Char} {text : PyStr} (hrest : rest = .scalar e :: text) :
      ¬ (e = 'e' ∨ e = 'E') := by
    rintro (rfl | rfl)
    · exact h.exponent.1 (by rw [hrest]; rfl)
    · exact h.exponent.2 (by rw [hrest]; rfl)
  unfold exponent
  split
  · rw [if_neg (hfirst rfl)]
  · rw [if_neg fun hc => hfirst rfl hc.1]
  · rfl

theorem scanUnsigned_natText {limits : Limits} {negative : Bool} {n : ℕ} {rest : PyStr}
    (hrest : Closes rest)
    (hfits : limits.intDigits = 0 ∨ (natText n).length ≤ limits.intDigits) :
    scanUnsigned limits negative (decode (natText n) ++ rest) =
      .ok (.int (if negative then -(n : ℤ) else n), rest) := by
  have hlength : ¬ (0 < limits.intDigits ∧ limits.intDigits < (decode (natText n)).length) := by
    unfold decode
    rw [List.length_map]
    omega
  have hvalue : digitsValue (decode (natText n)) = n := by
    rw [digitsValue_decode fun _ => isDigit_of_mem_natText, digitsValue_natText]
  unfold scanUnsigned
  rw [integerPart_natText n hrest.digit]
  simp only [fraction_none hrest, Option.getD_none, exponent_none hrest, Option.isSome_none,
    Bool.or_self, Bool.false_eq_true, if_false, if_neg hlength, hvalue]

theorem scanUnsigned_decimal {limits : Limits} {negative : Bool} {n k m : ℕ} {rest : PyStr}
    (hrest : Closes rest) :
    scanUnsigned limits negative
        (decode (natText n) ++ .scalar '.' :: (decode (fixedText (k + 1) m) ++ rest)) =
      .ok (.float, rest) := by
  have hdigits : ∀ c ∈ fixedText (k + 1) m, c.isDigit = true := fun _ => isDigit_of_mem_fixedText
  obtain ⟨d, ds, hds⟩ : ∃ d ds, fixedText (k + 1) m = d :: ds := by
    cases h : fixedText (k + 1) m with
    | nil =>
      have hlength := length_fixedText (k + 1) m
      rw [h] at hlength
      cases hlength
    | cons d ds => exact ⟨d, ds, rfl⟩
  have hd : isDigit (.scalar d) = true :=
    (isDigit_scalar d).trans (hdigits d (by rw [hds]; exact List.mem_cons_self))
  have hdrop := (takeWhile_decode hdigits hrest.digit).2
  rw [hds, decode_cons, List.cons_append, List.dropWhile_cons_of_pos hd] at hdrop
  have hfraction :
      fraction (.scalar '.' :: (decode (fixedText (k + 1) m) ++ rest)) = some rest := by
    rw [hds, decode_cons, List.cons_append, fraction, if_pos hd, hdrop]
  unfold scanUnsigned
  rw [integerPart_natText n (by
    intro c hc
    cases hc
    decide)]
  simp only [hfraction, Option.getD_some, exponent_none hrest, Option.getD_none, Option.isSome_some,
    Bool.true_or, if_true]

/-! ## Values in a text -/

theorem afterWord_none (word : String) {c : Char} {cs : List Char} {text : PyStr}
    (hword : word.toList = c :: cs) (h : text.head? ≠ some (.scalar c)) :
    afterWord word text = none := by
  unfold afterWord
  rw [if_neg]
  intro htake
  refine h ?_
  have hlength : word.length = cs.length + 1 := by
    rw [← String.length_toList, hword, List.length_cons]
  rw [hword, decode_cons, hlength] at htake
  cases text with
  | nil => cases htake
  | cons d text =>
    rw [List.take_succ_cons] at htake
    exact congrArg some (List.cons.inj htake).1

/-- A number is none of the words. -/
theorem scanPlain_digit {limits : Limits} {d : Char} {text : PyStr} (hd : d.isDigit = true) :
    scanPlain limits (.scalar d :: text) = scanUnsigned limits false (.scalar d :: text) := by
  have hne (c : Char) (hc : c.isDigit = false) :
      (CodePoint.scalar d :: text).head? ≠ some (.scalar c) := by
    intro h
    have heq : d = c := by simpa using h
    rw [heq, hc] at hd
    cases hd
  unfold scanPlain
  rw [afterWord_none "null" rfl (hne 'n' rfl),
    afterWord_none "true" rfl (hne 't' rfl),
    afterWord_none "false" rfl (hne 'f' rfl),
    afterWord_none "NaN" rfl (hne 'N' rfl),
    afterWord_none "Infinity" rfl (hne 'I' rfl),
    afterWord_none "-Infinity" rfl (hne '-' rfl)]
  dsimp only
  split
  · next h => exact absurd (congrArg List.head? h) (hne '-' rfl)
  · rfl

theorem scanPlain_minus {limits : Limits} {d : Char} {text : PyStr} (hd : d.isDigit = true) :
    scanPlain limits (.scalar '-' :: .scalar d :: text) =
      scanUnsigned limits true (.scalar d :: text) := by
  have hne (c : Char) (hc : c ≠ '-') :
      (CodePoint.scalar '-' :: .scalar d :: text).head? ≠ some (.scalar c) := by
    intro h
    exact hc (by simpa using h.symm)
  have hinfinity : afterWord "-Infinity" (.scalar '-' :: .scalar d :: text) = none := by
    unfold afterWord
    rw [if_neg]
    intro htake
    have hlength : "-Infinity".length = 9 := rfl
    rw [hlength] at htake
    have hsecond := congrArg (fun l : PyStr => l[1]?) htake
    have heq : d = 'I' := by simpa [decode] using hsecond
    rw [heq] at hd
    cases hd
  unfold scanPlain
  rw [afterWord_none "null" rfl (hne 'n' (by decide)),
    afterWord_none "true" rfl (hne 't' (by decide)),
    afterWord_none "false" rfl (hne 'f' (by decide)),
    afterWord_none "NaN" rfl (hne 'N' (by decide)),
    afterWord_none "Infinity" rfl (hne 'I' (by decide)), hinfinity]
  rfl

/-- A text that does not begin with white space. -/
theorem skipSpace_cons {c : Char} (h : isJsonSpace (.scalar c) = false) (text : PyStr) :
    skipSpace (.scalar c :: text) = .scalar c :: text :=
  List.dropWhile_cons_of_neg (by simp [h])

theorem isJsonSpace_digit {d : Char} (h : d.isDigit = true) : isJsonSpace (.scalar d) = false := by
  have hne (c : Char) (hc : c.isDigit = false) : d ≠ c := by
    rintro rfl
    rw [hc] at h
    cases h
  simp [isJsonSpace, hne ' ' rfl, hne '\t' rfl, hne '\n' rfl, hne '\r' rfl]

theorem scan_digit {limits : Limits} {fuel depth : ℕ} {d : Char} {text : PyStr}
    (hd : d.isDigit = true) :
    scan limits (fuel + 1) .value depth (.scalar d :: text) =
      scanUnsigned limits false (.scalar d :: text) := by
  have hne (c : Char) (hc : c.isDigit = false) : d ≠ c := by
    rintro rfl
    rw [hc] at hd
    cases hd
  rw [scan, scanPlain_digit hd]
  · intro rest h
    exact hne '"' rfl (by simpa using congrArg List.head? h)
  · intro rest h
    exact hne '{' rfl (by simpa using congrArg List.head? h)
  · intro rest h
    exact hne '[' rfl (by simpa using congrArg List.head? h)

theorem scan_sign (limits : Limits) (fuel depth : ℕ) (n : ℤ) {d : Char} (ds : List Char)
    (rest : PyStr) (hd : d.isDigit = true) :
    scan limits (fuel + 1) .value depth (decode (signText n (d :: ds)) ++ rest) =
      scanUnsigned limits (decide (n < 0)) (decode (d :: ds) ++ rest) := by
  unfold signText
  by_cases hn : n < 0
  · rw [if_pos hn, decide_eq_true hn]
    show scanPlain limits (.scalar '-' :: .scalar d :: (decode ds ++ rest)) = _
    exact scanPlain_minus hd
  · rw [if_neg hn, decide_eq_false hn]
    exact scan_digit hd

/-- **A value is read, up to what follows it.** -/
theorem scan_value {limits : Limits} {fuel depth : ℕ} {v : Value} {rest : PyStr} (hv : v.Plain)
    (hfits : Fits limits v) (hrest : Closes rest) :
    scan limits (fuel + 1) .value depth (decode (valueText v) ++ rest) = .ok (ofValue v, rest) := by
  cases v with
  | string s =>
    have htext : decode (valueText (.string s)) ++ rest =
        .scalar '"' :: (decode s ++ .scalar '"' :: rest) := by
      simp [valueText, quoted, decode]
    rw [htext, scan, scanString_plain hv, ofValue]
    dsimp only
    rw [joinPairs_plain]
  | integer n =>
    obtain ⟨d, ds, hds, hd⟩ := natText_head n.natAbs
    have hscan := scan_sign limits fuel depth n ds rest hd
    rw [← hds, scanUnsigned_natText hrest hfits] at hscan
    rw [valueText, hscan, ofValue]
    by_cases hn : n < 0
    · rw [decide_eq_true hn, if_pos rfl]
      congr 3
      omega
    · rw [decide_eq_false hn, if_neg Bool.false_ne_true]
      congr 3
      omega
  | decimal m k =>
    obtain ⟨d, ds, hds, hd⟩ := natText_head (m.natAbs / 10 ^ (k + 1))
    have hscan := scan_sign limits fuel depth m
      (ds ++ '.' :: fixedText (k + 1) (m.natAbs % 10 ^ (k + 1))) rest hd
    have htext : decode (d :: (ds ++ '.' :: fixedText (k + 1) (m.natAbs % 10 ^ (k + 1)))) ++ rest =
        decode (natText (m.natAbs / 10 ^ (k + 1))) ++ .scalar '.' ::
          (decode (fixedText (k + 1) (m.natAbs % 10 ^ (k + 1))) ++ rest) := by
      rw [hds]
      simp [decode]
    rw [htext, scanUnsigned_decimal hrest] at hscan
    rw [valueText, hds, List.cons_append, hscan, ofValue]

/-! ## Objects -/

/-- A value begins with no white space. -/
theorem skipSpace_valueText (v : Value) (rest : PyStr) :
    skipSpace (decode (valueText v) ++ rest) = decode (valueText v) ++ rest := by
  have hsign (n : ℤ) {d : Char} {ds : List Char} (hd : d.isDigit = true) :
      skipSpace (decode (signText n (d :: ds)) ++ rest) =
        decode (signText n (d :: ds)) ++ rest := by
    unfold signText
    split
    · exact skipSpace_cons rfl _
    · exact skipSpace_cons (isJsonSpace_digit hd) _
  cases v with
  | string s => exact skipSpace_cons rfl _
  | integer n =>
    obtain ⟨d, ds, hds, hd⟩ := natText_head n.natAbs
    rw [valueText, hds]
    exact hsign n hd
  | decimal m k =>
    obtain ⟨d, ds, hds, hd⟩ := natText_head (m.natAbs / 10 ^ (k + 1))
    rw [valueText, hds]
    exact hsign m hd

/-- The rest of an object, up to its end. -/
def closing (o : Object) (rest : PyStr) : PyStr :=
  decode (tailText o) ++ .scalar '}' :: rest

theorem closes_closing (o : Object) (rest : PyStr) : Closes (closing o rest) := by
  cases o with
  | nil =>
    refine ⟨fun c hc => ?_, by simp [closing, decode, tailText],
      by simp [closing, decode, tailText]⟩
    cases hc
    rfl
  | cons m o =>
    refine ⟨fun c hc => ?_, by simp [closing, decode, tailText],
      by simp [closing, decode, tailText]⟩
    cases hc
    rfl

/-- The members are stored one after the other. -/
def stored (read : List (PyStr × PyValue)) (o : Object) : List (PyStr × PyValue) :=
  (ofObject o).foldl (fun read m => setMember read m.1 m.2) read

/-- A key, its value, and what follows. -/
theorem scan_key {limits : Limits} {fuel depth : ℕ} {read : List (PyStr × PyValue)}
    {key : List Char} {text : PyStr} (hkey : PlainString key) :
    scan limits (fuel + 1) (.members read) depth
        (.scalar '"' :: (decode key ++ .scalar '"' :: .scalar ':' :: text)) =
      match scan limits fuel .value depth (skipSpace text) with
      | .error e => .error e
      | .ok (value, rest) =>
          match skipSpace rest with
          | .scalar '}' :: rest => .ok (.dict (setMember read (decode key) value), rest)
          | .scalar ',' :: rest =>
              scan limits fuel (.members (setMember read (decode key) value)) depth
                (skipSpace rest)
          | _ => .error .jsonDecode := by
  rw [scan, scanString_plain hkey]
  dsimp only
  rw [skipSpace_cons (c := ':') rfl, joinPairs_plain]
  rfl

/-- What follows the brace of an object. -/
theorem scan_brace (limits : Limits) (fuel depth : ℕ) (text : PyStr) :
    scan limits (fuel + 1) .value (depth + 1) (.scalar '{' :: text) =
      match skipSpace text with
      | .scalar '}' :: rest => .ok (.dict [], rest)
      | rest => scan limits fuel (.members []) depth rest := rfl

theorem scan_members {limits : Limits} (depth : ℕ) (rest : PyStr) :
    ∀ {fuel : ℕ} {o : Object} {m : List Char × Value} (read : List (PyStr × PyValue)),
      Plain (m :: o) → (∀ x ∈ m :: o, Fits limits x.2) → o.length + 2 ≤ fuel →
      scan limits fuel (.members read) depth (decode (memberText m) ++ closing o rest) =
        .ok (.dict (stored read (m :: o)), rest) := by
  intro fuel
  induction fuel with
  | zero => nofun
  | succ fuel ih =>
    intro o m read hplain hfits hfuel
    obtain ⟨key, v⟩ := m
    obtain ⟨hkey, hv⟩ := hplain (key, v) List.mem_cons_self
    have htext : decode (memberText (key, v)) ++ closing o rest =
        .scalar '"' :: (decode key ++ .scalar '"' :: .scalar ':' ::
          (decode (valueText v) ++ closing o rest)) := by
      simp [memberText, quoted, decode]
    have hvalue : scan limits fuel .value depth (decode (valueText v) ++ closing o rest) =
        .ok (ofValue v, closing o rest) := by
      obtain ⟨f, rfl⟩ := Nat.exists_eq_add_of_le' (Nat.le_trans (show 1 ≤ o.length + 1 by omega)
        (Nat.le_of_succ_le_succ hfuel))
      exact scan_value hv (hfits (key, v) List.mem_cons_self) (closes_closing o rest)
    rw [htext, scan_key hkey, skipSpace_valueText, hvalue]
    dsimp only
    cases o with
    | nil =>
      have hclosing : closing [] rest = .scalar '}' :: rest := rfl
      rw [hclosing, skipSpace_cons (c := '}') rfl]
      rfl
    | cons next o =>
      have hclosing : closing (next :: o) rest =
          .scalar ',' :: (decode (memberText next) ++ closing o rest) := by
        simp [closing, tailText, decode]
      have hquote : skipSpace (decode (memberText next) ++ closing o rest) =
          decode (memberText next) ++ closing o rest := skipSpace_cons (c := '"') rfl _
      have hnext := @ih o next (setMember read (decode key) (ofValue v))
        (fun x hx => hplain x (List.mem_cons_of_mem _ hx))
        (fun x hx => hfits x (List.mem_cons_of_mem _ hx)) (by
          rw [List.length_cons] at hfuel
          omega)
      rw [hclosing, skipSpace_cons (c := ',') rfl]
      show scan limits fuel (.members (setMember read (decode key) (ofValue v))) depth
        (skipSpace (decode (memberText next) ++ closing o rest)) = _
      rw [hquote, hnext]
      rfl

theorem stored_eq {o : Object} :
    ∀ {read : List (PyStr × PyValue)}, (o.map Prod.fst).Nodup →
      (∀ m ∈ o, ∀ x ∈ read, x.1 ≠ decode m.1) → stored read o = read ++ ofObject o := by
  induction o with
  | nil =>
    intro read _ _
    exact (List.append_nil read).symm
  | cons m o ih =>
    intro read hnodup hnew
    rw [List.map_cons, List.nodup_cons] at hnodup
    have habsent : (read.any fun x => x.1 = decode m.1) = false := by
      rw [List.any_eq_false]
      intro x hx
      simpa using hnew m List.mem_cons_self x hx
    have hset : setMember read (decode m.1) (ofValue m.2) =
        read ++ [(decode m.1, ofValue m.2)] := by
      unfold setMember
      rw [habsent]
      rfl
    have hrest := @ih (read ++ [(decode m.1, ofValue m.2)]) hnodup.2 (by
      intro n hn x hx
      rcases List.mem_append.mp hx with hx | hx
      · exact hnew n (List.mem_cons_of_mem _ hn) x hx
      · rw [List.mem_singleton.mp hx]
        intro heq
        refine hnodup.1 ?_
        rw [decode_injective heq]
        exact List.mem_map_of_mem hn)
    show stored (setMember read (decode m.1) (ofValue m.2)) o = _
    rw [hset, hrest, List.append_assoc]
    rfl

/-- **`json.loads` reads the compact text of a flat object as that object**, whatever white space
follows. -/
theorem loads_render {limits : Limits} {o : Object} (tail : PyStr) (ho : Plain o)
    (hkeys : (o.map Prod.fst).Nodup) (hfits : ∀ m ∈ o, Fits limits m.2)
    (hdepth : 0 < limits.depth) (htail : ∀ c ∈ tail, isJsonSpace c = true) :
    loads limits (decode (render o) ++ tail) = .ok (.dict (ofObject o)) := by
  obtain ⟨depth, hdepth⟩ := Nat.exists_eq_add_of_le' hdepth
  have hskip : skipSpace tail = [] := List.dropWhile_eq_nil_iff.mpr htail
  have hscan : ∀ fuel, o.length + 2 ≤ fuel →
      scan limits (fuel + 1) .value limits.depth (decode (render o) ++ tail) =
        .ok (.dict (ofObject o), tail) := by
    intro fuel hfuel
    rw [hdepth]
    cases o with
    | nil => rfl
    | cons m o =>
      have htext : decode (render (m :: o)) ++ tail =
          .scalar '{' :: (decode (memberText m) ++ closing o tail) := by
        simp [render, closing, decode]
      have hmembers := scan_members depth tail [] ho hfits
        (Nat.le_of_succ_le hfuel)
      rw [stored_eq hkeys fun _ _ _ h => absurd h List.not_mem_nil, List.nil_append] at hmembers
      have hquote : skipSpace (decode (memberText m) ++ closing o tail) =
          decode (memberText m) ++ closing o tail := skipSpace_cons (c := '"') rfl _
      rw [htext, scan_brace, hquote]
      exact hmembers
  have hbrace : ∃ text, decode (render o) ++ tail = .scalar '{' :: text := by
    cases o <;> exact ⟨_, rfl⟩
  obtain ⟨text, htext⟩ := hbrace
  have hlength : o.length + 2 ≤ 2 * (decode (render o) ++ tail).length := by
    have hle : o.length + 1 ≤ (render o).length := by
      cases o with
      | nil => decide
      | cons m o =>
        have hrest := length_le_length_tailText o
        simp only [render, List.length_cons, List.length_append]
        omega
    rw [List.length_append, decode, List.length_map]
    omega
  have hread := hscan _ hlength
  unfold loads
  have hmark : (decode (render o) ++ tail).head? ≠ some (.scalar '\uFEFF') := by
    rw [htext, List.head?_cons]
    decide
  rw [if_neg hmark, htext, skipSpace_cons (c := '{') rfl, ← htext, hread]
  exact if_pos hskip

/-! ## What an object is read from -/

theorem skipSpace_suffix (text : PyStr) : skipSpace text <:+ text := List.dropWhile_suffix _

theorem suffix_of_scanString {text rest : PyStr} {s : List (CodePoint × Bool)}
    (h : scanString text = some (s, rest)) : rest <:+ text := by
  induction text using scanString.induct generalizing s rest with
  | case1 => simp [scanString] at h
  | case2 rest' =>
    simp only [scanString, Option.some.injEq, Prod.mk.injEq] at h
    rw [← h.2]
    exact List.suffix_cons _ _
  | case3 a b c d rest' ih =>
    simp only [scanString, Option.bind_eq_bind, Option.pure_def, Option.bind_eq_some_iff] at h
    obtain ⟨_, _, ⟨s', rest''⟩, hrest, heq⟩ := h
    cases heq
    exact (ih hrest).trans (List.suffix_append [_, _, a, b, c, d] rest')
  | case4 c rest' hc ih =>
    simp only [scanString, Option.bind_eq_bind, Option.pure_def, Option.bind_eq_some_iff] at h
    obtain ⟨_, _, ⟨s', rest''⟩, hrest, heq⟩ := h
    cases heq
    exact (ih hrest).trans (List.suffix_append [_, c] rest')
  | case5 c rest' _ _ _ hcontrol => simp [scanString, hcontrol] at h
  | case6 c rest' _ _ _ hcontrol ih =>
    simp only [scanString, hcontrol, Bool.false_eq_true, if_false, Option.bind_eq_bind,
      Option.pure_def, Option.bind_eq_some_iff] at h
    obtain ⟨⟨s', rest''⟩, hrest, heq⟩ := h
    cases heq
    exact (ih hrest).trans (List.suffix_cons _ _)

theorem suffix_of_afterWord {word : String} {text rest : PyStr}
    (h : afterWord word text = some rest) : rest <:+ text := by
  unfold afterWord at h
  split_ifs at h
  cases h
  exact List.drop_suffix _ _

theorem suffix_of_integerPart {text digits rest : PyStr}
    (h : integerPart text = some (digits, rest)) : rest <:+ text := by
  unfold integerPart at h
  split at h
  · cases h
    exact List.suffix_cons _ _
  · split_ifs at h
    cases h
    exact List.dropWhile_suffix _
  · cases h

theorem fraction_suffix (text : PyStr) : (fraction text).getD text <:+ text := by
  unfold fraction
  split
  · next c rest =>
    split_ifs
    · exact (List.dropWhile_suffix _).trans (List.suffix_append [_, c] rest)
    · exact List.suffix_refl _
  · exact List.suffix_refl _

theorem exponent_suffix (text : PyStr) : (exponent text).getD text <:+ text := by
  unfold exponent
  split
  · next e sign c rest =>
    split_ifs
    · exact (List.dropWhile_suffix _).trans (List.suffix_append [_, sign] (c :: rest))
    · exact (List.dropWhile_suffix _).trans (List.suffix_append [_, sign, c] rest)
    · exact List.suffix_refl _
    · exact List.suffix_refl _
  · split_ifs
    · exact List.nil_suffix
    · exact List.suffix_refl _
  · exact List.suffix_refl _

theorem suffix_of_scanUnsigned {limits : Limits} {negative : Bool} {text rest : PyStr}
    {value : PyValue} (h : scanUnsigned limits negative text = .ok (value, rest)) :
    rest <:+ text ∧ ∀ members, value ≠ .dict members := by
  unfold scanUnsigned at h
  split at h
  · cases h
  · next digits rest' hpart =>
    have hsuffix := suffix_of_integerPart hpart
    dsimp only at h
    by_cases hfloat : (fraction rest').isSome || (exponent ((fraction rest').getD rest')).isSome
    · rw [if_pos hfloat] at h
      cases h
      exact ⟨(exponent_suffix _).trans ((fraction_suffix _).trans hsuffix), by nofun⟩
    · rw [if_neg hfloat] at h
      by_cases hdigits : 0 < limits.intDigits ∧ limits.intDigits < digits.length
      · rw [if_pos hdigits] at h
        cases h
      · rw [if_neg hdigits] at h
        cases h
        exact ⟨hsuffix, by nofun⟩

theorem suffix_of_scanPlain {limits : Limits} {text rest : PyStr} {value : PyValue}
    (h : scanPlain limits text = .ok (value, rest)) :
    rest <:+ text ∧ ∀ members, value ≠ .dict members := by
  unfold scanPlain at h
  split at h
  · next hword => cases h; exact ⟨suffix_of_afterWord hword, by nofun⟩
  · next hword _ => cases h; exact ⟨suffix_of_afterWord hword, by nofun⟩
  · next hword _ _ => cases h; exact ⟨suffix_of_afterWord hword, by nofun⟩
  · next hword _ _ _ => cases h; exact ⟨suffix_of_afterWord hword, by nofun⟩
  · next hword _ _ _ _ => cases h; exact ⟨suffix_of_afterWord hword, by nofun⟩
  · next hword _ _ _ _ _ => cases h; exact ⟨suffix_of_afterWord hword, by nofun⟩
  · split at h
    · obtain ⟨hsuffix, hvalue⟩ := suffix_of_scanUnsigned h
      exact ⟨hsuffix.trans (List.suffix_cons _ _), hvalue⟩
    · exact suffix_of_scanUnsigned h

/-- What a scan leaves, and what it has passed if it gives an object. -/
structure Passed (goal : Goal) (text : PyStr) (value : PyValue) (rest : PyStr) : Prop where
  suffix : rest <:+ text
  closed : ∀ members, value = .dict members → .scalar '}' ∈ text
  opened : ∀ members, value = .dict members →
    match goal with
    | .value => text.head? = some (.scalar '{')
    | .items _ => False
    | .members _ => True

/-- A value that is no object. -/
theorem Passed.of_other {goal : Goal} {text rest : PyStr} {value : PyValue}
    (hsuffix : rest <:+ text) (hvalue : ∀ members, value ≠ .dict members) :
    Passed goal text value rest :=
  ⟨hsuffix, fun members h => absurd h (hvalue members),
    fun members h => absurd h (hvalue members)⟩

theorem passed_of_scan {limits : Limits} {fuel : ℕ} {goal : Goal} {depth : ℕ} {text rest : PyStr}
    {value : PyValue} (h : scan limits fuel goal depth text = .ok (value, rest)) :
    Passed goal text value rest := by
  induction fuel generalizing goal depth text rest value with
  | zero => cases h
  | succ fuel ih =>
    cases goal with
    | value =>
      unfold scan at h
      split at h
      · next rest' =>
        split at h
        · next hstring =>
          cases h
          exact .of_other ((suffix_of_scanString hstring).trans (List.suffix_cons _ _))
            fun _ h => by cases h
        · cases h
      · next rest' =>
        have hopened := (skipSpace_suffix rest').trans (List.suffix_cons (.scalar '{') rest')
        split at h
        · cases h
        · split at h
          · next hskip =>
            cases h
            rw [hskip] at hopened
            exact ⟨(List.suffix_cons _ _).trans hopened,
              fun _ _ => hopened.subset List.mem_cons_self, fun _ _ => rfl⟩
          · have hmembers := ih h
            exact ⟨hmembers.suffix.trans hopened,
              fun members hvalue => hopened.subset (hmembers.closed members hvalue),
              fun _ _ => rfl⟩
      · next rest' =>
        have hopened := (skipSpace_suffix rest').trans (List.suffix_cons (.scalar '[') rest')
        split at h
        · cases h
        · split at h
          · next hskip =>
            cases h
            rw [hskip] at hopened
            exact .of_other ((List.suffix_cons _ _).trans hopened) fun _ h => by cases h
          · have hitems := ih h
            exact ⟨hitems.suffix.trans hopened,
              fun members hvalue => hopened.subset (hitems.closed members hvalue),
              fun members hvalue => (hitems.opened members hvalue).elim⟩
      · obtain ⟨hsuffix, hvalue⟩ := suffix_of_scanPlain h
        exact .of_other hsuffix hvalue
    | items read =>
      unfold scan at h
      split at h
      · cases h
      · next item rest' hitem =>
        have hskipped := (skipSpace_suffix rest').trans (ih hitem).suffix
        split at h
        · next hskip =>
          cases h
          rw [hskip] at hskipped
          exact .of_other ((List.suffix_cons _ _).trans hskipped) fun _ h => by cases h
        · next after hskip =>
          rw [hskip] at hskipped
          have hafter := (skipSpace_suffix after).trans ((List.suffix_cons _ _).trans hskipped)
          have hitems := ih h
          exact ⟨hitems.suffix.trans hafter,
            fun members hvalue => hafter.subset (hitems.closed members hvalue),
            hitems.opened⟩
        · cases h
    | members read =>
      unfold scan at h
      split at h
      · next afterQuote =>
        split at h
        · cases h
        · next key afterKey hkey =>
          have hkeySuffix := (skipSpace_suffix afterKey).trans
            ((suffix_of_scanString hkey).trans (List.suffix_cons (.scalar '"') afterQuote))
          split at h
          · next afterColon hcolon =>
            rw [hcolon] at hkeySuffix
            have hvalueSuffix := (skipSpace_suffix afterColon).trans
              ((List.suffix_cons _ _).trans hkeySuffix)
            split at h
            · cases h
            · next member rest' hmember =>
              have hskipped := (skipSpace_suffix rest').trans
                ((ih hmember).suffix.trans hvalueSuffix)
              split at h
              · next hskip =>
                cases h
                rw [hskip] at hskipped
                exact ⟨(List.suffix_cons _ _).trans hskipped,
                  fun _ _ => hskipped.subset List.mem_cons_self, fun _ _ => trivial⟩
              · next after hskip =>
                rw [hskip] at hskipped
                have hafter := (skipSpace_suffix after).trans
                  ((List.suffix_cons _ _).trans hskipped)
                have hmembers := ih h
                exact ⟨hmembers.suffix.trans hafter,
                  fun members hvalue => hafter.subset (hmembers.closed members hvalue),
                  fun _ _ => trivial⟩
              · cases h
          · cases h
      · cases h

/-- **An object is only read from a text that begins with `{`, after white space, and has a
`}`.** -/
theorem braces_of_loads {limits : Limits} {text : PyStr} {members : List (PyStr × PyValue)}
    (h : loads limits text = .ok (.dict members)) :
    (skipSpace text).head? = some (.scalar '{') ∧ .scalar '}' ∈ text := by
  unfold loads at h
  split at h
  · cases h
  · split at h
    · cases h
    · next value rest hscan =>
      split at h
      · obtain rfl : value = .dict members := by simpa using h
        have hpassed := passed_of_scan hscan
        exact ⟨hpassed.opened members rfl,
          (skipSpace_suffix text).subset (hpassed.closed members rfl)⟩
      · cases h

/-- A text without braces. -/
def Unbraced (text : List Char) : Prop := ∀ c ∈ text, c ≠ '{' ∧ c ≠ '}'

instance (text : List Char) : Decidable (Unbraced text) :=
  List.decidableBAll (fun c : Char => c ≠ '{' ∧ c ≠ '}') text

theorem unbraced_append {a b : List Char} : Unbraced (a ++ b) ↔ Unbraced a ∧ Unbraced b := by
  simp only [Unbraced, List.forall_mem_append]

/-- Values and keys without braces. -/
def UnbracedMember (m : List Char × Value) : Prop := Unbraced m.1 ∧ Unbraced (valueText m.2)

instance (m : List Char × Value) : Decidable (UnbracedMember m) :=
  inferInstanceAs (Decidable (Unbraced m.1 ∧ Unbraced (valueText m.2)))

theorem unbraced_memberText {m : List Char × Value} (h : UnbracedMember m) :
    Unbraced (memberText m) := by
  unfold memberText quoted
  intro c hc
  simp only [List.cons_append, List.append_assoc, List.nil_append, List.mem_cons,
    List.mem_append] at hc
  rcases hc with rfl | hc | rfl | rfl | hc
  · decide
  · exact h.1 c hc
  · decide
  · decide
  · exact h.2 c hc

theorem unbraced_tailText {o : Object} (h : ∀ m ∈ o, UnbracedMember m) : Unbraced (tailText o) := by
  induction o with
  | nil => nofun
  | cons m o ih =>
    intro c hc
    rcases List.mem_cons.mp hc with rfl | hc
    · decide
    · rcases List.mem_append.mp hc with hc | hc
      · exact unbraced_memberText (h m List.mem_cons_self) c hc
      · exact ih (fun x hx => h x (List.mem_cons_of_mem _ hx)) c hc

theorem mem_of_scalar_mem_decode {c : Char} {text : List Char} (h : .scalar c ∈ decode text) :
    c ∈ text := by
  obtain ⟨d, hd, heq⟩ := List.mem_map.mp h
  cases heq
  exact hd

/-- **A part of a line that is read as an object is the whole of it**, up to what follows the object
in the line. -/
theorem whole_of_fragment {limits : Limits} {o : Object} {fragment tail : List Char}
    {members : List (PyStr × PyValue)} (ho : ∀ m ∈ o, UnbracedMember m) (htail : Unbraced tail)
    (hfragment : fragment <:+: render o ++ tail)
    (hload : loads limits (decode fragment) = .ok (.dict members)) :
    ∃ rest, fragment = render o ++ rest ∧ rest <+: tail := by
  obtain ⟨hopen, hclose⟩ := braces_of_loads hload
  have hopened : '{' ∈ fragment := by
    refine mem_of_scalar_mem_decode ((skipSpace_suffix (decode fragment)).subset ?_)
    exact List.mem_of_mem_head? hopen
  have hclosed := mem_of_scalar_mem_decode hclose
  obtain ⟨body, hbody, hrender⟩ : ∃ body, Unbraced body ∧ render o = '{' :: (body ++ ['}']) := by
    cases o with
    | nil => exact ⟨[], by nofun, rfl⟩
    | cons m o =>
      refine ⟨memberText m ++ tailText o, unbraced_append.mpr ⟨?_, ?_⟩, ?_⟩
      · exact unbraced_memberText (ho m List.mem_cons_self)
      · exact unbraced_tailText fun x hx => ho x (List.mem_cons_of_mem _ hx)
      · simp [render]
  obtain ⟨before, after, heq⟩ := hfragment
  -- Nothing is missing at the beginning: the only opening brace is the first character.
  obtain rfl : before = [] := by
    cases before with
    | nil => rfl
    | cons c before =>
      rw [hrender, List.cons_append, List.cons_append, List.cons_append] at heq
      have hrest := (List.cons.inj heq).2
      have hmem : '{' ∈ body ++ ['}'] ++ tail := by
        rw [← hrest]
        exact List.mem_append_left _ (List.mem_append_right _ hopened)
      rcases List.mem_append.mp hmem with hmem | hmem
      · rcases List.mem_append.mp hmem with hmem | hmem
        · exact absurd rfl (hbody _ hmem).1
        · exact absurd (List.mem_singleton.mp hmem) (by decide)
      · exact absurd rfl (htail _ hmem).1
  rw [List.nil_append] at heq
  -- Nor at the end of the object: the only closing brace is its last character.
  rcases List.append_eq_append_iff.mp heq with ⟨missing, hwhole, -⟩ | ⟨rest, hwhole, hrest⟩
  · rcases List.eq_nil_or_concat missing with rfl | ⟨missing, c, rfl⟩
    · refine ⟨[], ?_, List.nil_prefix⟩
      rw [List.append_nil] at hwhole ⊢
      exact hwhole.symm
    · rw [hrender, ← List.cons_append, List.concat_eq_append, ← List.append_assoc] at hwhole
      have hinit := List.append_inj_left' hwhole rfl
      have hmem : '}' ∈ '{' :: body := by
        rw [hinit]
        exact List.mem_append_left _ hclosed
      rcases List.mem_cons.mp hmem with hmem | hmem
      · exact absurd hmem (by decide)
      · exact absurd rfl (hbody _ hmem).2
  · exact ⟨rest, hwhole, ⟨after, hrest.symm⟩⟩

end PyJson
