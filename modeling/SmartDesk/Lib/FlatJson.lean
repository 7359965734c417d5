import Mathlib.Data.Nat.Basic
import Mathlib.Data.Int.Basic
import Mathlib.Tactic.Ring
import Mathlib.Tactic.Linarith

/-!
# Flat JSON objects as compact text

The fragment of JSON that small control messages live in: one object whose
members are strings, integers and decimal fractions, written without blanks and
without escapes.

* `Value`, `Object` — the values; a decimal carries its mantissa and the number
  of digits after the point, so `80.0` and `80.00` are different texts.
* `render` — the compact text, members in order.
* `parse` — a reader for the same fragment.
* `parse_render` — **round trip**: reading what was written gives the object
  back, provided no string needs an escape (`Plain`).
* `length_natText_le` — how long the text of a number is.
-/

namespace FlatJson

/-- A member value.  `decimal mantissa scale` is the number
`mantissa / 10 ^ (scale + 1)`: there is always a digit after the point. -/
inductive Value where
  | string (s : List Char)
  | integer (n : ℤ)
  | decimal (mantissa : ℤ) (scale : ℕ)
  deriving DecidableEq

/-- An object: its members in the order they are written. -/
abbrev Object := List (List Char × Value)

/-! ## Writing -/

/-- The decimal digits of a natural number. -/
def natText (n : ℕ) : List Char := Nat.toDigits 10 n

/-- The last `width` decimal digits of `n`, padded with zeros. -/
def fixedText : ℕ → ℕ → List Char
  | 0, _ => []
  | width + 1, n => fixedText width (n / 10) ++ [(n % 10).digitChar]

/-- A minus sign in front of the text of a negative number. -/
def signText (n : ℤ) (text : List Char) : List Char := if n < 0 then '-' :: text else text

/-- A string between quotes. -/
def quoted (s : List Char) : List Char := '"' :: (s ++ ['"'])

/-- The text of a value. -/
def valueText : Value → List Char
  | .string s => quoted s
  | .integer n => signText n (natText n.natAbs)
  | .decimal m k =>
      signText m (natText (m.natAbs / 10 ^ (k + 1)) ++
        '.' :: fixedText (k + 1) (m.natAbs % 10 ^ (k + 1)))

/-- One member, `"key":value`. -/
def memberText (member : List Char × Value) : List Char :=
  quoted member.1 ++ ':' :: valueText member.2

/-- The members after the first, each behind its comma. -/
def tailText : Object → List Char
  | [] => []
  | member :: rest => ',' :: (memberText member ++ tailText rest)

/-- The compact text of an object. -/
def render : Object → List Char
  | [] => ['{', '}']
  | member :: rest => '{' :: (memberText member ++ tailText rest ++ ['}'])

/-! ## Reading -/

/-- A quoted string without escapes. -/
def readQuoted : List Char → Option (List Char × List Char)
  | '"' :: rest =>
      match rest.dropWhile (fun c => c ≠ '"' ∧ c ≠ '\\') with
      | '"' :: after => some (rest.takeWhile (fun c => c ≠ '"' ∧ c ≠ '\\'), after)
      | _ => none
  | _ => none

/-- A non-empty run of digits. -/
def readDigits (text : List Char) : Option (List Char × List Char) :=
  match text.takeWhile Char.isDigit with
  | [] => none
  | ds => some (ds, text.dropWhile Char.isDigit)

/-- The value of a run of digits. -/
def digitsValue (ds : List Char) : ℕ := Nat.ofDigitChars 10 ds 0

/-- A number: an integer, or a decimal when a point follows. -/
def readNumber (sign : ℤ) (text : List Char) : Option (Value × List Char) :=
  match readDigits text with
  | none => none
  | some (whole, '.' :: rest) =>
      match readDigits rest with
      | none => none
      | some (fraction, rest) =>
          some (.decimal (sign * (digitsValue whole * 10 ^ fraction.length +
            digitsValue fraction : ℕ)) (fraction.length - 1), rest)
  | some (whole, rest) => some (.integer (sign * (digitsValue whole : ℕ)), rest)

/-- A member value. -/
def readValue : List Char → Option (Value × List Char)
  | '"' :: rest => (readQuoted ('"' :: rest)).map fun r => (.string r.1, r.2)
  | '-' :: rest => readNumber (-1) rest
  | text => readNumber 1 text

/-- One member. -/
def readMember (text : List Char) : Option ((List Char × Value) × List Char) :=
  match readQuoted text with
  | some (key, ':' :: rest) => (readValue rest).map fun r => ((key, r.1), r.2)
  | _ => none

/-- The members after the first, up to the closing brace and the end of the
text; `fuel` bounds their number. -/
def readTail : ℕ → List Char → Option Object
  | _, ['}'] => some []
  | fuel + 1, ',' :: rest =>
      match readMember rest with
      | some (member, rest) => (readTail fuel rest).map (member :: ·)
      | none => none
  | _, _ => none

/-- Read a whole text as one flat object. -/
def parse : List Char → Option Object
  | ['{', '}'] => some []
  | '{' :: rest =>
      match readMember rest with
      | some (member, after) => (readTail after.length after).map (member :: ·)
      | none => none
  | _ => none

/-! ## What can be written without escapes -/

/-- A string that JSON writes between quotes as it stands: no quote, no
backslash, no control character. -/
def PlainString (s : List Char) : Prop := ∀ c ∈ s, c ≠ '"' ∧ c ≠ '\\' ∧ 32 ≤ c.toNat

/-- Values none of whose strings needs an escape. -/
def Value.Plain : Value → Prop
  | .string s => PlainString s
  | _ => True

/-- Objects none of whose strings needs an escape. -/
def Plain (o : Object) : Prop := ∀ m ∈ o, PlainString m.1 ∧ m.2.Plain

instance (s : List Char) : Decidable (PlainString s) :=
  List.decidableBAll (fun c : Char => c ≠ '"' ∧ c ≠ '\\' ∧ 32 ≤ c.toNat) s

instance : (v : Value) → Decidable v.Plain
  | .string s => inferInstanceAs (Decidable (PlainString s))
  | .integer _ => isTrue trivial
  | .decimal _ _ => isTrue trivial

instance (o : Object) : Decidable (Plain o) :=
  List.decidableBAll (fun m : List Char × Value => PlainString m.1 ∧ m.2.Plain) o

/-! ## Digits -/

/-- The text that follows a number never starts with a digit. -/
def NoDigitHead (rest : List Char) : Prop := ∀ c ∈ rest.head?, c.isDigit = false

theorem takeWhile_append_stop {p : Char → Bool} {xs : List Char} (rest : List Char) (hx : ∀ c ∈ xs, p c = true)
    (hr : ∀ c ∈ rest.head?, p c = false) :
    (xs ++ rest).takeWhile p = xs ∧ (xs ++ rest).dropWhile p = rest := by
  rw [List.takeWhile_append_of_pos hx, List.dropWhile_append_of_pos hx]
  cases rest with
  | nil => simp
  | cons c rest => simp [hr c rfl]

theorem isDigit_of_mem_natText {n : ℕ} {c : Char} (h : c ∈ natText n) : c.isDigit = true :=
  Nat.isDigit_of_mem_toDigits (by decide) (by decide) h

theorem natText_ne_nil (n : ℕ) : natText n ≠ [] := Nat.toDigits_ne_nil

theorem digitsValue_natText (n : ℕ) : digitsValue (natText n) = n := Nat.ofDigitChars_ten_toDigits

/-- A number below `10 ^ k` has at most `k` digits. -/
theorem length_natText_le {n k : ℕ} (hk : 0 < k) (h : n < 10 ^ k) : (natText n).length ≤ k :=
  (Nat.length_toDigits_le_iff (by decide) hk).mpr h

@[simp] theorem length_fixedText (width n : ℕ) : (fixedText width n).length = width := by
  induction width generalizing n with
  | zero => rfl
  | succ width ih => simp [fixedText, ih]

theorem isDigit_of_mem_fixedText {width n : ℕ} {c : Char} (h : c ∈ fixedText width n) :
    c.isDigit = true := by
  induction width generalizing n with
  | zero => simp [fixedText] at h
  | succ width ih =>
    rw [fixedText, List.mem_append, List.mem_singleton] at h
    rcases h with h | rfl
    · exact ih h
    · simp [Nat.isDigit_digitChar, Nat.mod_lt]

theorem plainString_cons {c : Char} {s : List Char} :
    PlainString (c :: s) ↔ (c ≠ '"' ∧ c ≠ '\\' ∧ 32 ≤ c.toNat) ∧ PlainString s :=
  List.forall_mem_cons

theorem plainString_append {a b : List Char} :
    PlainString (a ++ b) ↔ PlainString a ∧ PlainString b := List.forall_mem_append

theorem plainString_nil : PlainString [] := by simp [PlainString]

/-- Digits need no escape. -/
theorem plainString_fixedText (width n : ℕ) : PlainString (fixedText width n) := by
  intro c hc
  have hd := isDigit_of_mem_fixedText hc
  refine ⟨?_, ?_, ?_⟩
  · rintro rfl
    simp at hd
  · rintro rfl
    simp at hd
  · simp only [Char.isDigit, Bool.and_eq_true, decide_eq_true_eq] at hd
    have : 48 ≤ c.val.toNat := hd.1
    exact le_trans (by decide) this

theorem digitsValue_append_digit (ds : List Char) {d : ℕ} (hd : d < 10) :
    digitsValue (ds ++ [d.digitChar]) = 10 * digitsValue ds + d := by
  rw [digitsValue, Nat.ofDigitChars_append, Nat.ofDigitChars_cons_digitChar_of_lt_ten hd,
    Nat.ofDigitChars_nil, digitsValue]

theorem digitsValue_fixedText {width n : ℕ} (h : n < 10 ^ width) :
    digitsValue (fixedText width n) = n := by
  induction width generalizing n with
  | zero =>
    have : n = 0 := by simpa using h
    simp [fixedText, digitsValue, this]
  | succ width ih =>
    have hdiv : n / 10 < 10 ^ width := by rw [pow_succ] at h; omega
    rw [fixedText, digitsValue_append_digit _ (Nat.mod_lt _ (by decide)), ih hdiv]
    omega

/-- Numbers that fit have different texts of the same width. -/
theorem fixedText_injective {width n n' : ℕ} (hn : n < 10 ^ width) (hn' : n' < 10 ^ width)
    (h : fixedText width n = fixedText width n') : n = n' := by
  rw [← digitsValue_fixedText hn, h, digitsValue_fixedText hn']

theorem readDigits_append {ds : List Char} (rest : List Char) (hne : ds ≠ []) (hds : ∀ c ∈ ds, c.isDigit = true)
    (hr : NoDigitHead rest) : readDigits (ds ++ rest) = some (ds, rest) := by
  obtain ⟨ht, hd⟩ := takeWhile_append_stop rest hds hr
  rw [readDigits, ht, hd]
  cases ds with
  | nil => exact absurd rfl hne
  | cons d ds => rfl

/-! ## Round trip -/

theorem readQuoted_quoted {s : List Char} (hs : PlainString s) (rest : List Char) :
    readQuoted (quoted s ++ rest) = some (s, rest) := by
  have hp : ∀ c ∈ s, decide (c ≠ '"' ∧ c ≠ '\\') = true := fun c hc =>
    decide_eq_true ⟨(hs c hc).1, (hs c hc).2.1⟩
  obtain ⟨ht, hd⟩ := takeWhile_append_stop ('"' :: rest) hp (by simp)
  rw [quoted, List.cons_append, List.append_assoc, List.singleton_append, readQuoted]
  simp only [ht, hd]

/-- A reader that is handed the text of a number, and nothing that continues it,
returns the number. -/
theorem readNumber_natText (sign : ℤ) (n : ℕ) {rest : List Char} (hr : NoDigitHead rest)
    (hdot : rest.head? ≠ some '.') :
    readNumber sign (natText n ++ rest) = some (.integer (sign * n), rest) := by
  rw [readNumber, readDigits_append rest (natText_ne_nil n) (fun _ => isDigit_of_mem_natText) hr]
  cases rest with
  | nil => simp [digitsValue_natText]
  | cons c rest =>
    have hc : c ≠ '.' := fun h => hdot (by rw [h]; rfl)
    split
    · rename_i heq
      simp at heq
    · rename_i heq
      simp only [Option.some.injEq, Prod.mk.injEq, List.cons.injEq] at heq
      exact absurd heq.2.1 hc
    · rename_i heq
      simp only [Option.some.injEq, Prod.mk.injEq] at heq
      obtain ⟨rfl, rfl⟩ := heq
      rw [digitsValue_natText]

theorem readNumber_decimal (sign : ℤ) (n k : ℕ) {rest : List Char} (hr : NoDigitHead rest) :
    readNumber sign (natText (n / 10 ^ (k + 1)) ++
        '.' :: (fixedText (k + 1) (n % 10 ^ (k + 1)) ++ rest))
      = some (.decimal (sign * n) k, rest) := by
  have hlt : n % 10 ^ (k + 1) < 10 ^ (k + 1) := Nat.mod_lt _ (by positivity)
  have hne : fixedText (k + 1) (n % 10 ^ (k + 1)) ≠ [] := by
    intro h
    have := congrArg List.length h
    simp at this
  have hval : n / 10 ^ (k + 1) * 10 ^ (k + 1) + n % 10 ^ (k + 1) = n := by
    rw [mul_comm]
    exact Nat.div_add_mod _ _
  have hfirst := readDigits_append ('.' :: (fixedText (k + 1) (n % 10 ^ (k + 1)) ++ rest))
    (natText_ne_nil (n / 10 ^ (k + 1))) (fun _ => isDigit_of_mem_natText) (by simp [NoDigitHead])
  rw [readNumber, hfirst]
  simp only [readDigits_append rest hne (fun _ => isDigit_of_mem_fixedText) hr, length_fixedText,
    digitsValue_natText, digitsValue_fixedText hlt, hval, Nat.add_sub_cancel]

/-- The first character of a number is a digit. -/
theorem natText_head (n : ℕ) : ∃ d ds, natText n = d :: ds ∧ d.isDigit = true := by
  cases h : natText n with
  | nil => exact absurd h (natText_ne_nil n)
  | cons d ds => exact ⟨d, ds, rfl, isDigit_of_mem_natText (n := n) (by simp [h])⟩

/-- Behind its sign, a number is read by `readNumber`. -/
theorem readValue_signText (n : ℤ) {text rest : List Char} (hhead : ∃ d ds, text = d :: ds ∧
    d.isDigit = true) :
    readValue (signText n text ++ rest) =
      readNumber (if n < 0 then -1 else 1) (text ++ rest) := by
  obtain ⟨d, ds, rfl, hd⟩ := hhead
  by_cases hn : n < 0
  · simp [signText, hn, readValue]
  · have h₁ : d ≠ '"' := by rintro rfl; simp at hd
    have h₂ : d ≠ '-' := by rintro rfl; simp at hd
    simp only [signText, if_neg hn, List.cons_append]
    rw [readValue]
    · simpa using h₁
    · simpa using h₂

theorem sign_mul_natAbs (n : ℤ) : (if n < 0 then -1 else 1) * (n.natAbs : ℤ) = n := by
  split <;> omega

/-- The text after a value starts with neither a digit nor a point. -/
def ValueEnds (rest : List Char) : Prop := NoDigitHead rest ∧ rest.head? ≠ some '.'

theorem readValue_valueText {v : Value} (hv : v.Plain) {rest : List Char} (hr : ValueEnds rest) :
    readValue (valueText v ++ rest) = some (v, rest) := by
  cases v with
  | string s =>
    have h := readQuoted_quoted hv rest
    rw [quoted, List.cons_append] at h
    rw [valueText, quoted, List.cons_append, readValue, h]
    rfl
  | integer n =>
    rw [valueText, readValue_signText n (natText_head _), readNumber_natText _ _ hr.1 hr.2,
      sign_mul_natAbs]
  | decimal m k =>
    obtain ⟨d, ds, hds, hd⟩ := natText_head (m.natAbs / 10 ^ (k + 1))
    have hhead : ∃ d' ds', natText (m.natAbs / 10 ^ (k + 1)) ++
        '.' :: fixedText (k + 1) (m.natAbs % 10 ^ (k + 1)) = d' :: ds' ∧ d'.isDigit = true :=
      ⟨d, _, by rw [hds]; rfl, hd⟩
    rw [valueText, readValue_signText m hhead, List.append_assoc, List.cons_append,
      readNumber_decimal _ _ _ hr.1, sign_mul_natAbs]

theorem readMember_memberText {m : List Char × Value} (hk : PlainString m.1) (hv : m.2.Plain)
    {rest : List Char} (hr : ValueEnds rest) :
    readMember (memberText m ++ rest) = some (m, rest) := by
  rw [readMember, memberText, List.append_assoc, List.cons_append, readQuoted_quoted hk]
  simp only [readValue_valueText hv hr, Option.map_some]

theorem valueEnds_tailText (o : Object) : ValueEnds (tailText o ++ ['}']) := by
  cases o <;> exact ⟨by simp [NoDigitHead, tailText], by simp [tailText]⟩

theorem readTail_tailText {o : Object} (ho : Plain o) {fuel : ℕ} (hf : o.length ≤ fuel) :
    readTail fuel (tailText o ++ ['}']) = some o := by
  induction o generalizing fuel with
  | nil => cases fuel <;> rfl
  | cons m o ih =>
    obtain ⟨fuel, rfl⟩ : ∃ f, fuel = f + 1 := ⟨fuel - 1, by simp at hf; omega⟩
    have hm := ho m (by simp)
    have hrest : readTail fuel (tailText o ++ ['}']) = some o :=
      ih (fun x hx => ho x (by simp [hx])) (by simpa using hf)
    rw [tailText, List.cons_append, List.append_assoc, readTail,
      readMember_memberText hm.1 hm.2 (valueEnds_tailText o)]
    simp [hrest]

theorem length_le_length_tailText (o : Object) : o.length ≤ (tailText o).length := by
  induction o with
  | nil => simp
  | cons m o ih => simp only [tailText, List.length_cons, List.length_append]; omega

/-- **Round trip.**  Reading the text of an object gives the object back. -/
theorem parse_render {o : Object} (ho : Plain o) : parse (render o) = some o := by
  cases o with
  | nil => rfl
  | cons m o =>
    have hm := ho m (by simp)
    have hread := readMember_memberText hm.1 hm.2 (valueEnds_tailText o)
    have hfuel : o.length ≤ (tailText o ++ ['}']).length := by
      rw [List.length_append]
      have := length_le_length_tailText o
      omega
    have htail := readTail_tailText (fun x hx => ho x (by simp [hx])) hfuel
    rw [render, List.append_assoc, parse, hread]
    · simp only [htail, Option.map_some]
    · simp [memberText, quoted]

example : render [("command".toList, .string "STOP".toList)] = "\x7b\"command\":\"STOP\"\x7d".toList := by
  decide

end FlatJson
