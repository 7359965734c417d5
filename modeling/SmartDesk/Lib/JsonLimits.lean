import SmartDesk.Lib.PyJson

/-!
# The limits of `json.loads`

A text exceeds the limits if a value that is nested too deep, or an integer that is too long,
begins in it.  The grammar says where values begin; it knows no limits.

* `Reads`, `Begins` — the values of a text, and the places where they begin.
* `Exceeds` — a condition on a text and the limits.
* `loads_exceeds_iff` — **what is raised besides a `JSONDecodeError`, and for which texts**.
-/

namespace PyJson

open PyText

/-! ## The grammar -/

inductive Bracket where
  | array
  | object

def Bracket.opening : Bracket → CodePoint
  | .array => .scalar '['
  | .object => .scalar '{'

def Bracket.closing : Bracket → CodePoint
  | .array => .scalar ']'
  | .object => .scalar '}'

/-- The places of a text: before a value, or before an item between brackets. -/
inductive Place where
  | value
  | inside (b : Bracket)

/-- A word or a number, with any number of digits. -/
def ReadsPlain (text after : PyStr) : Prop := ∃ value, scanPlain ⟨0, 0⟩ text = .ok (value, after)

/-- The value of an item; a member of an object has a key before it. -/
inductive ItemValue : Bracket → PyStr → PyStr → Prop where
  | array (text : PyStr) : ItemValue .array text text
  | object {rest afterKey afterColon : PyStr} {key : List (CodePoint × Bool)}
      (hkey : scanString rest = some (key, afterKey))
      (hcolon : skipSpace afterKey = .scalar ':' :: afterColon) :
      ItemValue .object (.scalar '"' :: rest) (skipSpace afterColon)

/-- A value, or the items up to the closing bracket, and what follows. -/
inductive Reads : Place → PyStr → PyStr → Prop where
  | string {rest after : PyStr} {s : List (CodePoint × Bool)}
      (hstring : scanString rest = some (s, after)) :
      Reads .value (.scalar '"' :: rest) after
  | plain {text after : PyStr} (hquote : ∀ rest, text ≠ .scalar '"' :: rest)
      (hbracket : ∀ (b : Bracket) rest, text ≠ b.opening :: rest) (hplain : ReadsPlain text after) :
      Reads .value text after
  | empty (b : Bracket) {rest after : PyStr} (hclose : skipSpace rest = b.closing :: after) :
      Reads .value (b.opening :: rest) after
  | items (b : Bracket) {rest after : PyStr} (hopen : ∀ r, skipSpace rest ≠ b.closing :: r)
      (hitems : Reads (.inside b) (skipSpace rest) after) : Reads .value (b.opening :: rest) after
  | last {b : Bracket} {text value rest after : PyStr} (hitem : ItemValue b text value)
      (hvalue : Reads .value value rest) (hclose : skipSpace rest = b.closing :: after) :
      Reads (.inside b) text after
  | next {b : Bracket} {text value rest rest' after : PyStr} (hitem : ItemValue b text value)
      (hvalue : Reads .value value rest) (hcomma : skipSpace rest = .scalar ',' :: rest')
      (hitems : Reads (.inside b) (skipSpace rest') after) : Reads (.inside b) text after

/-- A value begins at `t`, between `n` pairs of brackets, after items that are well formed. -/
inductive Begins : Place → PyStr → ℕ → PyStr → Prop where
  | here (t : PyStr) : Begins .value t 0 t
  | items (b : Bracket) {rest t : PyStr} {n : ℕ} (hopen : ∀ r, skipSpace rest ≠ b.closing :: r)
      (hitems : Begins (.inside b) (skipSpace rest) n t) :
      Begins .value (b.opening :: rest) (n + 1) t
  | item {b : Bracket} {text value t : PyStr} {n : ℕ} (hitem : ItemValue b text value)
      (hvalue : Begins .value value n t) : Begins (.inside b) text n t
  | next {b : Bracket} {text value rest rest' t : PyStr} {n : ℕ} (hitem : ItemValue b text value)
      (hvalue : Reads .value value rest) (hcomma : skipSpace rest = .scalar ',' :: rest')
      (hitems : Begins (.inside b) (skipSpace rest') n t) : Begins (.inside b) text n t

/-! ## The condition -/

/-- A number without its sign. -/
def unsigned : PyStr → PyStr
  | .scalar '-' :: rest => rest
  | text => text

/-- An integer begins the text that has too many digits; no fraction and no exponent follows. -/
def LongInteger (limits : Limits) (text : PyStr) : Prop :=
  ∃ digits rest, integerPart (unsigned text) = some (digits, rest) ∧ fraction rest = none ∧
    exponent rest = none ∧ 0 < limits.intDigits ∧ limits.intDigits < digits.length

/-- An array or an object begins the text. -/
def Opens (text : PyStr) : Prop := ∃ (b : Bracket) (rest : PyStr), text = b.opening :: rest

/-- A value that is nested too deep, or an integer that is too long, begins in the text; a text
that begins with U+FEFF is not read at all. -/
def Exceeds (limits : Limits) (text : PyStr) : Prop :=
  text.head? ≠ some (.scalar '\uFEFF') ∧ ∃ n t, Begins .value (skipSpace text) n t ∧
    ((limits.depth ≤ n ∧ Opens t) ∨ LongInteger limits t)

/-! ## Words and numbers -/

/-- A text that differs from the word. -/
theorem afterWord_eq_none {word : String} {text : PyStr} {i : ℕ} {c : Char}
    (hword : word.toList[i]? = some c) (htext : text[i]? ≠ some (.scalar c)) :
    afterWord word text = none := by
  refine if_neg fun h => htext ?_
  have hlt : i < word.length := by
    rw [← String.length_toList]
    exact (List.getElem?_eq_some_iff.mp hword).1
  have hget := congrArg (·[i]?) h
  simp only [decode, List.getElem?_map, hword, List.getElem?_take_of_lt hlt] at hget
  exact hget

theorem digit_of_integerPart {text digits rest : PyStr}
    (h : integerPart text = some (digits, rest)) :
    ∃ c tail, text = .scalar c :: tail ∧ '0' ≤ c ∧ c ≤ '9' := by
  unfold integerPart at h
  split at h
  · next tail => exact ⟨'0', tail, rfl, by decide, by decide⟩
  · next c tail _ =>
    split at h
    · next hdigit =>
      cases c with
      | surrogate u => cases hdigit
      | scalar c =>
        refine ⟨c, tail, rfl, ?_⟩
        by_contra hnot
        rw [isDigit, digitValue, if_neg hnot] at hdigit
        cases hdigit
    · cases h
  · cases h

theorem unsigned_of_ne {text : PyStr} (h : ∀ rest, text ≠ .scalar '-' :: rest) :
    unsigned text = text := by
  unfold unsigned
  split
  · exact absurd rfl (h _)
  · rfl

/-- No word begins with a digit, or with a minus sign and a digit. -/
theorem scanPlain_of_integerPart {limits : Limits} {text digits rest : PyStr}
    (h : integerPart (unsigned text) = some (digits, rest)) :
    ∃ negative, scanPlain limits text = scanUnsigned limits negative (unsigned text) := by
  obtain ⟨c, tail, htail, hlow, hhigh⟩ := digit_of_integerPart h
  have hne : ∀ letter : Char, ¬ ('0' ≤ letter ∧ letter ≤ '9') →
      some (CodePoint.scalar c) ≠ some (.scalar letter) := by
    rintro letter hletter heq
    cases heq
    exact hletter ⟨hlow, hhigh⟩
  by_cases hminus : ∃ rest', text = .scalar '-' :: rest'
  · obtain ⟨rest', rfl⟩ := hminus
    refine ⟨true, ?_⟩
    have hrest : rest' = .scalar c :: tail := htail
    subst hrest
    unfold scanPlain
    rw [afterWord_eq_none (i := 0) (c := 'n') rfl (by simp),
      afterWord_eq_none (i := 0) (c := 't') rfl (by simp),
      afterWord_eq_none (i := 0) (c := 'f') rfl (by simp),
      afterWord_eq_none (i := 0) (c := 'N') rfl (by simp),
      afterWord_eq_none (i := 0) (c := 'I') rfl (by simp),
      afterWord_eq_none (i := 1) (c := 'I') rfl (hne 'I' (by decide))]
    rfl
  · rw [unsigned_of_ne fun rest' heq => hminus ⟨rest', heq⟩] at htail ⊢
    subst htail
    refine ⟨false, ?_⟩
    unfold scanPlain
    rw [afterWord_eq_none (i := 0) (c := 'n') rfl (hne 'n' (by decide)),
      afterWord_eq_none (i := 0) (c := 't') rfl (hne 't' (by decide)),
      afterWord_eq_none (i := 0) (c := 'f') rfl (hne 'f' (by decide)),
      afterWord_eq_none (i := 0) (c := 'N') rfl (hne 'N' (by decide)),
      afterWord_eq_none (i := 0) (c := 'I') rfl (hne 'I' (by decide)),
      afterWord_eq_none (i := 0) (c := '-') rfl (hne '-' (by decide))]
    dsimp only
    split
    · next rest' heq => exact absurd ⟨rest', heq⟩ hminus
    · rfl

theorem scanPlain_of_long {limits : Limits} {text : PyStr} (h : LongInteger limits text) :
    scanPlain limits text = .error .valueError := by
  obtain ⟨digits, rest, hpart, hfraction, hexponent, hlimit, hlong⟩ := h
  obtain ⟨negative, hplain⟩ := @scanPlain_of_integerPart limits _ _ _ hpart
  rw [hplain]
  simp [scanUnsigned, hpart, hfraction, hexponent, hlimit, hlong]

/-- A number is scanned without a limit as with one that it does not exceed. -/
theorem scanUnsigned_of_not_long {limits : Limits} {negative : Bool} {text : PyStr}
    (h : ∀ digits rest, integerPart text = some (digits, rest) → fraction rest = none →
      exponent rest = none → ¬ (0 < limits.intDigits ∧ limits.intDigits < digits.length)) :
    scanUnsigned limits negative text = scanUnsigned ⟨0, 0⟩ negative text := by
  unfold scanUnsigned
  split
  · rfl
  · next digits rest hpart =>
    dsimp only
    by_cases hfloat : (fraction rest).isSome ∨ (exponent ((fraction rest).getD rest)).isSome
    · rw [if_pos (by simpa using hfloat), if_pos (by simpa using hfloat)]
    · obtain ⟨hfraction, hexponent⟩ := not_or.mp hfloat
      simp only [Option.isSome_iff_ne_none, not_not] at hfraction hexponent
      rw [hfraction, Option.getD_none] at hexponent
      simp [hfraction, hexponent, h digits rest hpart hfraction hexponent]

theorem scanPlain_of_not_long {limits : Limits} {text : PyStr} (h : ¬ LongInteger limits text) :
    scanPlain limits text = scanPlain ⟨0, 0⟩ text := by
  have hnumber : ∀ negative, scanUnsigned limits negative (unsigned text) =
      scanUnsigned ⟨0, 0⟩ negative (unsigned text) := fun negative =>
    scanUnsigned_of_not_long fun digits rest hpart hfraction hexponent hlong =>
      h ⟨digits, rest, hpart, hfraction, hexponent, hlong⟩
  unfold scanPlain
  split
  · rfl
  · rfl
  · rfl
  · rfl
  · rfl
  · rfl
  · split
    · exact hnumber true
    · next hminus =>
      rw [unsigned_of_ne hminus] at hnumber
      exact hnumber false

/-- Without a limit only a `JSONDecodeError` is raised. -/
theorem scanPlain_error {text : PyStr} {e : LoadError} (h : scanPlain ⟨0, 0⟩ text = .error e) :
    e = .jsonDecode := by
  have hnumber : ∀ {negative text}, scanUnsigned ⟨0, 0⟩ negative text = .error e →
      e = .jsonDecode := by
    intro negative text h
    unfold scanUnsigned at h
    split at h
    · cases h
      rfl
    · dsimp only at h
      split at h
      · cases h
      · simp at h
  unfold scanPlain at h
  split at h
  · cases h
  · cases h
  · cases h
  · cases h
  · cases h
  · cases h
  · split at h
    · exact hnumber h
    · exact hnumber h

/-- **A word or a number under limits**: too long, or as without limits. -/
theorem scanPlain_cases (limits : Limits) (text : PyStr) :
    (LongInteger limits text ∧ scanPlain limits text = .error .valueError) ∨
      (¬ LongInteger limits text ∧ scanPlain limits text = .error .jsonDecode) ∨
      ∃ value after, scanPlain limits text = .ok (value, after) ∧ ReadsPlain text after := by
  by_cases hlong : LongInteger limits text
  · exact .inl ⟨hlong, scanPlain_of_long hlong⟩
  · have hsame := scanPlain_of_not_long hlong
    cases hplain : scanPlain ⟨0, 0⟩ text with
    | ok scanned => exact .inr (.inr ⟨scanned.1, scanned.2, hsame.trans hplain, scanned.1, hplain⟩)
    | error e =>
      rw [hplain, scanPlain_error hplain] at hsame
      exact .inr (.inl ⟨hlong, hsame⟩)

/-! ## Values -/

def Goal.place : Goal → Place
  | .value => .value
  | .items _ => .inside .array
  | .members _ => .inside .object

/-- What is begun after an opening bracket. -/
def Bracket.goal : Bracket → Goal
  | .array => .items []
  | .object => .members []

def Bracket.nothing : Bracket → PyValue
  | .array => .list []
  | .object => .dict []

theorem Goal.eq_value {goal : Goal} (h : goal.place = .value) : goal = .value := by
  cases goal with
  | value => rfl
  | items read => cases h
  | members read => cases h

theorem Bracket.place_goal (b : Bracket) : b.goal.place = .inside b := by
  cases b <;> rfl

section Scan

variable {limits : Limits} {fuel depth : ℕ} {text rest : PyStr}

theorem scan_string : scan limits (fuel + 1) .value depth (.scalar '"' :: rest) =
    match scanString rest with
    | some (s, rest) => .ok (.str (joinPairs s), rest)
    | none => .error .jsonDecode := rfl

theorem scan_plain (hquote : ∀ rest, text ≠ .scalar '"' :: rest)
    (hbracket : ∀ (b : Bracket) rest, text ≠ b.opening :: rest) :
    scan limits (fuel + 1) .value depth text = scanPlain limits text := by
  unfold scan
  split
  · exact absurd rfl (hquote _)
  · exact absurd rfl (hbracket .object _)
  · exact absurd rfl (hbracket .array _)
  · rfl

theorem scan_deep (b : Bracket) :
    scan limits (fuel + 1) .value 0 (b.opening :: rest) = .error .recursion := by
  cases b <;> rfl

theorem scan_empty (b : Bracket) {after : PyStr} (h : skipSpace rest = b.closing :: after) :
    scan limits (fuel + 1) .value (depth + 1) (b.opening :: rest) = .ok (b.nothing, after) := by
  cases b <;>
  · simp only [Bracket.opening, Bracket.closing] at h ⊢
    unfold scan
    simp only [h]
    rfl

theorem scan_items (b : Bracket) (h : ∀ r, skipSpace rest ≠ b.closing :: r) :
    scan limits (fuel + 1) .value (depth + 1) (b.opening :: rest) =
      scan limits fuel b.goal depth (skipSpace rest) := by
  cases b <;>
  · simp only [Bracket.opening, Bracket.closing] at h ⊢
    conv_lhs => unfold scan
    simp only
    rfl

/-- An array or an object from an item on. -/
theorem scan_inside {goal : Goal} {b : Bracket} {value : PyStr} (hplace : goal.place = .inside b)
    (hitem : ItemValue b text value) :
    (∀ e, scan limits fuel .value depth value = .error e →
      scan limits (fuel + 1) goal depth text = .error e) ∧
    ∀ v rest, scan limits fuel .value depth value = .ok (v, rest) →
      (∀ after, skipSpace rest = b.closing :: after →
        ∃ x, scan limits (fuel + 1) goal depth text = .ok (x, after)) ∧
      (∀ rest', skipSpace rest = .scalar ',' :: rest' → ∃ goal' : Goal, goal'.place = .inside b ∧
        scan limits (fuel + 1) goal depth text = scan limits fuel goal' depth (skipSpace rest')) ∧
      ((∀ after, skipSpace rest ≠ b.closing :: after) →
        (∀ rest', skipSpace rest ≠ .scalar ',' :: rest') →
          scan limits (fuel + 1) goal depth text = .error .jsonDecode) := by
  cases goal with
  | value => cases hplace
  | items read =>
    cases hplace
    cases hitem
    refine ⟨fun e he => ?_, fun v rest hv => ⟨fun after h => ?_, fun rest' h => ?_, fun h h' => ?_⟩⟩
    · unfold scan
      rw [he]
    · refine ⟨.list (read ++ [v]), ?_⟩
      unfold scan
      simp only [hv, h, Bracket.closing]
    · refine ⟨.items (read ++ [v]), rfl, ?_⟩
      conv_lhs => unfold scan
      simp only [hv, h]
    · unfold scan
      simp only [hv]
      split
      · next heq => exact absurd heq (h _)
      · next heq => exact absurd heq (h' _)
      · rfl
  | members read =>
    cases hplace
    cases hitem with
    | @object _ _ _ key hkey hcolon =>
      refine ⟨fun e he => ?_, fun v rest hv => ⟨fun after h => ?_, fun rest' h => ?_, fun h h' => ?_⟩⟩
      · unfold scan
        simp only [hkey, hcolon, he]
      · refine ⟨.dict (setMember read (joinPairs key) v), ?_⟩
        unfold scan
        simp only [hkey, hcolon, hv, h, Bracket.closing]
      · refine ⟨.members (setMember read (joinPairs key) v), rfl, ?_⟩
        conv_lhs => unfold scan
        simp only [hkey, hcolon, hv, h]
      · unfold scan
        simp only [hkey, hcolon, hv]
        split
        · next heq => exact absurd heq (h _)
        · next heq => exact absurd heq (h' _)
        · rfl

/-- Without an item nothing is scanned. -/
theorem scan_inside_none {goal : Goal} {b : Bracket} (hplace : goal.place = .inside b)
    (hnone : ∀ value, ¬ ItemValue b text value) :
    scan limits (fuel + 1) goal depth text = .error .jsonDecode := by
  cases goal with
  | value => cases hplace
  | items read =>
    cases hplace
    exact absurd (.array text) (hnone text)
  | members read =>
    cases hplace
    unfold scan
    split
    · split
      · rfl
      · next hkey =>
        split
        · next hcolon => exact absurd (.object hkey hcolon) (hnone _)
        · rfl
    · rfl

theorem length_itemValue_le {b : Bracket} {value : PyStr} (h : ItemValue b text value) :
    value.length ≤ text.length := by
  cases h with
  | array => exact Nat.le_refl _
  | @object rest afterKey afterColon key hkey hcolon =>
    have hle := length_skipSpace_le afterKey
    rw [hcolon, List.length_cons] at hle
    have := length_of_scanString hkey
    have := length_skipSpace_le afterColon
    rw [List.length_cons]
    omega

/-- What a value begins with. -/
theorem value_cases (text : PyStr) :
    (∃ rest, text = .scalar '"' :: rest) ∨ (∃ (b : Bracket) (rest : PyStr), text = b.opening :: rest) ∨
      ((∀ rest, text ≠ .scalar '"' :: rest) ∧ ∀ (b : Bracket) rest, text ≠ b.opening :: rest) := by
  by_cases hquote : ∃ rest, text = .scalar '"' :: rest
  · exact .inl hquote
  · by_cases hbracket : ∃ (b : Bracket) (rest : PyStr), text = b.opening :: rest
    · exact .inr (.inl hbracket)
    · exact .inr (.inr ⟨fun rest h => hquote ⟨rest, h⟩, fun b rest h => hbracket ⟨b, rest, h⟩⟩)

end Scan

/-! ## The scanner and the grammar -/

/-- What is scanned is read by the grammar. -/
theorem reads_of_scan {limits : Limits} {fuel : ℕ} {goal : Goal} {depth : ℕ} {text after : PyStr}
    {value : PyValue} (h : scan limits fuel goal depth text = .ok (value, after)) :
    Reads goal.place text after := by
  induction fuel generalizing goal depth text after value with
  | zero => cases h
  | succ fuel ih =>
    cases hplace : goal.place with
    | value =>
      obtain rfl := Goal.eq_value hplace
      rcases value_cases text with ⟨rest, rfl⟩ | ⟨b, rest, rfl⟩ | ⟨hquote, hbracket⟩
      · rw [scan_string] at h
        split at h
        · next hstring =>
          cases h
          exact .string hstring
        · cases h
      · cases depth with
        | zero => rw [scan_deep] at h; cases h
        | succ depth =>
          by_cases hclose : ∃ r, skipSpace rest = b.closing :: r
          · obtain ⟨r, hclose⟩ := hclose
            rw [scan_empty b hclose] at h
            cases h
            exact .empty b hclose
          · have hopen : ∀ r, skipSpace rest ≠ b.closing :: r := fun r hr => hclose ⟨r, hr⟩
            rw [scan_items b hopen] at h
            exact .items b hopen (b.place_goal ▸ ih h)
      · rw [scan_plain hquote hbracket] at h
        rcases scanPlain_cases limits text with ⟨_, he⟩ | ⟨_, he⟩ | ⟨v, r, hok, hplain⟩
        · rw [he] at h; cases h
        · rw [he] at h; cases h
        · rw [hok] at h
          cases h
          exact .plain hquote hbracket hplain
    | inside b =>
      by_cases hitem : ∃ value, ItemValue b text value
      · obtain ⟨start, hitem⟩ := hitem
        obtain ⟨herror, hok⟩ := @scan_inside limits fuel depth _ _ _ _ hplace hitem
        cases hvalue : scan limits fuel .value depth start with
        | error e => rw [herror e hvalue] at h; cases h
        | ok scanned =>
          obtain ⟨hclose, hcomma, hnone⟩ := hok scanned.1 scanned.2 hvalue
          have hread : Reads .value start scanned.2 := ih hvalue
          by_cases hlast : ∃ r, skipSpace scanned.2 = b.closing :: r
          · obtain ⟨r, hlast⟩ := hlast
            obtain ⟨x, hx⟩ := hclose r hlast
            rw [hx] at h
            cases h
            exact .last hitem hread hlast
          · by_cases hnext : ∃ r, skipSpace scanned.2 = .scalar ',' :: r
            · obtain ⟨r, hnext⟩ := hnext
              obtain ⟨goal', hgoal', heq⟩ := hcomma r hnext
              rw [heq] at h
              exact .next hitem hread hnext (hgoal' ▸ ih h)
            · rw [hnone (fun r hr => hlast ⟨r, hr⟩) fun r hr => hnext ⟨r, hr⟩] at h
              cases h
      · rw [scan_inside_none hplace fun value hvalue => hitem ⟨value, hvalue⟩] at h
        cases h

/-- A part of the text that exceeds the limits, for a value or items with `depth` left. -/
def Beyond (limits : Limits) (depth : ℕ) (place : Place) (text : PyStr) : Prop :=
  ∃ n t, Begins place text n t ∧ ((depth ≤ n ∧ Opens t) ∨ LongInteger limits t)

/-- **What is raised besides a `JSONDecodeError` takes a text above the limits.** -/
theorem beyond_of_scan {limits : Limits} {fuel : ℕ} {goal : Goal} {depth : ℕ} {text : PyStr}
    {e : LoadError} (h : scan limits fuel goal depth text = .error e) (he : e ≠ .jsonDecode) :
    Beyond limits depth goal.place text := by
  induction fuel generalizing goal depth text with
  | zero =>
    cases h
    exact absurd rfl he
  | succ fuel ih =>
    cases hplace : goal.place with
    | value =>
      obtain rfl := Goal.eq_value hplace
      rcases value_cases text with ⟨rest, rfl⟩ | ⟨b, rest, rfl⟩ | ⟨hquote, hbracket⟩
      · rw [scan_string] at h
        split at h
        · cases h
        · cases h
          exact absurd rfl he
      · cases depth with
        | zero => exact ⟨0, _, .here _, .inl ⟨le_refl 0, b, rest, rfl⟩⟩
        | succ depth =>
          by_cases hclose : ∃ r, skipSpace rest = b.closing :: r
          · obtain ⟨r, hclose⟩ := hclose
            rw [scan_empty b hclose] at h
            cases h
          · have hopen : ∀ r, skipSpace rest ≠ b.closing :: r := fun r hr => hclose ⟨r, hr⟩
            rw [scan_items b hopen] at h
            obtain ⟨n, t, hbegins, hbeyond⟩ := ih h
            rw [b.place_goal] at hbegins
            exact ⟨n + 1, t, .items b hopen hbegins,
              hbeyond.imp (fun hdeep => ⟨Nat.succ_le_succ hdeep.1, hdeep.2⟩) id⟩
      · rw [scan_plain hquote hbracket] at h
        rcases scanPlain_cases limits text with ⟨hlong, _⟩ | ⟨_, hdecode⟩ | ⟨v, r, hok, _⟩
        · exact ⟨0, text, .here text, .inr hlong⟩
        · rw [hdecode] at h
          cases h
          exact absurd rfl he
        · rw [hok] at h
          cases h
    | inside b =>
      by_cases hitem : ∃ value, ItemValue b text value
      · obtain ⟨start, hitem⟩ := hitem
        obtain ⟨herror, hok⟩ := @scan_inside limits fuel depth _ _ _ _ hplace hitem
        cases hvalue : scan limits fuel .value depth start with
        | error e' =>
          rw [herror e' hvalue] at h
          cases h
          obtain ⟨n, t, hbegins, hbeyond⟩ := ih hvalue
          exact ⟨n, t, .item hitem hbegins, hbeyond⟩
        | ok scanned =>
          obtain ⟨hclose, hcomma, hnone⟩ := hok scanned.1 scanned.2 hvalue
          by_cases hlast : ∃ r, skipSpace scanned.2 = b.closing :: r
          · obtain ⟨r, hlast⟩ := hlast
            obtain ⟨x, hx⟩ := hclose r hlast
            rw [hx] at h
            cases h
          · by_cases hnext : ∃ r, skipSpace scanned.2 = .scalar ',' :: r
            · obtain ⟨r, hnext⟩ := hnext
              obtain ⟨goal', hgoal', heq⟩ := hcomma r hnext
              rw [heq] at h
              obtain ⟨n, t, hbegins, hbeyond⟩ := ih h
              rw [hgoal'] at hbegins
              exact ⟨n, t, .next hitem (reads_of_scan hvalue) hnext hbegins, hbeyond⟩
            · rw [hnone (fun r hr => hlast ⟨r, hr⟩) fun r hr => hnext ⟨r, hr⟩] at h
              cases h
              exact absurd rfl he
      · rw [scan_inside_none hplace fun value hvalue => hitem ⟨value, hvalue⟩] at h
        cases h
        exact absurd rfl he

/-- An error that is no `JSONDecodeError` is raised. -/
def Refuses (r : Except LoadError (PyValue × PyStr)) : Prop :=
  ∃ e, r = .error e ∧ e ≠ .jsonDecode

theorem length_of_reads {place : Place} {text after : PyStr} (h : Reads place text after) :
    after.length < text.length := by
  induction h with
  | string hstring => exact Nat.lt_succ_of_lt (length_of_scanString hstring)
  | plain _ _ hplain => exact length_of_scanPlain hplain.choose_spec
  | @empty b rest after hclose =>
    have hle := length_skipSpace_le rest
    rw [hclose, List.length_cons] at hle
    rw [List.length_cons]
    omega
  | @items b rest after _ _ ih =>
    have hle := length_skipSpace_le rest
    rw [List.length_cons]
    omega
  | @last b text value rest after hitem _ hclose ih =>
    have hle := length_skipSpace_le rest
    rw [hclose, List.length_cons] at hle
    have := length_itemValue_le hitem
    omega
  | @next b text value rest rest' after hitem _ hcomma _ ih ih' =>
    have hle := length_skipSpace_le rest
    rw [hcomma, List.length_cons] at hle
    have := length_skipSpace_le rest'
    have := length_itemValue_le hitem
    omega

/-- Fuel for an item is fuel for its value. -/
theorem cost_itemValue {goal : Goal} {b : Bracket} {text value : PyStr} {fuel : ℕ}
    (hplace : goal.place = .inside b) (hitem : ItemValue b text value)
    (h : goal.cost text.length ≤ fuel + 1) : Goal.value.cost value.length ≤ fuel := by
  cases goal with
  | value => cases hplace
  | items read =>
    cases hplace
    cases hitem
    rw [Goal.cost_items] at h
    rw [Goal.cost_value]
    omega
  | members read =>
    cases hplace
    cases hitem with
    | @object rest afterKey afterColon key hkey hcolon =>
      have hle := length_skipSpace_le afterKey
      rw [hcolon, List.length_cons] at hle
      have := length_of_scanString hkey
      have := length_skipSpace_le afterColon
      rw [Goal.cost_members, List.length_cons] at h
      rw [Goal.cost_value]
      omega

theorem Goal.cost_le (goal : Goal) (n : ℕ) : goal.cost n ≤ 2 * n + 2 := by
  cases goal <;> simp [Goal.cost]

theorem Goal.le_cost (goal : Goal) (n : ℕ) : 2 * n + 1 ≤ goal.cost n := by
  cases goal <;> simp [Goal.cost]

/-- Fuel for an item is fuel for the items after it. -/
theorem cost_next {goal goal' : Goal} {b : Bracket} {text value rest rest' : PyStr} {fuel : ℕ}
    (hitem : ItemValue b text value) (hvalue : Reads .value value rest)
    (hcomma : skipSpace rest = .scalar ',' :: rest') (h : goal.cost text.length ≤ fuel + 1) :
    goal'.cost (skipSpace rest').length ≤ fuel := by
  have hle := length_skipSpace_le rest
  rw [hcomma, List.length_cons] at hle
  have := length_skipSpace_le rest'
  have := length_itemValue_le hitem
  have := length_of_reads hvalue
  have := goal.le_cost text.length
  have := goal'.cost_le (skipSpace rest').length
  omega

/-- Fuel for a value is fuel for what its brackets contain. -/
theorem cost_inside {b b' : Bracket} {rest : PyStr} {fuel : ℕ}
    (h : Goal.value.cost (b.opening :: rest).length ≤ fuel + 1) :
    b'.goal.cost (skipSpace rest).length ≤ fuel := by
  have := length_skipSpace_le rest
  have := b'.goal.cost_le (skipSpace rest).length
  rw [Goal.cost_value, List.length_cons] at h
  omega

/-- What the grammar reads is scanned, if the limits allow it. -/
theorem scan_of_reads {limits : Limits} {place : Place} {text after : PyStr}
    (h : Reads place text after) : ∀ {goal : Goal} {fuel depth : ℕ}, goal.place = place →
      goal.cost text.length ≤ fuel →
        (∃ value, scan limits fuel goal depth text = .ok (value, after)) ∨
          Refuses (scan limits fuel goal depth text) := by
  induction h with
  | @string rest after s hstring =>
    intro goal fuel depth hplace hcost
    obtain rfl := Goal.eq_value hplace
    obtain ⟨fuel, rfl⟩ := Nat.exists_eq_add_of_le' (Nat.le_trans (Nat.succ_pos _) hcost)
    refine .inl ⟨.str (joinPairs s), ?_⟩
    rw [scan_string, hstring]
  | @plain text after hquote hbracket hplain =>
    intro goal fuel depth hplace hcost
    obtain rfl := Goal.eq_value hplace
    obtain ⟨fuel, rfl⟩ := Nat.exists_eq_add_of_le' (Nat.le_trans (Nat.succ_pos _) hcost)
    rw [scan_plain hquote hbracket]
    obtain ⟨value, hplain⟩ := hplain
    by_cases hlong : LongInteger limits text
    · exact .inr ⟨_, scanPlain_of_long hlong, nofun⟩
    · exact .inl ⟨value, (scanPlain_of_not_long hlong).trans hplain⟩
  | empty b hclose =>
    intro goal fuel depth hplace hcost
    obtain rfl := Goal.eq_value hplace
    obtain ⟨fuel, rfl⟩ := Nat.exists_eq_add_of_le' (Nat.le_trans (Nat.succ_pos _) hcost)
    cases depth with
    | zero => exact .inr ⟨_, scan_deep b, nofun⟩
    | succ depth => exact .inl ⟨b.nothing, scan_empty b hclose⟩
  | items b hopen _ ih =>
    intro goal fuel depth hplace hcost
    obtain rfl := Goal.eq_value hplace
    obtain ⟨fuel, rfl⟩ := Nat.exists_eq_add_of_le' (Nat.le_trans (Nat.succ_pos _) hcost)
    cases depth with
    | zero => exact .inr ⟨_, scan_deep b, nofun⟩
    | succ depth =>
      rw [scan_items b hopen]
      exact ih b.place_goal (cost_inside hcost)
  | last hitem _ hclose ih =>
    intro goal fuel depth hplace hcost
    obtain ⟨fuel, rfl⟩ :=
      Nat.exists_eq_add_of_le' (Nat.le_trans (Nat.le_trans (Nat.succ_pos _) (goal.le_cost _)) hcost)
    obtain ⟨herror, hok⟩ := @scan_inside limits fuel depth _ _ _ _ hplace hitem
    rcases ih rfl (cost_itemValue hplace hitem hcost) with ⟨v, hv⟩ | ⟨e, he, hne⟩
    · exact .inl ((hok v _ hv).1 _ hclose)
    · exact .inr ⟨e, herror e he, hne⟩
  | next hitem hvalue hcomma _ ih ih' =>
    intro goal fuel depth hplace hcost
    obtain ⟨fuel, rfl⟩ :=
      Nat.exists_eq_add_of_le' (Nat.le_trans (Nat.le_trans (Nat.succ_pos _) (goal.le_cost _)) hcost)
    obtain ⟨herror, hok⟩ := @scan_inside limits fuel depth _ _ _ _ hplace hitem
    rcases ih rfl (cost_itemValue hplace hitem hcost) with ⟨v, hv⟩ | ⟨e, he, hne⟩
    · obtain ⟨goal', hgoal', heq⟩ := (hok v _ hv).2.1 _ hcomma
      rw [heq]
      exact ih' hgoal' (cost_next hitem hvalue hcomma hcost)
    · exact .inr ⟨e, herror e he, hne⟩

/-- An integer is neither a string nor between brackets. -/
theorem plain_of_long {limits : Limits} {text : PyStr} (h : LongInteger limits text) :
    (∀ rest, text ≠ .scalar '"' :: rest) ∧ ∀ (b : Bracket) rest, text ≠ b.opening :: rest := by
  obtain ⟨digits, rest, hpart, _⟩ := h
  obtain ⟨c, tail, htail, hlow, hhigh⟩ := digit_of_integerPart hpart
  have hne : ∀ letter tail', ¬ ('0' ≤ letter ∧ letter ≤ '9') → letter ≠ '-' →
      text ≠ .scalar letter :: tail' := by
    rintro letter tail' hletter hminus rfl
    rw [unsigned_of_ne (by rintro rest' heq; cases heq; exact hminus rfl)] at htail
    cases htail
    exact hletter ⟨hlow, hhigh⟩
  refine ⟨fun rest => hne '"' rest (by decide) (by decide), fun b rest => ?_⟩
  cases b with
  | array => exact hne '[' rest (by decide) (by decide)
  | object => exact hne '{' rest (by decide) (by decide)

/-- **A text above the limits is not scanned.** -/
theorem refuses_of_begins {limits : Limits} {place : Place} {text t : PyStr} {n : ℕ}
    (h : Begins place text n t) : ∀ {goal : Goal} {fuel depth : ℕ}, goal.place = place →
      goal.cost text.length ≤ fuel → ((depth ≤ n ∧ Opens t) ∨ LongInteger limits t) →
        Refuses (scan limits fuel goal depth text) := by
  induction h with
  | here t =>
    intro goal fuel depth hplace hcost hbeyond
    obtain rfl := Goal.eq_value hplace
    obtain ⟨fuel, rfl⟩ := Nat.exists_eq_add_of_le' (Nat.le_trans (Nat.succ_pos _) hcost)
    rcases hbeyond with ⟨hdepth, b, rest, rfl⟩ | hlong
    · obtain rfl : depth = 0 := Nat.le_zero.mp hdepth
      exact ⟨_, scan_deep b, nofun⟩
    · obtain ⟨hquote, hbracket⟩ := plain_of_long hlong
      exact ⟨_, (scan_plain hquote hbracket).trans (scanPlain_of_long hlong), nofun⟩
  | items b hopen _ ih =>
    intro goal fuel depth hplace hcost hbeyond
    obtain rfl := Goal.eq_value hplace
    obtain ⟨fuel, rfl⟩ := Nat.exists_eq_add_of_le' (Nat.le_trans (Nat.succ_pos _) hcost)
    cases depth with
    | zero => exact ⟨_, scan_deep b, nofun⟩
    | succ depth =>
      rw [scan_items b hopen]
      exact ih b.place_goal (cost_inside hcost)
        (hbeyond.imp (fun hdeep => ⟨Nat.le_of_succ_le_succ hdeep.1, hdeep.2⟩) id)
  | item hitem _ ih =>
    intro goal fuel depth hplace hcost hbeyond
    obtain ⟨fuel, rfl⟩ :=
      Nat.exists_eq_add_of_le' (Nat.le_trans (Nat.le_trans (Nat.succ_pos _) (goal.le_cost _)) hcost)
    obtain ⟨e, he, hne⟩ := ih rfl (cost_itemValue hplace hitem hcost) hbeyond
    exact ⟨e, (@scan_inside limits fuel depth _ _ _ _ hplace hitem).1 e he, hne⟩
  | next hitem hvalue hcomma _ ih =>
    intro goal fuel depth hplace hcost hbeyond
    obtain ⟨fuel, rfl⟩ :=
      Nat.exists_eq_add_of_le' (Nat.le_trans (Nat.le_trans (Nat.succ_pos _) (goal.le_cost _)) hcost)
    obtain ⟨herror, hok⟩ := @scan_inside limits fuel depth _ _ _ _ hplace hitem
    -- The items before it are scanned, or one of them exceeds the limits itself.
    rcases scan_of_reads hvalue rfl (cost_itemValue hplace hitem hcost) with ⟨v, hv⟩ | ⟨e, he, hne⟩
    · obtain ⟨goal', hgoal', heq⟩ := (hok v _ hv).2.1 _ hcomma
      rw [heq]
      exact ih hgoal' (cost_next hitem hvalue hcomma hcost) hbeyond
    · exact ⟨e, herror e he, hne⟩

/-- **`json.loads` raises a `ValueError` that is no `JSONDecodeError`, or a `RecursionError`,
exactly for the texts above the limits.** -/
theorem loads_exceeds_iff (limits : Limits) (text : PyStr) :
    (∃ e, loads limits text = .error e ∧ e ≠ .jsonDecode) ↔ Exceeds limits text := by
  unfold loads Exceeds
  by_cases hmark : text.head? = some (.scalar '\uFEFF')
  · rw [if_pos hmark]
    constructor
    · rintro ⟨e, he, hne⟩
      cases he
      exact absurd rfl hne
    · rintro ⟨hnot, _⟩
      exact absurd hmark hnot
  · rw [if_neg hmark]
    constructor
    · rintro ⟨e, he, hne⟩
      refine ⟨hmark, ?_⟩
      cases hscan : scan limits (2 * text.length + 1) .value limits.depth (skipSpace text) with
      | error e' =>
        rw [hscan] at he
        cases he
        exact beyond_of_scan hscan hne
      | ok scanned =>
        rw [hscan] at he
        dsimp only at he
        split at he
        · cases he
        · cases he
          exact absurd rfl hne
    · rintro ⟨_, n, t, hbegins, hbeyond⟩
      have hcost : Goal.value.cost (skipSpace text).length ≤ 2 * text.length + 1 := by
        have := length_skipSpace_le text
        rw [Goal.cost_value]
        omega
      obtain ⟨e, he, hne⟩ := refuses_of_begins hbegins rfl hcost hbeyond
      exact ⟨e, by rw [he], hne⟩

end PyJson
