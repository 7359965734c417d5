import Mathlib.Data.Nat.Basic
import SmartDesk.Lib.PyText

/-!
# `json.loads`

The scanner of the `json` module.  What it raises is a `JSONDecodeError`, except for an
integer with more digits than `int` converts, and for a value that is nested too deep.

* `scan` — a value, or what is left of an array or an object.
* `loads` — a whole text.
* `scan_fuel` — **the length of the text is fuel enough**.
* `loads_brackets` — a text that is nested too deep.
-/

namespace PyJson

open PyText

inductive LoadError where
  | jsonDecode
  | valueError
  | recursion
  deriving DecidableEq

/-- A value.  Of a float only that it is one is kept. -/
inductive PyValue where
  | null
  | bool (b : Bool)
  | int (n : ℤ)
  | float
  | str (s : PyStr)
  | list (items : List PyValue)
  | dict (members : List (PyStr × PyValue))

/-- The limits of the interpreter: the digits of an `int`, where 0 is no limit, and the
depth of a value. -/
structure Limits where
  intDigits : ℕ
  depth : ℕ

/-! ## Texts -/

/-- White space of JSON. -/
def isJsonSpace : CodePoint → Bool
  | .scalar c => c == ' ' || c == '\t' || c == '\n' || c == '\r'
  | .surrogate _ => false

def skipSpace (text : PyStr) : PyStr := text.dropWhile isJsonSpace

def digitValue : CodePoint → Option ℕ
  | .scalar c => if '0' ≤ c ∧ c ≤ '9' then some (c.toNat - 48) else none
  | .surrogate _ => none

def isDigit (c : CodePoint) : Bool := (digitValue c).isSome

def hexValue : CodePoint → Option ℕ
  | .scalar c =>
      if '0' ≤ c ∧ c ≤ '9' then some (c.toNat - 48)
      else if 'a' ≤ c ∧ c ≤ 'f' then some (c.toNat - 87)
      else if 'A' ≤ c ∧ c ≤ 'F' then some (c.toNat - 55)
      else none
  | .surrogate _ => none

/-- The code point of a number below 2¹⁶. -/
def codeUnit (n : ℕ) : CodePoint :=
  if 0xD800 ≤ n ∧ n < 0xE000 then .surrogate (Fin.ofNat 2048 (n - 0xD800))
  else .scalar (Char.ofNat n)

/-- `\uXXXX`. -/
def hex4 (a b c d : CodePoint) : Option CodePoint := do
  let a ← hexValue a
  let b ← hexValue b
  let c ← hexValue c
  let d ← hexValue d
  return codeUnit (((a * 16 + b) * 16 + c) * 16 + d)

/-- The escapes of one character. -/
def escaped : CodePoint → Option CodePoint
  | .scalar '"' => some (.scalar '"')
  | .scalar '\\' => some (.scalar '\\')
  | .scalar '/' => some (.scalar '/')
  | .scalar 'b' => some (.scalar '\x08')
  | .scalar 'f' => some (.scalar '\x0c')
  | .scalar 'n' => some (.scalar '\n')
  | .scalar 'r' => some (.scalar '\r')
  | .scalar 't' => some (.scalar '\t')
  | _ => none

/-- Control characters are not allowed in a string. -/
def isControl : CodePoint → Bool
  | .scalar c => c.toNat < 32
  | .surrogate _ => false

/-- The string after its first quote, with the code points that were written as
`\uXXXX` marked. -/
def scanString : PyStr → Option (List (CodePoint × Bool) × PyStr)
  | [] => none
  | .scalar '"' :: rest => some ([], rest)
  | .scalar '\\' :: .scalar 'u' :: a :: b :: c :: d :: rest => do
      let unit ← hex4 a b c d
      let (text, rest) ← scanString rest
      return ((unit, true) :: text, rest)
  | .scalar '\\' :: c :: rest => do
      let c ← escaped c
      let (text, rest) ← scanString rest
      return ((c, false) :: text, rest)
  | c :: rest =>
      if isControl c || c == .scalar '\\' then none
      else do
        let (text, rest) ← scanString rest
        return ((c, false) :: text, rest)

/-- Two escapes that are a pair of surrogates are one character. -/
def joinPairs : List (CodePoint × Bool) → PyStr
  | (.surrogate high, true) :: (.surrogate low, true) :: text =>
      if high.val < 1024 ∧ 1024 ≤ low.val then
        .scalar (Char.ofNat (0x10000 + high.val * 1024 + (low.val - 1024))) :: joinPairs text
      else .surrogate high :: joinPairs ((.surrogate low, true) :: text)
  | (c, _) :: text => c :: joinPairs text
  | [] => []

/-! ## Numbers -/

/-- The value of decimal digits. -/
def digitsValue (digits : PyStr) : ℕ :=
  digits.foldl (fun n c => n * 10 + (digitValue c).getD 0) 0

/-- The digits of the integer part; a zero stands alone. -/
def integerPart : PyStr → Option (PyStr × PyStr)
  | .scalar '0' :: rest => some ([.scalar '0'], rest)
  | c :: rest =>
      if isDigit c then some ((c :: rest).takeWhile isDigit, (c :: rest).dropWhile isDigit)
      else none
  | [] => none

/-- What follows a point, if there is a digit. -/
def fraction : PyStr → Option PyStr
  | .scalar '.' :: c :: rest => if isDigit c then some (rest.dropWhile isDigit) else none
  | _ => none

/-- An exponent, if it has a digit. -/
def exponent : PyStr → Option PyStr
  | .scalar e :: sign :: c :: rest =>
      if e = 'e' ∨ e = 'E' then
        if isDigit sign then some ((c :: rest).dropWhile isDigit)
        else if (sign = .scalar '+' ∨ sign = .scalar '-') ∧ isDigit c = true then
          some (rest.dropWhile isDigit)
        else none
      else none
  | [.scalar e, c] => if (e = 'e' ∨ e = 'E') ∧ isDigit c = true then some [] else none
  | _ => none

/-- The number after its sign. -/
def scanUnsigned (limits : Limits) (negative : Bool) (text : PyStr) :
    Except LoadError (PyValue × PyStr) :=
  match integerPart text with
  | none => .error .jsonDecode
  | some (digits, rest) =>
      let afterFraction := (fraction rest).getD rest
      let afterExponent := (exponent afterFraction).getD afterFraction
      if (fraction rest).isSome || (exponent afterFraction).isSome then .ok (.float, afterExponent)
      else if 0 < limits.intDigits ∧ limits.intDigits < digits.length then .error .valueError
      else .ok (.int (if negative then -(digitsValue digits : ℤ) else digitsValue digits), rest)

/-- The rest of a text after a word. -/
def afterWord (word : String) (text : PyStr) : Option PyStr :=
  if text.take word.length = decode word.toList then some (text.drop word.length) else none

/-- A number, or a name of a value that is written as a word. -/
def scanPlain (limits : Limits) (text : PyStr) : Except LoadError (PyValue × PyStr) :=
  match afterWord "null" text, afterWord "true" text, afterWord "false" text, afterWord "NaN" text,
      afterWord "Infinity" text, afterWord "-Infinity" text with
  | some rest, _, _, _, _, _ => .ok (.null, rest)
  | _, some rest, _, _, _, _ => .ok (.bool true, rest)
  | _, _, some rest, _, _, _ => .ok (.bool false, rest)
  | _, _, _, some rest, _, _ => .ok (.float, rest)
  | _, _, _, _, some rest, _ => .ok (.float, rest)
  | _, _, _, _, _, some rest => .ok (.float, rest)
  | _, _, _, _, _, _ =>
      match text with
      | .scalar '-' :: rest => scanUnsigned limits true rest
      | _ => scanUnsigned limits false text

/-! ## Values -/

/-- What is scanned: a value, or an array or object from an item on. -/
inductive Goal where
  | value
  | items (read : List PyValue)
  | members (read : List (PyStr × PyValue))

/-- `dict[key] = value`: a key keeps the place where it was first. -/
def setMember (members : List (PyStr × PyValue)) (key : PyStr) (value : PyValue) :
    List (PyStr × PyValue) :=
  if members.any fun m => m.1 = key then members.map fun m => if m.1 = key then (key, value) else m
  else members ++ [(key, value)]

/-- The scanner; `depth` is what is left of the limit. -/
def scan (limits : Limits) : ℕ → Goal → ℕ → PyStr → Except LoadError (PyValue × PyStr)
  | 0, _, _, _ => .error .jsonDecode
  | fuel + 1, .value, depth, text =>
      match text with
      | .scalar '"' :: rest =>
          match scanString rest with
          | some (s, rest) => .ok (.str (joinPairs s), rest)
          | none => .error .jsonDecode
      | .scalar '{' :: rest =>
          match depth with
          | 0 => .error .recursion
          | depth + 1 =>
              match skipSpace rest with
              | .scalar '}' :: rest => .ok (.dict [], rest)
              | rest => scan limits fuel (.members []) depth rest
      | .scalar '[' :: rest =>
          match depth with
          | 0 => .error .recursion
          | depth + 1 =>
              match skipSpace rest with
              | .scalar ']' :: rest => .ok (.list [], rest)
              | rest => scan limits fuel (.items []) depth rest
      | text => scanPlain limits text
  | fuel + 1, .items read, depth, text =>
      match scan limits fuel .value depth text with
      | .error e => .error e
      | .ok (value, rest) =>
          match skipSpace rest with
          | .scalar ']' :: rest => .ok (.list (read ++ [value]), rest)
          | .scalar ',' :: rest =>
              scan limits fuel (.items (read ++ [value])) depth (skipSpace rest)
          | _ => .error .jsonDecode
  | fuel + 1, .members read, depth, text =>
      match text with
      | .scalar '"' :: rest =>
          match scanString rest with
          | none => .error .jsonDecode
          | some (key, rest) =>
              match skipSpace rest with
              | .scalar ':' :: rest =>
                  match scan limits fuel .value depth (skipSpace rest) with
                  | .error e => .error e
                  | .ok (value, rest) =>
                      match skipSpace rest with
                      | .scalar '}' :: rest =>
                          .ok (.dict (setMember read (joinPairs key) value), rest)
                      | .scalar ',' :: rest =>
                          scan limits fuel (.members (setMember read (joinPairs key) value)) depth
                            (skipSpace rest)
                      | _ => .error .jsonDecode
              | _ => .error .jsonDecode
      | _ => .error .jsonDecode

/-- `json.loads(text)`. -/
def loads (limits : Limits) (text : PyStr) : Except LoadError PyValue :=
  if text.head? = some (.scalar '\uFEFF') then .error .jsonDecode
  else
    match scan limits (2 * text.length + 1) .value limits.depth (skipSpace text) with
    | .error e => .error e
    | .ok (value, rest) => if skipSpace rest = [] then .ok value else .error .jsonDecode

/-! ## Fuel -/

theorem length_skipSpace_le (text : PyStr) : (skipSpace text).length ≤ text.length :=
  (List.dropWhile_suffix _).length_le

/-- A string is shorter than its text. -/
theorem length_of_scanString {text rest : PyStr} {s : List (CodePoint × Bool)}
    (h : scanString text = some (s, rest)) : rest.length < text.length := by
  induction text using scanString.induct generalizing s rest with
  | case1 => simp [scanString] at h
  | case2 rest' =>
    simp only [scanString, Option.some.injEq, Prod.mk.injEq] at h
    rw [← h.2]
    exact Nat.lt_succ_self _
  | case3 a b c d rest' ih =>
    simp only [scanString, Option.bind_eq_bind, Option.pure_def, Option.bind_eq_some_iff] at h
    obtain ⟨_, _, ⟨s', rest''⟩, hrest, heq⟩ := h
    cases heq
    have := ih hrest
    simp only [List.length_cons]
    omega
  | case4 c rest' hc ih =>
    simp only [scanString, Option.bind_eq_bind, Option.pure_def, Option.bind_eq_some_iff] at h
    obtain ⟨_, _, ⟨s', rest''⟩, hrest, heq⟩ := h
    cases heq
    have := ih hrest
    simp only [List.length_cons]
    omega
  | case5 c rest' _ _ _ hcontrol => simp [scanString, hcontrol] at h
  | case6 c rest' _ _ _ hcontrol ih =>
    simp only [scanString, hcontrol, Bool.false_eq_true, if_false, Option.bind_eq_bind,
      Option.pure_def, Option.bind_eq_some_iff] at h
    obtain ⟨⟨s', rest''⟩, hrest, heq⟩ := h
    cases heq
    have := ih hrest
    simp only [List.length_cons]
    omega

theorem length_of_afterWord (word : String) {text rest : PyStr} (hword : 0 < word.length)
    (h : afterWord word text = some rest) : rest.length < text.length := by
  unfold afterWord at h
  split_ifs at h with htake
  cases h
  have hlength := congrArg List.length htake
  simp only [List.length_take, decode, List.length_map, String.length_toList] at hlength
  rw [List.length_drop]
  omega

theorem length_dropWhile_le (p : CodePoint → Bool) (text : PyStr) :
    (text.dropWhile p).length ≤ text.length :=
  (List.dropWhile_suffix p).length_le

theorem length_of_integerPart {text digits rest : PyStr}
    (h : integerPart text = some (digits, rest)) :
    digits.length + rest.length = text.length ∧ 0 < digits.length := by
  unfold integerPart at h
  split at h
  · cases h
    exact ⟨Nat.add_comm _ _, Nat.one_pos⟩
  · next c rest' _ =>
    split_ifs at h with hdigit
    cases h
    refine ⟨?_, ?_⟩
    · rw [← List.length_append, List.takeWhile_append_dropWhile]
    · rw [List.takeWhile_cons_of_pos hdigit]
      exact Nat.succ_pos _
  · cases h

theorem length_fraction_le (text : PyStr) : ((fraction text).getD text).length ≤ text.length := by
  unfold fraction
  split
  · next c rest =>
    split_ifs
    · have := length_dropWhile_le isDigit rest
      simp only [Option.getD_some, List.length_cons]
      omega
    · exact Nat.le_refl _
  · exact Nat.le_refl _

theorem length_exponent_le (text : PyStr) : ((exponent text).getD text).length ≤ text.length := by
  unfold exponent
  split
  · next e sign c rest =>
    have := length_dropWhile_le isDigit rest
    have := length_dropWhile_le isDigit (c :: rest)
    split_ifs <;> simp only [Option.getD_some, Option.getD_none, List.length_cons] at * <;> omega
  · split_ifs
    · exact Nat.zero_le _
    · exact Nat.le_refl _
  · exact Nat.le_refl _

theorem length_of_scanUnsigned {limits : Limits} {negative : Bool} {text rest : PyStr}
    {value : PyValue} (h : scanUnsigned limits negative text = .ok (value, rest)) :
    rest.length < text.length := by
  unfold scanUnsigned at h
  split at h
  · cases h
  · next digits rest' hpart =>
    obtain ⟨hsum, hpos⟩ := length_of_integerPart hpart
    have hlength : rest'.length < text.length := by omega
    dsimp only at h
    by_cases hfloat : (fraction rest').isSome || (exponent ((fraction rest').getD rest')).isSome
    · rw [if_pos hfloat] at h
      cases h
      exact Nat.lt_of_le_of_lt (length_exponent_le _)
        (Nat.lt_of_le_of_lt (length_fraction_le _) hlength)
    · rw [if_neg hfloat] at h
      by_cases hdigits : 0 < limits.intDigits ∧ limits.intDigits < digits.length
      · rw [if_pos hdigits] at h
        cases h
      · rw [if_neg hdigits] at h
        cases h
        exact hlength

theorem length_of_scanPlain {limits : Limits} {text rest : PyStr} {value : PyValue}
    (h : scanPlain limits text = .ok (value, rest)) : rest.length < text.length := by
  unfold scanPlain at h
  split at h
  · next hword => cases h; exact length_of_afterWord "null" (by decide) hword
  · next hword _ => cases h; exact length_of_afterWord "true" (by decide) hword
  · next hword _ _ => cases h; exact length_of_afterWord "false" (by decide) hword
  · next hword _ _ _ => cases h; exact length_of_afterWord "NaN" (by decide) hword
  · next hword _ _ _ _ => cases h; exact length_of_afterWord "Infinity" (by decide) hword
  · next hword _ _ _ _ _ => cases h; exact length_of_afterWord "-Infinity" (by decide) hword
  · split at h
    · have := length_of_scanUnsigned h
      simp only [List.length_cons]
      omega
    · exact length_of_scanUnsigned h

/-- What is scanned takes a part of the text. -/
theorem length_of_scan {limits : Limits} {fuel : ℕ} {goal : Goal} {depth : ℕ} {text rest : PyStr}
    {value : PyValue} (h : scan limits fuel goal depth text = .ok (value, rest)) :
    rest.length < text.length := by
  induction fuel generalizing goal depth text rest value with
  | zero => cases h
  | succ fuel ih =>
    cases goal with
    | value =>
      unfold scan at h
      split at h
      · next rest' =>
        split at h
        · next hstring =>
          cases h
          exact Nat.lt_succ_of_lt (length_of_scanString hstring)
        · cases h
      · next rest' =>
        split at h
        · cases h
        · split at h
          · next hskip =>
            cases h
            have hle := length_skipSpace_le rest'
            rw [hskip] at hle
            exact Nat.lt_of_lt_of_le (Nat.lt_succ_self _) (Nat.le_succ_of_le hle)
          · exact Nat.lt_of_lt_of_le (ih h) (Nat.le_succ_of_le (length_skipSpace_le rest'))
      · next rest' =>
        split at h
        · cases h
        · split at h
          · next hskip =>
            cases h
            have hle := length_skipSpace_le rest'
            rw [hskip] at hle
            exact Nat.lt_of_lt_of_le (Nat.lt_succ_self _) (Nat.le_succ_of_le hle)
          · exact Nat.lt_of_lt_of_le (ih h) (Nat.le_succ_of_le (length_skipSpace_le rest'))
      · exact length_of_scanPlain h
    | items read =>
      unfold scan at h
      split at h
      · cases h
      · next item rest' hitem =>
        have hlt := ih hitem
        have hle := length_skipSpace_le rest'
        split at h
        · next hskip =>
          cases h
          rw [hskip, List.length_cons] at hle
          omega
        · next after hskip =>
          rw [hskip, List.length_cons] at hle
          have := ih h
          have := length_skipSpace_le after
          omega
        · cases h
    | members read =>
      unfold scan at h
      split at h
      · split at h
        · cases h
        · next key afterKey hkey =>
          have hkeyLt := length_of_scanString hkey
          have hkeyLe := length_skipSpace_le afterKey
          split at h
          · next afterColon hcolon =>
            rw [hcolon, List.length_cons] at hkeyLe
            have hcolonLe := length_skipSpace_le afterColon
            split at h
            · cases h
            · next member rest' hmember =>
              have hlt := ih hmember
              have hle := length_skipSpace_le rest'
              rw [List.length_cons]
              split at h
              · next hskip =>
                cases h
                rw [hskip, List.length_cons] at hle
                omega
              · next after hskip =>
                rw [hskip, List.length_cons] at hle
                have := ih h
                have := length_skipSpace_le after
                omega
              · cases h
          · cases h
      · cases h

/-- The fuel that a goal takes on a text of this length. -/
def Goal.cost : Goal → ℕ → ℕ
  | .value, n => 2 * n + 1
  | .items _, n => 2 * n + 2
  | .members _, n => 2 * n + 1

theorem Goal.cost_value (n : ℕ) : Goal.value.cost n = 2 * n + 1 := rfl

theorem Goal.cost_items (read : List PyValue) (n : ℕ) : (Goal.items read).cost n = 2 * n + 2 := rfl

theorem Goal.cost_members (read : List (PyStr × PyValue)) (n : ℕ) :
    (Goal.members read).cost n = 2 * n + 1 := rfl

theorem scan_succ {limits : Limits} {fuel : ℕ} {goal : Goal} {depth : ℕ} {text : PyStr}
    (h : goal.cost text.length ≤ fuel) :
    scan limits (fuel + 1) goal depth text = scan limits fuel goal depth text := by
  induction fuel generalizing goal depth text with
  | zero => cases goal <;> simp [Goal.cost] at h
  | succ fuel ih =>
    cases goal with
    | value =>
      rw [Goal.cost_value] at h
      conv_lhs => unfold scan
      conv_rhs => unfold scan
      split
      · rfl
      · next rest =>
        have hle := length_skipSpace_le rest
        rw [List.length_cons] at h
        split
        · rfl
        · split
          · rfl
          · exact ih (by rw [Goal.cost_members]; omega)
      · next rest =>
        have hle := length_skipSpace_le rest
        rw [List.length_cons] at h
        split
        · rfl
        · split
          · rfl
          · exact ih (by rw [Goal.cost_items]; omega)
      · rfl
    | items read =>
      rw [Goal.cost_items] at h
      conv_lhs => unfold scan
      conv_rhs => unfold scan
      rw [@ih .value _ _ (by rw [Goal.cost_value]; omega)]
      split
      · rfl
      · next item rest hitem =>
        have hlt := length_of_scan hitem
        have hle := length_skipSpace_le rest
        split
        · rfl
        · next after hskip =>
          have hafter := length_skipSpace_le after
          rw [hskip, List.length_cons] at hle
          exact ih (by rw [Goal.cost_items]; omega)
        · rfl
    | members read =>
      rw [Goal.cost_members] at h
      conv_lhs => unfold scan
      conv_rhs => unfold scan
      split
      · rw [List.length_cons] at h
        split
        · rfl
        · next key afterKey hkey =>
          have hkeyLt := length_of_scanString hkey
          have hkeyLe := length_skipSpace_le afterKey
          split
          · next afterColon hcolon =>
            rw [hcolon, List.length_cons] at hkeyLe
            have hcolonLe := length_skipSpace_le afterColon
            rw [@ih .value _ _ (by rw [Goal.cost_value]; omega)]
            split
            · rfl
            · next member rest hmember =>
              have hlt := length_of_scan hmember
              have hle := length_skipSpace_le rest
              split
              · rfl
              · next after hskip =>
                have hafter := length_skipSpace_le after
                rw [hskip, List.length_cons] at hle
                exact ih (by rw [Goal.cost_members]; omega)
              · rfl
          · rfl
      · rfl

/-- **More fuel than the length asks for changes nothing.** -/
theorem scan_fuel {limits : Limits} {fuel : ℕ} {goal : Goal} {depth : ℕ} {text : PyStr}
    (h : goal.cost text.length ≤ fuel) :
    scan limits fuel goal depth text = scan limits (goal.cost text.length) goal depth text := by
  induction fuel, h using Nat.le_induction with
  | base => rfl
  | succ fuel hle ih => rw [scan_succ hle, ih]

/-! ## Too many brackets -/

/-- Brackets one deeper than the limit. -/
theorem scan_brackets {limits : Limits} {fuel depth : ℕ} (h : 2 * depth + 1 ≤ fuel) :
    scan limits fuel .value depth (List.replicate (depth + 1) (.scalar '[')) =
      .error .recursion := by
  induction depth generalizing fuel with
  | zero =>
    obtain ⟨fuel, rfl⟩ := Nat.exists_eq_add_of_le' h
    rfl
  | succ depth ih =>
    obtain ⟨fuel, rfl⟩ := Nat.exists_eq_add_of_le' (Nat.le_trans (show 2 ≤ _ by omega) h)
    have hinner := @ih fuel (by omega)
    rw [List.replicate_succ]
    show scan limits (fuel + 1) (.items []) depth (List.replicate (depth + 1) (.scalar '[')) = _
    unfold scan
    rw [hinner]

/-- **Brackets one deeper than the limit raise a `RecursionError`.** -/
theorem loads_brackets (limits : Limits) :
    loads limits (List.replicate (limits.depth + 1) (.scalar '[')) = .error .recursion := by
  have hskip : skipSpace (List.replicate (limits.depth + 1) (.scalar '[')) =
      List.replicate (limits.depth + 1) (.scalar '[') := rfl
  have hscan := @scan_brackets limits
    (2 * (List.replicate (limits.depth + 1) (CodePoint.scalar '[')).length + 1) limits.depth
    (by rw [List.length_replicate]; omega)
  rw [loads, hskip, hscan]
  rfl

end PyJson
