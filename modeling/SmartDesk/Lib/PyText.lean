import Mathlib.Data.List.DropRight
import Mathlib.Data.List.TakeWhile

/-!
# Text in Python and in a database

A `str` of Python is a sequence of code points, some of which may be halves of a
surrogate pair; UTF-8 has no bytes for these.

* `isSpace`, `stripWhere` — what `str.strip` and its relatives remove.
* `CodePoint`, `encode`, `decode` — a text, and the characters that UTF-8 can carry.
-/

namespace PyText

/-- The characters that `str.strip` removes. -/
def isSpace (c : Char) : Bool :=
  let n := c.toNat
  (9 ≤ n && n ≤ 13) || (28 ≤ n && n ≤ 32) || n == 133 || n == 160 || n == 5760 ||
    (8192 ≤ n && n ≤ 8202) || n == 8232 || n == 8233 || n == 8239 || n == 8287 || n == 12288

/-! ## Ends -/

section Strip

variable {α : Type*} (p : α → Bool)

/-- Both ends lose what `p` says. -/
def stripWhere (l : List α) : List α := (l.dropWhile p).rdropWhile p

/-- Neither end is one that `p` says. -/
def EndsKept (l : List α) : Prop :=
  (∀ c ∈ l.head?, p c = false) ∧ ∀ c ∈ l.getLast?, p c = false

variable {p}

theorem stripWhere_eq_self {l : List α} (h : EndsKept p l) : stripWhere p l = l := by
  have hdrop : l.dropWhile p = l := by
    cases l with
    | nil => rfl
    | cons c l => rw [List.dropWhile_cons_of_neg]; simp [h.1 c rfl]
  rw [stripWhere, hdrop, List.rdropWhile_eq_self_iff]
  intro hne
  simp [h.2 _ (List.getLast?_eq_some_getLast hne)]

theorem endsKept_stripWhere (l : List α) : EndsKept p (stripWhere p l) := by
  constructor
  · intro c hc
    -- What is left of the list starts as it did before its end was cut.
    obtain ⟨rest, hrest⟩ := List.rdropWhile_prefix p (l.dropWhile p)
    have hhead : c ∈ (l.dropWhile p).head? := by
      rw [← hrest, List.head?_append]
      simp only [stripWhere] at hc
      rw [hc]
      rfl
    have hhead' := List.head?_dropWhile_not p l
    rw [Option.mem_def.mp hhead] at hhead'
    simpa using hhead'
  · intro c hc
    have hne : stripWhere p l ≠ [] := by
      rintro h
      rw [h] at hc
      cases hc
    obtain rfl : (stripWhere p l).getLast hne = c := by
      simpa [List.getLast?_eq_some_getLast hne] using hc
    exact (Bool.not_eq_true _).mp (List.rdropWhile_last_not p (l.dropWhile p) hne)

/-- What keeps its ends for a class of characters keeps them for a part of it. -/
theorem EndsKept.mono {q : α → Bool} {l : List α} (h : EndsKept p l)
    (hq : ∀ c, q c = true → p c = true) : EndsKept q l := by
  constructor
  · intro c hc
    have := h.1 c hc
    grind
  · intro c hc
    have := h.2 c hc
    grind

end Strip

/-! ## Code points -/

/-- A Unicode scalar value, or one of the 2048 halves of a surrogate pair. -/
inductive CodePoint where
  | scalar (c : Char)
  | surrogate (half : Fin 2048)
  deriving DecidableEq

/-- A `str`. -/
abbrev PyStr : Type := List CodePoint

def CodePoint.isSpace : CodePoint → Bool
  | .scalar c => PyText.isSpace c
  | .surrogate _ => false

/-- `text.strip()`. -/
def strip (text : PyStr) : PyStr := stripWhere CodePoint.isSpace text

/-- `text.split()`: the words between the white space, with the one that has begun. -/
def splitWords : PyStr → PyStr → List PyStr
  | word, [] => if word = [] then [] else [word]
  | word, c :: text =>
      if c.isSpace then (if word = [] then [] else [word]) ++ splitWords [] text
      else splitWords (word ++ [c]) text

/-- `" ".join(words)`. -/
def joinWords (words : List PyStr) : PyStr := (words.intersperse [.scalar ' ']).flatten

/-- The text of characters. -/
def decode (chars : List Char) : PyStr := chars.map .scalar

/-- The characters of a text; a surrogate cannot be encoded. -/
def encode : PyStr → Option (List Char)
  | [] => some []
  | .scalar c :: text => (encode text).map (c :: ·)
  | .surrogate _ :: _ => none

@[simp] theorem encode_decode (chars : List Char) : encode (decode chars) = some chars := by
  induction chars with
  | nil => rfl
  | cons c chars ih => rw [decode, List.map_cons, encode, ← decode, ih]; rfl

theorem decode_of_encode {text : PyStr} {chars : List Char} (h : encode text = some chars) :
    decode chars = text := by
  induction text generalizing chars with
  | nil => cases h; rfl
  | cons c text ih =>
    cases c with
    | surrogate _ => cases h
    | scalar c =>
      obtain ⟨rest, hrest, rfl⟩ := Option.map_eq_some_iff.mp h
      rw [decode, List.map_cons, ← decode, ih hrest]

theorem encode_eq_some_iff {text : PyStr} {chars : List Char} :
    encode text = some chars ↔ decode chars = text :=
  ⟨decode_of_encode, fun h => h ▸ encode_decode chars⟩

theorem decode_injective {a b : List Char} (h : decode a = decode b) : a = b := by
  simpa using congrArg encode h

end PyText
