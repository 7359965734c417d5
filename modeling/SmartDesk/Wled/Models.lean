import SmartDesk.Lib.Ieee
import SmartDesk.Lib.PyText

/-!
# WLED models

`modules/wled/models.py`, the values that a WLED device can answer with, and the colours.

* `Json` — a decoded body, with Python's access to it.
* `WledSnapshot`, `WledCapabilities` — what the client keeps.
* `hexText_rgb` — **a colour that was normalised is read back from its RGB values.**
-/

namespace SmartDesk.Wled

open PyText

inductive WledMode where
  | off
  | solid
  | effect
  | mixed
  deriving DecidableEq

inductive WledStatus where
  | disabled
  | unknown
  | online
  | error
  deriving DecidableEq

structure WledCatalogItem where
  id : ℤ
  name : PyStr
  deriving DecidableEq

/-- A moment of the clock, in microseconds. -/
abbrev Instant : Type := ℤ

structure WledCapabilities where
  deviceName : PyStr
  firmwareVersion : PyStr
  effects : List WledCatalogItem
  palettes : List WledCatalogItem
  observedAt : Instant
  deriving DecidableEq

/-- The fields of a snapshot that were read from a response. -/
structure Observed where
  on : Option Bool
  brightness : Option ℤ
  mode : Option WledMode
  color : Option PyStr
  effectId : Option ℤ
  effectName : Option PyStr
  paletteId : Option ℤ
  speed : Option ℤ
  intensity : Option ℤ
  observedAt : Option Instant
  deriving DecidableEq

/-- `WledSnapshot` -/
structure WledSnapshot extends Observed where
  status : WledStatus
  lastError : Option String
  deriving DecidableEq

/-- Nothing was observed. -/
def Observed.empty : Observed := ⟨none, none, none, none, none, none, none, none, none, none⟩

/-! ## Bodies -/

/-- A value of `response.json()`. -/
inductive Json where
  | null
  | bool (b : Bool)
  | int (n : ℤ)
  | float (x : Ieee)
  | str (s : PyStr)
  | list (items : List Json)
  | dict (members : List (PyStr × Json))

abbrev JsonObject : Type := List (PyStr × Json)

def key (name : String) : PyStr := decode name.toList

/-- `o.get(name)`; a missing key and a `null` are both `None`. -/
def JsonObject.get (o : JsonObject) (name : String) : Option Json :=
  match o.lookup (key name) with
  | some .null => none
  | value => value

/-- `value` if `isinstance(value, int)`; a `bool` is an `int`. -/
def Json.int? : Json → Option ℤ
  | .int n => some n
  | .bool b => some b.toNat
  | _ => none

def Json.bool? : Json → Option Bool
  | .bool b => some b
  | _ => none

def Json.str? : Json → Option PyStr
  | .str s => some s
  | _ => none

def Json.list? : Json → Option (List Json)
  | .list items => some items
  | _ => none

def Json.dict? : Json → Option JsonObject
  | .dict members => some members
  | _ => none

/-- `value == n`: an `int` and a `float` are compared by their values. -/
def Json.equals (n : ℤ) : Json → Bool
  | .int m => decide (m = n)
  | .bool b => decide ((b.toNat : ℤ) = n)
  | .float (.finite q) => decide (q = n)
  | _ => false

/-! ## Colours -/

def upperHexDigits : List Char := "0123456789ABCDEF".toList

/-- `upper()` of a code point, as far as hexadecimal digits come out of it. -/
def upperText : CodePoint → PyStr
  | .scalar 'ﬀ' => [.scalar 'F', .scalar 'F']
  | .scalar c => [.scalar c.toUpper]
  | .surrogate half => [.surrogate half]

/-- `[0-9A-F]` -/
def isUpperHex : CodePoint → Bool
  | .scalar c => upperHexDigits.contains c
  | .surrogate _ => false

/-- `color.strip().upper()` matches `[0-9A-F]{6}`. -/
def normalizeColor? (color : PyStr) : Option PyStr :=
  let normalized := (strip color).flatMap upperText
  if normalized.length = 6 ∧ normalized.all isUpperHex then some normalized else none

/-- `int(c, 16)` of a digit. -/
def hexDigit : CodePoint → ℕ
  | .scalar c => upperHexDigits.idxOf c
  | .surrogate _ => 0

/-- `_rgb(color)`. -/
def rgb : PyStr → List ℤ
  | high :: low :: color => ((16 * hexDigit high + hexDigit low : ℕ) : ℤ) :: rgb color
  | _ => []

/-- `f"\x7bvalue:02X\x7d"` of a value below 256. -/
def hexPair (value : ℤ) : PyStr :=
  [.scalar (upperHexDigits.getD (value.toNat / 16) '0'),
    .scalar (upperHexDigits.getD (value.toNat % 16) '0')]

/-- `_hex(rgb)` of the values of a list. -/
def hexText (values : List (Option ℤ)) : Option PyStr :=
  match values with
  | some r :: some g :: some b :: _ =>
      if (0 ≤ r ∧ r ≤ 255) ∧ (0 ≤ g ∧ g ≤ 255) ∧ (0 ≤ b ∧ b ≤ 255) then
        some (hexPair r ++ hexPair g ++ hexPair b)
      else none
  | _ => none

theorem hexDigit_lt {c : CodePoint} (h : isUpperHex c = true) :
    hexDigit c < 16 ∧ CodePoint.scalar (upperHexDigits.getD (hexDigit c) '0') = c := by
  cases c with
  | scalar c =>
    have hmem : c ∈ upperHexDigits := by simpa [isUpperHex] using h
    have hlt : upperHexDigits.idxOf c < upperHexDigits.length := List.idxOf_lt_length_iff.mpr hmem
    refine ⟨hlt, ?_⟩
    show CodePoint.scalar ((upperHexDigits[upperHexDigits.idxOf c]?).getD '0') = .scalar c
    rw [List.getElem?_eq_getElem hlt, List.getElem_idxOf hlt]
    rfl
  | surrogate half => cases h

theorem hexPair_digits {high low : CodePoint} (hhigh : isUpperHex high = true)
    (hlow : isUpperHex low = true) :
    hexPair ((16 * hexDigit high + hexDigit low : ℕ) : ℤ) = [high, low] ∧
      (16 * hexDigit high + hexDigit low : ℕ) ≤ 255 := by
  obtain ⟨hlt, heq⟩ := hexDigit_lt hhigh
  obtain ⟨hlt', heq'⟩ := hexDigit_lt hlow
  have hdiv : (16 * hexDigit high + hexDigit low) / 16 = hexDigit high := by omega
  have hmod : (16 * hexDigit high + hexDigit low) % 16 = hexDigit low := by omega
  refine ⟨?_, by omega⟩
  rw [hexPair, Int.toNat_natCast, hdiv, hmod, heq, heq']

/-- **A normalised colour is read back.** -/
theorem hexText_rgb {color normalized : PyStr} (h : normalizeColor? color = some normalized) :
    hexText ((rgb normalized).map some) = some normalized := by
  simp only [normalizeColor?] at h
  split at h
  · next hok =>
    cases h
    obtain ⟨hlength, hall⟩ := hok
    generalize (strip color).flatMap upperText = text at hlength hall
    match text, hlength, hall with
    | [a, b, c, d, e, f], _, hall =>
      simp only [List.all_cons, List.all_nil, Bool.and_true, Bool.and_eq_true] at hall
      obtain ⟨ha, hb, hc, hd, he, hf⟩ := hall
      obtain ⟨hr, hrange⟩ := hexPair_digits ha hb
      obtain ⟨hg, hgrange⟩ := hexPair_digits hc hd
      obtain ⟨hbl, hbrange⟩ := hexPair_digits he hf
      simp only [rgb, List.map_cons, List.map_nil, hexText]
      rw [if_pos (by omega), hr, hg, hbl]
      rfl
  · cases h

end SmartDesk.Wled
