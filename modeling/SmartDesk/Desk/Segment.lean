import SmartDesk.Desk.Settings
import SmartDesk.Lib.FlatJson
import SmartDesk.Lib.JsonLimits

/-!
# The segments of the display

`modules/desk/segment.py`: a line of the Arduino is a JSON object with the masks and the
points of the three digits.

* `SegmentDecoder.decode` — the height of a line, or what `json.loads` raises and nobody
  catches.
* `decode_total_iff` — **decoding gives `None` or a height in the measurement range, unless
  a number is too long or a value too deep for `json.loads`**.
-/

namespace SmartDesk.Desk

open PyText PyJson

/-- What a serial source gives. -/
inductive RawMessage where
  | bytes (raw : ByteArray)
  | str (text : PyStr)

/-- The segments of a digit. -/
def maskToDigit : List (ℤ × Char) :=
  [(0x7E, '0'), (0x30, '1'), (0x6D, '2'), (0x79, '3'), (0x33, '4'), (0x5B, '5'), (0x5F, '6'),
    (0x70, '7'), (0x7F, '8'), (0x7B, '9')]

/-- The digits of the display, and the last of them. -/
def digitNumbers : List ℕ := [8, 9, 10]

def lastDigitNumber : ℕ := 10

/-- `f"m{number}"`, `f"p{number}"`. -/
def fieldName (letter : Char) (number : ℕ) : PyStr :=
  PyText.decode (letter :: FlatJson.natText number)

def freshField : PyStr := PyText.decode "fresh".toList

def requiredFields : List PyStr :=
  freshField :: (digitNumbers.map (fieldName 'm') ++ digitNumbers.map (fieldName 'p'))

/-- A packet: the members of a JSON object. -/
abbrev Packet : Type := List (PyStr × PyValue)

/-- `packet.get(key)`, if it is an `int` and no `bool`. -/
def Packet.plainInt (packet : Packet) (key : PyStr) : Option ℤ :=
  match packet.lookup key with
  | some (.int n) => some n
  | _ => none

/-- `float(text)` of digits with at most one point. -/
def floatOfDigits (text : List Char) : Option Ieee :=
  let whole := text.takeWhile (· != '.')
  let fraction := (text.dropWhile (· != '.')).drop 1
  if (whole ++ fraction).all Char.isDigit && !(whole ++ fraction).isEmpty then
    some (Ieee.float64 (FlatJson.digitsValue (whole ++ fraction) / 10 ^ fraction.length))
  else none

namespace SegmentDecoder

/-- `_decode_text(raw_message)`: bytes that are no UTF-8 have no text. -/
def decodeText : RawMessage → Option PyStr
  | .bytes raw => raw.utf8Decode?.map fun chars => PyText.decode chars.toList
  | .str text => some text

/-- The loop over the digits: what is read of them, with the number of points. -/
def readDigits (packet : Packet) : List ℕ → List Char → ℕ → Option (List Char)
  | [], digits, _ => some digits
  | number :: numbers, digits, pointCount =>
      match packet.plainInt (fieldName 'm' number), packet.plainInt (fieldName 'p' number) with
      | some mask, some point =>
          match maskToDigit.lookup mask with
          | none => none
          | some digit =>
              if point = 0 then readDigits packet numbers (digits ++ [digit]) pointCount
              else if point = 1 then
                if 1 < pointCount + 1 ∨ number = lastDigitNumber then none
                else readDigits packet numbers (digits ++ [digit, '.']) (pointCount + 1)
              else none
      | _, _ => none

/-- The height of a packet, if it is complete and in the measurement range. -/
def decodePacket (settings : DeskSettings) : PyValue → Option Ieee
  | .dict packet =>
      if requiredFields.all fun field => packet.any (·.1 = field) then
        if Packet.plainInt packet freshField = some 7 then
          match readDigits packet digitNumbers [] 0 with
          | none => none
          | some digits =>
              match floatOfDigits digits with
              | none => none
              | some height =>
                  if height.isFinite = true ∧ Ieee.finite settings.measurementMinCm ≤ height ∧
                      height ≤ Ieee.finite settings.measurementMaxCm then some height
                  else none
        else none
      else none
  | _ => none

/-- `decode(raw_message)`.  A plain `ValueError` and a `RecursionError` are not caught. -/
def decode (limits : Limits) (settings : DeskSettings) (raw : RawMessage) :
    Except LoadError (Option Ieee) :=
  match decodeText raw with
  | none => .ok none
  | some text =>
      match loads limits text with
      | .error .jsonDecode => .ok none
      | .error e => .error e
      | .ok packet => .ok (decodePacket settings packet)

/-! ## What decoding gives -/

/-- A finite height in the measurement range. -/
def Measured (settings : DeskSettings) (height : Ieee) : Prop :=
  ∃ q : ℚ, height = .finite q ∧ settings.measurementMinCm ≤ q ∧ q ≤ settings.measurementMaxCm

theorem measured_of_decodePacket {settings : DeskSettings} {packet : PyValue} {height : Ieee}
    (h : decodePacket settings packet = some height) : Measured settings height := by
  unfold decodePacket at h
  split at h
  · split_ifs at h
    split at h
    · cases h
    · split at h
      · cases h
      · split_ifs at h with hrange
        cases h
        obtain ⟨hfinite, hlow, hhigh⟩ := hrange
        obtain ⟨q, rfl⟩ := Ieee.exists_of_isFinite hfinite
        exact ⟨q, rfl, Ieee.finite_le_finite.mp hlow, Ieee.finite_le_finite.mp hhigh⟩
  · cases h

theorem measured_of_decode {limits : Limits} {settings : DeskSettings} {raw : RawMessage}
    {height : Ieee} (h : decode limits settings raw = .ok (some height)) :
    Measured settings height := by
  unfold decode at h
  split at h
  · cases h
  · split at h
    · cases h
    · cases h
    · exact measured_of_decodePacket (Except.ok.inj h)

/-- In the text of the message no value is nested too deep, and no integer is too long. -/
def WithinLimits (limits : Limits) (raw : RawMessage) : Prop :=
  ∀ text, decodeText raw = some text → ¬ Exceeds limits text

/-- Nothing else is raised. -/
theorem exists_decode_iff {limits : Limits} {settings : DeskSettings} {raw : RawMessage} :
    (∃ height, decode limits settings raw = .ok height) ↔ WithinLimits limits raw := by
  cases htext : decodeText raw with
  | none => simp [decode, WithinLimits, htext]
  | some text =>
    have hexceeds := loads_exceeds_iff limits text
    have hwithin : WithinLimits limits raw ↔ ¬ Exceeds limits text := by
      simp [WithinLimits, htext]
    rw [hwithin, ← hexceeds]
    cases hload : loads limits text with
    | ok packet => simp [decode, htext, hload]
    | error e => cases e <;> simp [decode, htext, hload]

/-- **Decoding gives `None` or a height in the measurement range, unless a number is too
long or a value too deep for `json.loads`.** -/
theorem decode_total_iff (limits : Limits) (settings : DeskSettings) (raw : RawMessage) :
    (∃ height, decode limits settings raw = .ok height ∧ ∀ h ∈ height, Measured settings h) ↔
      WithinLimits limits raw := by
  rw [← @exists_decode_iff limits settings raw]
  constructor
  · rintro ⟨height, hdecode, -⟩
    exact ⟨height, hdecode⟩
  · rintro ⟨height, hdecode⟩
    refine ⟨height, hdecode, ?_⟩
    rintro h rfl
    exact measured_of_decode hdecode

end SegmentDecoder

end SmartDesk.Desk
