import SmartDesk.Lib.FlatJson
import SmartDesk.Firmware.Policy

/-!
# The firmware side of the wire

`firmware/relay-controller/include/protocol.h`: the two payload parsers.  The
JSON library is not part of the repository, so `deserializeJson` is a parameter;
what the parsers rely on is `Deserializes`.

* `JsonScalar`, `JsonDocument` — what a deserialised document can be asked for.
* `parseControl`, `parseHeight` — the parsers, with every error they return and what they
  write to their output.
* `holdMs_of_parseControl` — an accepted motion command carries a hold of 50 to
  500 ms.
* `measured_of_parseHeight` — an accepted height is a measured height.
* `Deserializes` — a flat object is read as its members.
* `deserializeFlat`, `deserializes_deserializeFlat` — the reader of flat objects
  is such a deserialiser.
-/

namespace SmartDesk.Firmware

/-- A payload or a C string without its terminator. -/
abbrev Bytes := List UInt8

/-- The bytes of an ASCII text. -/
def ascii (text : List Char) : Bytes := text.map fun c => UInt8.ofNat c.toNat

/-- The bytes of a string literal of the source. -/
def literal (s : String) : Bytes := ascii s.toList

/-- What `strcmp`, `strlen` and `memcpy` see of a string: the bytes before the
first NUL. -/
def cString (s : Bytes) : Bytes := s.takeWhile (· ≠ 0)

/-! ## Documents -/

/-- A variant of a document.  Nested arrays and objects are never entered. -/
inductive JsonScalar where
  | null
  | bool (b : Bool)
  | integer (n : ℤ)
  | float (x : Ieee)
  | string (s : Bytes)
  | array
  | object
  deriving DecidableEq

/-- A document: an object with its members, or anything else. -/
inductive JsonDocument where
  | value (v : JsonScalar)
  | object (members : List (Bytes × JsonScalar))

/-- `object[key]`; a missing member is the null variant. -/
def lookup (object : List (Bytes × JsonScalar)) (key : Bytes) : JsonScalar :=
  ((object.find? fun m => m.1 = key).map Prod.snd).getD .null

/-- `value.is<const char*>()` with `value.as<const char*>()`. -/
def JsonScalar.asCString : JsonScalar → Option Bytes
  | .string s => some (cString s)
  | _ => none

/-- `value.is<long>()` with `value.as<long>()`; `long` has 32 bits. -/
def JsonScalar.asLong : JsonScalar → Option ℤ
  | .integer n => if -2 ^ 31 ≤ n ∧ n < 2 ^ 31 then some n else none
  | _ => none

/-- `value.as<float>()` for the variants that the height test lets through. -/
def JsonScalar.asFloat : JsonScalar → Option Ieee
  | .integer n => some (Ieee.float32 n)
  | .float x => some x
  | _ => none

/-- `hasExactKeys(object, keys, count)`. -/
def hasExactKeys (object : List (Bytes × JsonScalar)) (keys : List Bytes) : Bool :=
  object.length = keys.length && object.all fun m => keys.contains (cString m.1)

/-! ## Parsers -/

inductive Error where
  | payloadSize
  | invalidJson
  | invalidCommand
  | extraFields
  | untrustedSource
  | invalidHold
  | invalidHeight
  deriving DecidableEq, Repr

inductive CommandType where
  | stop
  | up
  | down
  deriving DecidableEq, Repr

structure Command where
  type : CommandType := .stop
  holdMs : ℕ := 0
  deriving DecidableEq, Repr

structure Height where
  heightCm : Ieee := .nan
  observedAt : Bytes := []
  deriving DecidableEq

/-- What a parser returns: `output` with `None`, or an error and what `output` is then. -/
abbrev Parsed (α : Type) : Type := Except (Error × α) α

variable (deserializeJson : Bytes → Option JsonDocument)

/-- The part of `parseControl` behind the command text of a motion command. -/
def parseMotion (type : CommandType) (object : List (Bytes × JsonScalar)) (output : Command) :
    Parsed Command :=
  if ¬ hasExactKeys object [literal "command", literal "source", literal "hold_ms"] then
    .error (.extraFields, output)
  else if (lookup object (literal "source")).asCString ≠ some (literal "desk_service") then
    .error (.untrustedSource, output)
  else
    match (lookup object (literal "hold_ms")).asLong with
    | none => .error (.invalidHold, output)
    | some holdMs =>
        if ¬ holdAllowed holdMs then .error (.invalidHold, output)
        else .ok { output with type := type, holdMs := holdMs.toNat }

/-- `parseControl` once the document is an object. -/
def parseCommand (object : List (Bytes × JsonScalar)) (output : Command) : Parsed Command :=
  match (lookup object (literal "command")).asCString with
  | none => .error (.invalidCommand, output)
  | some command =>
      if command = literal "STOP" then
        if ¬ hasExactKeys object [literal "command"] then .error (.extraFields, output)
        else .ok { output with type := .stop, holdMs := 0 }
      else if command = literal "UP" then parseMotion .up object output
      else if command = literal "DOWN" then parseMotion .down object output
      else .error (.invalidCommand, output)

/-- `parseControl(payload, length, maximumLength, output)`. -/
def parseControl (payload : Bytes) (maximumLength : ℕ) (output : Command) : Parsed Command :=
  if payload.length = 0 ∨ maximumLength < payload.length then .error (.payloadSize, output)
  else
    match deserializeJson payload with
    | some (.object object) => parseCommand object output
    | _ => .error (.invalidJson, output)

/-- `parseHeight` once the document is an object.  The destination buffer holds
48 bytes with the terminator. -/
def parseObservation (maximumObservedAtLength : ℕ) (object : List (Bytes × JsonScalar))
    (output : Height) : Parsed Height :=
  if ¬ hasExactKeys object [literal "schema", literal "observed_at", literal "height_cm"] then
    .error (.invalidHeight, output)
  else if (lookup object (literal "schema")).asCString ≠ some (literal "smartdesk.height.v1") then
    .error (.invalidHeight, output)
  else
    match (lookup object (literal "observed_at")).asCString,
        (lookup object (literal "height_cm")).asFloat with
    | some observedAt, some height =>
        if observedAt.length = 0 ∨ maximumObservedAtLength < observedAt.length ∨
            48 ≤ observedAt.length then .error (.invalidHeight, output)
        else if ¬ measuredHeightAllowed height then .error (.invalidHeight, output)
        else .ok { output with heightCm := height, observedAt := observedAt }
    | _, _ => .error (.invalidHeight, output)

/-- `parseHeight(payload, length, maximumLength, maximumObservedAtLength, output)`. -/
def parseHeight (payload : Bytes) (maximumLength maximumObservedAtLength : ℕ) (output : Height) :
    Parsed Height :=
  if payload.length = 0 ∨ maximumLength < payload.length then .error (.payloadSize, output)
  else
    match deserializeJson payload with
    | some (.object object) => parseObservation maximumObservedAtLength object output
    | _ => .error (.invalidJson, output)

/-! ## What a parser writes -/

section Output

variable {object : List (Bytes × JsonScalar)} {e : Error}

theorem parseMotion_unchanged {type : CommandType} {output value : Command}
    (h : parseMotion type object output = .error (e, value)) : value = output := by
  unfold parseMotion at h
  split at h
  · cases h
    rfl
  · split at h
    · cases h
      rfl
    · split at h
      · cases h
        rfl
      · split at h
        · cases h
          rfl
        · cases h

/-- **On an error `parseControl` leaves its output as it was.** -/
theorem parseControl_unchanged {payload : Bytes} {maximumLength : ℕ} {output value : Command}
    (h : parseControl deserializeJson payload maximumLength output = .error (e, value)) :
    value = output := by
  unfold parseControl at h
  split_ifs at h
  · cases h
    rfl
  · split at h
    · unfold parseCommand at h
      split at h
      · cases h
        rfl
      · split_ifs at h
        · cases h
          rfl
        · exact parseMotion_unchanged h
        · exact parseMotion_unchanged h
        · cases h
          rfl
    · cases h
      rfl

/-- **On an error `parseHeight` leaves its output as it was.** -/
theorem parseHeight_unchanged {payload : Bytes} {maximumLength maximumObservedAtLength : ℕ}
    {output value : Height}
    (h : parseHeight deserializeJson payload maximumLength maximumObservedAtLength output =
      .error (e, value)) : value = output := by
  unfold parseHeight at h
  split_ifs at h
  · cases h
    rfl
  · split at h
    · unfold parseObservation at h
      split at h
      · cases h
        rfl
      · split at h
        · cases h
          rfl
        · split at h
          · split_ifs at h
            all_goals
              cases h
              rfl
          · cases h
            rfl
    · cases h
      rfl

end Output

/-! ## What an accepted payload says -/

theorem parseMotion_eq_ok {type : CommandType} {object : List (Bytes × JsonScalar)}
    {output c : Command} (h : parseMotion type object output = .ok c) :
    c.type = type ∧ 50 ≤ c.holdMs ∧ c.holdMs ≤ 500 := by
  unfold parseMotion at h
  split_ifs at h
  split at h
  · cases h
  · rename_i holdMs _
    split_ifs at h with hhold
    cases h
    have hbounds : 50 ≤ holdMs ∧ holdMs ≤ 500 := holdAllowed_iff.mp (by simpa using hhold)
    exact ⟨rfl, by simp only; omega, by simp only; omega⟩

theorem parseCommand_eq_ok {object : List (Bytes × JsonScalar)} {output c : Command}
    (h : parseCommand object output = .ok c) :
    c.type = .stop ∨ 50 ≤ c.holdMs ∧ c.holdMs ≤ 500 := by
  unfold parseCommand at h
  split at h
  · cases h
  · split_ifs at h
    · cases h
      exact .inl rfl
    · exact .inr (parseMotion_eq_ok h).2
    · exact .inr (parseMotion_eq_ok h).2

/-- **An accepted motion command has a hold of 50 to 500 ms.** -/
theorem holdMs_of_parseControl {payload : Bytes} {maximumLength : ℕ} {output c : Command}
    (h : parseControl deserializeJson payload maximumLength output = .ok c) :
    c.type = .stop ∨ 50 ≤ c.holdMs ∧ c.holdMs ≤ 500 := by
  unfold parseControl at h
  split_ifs at h
  split at h
  · exact parseCommand_eq_ok h
  · cases h

/-- **An accepted height is a measured height.** -/
theorem measured_of_parseHeight {payload : Bytes} {maximumLength maximumObservedAtLength : ℕ}
    {output h : Height}
    (hp : parseHeight deserializeJson payload maximumLength maximumObservedAtLength output = .ok h) :
    measuredHeightAllowed h.heightCm = true := by
  unfold parseHeight at hp
  split_ifs at hp
  split at hp
  · unfold parseObservation at hp
    split_ifs at hp
    split at hp
    · split_ifs at hp with hlen hm
      cases hp
      simpa using hm
    · cases hp
  · cases hp

/-! ## What the parsers rely on -/

/-- A variant that holds a given value of a flat object.  A fraction is read as
a number that no whole number of the binade from 64 to 128 separates from it. -/
def Denotes : FlatJson.Value → JsonScalar → Prop
  | .string s, v => v = .string (ascii s)
  | .integer n, v => n.natAbs < 2 ^ 31 → v = .integer n
  | .decimal m k, v => ∃ x : Ieee, v = .float x ∧
      ∀ a b : ℤ, 64 ≤ a → b ≤ 127 → (a : ℚ) ≤ m / 10 ^ (k + 1) → (m : ℚ) / 10 ^ (k + 1) ≤ b →
        ∃ r : ℚ, x = .finite r ∧ (a : ℚ) ≤ r ∧ r ≤ b

/-- Texts of seven-bit characters. -/
def Ascii (text : List Char) : Prop := ∀ c ∈ text, c.toNat < 128

/-- Objects whose compact text fits the MQTT buffer, needs neither escapes nor
multi-byte characters and names no key twice. -/
structure WireObject (o : FlatJson.Object) : Prop where
  plain : FlatJson.Plain o
  ascii : Ascii (FlatJson.render o)
  nodup : (o.map Prod.fst).Nodup
  fits : (FlatJson.render o).length ≤ mqttBufferBytes

/-- The documented behaviour of `deserializeJson` on such a text: the document
is the object, member by member. -/
def Deserializes : Prop :=
  ∀ o : FlatJson.Object, WireObject o →
    ∃ members, deserializeJson (ascii (FlatJson.render o)) = some (.object members) ∧
      List.Forall₂ (fun m j => j.1 = ascii m.1 ∧ Denotes m.2 j.2) o members

/-! ## Seven-bit texts -/

/-- Members whose key and value are seven-bit texts. -/
def AsciiMember (m : List Char × FlatJson.Value) : Prop :=
  Ascii m.1 ∧ ∀ s, m.2 = .string s → Ascii s

@[simp] theorem ascii_nil : Ascii [] := by simp [Ascii]

@[simp] theorem ascii_cons {c : Char} {text : List Char} :
    Ascii (c :: text) ↔ c.toNat < 128 ∧ Ascii text := List.forall_mem_cons

@[simp] theorem ascii_append {a b : List Char} : Ascii (a ++ b) ↔ Ascii a ∧ Ascii b :=
  List.forall_mem_append

theorem ascii_of_isDigit {text : List Char} (h : ∀ c ∈ text, c.isDigit = true) : Ascii text := by
  intro c hc
  have hd := h c hc
  simp only [Char.isDigit, Bool.and_eq_true, decide_eq_true_eq] at hd
  have : c.val.toNat ≤ 57 := hd.2
  exact lt_of_le_of_lt this (by decide)

theorem ascii_natText (n : ℕ) : Ascii (FlatJson.natText n) :=
  ascii_of_isDigit fun _ => FlatJson.isDigit_of_mem_natText

theorem ascii_fixedText (width n : ℕ) : Ascii (FlatJson.fixedText width n) :=
  ascii_of_isDigit fun _ => FlatJson.isDigit_of_mem_fixedText

theorem ascii_signText (n : ℤ) {text : List Char} (h : Ascii text) :
    Ascii (FlatJson.signText n text) := by
  unfold FlatJson.signText
  split
  · simpa using h
  · exact h

theorem ascii_memberText {m : List Char × FlatJson.Value} (h : AsciiMember m) :
    Ascii (FlatJson.memberText m) := by
  have hvalue : Ascii (FlatJson.valueText m.2) := by
    cases hv : m.2 with
    | string s => simpa [FlatJson.valueText, FlatJson.quoted] using h.2 s hv
    | integer n => exact ascii_signText n (ascii_natText _)
    | decimal mantissa scale =>
      refine ascii_signText mantissa ?_
      simp [ascii_natText, ascii_fixedText]
  simp [FlatJson.memberText, FlatJson.quoted, h.1, hvalue]

theorem ascii_tailText {o : FlatJson.Object} (h : ∀ m ∈ o, AsciiMember m) :
    Ascii (FlatJson.tailText o) := by
  induction o with
  | nil => simp [FlatJson.tailText]
  | cons m o ih =>
    have hm := ascii_memberText (h m (by simp))
    have ho := ih fun x hx => h x (by simp [hx])
    simp [FlatJson.tailText, hm, ho]

/-- The text of an object is seven-bit if its strings are. -/
theorem ascii_render {o : FlatJson.Object} (h : ∀ m ∈ o, AsciiMember m) :
    Ascii (FlatJson.render o) := by
  cases o with
  | nil => simp [FlatJson.render]
  | cons m o =>
    have hm := ascii_memberText (h m (by simp))
    have ho := ascii_tailText (o := o) fun x hx => h x (by simp [hx])
    simp [FlatJson.render, hm, ho]

instance (text : List Char) : Decidable (Ascii text) :=
  List.decidableBAll (fun c : Char => c.toNat < 128) text

/-! ## A reader of flat objects -/

/-- The characters of seven-bit bytes. -/
def asciiText (bytes : Bytes) : List Char := bytes.map fun b => Char.ofNat b.toNat

theorem asciiText_ascii {text : List Char} (h : Ascii text) : asciiText (ascii text) = text := by
  induction text with
  | nil => rfl
  | cons c text ih =>
    have hc : c.toNat < 128 := h c (by simp)
    have hbyte : (UInt8.ofNat c.toNat).toNat = c.toNat := by
      rw [UInt8.toNat_ofNat']
      omega
    have htail := ih fun d hd => h d (by simp [hd])
    rw [asciiText, ascii] at htail ⊢
    rw [List.map_cons, List.map_cons, hbyte, Char.ofNat_toNat, htail]

theorem ascii_injective {a b : List Char} (ha : Ascii a) (hb : Ascii b) (h : ascii a = ascii b) :
    a = b := by
  rw [← asciiText_ascii ha, h, asciiText_ascii hb]

/-- The variant of a flat value. -/
def scalarOf : FlatJson.Value → JsonScalar
  | .string s => .string (ascii s)
  | .integer n => .integer n
  | .decimal m k => .float (Ieee.float32 (m / 10 ^ (k + 1)))

/-- A deserialiser for flat objects, and for nothing else. -/
def deserializeFlat (payload : Bytes) : Option JsonDocument :=
  (FlatJson.parse (asciiText payload)).map fun o =>
    .object (o.map fun m => (ascii m.1, scalarOf m.2))

theorem denotes_scalarOf (v : FlatJson.Value) : Denotes v (scalarOf v) := by
  cases v with
  | string s => rfl
  | integer n => exact fun _ => rfl
  | decimal m k => exact ⟨_, rfl, fun a b ha hb h₁ h₂ => Ieee.float32_mem_Icc ha hb h₁ h₂⟩

theorem deserializes_deserializeFlat : Deserializes deserializeFlat := by
  intro o ho
  refine ⟨o.map fun m => (ascii m.1, scalarOf m.2), ?_, ?_⟩
  · rw [deserializeFlat, asciiText_ascii ho.ascii, FlatJson.parse_render ho.plain]
    rfl
  · rw [List.forall₂_map_right_iff]
    exact List.forall₂_same.mpr fun m _ => ⟨rfl, denotes_scalarOf m.2⟩

end SmartDesk.Firmware
