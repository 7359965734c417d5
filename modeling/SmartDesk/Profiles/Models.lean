import SmartDesk.Lib.Ieee
import SmartDesk.Lib.PyText

/-!
# Profiles

`modules/profiles/models.py`: what the models accept, and what they make of it.

* `ProfileValues.modelValidate` — the fields of a profile, normalised.
* `ProfileCreate`, `ProfileUpdate` — accepted values, with the proof.
* `modelValidate_idem` — **what a model has accepted it accepts again, unchanged**.
-/

namespace SmartDesk.Profiles

open PyText

/-! ## Field validators -/

def lowerHexDigits : List Char := "0123456789abcdef".toList

def upperHexDigits : List Char := "0123456789ABCDEF".toList

/-- `[0-9a-f]`. -/
def isLowerHex : CodePoint → Bool
  | .scalar c => lowerHexDigits.contains c
  | .surrogate _ => false

/-- `[0-9A-F]`. -/
def isUpperHex : CodePoint → Bool
  | .scalar c => upperHexDigits.contains c
  | .surrogate _ => false

/-- `[0-9A-Fa-f]`. -/
def isHex (c : CodePoint) : Bool := isLowerHex c || isUpperHex c

/-- `PROFILE_ID_PATTERN`. -/
def isProfileId (id : PyStr) : Bool :=
  id.take 8 == decode "profile-".toList && (id.drop 8).length == 32 && (id.drop 8).all isLowerHex

/-- `LED_COLOR_PATTERN`. -/
def isLedColor (value : PyStr) : Bool :=
  value.length == 6 && value.all isHex

/-- The heights that the fields accept. -/
def heightAllowed (height : Ieee) : Bool :=
  height.isFinite && Ieee.leb (.finite 75) height && Ieee.leb height (.finite 115)

/-- `normalize_name`; an empty name is refused. -/
def normalizeName (value : PyStr) : Option PyStr :=
  let normalized := strip value
  if normalized = [] then none else some normalized

/-- `upper()` of a hexadecimal digit. -/
def upperHex : CodePoint → CodePoint
  | .scalar c => .scalar c.toUpper
  | .surrogate half => .surrogate half

/-- `normalize_led_color`. -/
def normalizeLedColor : Option PyStr → Option (Option PyStr)
  | none => some none
  | some value => if isLedColor value then some (some (value.map upperHex)) else none

/-- A height as it is, if it is in the range. -/
def validateHeight (height : Ieee) : Option Ieee :=
  if heightAllowed height then some height else none

/-! ## Models -/

/-- The fields that `Profile` and `ProfileCreate` share. -/
structure ProfileValues where
  name : PyStr
  sittingHeightCm : Ieee
  standingHeightCm : Ieee
  ledColor : Option PyStr := none
  deriving DecidableEq

def ProfileValues.modelValidate (input : ProfileValues) : Option ProfileValues := do
  let name ← normalizeName input.name
  let sitting ← validateHeight input.sittingHeightCm
  let standing ← validateHeight input.standingHeightCm
  let led ← normalizeLedColor input.ledColor
  return ⟨name, sitting, standing, led⟩

/-- A `ProfileCreate` that the model has accepted. -/
structure ProfileCreate where
  values : ProfileValues
  accepted : values.modelValidate = some values

/-- A `Profile` that the model has accepted. -/
structure Profile where
  id : PyStr
  values : ProfileValues
  deriving DecidableEq

def Profile.modelValidate (id : PyStr) (input : ProfileValues) : Option Profile :=
  if isProfileId id then input.modelValidate.map (Profile.mk id) else none

/-- A server ID: `profile-` and 32 hexadecimal digits. -/
structure ProfileId where
  id : PyStr
  accepted : isProfileId id = true

/-- The fields that an update sets. -/
structure ProfileChanges where
  name : Option PyStr := none
  sittingHeightCm : Option Ieee := none
  standingHeightCm : Option Ieee := none
  ledColor : Option (Option PyStr) := none
  deriving DecidableEq

/-- A field of the input. -/
inductive Given (α : Type) where
  | unset
  | null
  | value (a : α)

/-- A field that must not be null. -/
def Given.required {α β : Type} (validate : α → Option β) : Given α → Option (Option β)
  | .unset => some none
  | .null => none
  | .value a => (validate a).map some

/-- A field that may be null. -/
def Given.nullable {α β : Type} (validate : Option α → Option β) : Given α → Option (Option β)
  | .unset => some none
  | .null => (validate none).map some
  | .value a => (validate (some a)).map some

/-- The input of `ProfileUpdate`. -/
structure UpdateInput where
  name : Given PyStr := .unset
  sittingHeightCm : Given Ieee := .unset
  standingHeightCm : Given Ieee := .unset
  ledColor : Given PyStr := .unset

/-- `model_fields_set` is empty. -/
def ProfileChanges.isEmpty (changes : ProfileChanges) : Bool :=
  changes.name.isNone && changes.sittingHeightCm.isNone && changes.standingHeightCm.isNone &&
    changes.ledColor.isNone

/-- The validators of `ProfileUpdate`, `require_valid_changes` among them. -/
def UpdateInput.modelValidate (input : UpdateInput) : Option ProfileChanges := do
  let name ← input.name.required normalizeName
  let sitting ← input.sittingHeightCm.required validateHeight
  let standing ← input.standingHeightCm.required validateHeight
  let led ← input.ledColor.nullable normalizeLedColor
  let changes : ProfileChanges := ⟨name, sitting, standing, led⟩
  if changes.isEmpty then none else some changes

/-- A `ProfileUpdate` that the model has accepted. -/
structure ProfileUpdate where
  changes : ProfileChanges
  accepted : ∃ input : UpdateInput, input.modelValidate = some changes

/-- A profile after the changes. -/
def ProfileChanges.apply (changes : ProfileChanges) (values : ProfileValues) : ProfileValues where
  name := changes.name.getD values.name
  sittingHeightCm := changes.sittingHeightCm.getD values.sittingHeightCm
  standingHeightCm := changes.standingHeightCm.getD values.standingHeightCm
  ledColor := changes.ledColor.getD values.ledColor

/-! ## What the validators return -/

theorem upperHex_of_isHex {c : CodePoint} (h : isHex c = true) :
    isUpperHex (upperHex c) = true ∧ upperHex (upperHex c) = upperHex c := by
  cases c with
  | surrogate _ => cases h
  | scalar c =>
    have hmem : c ∈ lowerHexDigits ++ upperHexDigits := by
      simpa [isHex, isLowerHex, isUpperHex] using h
    have hall : (lowerHexDigits ++ upperHexDigits).all (fun c =>
        upperHexDigits.contains c.toUpper && c.toUpper.toUpper == c.toUpper) = true := by
      decide
    obtain ⟨hupper, htwice⟩ := Bool.and_eq_true_iff.mp (List.all_eq_true.mp hall c hmem)
    exact ⟨hupper, by rw [upperHex, upperHex, eq_of_beq htwice]⟩

/-- A colour that is accepted has six upper-case digits. -/
theorem isUpperHex_of_normalizeLedColor {value : Option PyStr} {led : PyStr}
    (h : normalizeLedColor value = some (some led)) :
    led.length = 6 ∧ (∀ c ∈ led, isUpperHex c = true) ∧ led.map upperHex = led := by
  cases value with
  | none => cases h
  | some value =>
    rw [normalizeLedColor] at h
    split_ifs at h with hcolor
    cases h
    obtain ⟨hlength, hall⟩ := (Bool.and_eq_true_iff.mp hcolor)
    have hhex : ∀ c ∈ value, isHex c = true := List.all_eq_true.mp hall
    refine ⟨by simpa using hlength, ?_, ?_⟩
    · intro c hc
      obtain ⟨d, hd, rfl⟩ := List.mem_map.mp hc
      exact (upperHex_of_isHex (hhex d hd)).1
    · rw [List.map_map]
      exact List.map_congr_left fun d hd => (upperHex_of_isHex (hhex d hd)).2

theorem normalizeLedColor_idem {value led : Option PyStr} (h : normalizeLedColor value = some led) :
    normalizeLedColor led = some led := by
  cases led with
  | none => rfl
  | some led =>
    obtain ⟨hlength, hupper, hmap⟩ := isUpperHex_of_normalizeLedColor h
    have hcolor : isLedColor led = true := by
      simp only [isLedColor, Bool.and_eq_true, beq_iff_eq, List.all_eq_true]
      exact ⟨hlength, fun c hc => by rw [isHex, hupper c hc, Bool.or_true]⟩
    rw [normalizeLedColor, if_pos hcolor, hmap]

/-- A name that is accepted is not empty and keeps its ends. -/
theorem normalizeName_eq_some {value name : PyStr} (h : normalizeName value = some name) :
    name ≠ [] ∧ EndsKept CodePoint.isSpace name := by
  simp only [normalizeName] at h
  split_ifs at h with hempty
  cases h
  exact ⟨hempty, endsKept_stripWhere value⟩

theorem normalizeName_idem {value name : PyStr} (h : normalizeName value = some name) :
    normalizeName name = some name := by
  obtain ⟨hne, hends⟩ := normalizeName_eq_some h
  have hstrip : strip name = name := stripWhere_eq_self hends
  rw [normalizeName, hstrip, if_neg hne]

theorem validateHeight_eq_some {height result : Ieee} (h : validateHeight height = some result) :
    result = height ∧ heightAllowed height = true := by
  unfold validateHeight at h
  split_ifs at h with hallowed
  cases h
  exact ⟨rfl, hallowed⟩

theorem validateHeight_idem {height result : Ieee} (h : validateHeight height = some result) :
    validateHeight result = some result := by
  obtain ⟨rfl, hallowed⟩ := validateHeight_eq_some h
  rw [validateHeight, if_pos hallowed]

/-- Each field of what is accepted is what its validator makes of itself. -/
theorem modelValidate_eq_self_iff {values : ProfileValues} :
    values.modelValidate = some values ↔
      normalizeName values.name = some values.name ∧
        validateHeight values.sittingHeightCm = some values.sittingHeightCm ∧
        validateHeight values.standingHeightCm = some values.standingHeightCm ∧
        normalizeLedColor values.ledColor = some values.ledColor := by
  constructor
  · intro h
    simp only [ProfileValues.modelValidate, Option.bind_eq_bind, Option.pure_def,
      Option.bind_eq_some_iff] at h
    obtain ⟨name, hname, sitting, hsitting, standing, hstanding, led, hled, hvalues⟩ := h
    cases hvalues
    exact ⟨hname, hsitting, hstanding, hled⟩
  · rintro ⟨hname, hsitting, hstanding, hled⟩
    simp [ProfileValues.modelValidate, hname, hsitting, hstanding, hled]

/-- **What is accepted is accepted again, unchanged.** -/
theorem modelValidate_idem {input values : ProfileValues} (h : input.modelValidate = some values) :
    values.modelValidate = some values := by
  simp only [ProfileValues.modelValidate, Option.bind_eq_bind, Option.pure_def,
    Option.bind_eq_some_iff] at h
  obtain ⟨name, hname, sitting, hsitting, standing, hstanding, led, hled, hvalues⟩ := h
  cases hvalues
  exact modelValidate_eq_self_iff.mpr ⟨normalizeName_idem hname, validateHeight_idem hsitting,
    validateHeight_idem hstanding, normalizeLedColor_idem hled⟩

/-- The values of an accepted `ProfileCreate`, from any input. -/
def ProfileCreate.ofInput (input : ProfileValues) : Option ProfileCreate :=
  match h : input.modelValidate with
  | some values => some ⟨values, modelValidate_idem h⟩
  | none => none

/-- A field that is set by an accepted update is what its validator makes of itself. -/
theorem required_idem {α : Type} {validate : α → Option α}
    (hidem : ∀ {a b}, validate a = some b → validate b = some b) {given : Given α} {a : α}
    (h : given.required validate = some (some a)) : validate a = some a := by
  cases given with
  | unset => cases h
  | null => cases h
  | value b =>
    obtain ⟨c, hc, hsome⟩ := Option.map_eq_some_iff.mp h
    cases hsome
    exact hidem hc

theorem nullable_idem {α : Type} {validate : Option α → Option (Option α)}
    (hidem : ∀ {a b}, validate a = some b → validate b = some b) {given : Given α} {a : Option α}
    (h : given.nullable validate = some (some a)) : validate a = some a := by
  cases given with
  | unset => cases h
  | null =>
    obtain ⟨c, hc, hsome⟩ := Option.map_eq_some_iff.mp h
    cases hsome
    exact hidem hc
  | value b =>
    obtain ⟨c, hc, hsome⟩ := Option.map_eq_some_iff.mp h
    cases hsome
    exact hidem hc

/-- An accepted update sets something, and sets only what the validators return. -/
structure ProfileChanges.Accepted (changes : ProfileChanges) : Prop where
  nonempty : changes.isEmpty = false
  name : ∀ name, changes.name = some name → normalizeName name = some name
  sitting : ∀ height, changes.sittingHeightCm = some height → validateHeight height = some height
  standing : ∀ height, changes.standingHeightCm = some height → validateHeight height = some height
  led : ∀ led, changes.ledColor = some led → normalizeLedColor led = some led

theorem ProfileUpdate.changes_accepted (update : ProfileUpdate) : update.changes.Accepted := by
  obtain ⟨changes, input, h⟩ := update
  simp only [UpdateInput.modelValidate, Option.bind_eq_bind, Option.bind_eq_some_iff] at h
  obtain ⟨name, hname, sitting, hsitting, standing, hstanding, led, hled, hchanges⟩ := h
  split_ifs at hchanges with hempty
  cases hchanges
  refine ⟨by simpa using hempty, ?_, ?_, ?_, ?_⟩
  · rintro name rfl
    exact required_idem normalizeName_idem hname
  · rintro height rfl
    exact required_idem validateHeight_idem hsitting
  · rintro height rfl
    exact required_idem validateHeight_idem hstanding
  · rintro led rfl
    exact nullable_idem normalizeLedColor_idem hled

/-- **An update keeps accepted values accepted.** -/
theorem ProfileChanges.Accepted.apply {changes : ProfileChanges} (h : changes.Accepted)
    {values : ProfileValues} (hvalues : values.modelValidate = some values) :
    (changes.apply values).modelValidate = some (changes.apply values) := by
  obtain ⟨name, sitting, standing, led⟩ := changes
  rw [modelValidate_eq_self_iff] at hvalues ⊢
  refine ⟨?_, ?_, ?_, ?_⟩
  · cases name with
    | none => exact hvalues.1
    | some name => exact h.name name rfl
  · cases sitting with
    | none => exact hvalues.2.1
    | some height => exact h.sitting height rfl
  · cases standing with
    | none => exact hvalues.2.2.1
    | some height => exact h.standing height rfl
  · cases led with
    | none => exact hvalues.2.2.2
    | some led => exact h.led led rfl

end SmartDesk.Profiles
