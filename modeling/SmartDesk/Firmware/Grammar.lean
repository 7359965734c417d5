import Mathlib.Data.List.Perm.Subperm
import Mathlib.Data.List.TakeWhile
import SmartDesk.Firmware.Protocol

/-!
# The grammars of the payloads

What `parseControl` and `parseHeight` of `protocol.h` are to accept, said of the value of
a payload, and what they do accept.  The library hands out strings as C strings, so that
the parsers see what is before the first NUL.

* `JsonDocument.Control`, `JsonDocument.HeightValue` — the two grammars.
* `parseCommand_eq_ok_iff`, `parseObservation_eq_ok_iff` — **the parsers accept the
  grammars of the values with their strings cut**.
* `grammars_exact_iff` — **they accept exactly the grammars if no string has a NUL**.
-/

namespace SmartDesk.Firmware

abbrev Members : Type := List (Bytes × JsonScalar)

/-! ## Grammars -/

/-- The text of a motion command. -/
def CommandType.motionText : CommandType → Option String
  | .stop => none
  | .up => some "UP"
  | .down => some "DOWN"

def stopMembers : Members := [(literal "command", .string (literal "STOP"))]

def motionMembers (text : String) (holdMs : ℕ) : Members :=
  [(literal "command", .string (literal text)), (literal "source", .string (literal "desk_service")),
    (literal "hold_ms", .integer holdMs)]

/-- The members of a control message. -/
def ControlMembers (object : Members) (command : Command) : Prop :=
  object = stopMembers ∧ command = ⟨.stop, 0⟩ ∨
    ∃ text, command.type.motionText = some text ∧ 50 ≤ command.holdMs ∧ command.holdMs ≤ 500 ∧
      object.Perm (motionMembers text command.holdMs)

def heightMembers (observedAt : Bytes) (value : JsonScalar) : Members :=
  [(literal "schema", .string (literal "smartdesk.height.v1")),
    (literal "observed_at", .string observedAt), (literal "height_cm", value)]

/-- The members of a height message. -/
def HeightMembers (maximumObservedAtLength : ℕ) (object : Members) (height : Height) : Prop :=
  1 ≤ height.observedAt.length ∧ height.observedAt.length ≤ maximumObservedAtLength ∧
    height.observedAt.length < 48 ∧ measuredHeightAllowed height.heightCm = true ∧
    ∃ value : JsonScalar, value.asFloat = some height.heightCm ∧
      object.Perm (heightMembers height.observedAt value)

/-- The value is the control message of a command. -/
def JsonDocument.Control : JsonDocument → Command → Prop
  | .object members, command => ControlMembers members command
  | .value _, _ => False

/-- The value is the message of a height. -/
def JsonDocument.HeightValue (maximumObservedAtLength : ℕ) : JsonDocument → Height → Prop
  | .object members, height => HeightMembers maximumObservedAtLength members height
  | .value _, _ => False

/-- No key is there twice. -/
def JsonDocument.UniqueKeys : JsonDocument → Prop
  | .object members => (members.map Prod.fst).Nodup
  | .value _ => True

/-! ## Strings that are cut -/

/-- A string up to its first NUL. -/
def JsonScalar.cut : JsonScalar → JsonScalar
  | .string s => .string (cString s)
  | v => v

def cutMembers (object : Members) : Members := object.map fun m => (m.1, m.2.cut)

/-- The value with its strings cut. -/
def JsonDocument.cut : JsonDocument → JsonDocument
  | .object members => .object (cutMembers members)
  | .value v => .value v

theorem cString_cString (s : Bytes) : cString (cString s) = cString s := by
  rw [cString, List.takeWhile_eq_self_iff]
  exact fun b hb => List.mem_takeWhile_imp (p := fun b : UInt8 => decide (b ≠ 0)) hb

theorem asCString_cut (v : JsonScalar) : v.cut.asCString = v.asCString := by
  cases v with
  | string s => simp [JsonScalar.cut, JsonScalar.asCString, cString_cString]
  | _ => rfl

theorem asLong_cut (v : JsonScalar) : v.cut.asLong = v.asLong := by
  cases v <;> rfl

theorem asLong_eq_some_iff {v : JsonScalar} {n : ℤ} :
    v.asLong = some n ↔ v = .integer n ∧ -2 ^ 31 ≤ n ∧ n < 2 ^ 31 := by
  cases v with
  | integer m =>
    simp only [JsonScalar.asLong, Option.ite_none_right_eq_some, Option.some.injEq,
      JsonScalar.integer.injEq]
    constructor
    · rintro ⟨hrange, rfl⟩
      exact ⟨rfl, hrange⟩
    · rintro ⟨rfl, hrange⟩
      exact ⟨hrange, rfl⟩
  | _ => simp [JsonScalar.asLong]

theorem asFloat_cut (v : JsonScalar) : v.cut.asFloat = v.asFloat := by
  cases v <;> rfl

theorem map_fst_cutMembers (object : Members) :
    (cutMembers object).map Prod.fst = object.map Prod.fst := by
  rw [cutMembers, List.map_map]
  rfl

theorem lookup_cutMembers (object : Members) (key : Bytes) :
    lookup (cutMembers object) key = (lookup object key).cut := by
  unfold lookup cutMembers
  rw [List.find?_map]
  cases h : object.find? ((fun m => decide (m.1 = key)) ∘ fun m => (m.1, m.2.cut)) with
  | none =>
    have hnone : object.find? (fun m => decide (m.1 = key)) = none := h
    rw [hnone]
    rfl
  | some m =>
    have hsome : object.find? (fun m => decide (m.1 = key)) = some m := h
    rw [hsome]
    rfl

/-! ## Members and their keys -/

theorem mem_of_lookup {object : Members} {key : Bytes} {v : JsonScalar}
    (h : lookup object key = v) (hv : v ≠ .null) : (key, v) ∈ object := by
  unfold lookup at h
  cases hfind : object.find? fun m => m.1 = key with
  | none =>
    rw [hfind] at h
    exact absurd h.symm hv
  | some m =>
    rw [hfind] at h
    have hkey : m.1 = key := by simpa using List.find?_some hfind
    have hmem := List.mem_of_find?_eq_some hfind
    obtain rfl : m.2 = v := h
    rw [← hkey]
    exact hmem

theorem lookup_of_mem {object : Members} {key : Bytes} {v : JsonScalar}
    (hunique : (object.map Prod.fst).Nodup) (h : (key, v) ∈ object) : lookup object key = v := by
  induction object with
  | nil => cases h
  | cons m object ih =>
    rw [List.map_cons, List.nodup_cons] at hunique
    rcases List.mem_cons.mp h with rfl | htail
    · simp [lookup]
    · have hne : m.1 ≠ key := by
        rintro rfl
        exact hunique.1 (List.mem_map.mpr ⟨_, htail, rfl⟩)
      have := ih hunique.2 htail
      rw [← this, lookup, lookup, List.find?_cons_of_neg (by simpa using hne)]

/-- As many members as there are keys, and one for each of them. -/
theorem perm_of_forall_mem {object members : Members} {keys : List Bytes}
    (hunique : keys.Nodup) (hkeys : members.map Prod.fst = keys)
    (hlength : object.length = keys.length) (h : ∀ m ∈ members, m ∈ object) :
    object.Perm members := by
  subst hkeys
  rw [List.length_map] at hlength
  have hsub : members.Subperm object := List.subperm_of_subset hunique.of_map h
  exact (hsub.perm_of_length_le (le_of_eq hlength)).symm

/-- The string that is found in the members with their strings cut. -/
theorem lookup_cutMembers_eq_string {object : Members} {key s : Bytes}
    (h : (lookup object key).asCString = some s) :
    lookup (cutMembers object) key = .string s := by
  rw [lookup_cutMembers]
  cases hv : lookup object key with
  | string t =>
    rw [hv] at h
    rw [JsonScalar.cut, Option.some.inj h]
  | null => rw [hv] at h; cases h
  | bool b => rw [hv] at h; cases h
  | integer n => rw [hv] at h; cases h
  | float x => rw [hv] at h; cases h
  | array => rw [hv] at h; cases h
  | object => rw [hv] at h; cases h

theorem asCString_of_mem {object : Members} {key s : Bytes}
    (hunique : (object.map Prod.fst).Nodup) (h : (key, .string s) ∈ cutMembers object) :
    (lookup object key).asCString = some s := by
  have hlookup := lookup_of_mem (by rwa [map_fst_cutMembers]) h
  rw [lookup_cutMembers] at hlookup
  have hcut := asCString_cut (lookup object key)
  rw [hlookup] at hcut
  cases hv : lookup object key with
  | string t =>
    rw [hv, JsonScalar.cut, JsonScalar.string.injEq] at hlookup
    rw [JsonScalar.asCString, hlookup]
  | null => rw [hv] at hlookup; cases hlookup
  | bool b => rw [hv] at hlookup; cases hlookup
  | integer n => rw [hv] at hlookup; cases hlookup
  | float x => rw [hv] at hlookup; cases hlookup
  | array => rw [hv] at hlookup; cases hlookup
  | object => rw [hv] at hlookup; cases hlookup

/-- An exact object has these keys; none of them has a NUL. -/
theorem hasExactKeys_of_perm {object members : Members} {keys : List Bytes}
    (hperm : (cutMembers object).Perm members) (hkeys : members.map Prod.fst = keys)
    (hplain : ∀ key ∈ keys, cString key = key) : hasExactKeys object keys = true := by
  have hfst : (object.map Prod.fst).Perm keys := by
    rw [← map_fst_cutMembers, ← hkeys]
    exact hperm.map _
  unfold hasExactKeys
  rw [Bool.and_eq_true, decide_eq_true_eq, List.all_eq_true]
  constructor
  · rw [← hfst.length_eq, List.length_map]
  · intro m hm
    have hkey : m.1 ∈ keys := hfst.subset (List.mem_map_of_mem hm)
    rw [hplain _ hkey]
    exact List.elem_eq_true_of_mem hkey

theorem length_of_hasExactKeys {object : Members} {keys : List Bytes}
    (h : hasExactKeys object keys = true) : (cutMembers object).length = keys.length := by
  unfold hasExactKeys at h
  rw [Bool.and_eq_true, decide_eq_true_eq] at h
  rw [cutMembers, List.length_map]
  exact h.1

/-! ## What the parsers accept -/

abbrev motionKeys : List Bytes := [literal "command", literal "source", literal "hold_ms"]

abbrev heightKeys : List Bytes := [literal "schema", literal "observed_at", literal "height_cm"]

theorem motionKeys_nodup : motionKeys.Nodup := by decide

theorem heightKeys_nodup : heightKeys.Nodup := by decide

/-- The keys of the protocol have no NUL. -/
theorem cString_motionKeys : ∀ key ∈ motionKeys, cString key = key := by decide

theorem cString_heightKeys : ∀ key ∈ heightKeys, cString key = key := by decide

theorem parseMotion_eq_ok_iff {type : CommandType} {text : String} {object : Members}
    {output command : Command} (hunique : (object.map Prod.fst).Nodup)
    (hcommand : (lookup object (literal "command")).asCString = some (literal text)) :
    parseMotion type object output = .ok command ↔
      command.type = type ∧ 50 ≤ command.holdMs ∧ command.holdMs ≤ 500 ∧
        (cutMembers object).Perm (motionMembers text command.holdMs) := by
  constructor
  · intro h
    obtain ⟨htype, hlow, hhigh⟩ := parseMotion_eq_ok h
    refine ⟨htype, hlow, hhigh, ?_⟩
    unfold parseMotion at h
    split_ifs at h with hkeys hsource
    split at h
    · cases h
    · next holdMs hlong =>
      split_ifs at h with hhold
      cases h
      have hnat : ((holdMs.toNat : ℕ) : ℤ) = holdMs := by
        dsimp only at hlow
        omega
      apply perm_of_forall_mem motionKeys_nodup rfl
      · exact length_of_hasExactKeys (by simpa using hkeys)
      · intro m hm
        simp only [motionMembers, List.mem_cons, List.not_mem_nil, or_false] at hm
        rcases hm with rfl | rfl | rfl
        · exact mem_of_lookup (lookup_cutMembers_eq_string hcommand) (by simp)
        · exact mem_of_lookup (lookup_cutMembers_eq_string (not_not.mp hsource)) (by simp)
        · refine mem_of_lookup ?_ (by simp)
          rw [lookup_cutMembers, (asLong_eq_some_iff.mp hlong).1, hnat]
          rfl
  · rintro ⟨rfl, hlow, hhigh, hperm⟩
    have hkeys : hasExactKeys object motionKeys = true :=
      hasExactKeys_of_perm hperm rfl cString_motionKeys
    have hsource := asCString_of_mem hunique (hperm.mem_iff.mpr (List.mem_cons_of_mem _
      List.mem_cons_self))
    have hhold : (lookup object (literal "hold_ms")).asLong = some (command.holdMs : ℤ) := by
      rw [← asLong_cut, ← lookup_cutMembers,
        lookup_of_mem (by rwa [map_fst_cutMembers]) (hperm.mem_iff.mpr (List.mem_cons_of_mem _
          (List.mem_cons_of_mem _ List.mem_cons_self)))]
      exact asLong_eq_some_iff.mpr ⟨rfl, by omega, by omega⟩
    have hallowed : holdAllowed (command.holdMs : ℤ) = true :=
      holdAllowed_iff.mpr ⟨by omega, by omega⟩
    rw [parseMotion, if_neg (not_not.mpr hkeys), if_neg (not_not.mpr hsource), hhold]
    dsimp only
    rw [if_neg (by simpa using hallowed), Int.toNat_natCast]

/-- **`parseControl` accepts the grammar of the object with its strings cut.** -/
theorem parseCommand_eq_ok_iff {object : Members} {output command : Command}
    (hunique : (object.map Prod.fst).Nodup) :
    parseCommand object output = .ok command ↔ ControlMembers (cutMembers object) command := by
  constructor
  · intro h
    unfold parseCommand at h
    split at h
    · cases h
    · next text htext =>
      split_ifs at h with hstop hkeys hup hdown
      · cases h
        subst hstop
        left
        refine ⟨?_, rfl⟩
        have hperm : (cutMembers object).Perm stopMembers := by
          apply perm_of_forall_mem (List.nodup_singleton (literal "command")) rfl
          · exact length_of_hasExactKeys hkeys
          · intro m hm
            obtain rfl := List.mem_singleton.mp hm
            exact mem_of_lookup (lookup_cutMembers_eq_string htext) (by simp)
        exact List.perm_singleton.mp hperm
      · subst hup
        obtain ⟨htype, hlow, hhigh, hperm⟩ := (parseMotion_eq_ok_iff hunique htext).mp h
        exact .inr ⟨"UP", by rw [htype]; rfl, hlow, hhigh, hperm⟩
      · subst hdown
        obtain ⟨htype, hlow, hhigh, hperm⟩ := (parseMotion_eq_ok_iff hunique htext).mp h
        exact .inr ⟨"DOWN", by rw [htype]; rfl, hlow, hhigh, hperm⟩
  · rintro (⟨hstop, rfl⟩ | ⟨text, htext, hlow, hhigh, hperm⟩)
    · have hcommand : (lookup object (literal "command")).asCString = some (literal "STOP") :=
        asCString_of_mem hunique (by rw [hstop]; exact List.mem_singleton_self _)
      have hkeys : hasExactKeys object [literal "command"] = true :=
        hasExactKeys_of_perm (List.Perm.of_eq hstop) rfl (by decide)
      rw [parseCommand, hcommand]
      dsimp only
      rw [if_pos rfl, if_neg (not_not.mpr hkeys)]
    · have hcommand : (lookup object (literal "command")).asCString = some (literal text) :=
        asCString_of_mem hunique (hperm.mem_iff.mpr List.mem_cons_self)
      cases htype : command.type with
      | stop =>
        rw [htype] at htext
        cases htext
      | up =>
        rw [htype] at htext
        obtain rfl : "UP" = text := Option.some.inj htext
        rw [parseCommand, hcommand]
        exact (parseMotion_eq_ok_iff hunique hcommand).mpr ⟨htype, hlow, hhigh, hperm⟩
      | down =>
        rw [htype] at htext
        obtain rfl : "DOWN" = text := Option.some.inj htext
        rw [parseCommand, hcommand]
        exact (parseMotion_eq_ok_iff hunique hcommand).mpr ⟨htype, hlow, hhigh, hperm⟩

/-- **`parseHeight` accepts the grammar of the object with its strings cut.** -/
theorem parseObservation_eq_ok_iff {maximumObservedAtLength : ℕ} {object : Members}
    {output height : Height} (hunique : (object.map Prod.fst).Nodup) :
    parseObservation maximumObservedAtLength object output = .ok height ↔
      HeightMembers maximumObservedAtLength (cutMembers object) height := by
  constructor
  · intro h
    unfold parseObservation at h
    split_ifs at h with hkeys hschema
    split at h
    · next observedAt value hobserved hvalue =>
      split_ifs at h with hlength hmeasured
      cases h
      obtain ⟨hpos, hmax, hbuffer⟩ := not_or.mp hlength |>.imp id not_or.mp
      refine ⟨by dsimp only; omega, by dsimp only; omega, by dsimp only; omega,
        by simpa using hmeasured, (lookup (cutMembers object) (literal "height_cm")), ?_, ?_⟩
      · rw [lookup_cutMembers, asFloat_cut, hvalue]
      · apply perm_of_forall_mem heightKeys_nodup rfl
        · exact length_of_hasExactKeys hkeys
        · intro m hm
          simp only [heightMembers, List.mem_cons, List.not_mem_nil, or_false] at hm
          rcases hm with rfl | rfl | rfl
          · exact mem_of_lookup (lookup_cutMembers_eq_string (not_not.mp hschema)) (by simp)
          · exact mem_of_lookup (lookup_cutMembers_eq_string hobserved) (by simp)
          · refine mem_of_lookup rfl ?_
            intro hnull
            rw [lookup_cutMembers] at hnull
            rw [← asFloat_cut, hnull] at hvalue
            cases hvalue
    · cases h
  · rintro ⟨hpos, hmax, hbuffer, hmeasured, value, hvalue, hperm⟩
    have hkeys : hasExactKeys object heightKeys = true :=
      hasExactKeys_of_perm hperm rfl cString_heightKeys
    have hschema := asCString_of_mem hunique (hperm.mem_iff.mpr List.mem_cons_self)
    have hobserved := asCString_of_mem hunique
      (hperm.mem_iff.mpr (List.mem_cons_of_mem _ List.mem_cons_self))
    have hheight : (lookup object (literal "height_cm")).asFloat = some height.heightCm := by
      rw [← asFloat_cut, ← lookup_cutMembers,
        lookup_of_mem (by rwa [map_fst_cutMembers]) (hperm.mem_iff.mpr (List.mem_cons_of_mem _
          (List.mem_cons_of_mem _ List.mem_cons_self))), hvalue]
    rw [parseObservation, if_neg (not_not.mpr hkeys), if_neg (not_not.mpr hschema), hobserved,
      hheight]
    dsimp only
    rw [if_neg (by omega), if_neg (by simpa using hmeasured)]

/-! ## Exactness -/

/-- `None` is returned with the value that the grammar gives, and on an error `output` is as
it was. -/
def Exact {α : Type} (parse : α → Parsed α) (grammar : α → Prop) : Prop :=
  ∀ output, (∀ value, parse output = .ok value ↔ grammar value) ∧
    ∀ e value, parse output = .error (e, value) → value = output

theorem exact_cut_iff {α : Type} [Inhabited α] {parse : α → Parsed α}
    {grammar cutGrammar : α → Prop} {same : Prop}
    (hparse : ∀ output value, parse output = .ok value ↔ cutGrammar value)
    (hunchanged : ∀ output e value, parse output = .error (e, value) → value = output)
    (hsame : same → ∀ value, cutGrammar value ↔ grammar value)
    (hboth : ∀ value, grammar value → cutGrammar value → same) :
    Exact parse grammar ↔
      same ∨ (∀ value, ¬ grammar value) ∧ ∀ value, ¬ cutGrammar value := by
  constructor
  · intro h
    have hiff : ∀ value, cutGrammar value ↔ grammar value :=
      fun value => (hparse default value).symm.trans ((h default).1 value)
    by_cases hex : ∃ value, grammar value
    · obtain ⟨value, hvalue⟩ := hex
      exact .inl (hboth value hvalue ((hiff value).mpr hvalue))
    · have hnone : ∀ value, ¬ grammar value := not_exists.mp hex
      exact .inr ⟨hnone, fun value hvalue => hnone value ((hiff value).mp hvalue)⟩
  · rintro hagree output
    refine ⟨fun value => (hparse output value).trans ?_, hunchanged output⟩
    rcases hagree with h | ⟨hnone, hcut⟩
    · exact hsame h value
    · exact iff_of_false (hcut value) (hnone value)

instance : Inhabited Command := ⟨{}⟩

instance : Inhabited Height := ⟨{}⟩

theorem cutMembers_eq_self {object : Members} (h : ∀ m ∈ object, m.2.cut = m.2) :
    cutMembers object = object := by
  have hmap : object.map (fun m => (m.1, m.2.cut)) = object.map id :=
    List.map_congr_left fun m hm => by rw [h m hm]; rfl
  rw [cutMembers, hmap, List.map_id]

theorem cutMembers_eq_self_of_perm {object members : Members} (hperm : object.Perm members)
    (h : ∀ m ∈ members, m.2.cut = m.2) : cutMembers object = object :=
  cutMembers_eq_self fun m hm => h m (hperm.subset hm)

/-- The texts of a control message have no NUL. -/
theorem cut_of_controlMembers {object : Members} {command : Command}
    (h : ControlMembers object command) : cutMembers object = object := by
  rcases h with ⟨rfl, -⟩ | ⟨text, htext, -, -, hperm⟩
  · decide
  · refine cutMembers_eq_self_of_perm hperm fun m hm => ?_
    simp only [motionMembers, List.mem_cons, List.not_mem_nil, or_false] at hm
    rcases hm with rfl | rfl | rfl
    · cases htype : command.type with
      | stop => rw [htype] at htext; cases htext
      | up => rw [htype] at htext; cases htext; decide
      | down => rw [htype] at htext; cases htext; decide
    · decide
    · rfl

/-- A message that gives the same height when it is cut has no NUL. -/
theorem cut_of_heightMembers {maximumObservedAtLength : ℕ} {object : Members} {height : Height}
    (h : HeightMembers maximumObservedAtLength object height)
    (hcut : HeightMembers maximumObservedAtLength (cutMembers object) height) :
    cutMembers object = object := by
  obtain ⟨-, -, -, -, value, hvalue, hperm⟩ := h
  obtain ⟨-, -, -, -, value', -, hperm'⟩ := hcut
  have hunique : (object.map Prod.fst).Nodup :=
    (hperm.map Prod.fst).nodup_iff.mpr heightKeys_nodup
  have hobserved : lookup object (literal "observed_at") = .string height.observedAt :=
    lookup_of_mem hunique (hperm.mem_iff.mpr (List.mem_cons_of_mem _ List.mem_cons_self))
  have hobserved' : lookup (cutMembers object) (literal "observed_at") =
      .string height.observedAt :=
    lookup_of_mem (by rwa [map_fst_cutMembers])
      (hperm'.mem_iff.mpr (List.mem_cons_of_mem _ List.mem_cons_self))
  rw [lookup_cutMembers, hobserved] at hobserved'
  refine cutMembers_eq_self_of_perm hperm fun m hm => ?_
  simp only [heightMembers, List.mem_cons, List.not_mem_nil, or_false] at hm
  rcases hm with rfl | rfl | rfl
  · decide
  · exact hobserved'
  · cases value with
    | string s => cases hvalue
    | _ => rfl

theorem parseControl_eq_ok_iff {deserializeJson : Bytes → Option JsonDocument} {payload : Bytes}
    {maximumLength : ℕ} {document : JsonDocument} (hpos : 1 ≤ payload.length)
    (hfits : payload.length ≤ maximumLength) (hdocument : deserializeJson payload = some document)
    (hunique : document.UniqueKeys) (output command : Command) :
    parseControl deserializeJson payload maximumLength output = .ok command ↔
      document.cut.Control command := by
  rw [parseControl, if_neg (by omega), hdocument]
  cases document with
  | value v => exact iff_of_false (by intro h; cases h) not_false
  | object members => exact parseCommand_eq_ok_iff hunique

theorem parseHeight_eq_ok_iff {deserializeJson : Bytes → Option JsonDocument} {payload : Bytes}
    {maximumLength maximumObservedAtLength : ℕ} {document : JsonDocument}
    (hpos : 1 ≤ payload.length) (hfits : payload.length ≤ maximumLength)
    (hdocument : deserializeJson payload = some document) (hunique : document.UniqueKeys)
    (output height : Height) :
    parseHeight deserializeJson payload maximumLength maximumObservedAtLength output = .ok height ↔
      document.cut.HeightValue maximumObservedAtLength height := by
  rw [parseHeight, if_neg (by omega), hdocument]
  cases document with
  | value v => exact iff_of_false (by intro h; cases h) not_false
  | object members => exact parseObservation_eq_ok_iff hunique

/-- **The parsers accept exactly their grammars if no string of the value has a NUL, or the
value is outside of the grammar both as it is and with its strings cut; and only then.** -/
theorem grammars_exact_iff (deserializeJson : Bytes → Option JsonDocument) {payload : Bytes}
    {maximumLength : ℕ} (maximumObservedAtLength : ℕ) {document : JsonDocument}
    (hpos : 1 ≤ payload.length) (hfits : payload.length ≤ maximumLength)
    (hdocument : deserializeJson payload = some document) (hunique : document.UniqueKeys) :
    (Exact (parseControl deserializeJson payload maximumLength) document.Control ↔
        document.cut = document ∨
          (∀ command, ¬ document.Control command) ∧ ∀ command, ¬ document.cut.Control command) ∧
      (Exact (parseHeight deserializeJson payload maximumLength maximumObservedAtLength)
          (document.HeightValue maximumObservedAtLength) ↔
        document.cut = document ∨
          (∀ height, ¬ document.HeightValue maximumObservedAtLength height) ∧
            ∀ height, ¬ document.cut.HeightValue maximumObservedAtLength height) := by
  constructor
  · refine exact_cut_iff (parseControl_eq_ok_iff hpos hfits hdocument hunique)
      (fun _ _ _ h => parseControl_unchanged _ h) ?_ ?_
    · intro hcut command
      rw [hcut]
    · intro command hcontrol _
      cases document with
      | value v => rfl
      | object members => rw [JsonDocument.cut, cut_of_controlMembers hcontrol]
  · refine exact_cut_iff (parseHeight_eq_ok_iff hpos hfits hdocument hunique)
      (fun _ _ _ h => parseHeight_unchanged _ h) ?_ ?_
    · intro hcut height
      rw [hcut]
    · intro height hheight hheightCut
      cases document with
      | value v => rfl
      | object members => rw [JsonDocument.cut, cut_of_heightMembers hheight hheightCut]

/-- A command with a NUL, and what the library makes of it. -/
def nulPayload : Bytes := literal "\x7b\"command\":\"STOP\\u0000x\"\x7d"

def nulDocument : JsonDocument :=
  .object [(literal "command", .string (literal "STOP" ++ 0 :: literal "x"))]

def deserializeNul (payload : Bytes) : Option JsonDocument :=
  if payload = nulPayload then some nulDocument else none

/-- `STOP` with a NUL and more after it is taken for `STOP`. -/
theorem not_exact_nul : parseControl deserializeNul nulPayload 160 {} = .ok ⟨.stop, 0⟩ ∧
    ¬ Exact (parseControl deserializeNul nulPayload 160) nulDocument.Control := by
  have haccepts : parseControl deserializeNul nulPayload 160 {} = .ok ⟨.stop, 0⟩ := by decide
  refine ⟨haccepts, fun h => ?_⟩
  have hcontrol : ControlMembers [(literal "command", .string (literal "STOP" ++ 0 :: literal "x"))]
      ⟨.stop, 0⟩ := ((h {}).1 _).mp haccepts
  exact absurd (cut_of_controlMembers hcontrol) (by decide)

theorem grammars_exact_iff_nul :
    ¬ Exact (parseControl deserializeNul nulPayload 160) nulDocument.Control ↔
      ¬ (nulDocument.cut = nulDocument ∨ (∀ command, ¬ nulDocument.Control command) ∧
        ∀ command, ¬ nulDocument.cut.Control command) :=
  not_congr (grammars_exact_iff deserializeNul 40 (by decide) (show _ ≤ 160 by decide)
    (if_pos rfl) (List.nodup_singleton _)).1

end SmartDesk.Firmware
