import Mathlib.Data.List.Nodup
import Mathlib.Logic.Function.Basic
import SmartDesk.Profiles.Repository

/-!
# Profiles as a finite map

What the calls of the repository are for, and that the statements on the table do it.

* `Call.Spec` — a call on a map from IDs to values.
* `updates_comm` — **of two updates of different fields none is lost**.
* `stored`, `Good` — the map of a table, and the tables that the repository leaves.
* `Storable` — the names that SQLite can keep: the `CHECK` sees an empty text where
  Python sees a name that begins with U+0000.
* `perform_spec` — **a call on a table is that call on its map**.
-/

namespace SmartDesk.Profiles

open PyText Storage

/-! ## The map -/

abbrev ProfileMap : Type := PyStr → Option ProfileValues

/-- The call raises and changes nothing. -/
def Refused (m : ProfileMap) (result : Outcome Returned) (m' : ProfileMap) : Prop :=
  (∃ e, result = .error e) ∧ m' = m

/-- What a call returns or raises, and the map that it leaves; a new profile has an ID of
its own. -/
def Call.Spec (m : ProfileMap) (result : Outcome Returned) (m' : ProfileMap) : Call → Prop
  | .create id fields =>
      result = .ok (.profile ⟨id.id, fields.values⟩) ∧
        m' = Function.update m id.id (some fields.values)
  | .update id fields =>
      (∀ values, m id = some values →
        result = .ok (.profile ⟨id, fields.changes.apply values⟩) ∧
          m' = Function.update m id (some (fields.changes.apply values))) ∧
      (m id = none → Refused m result m')
  | .delete id =>
      (∀ values, m id = some values → result = .ok .none ∧ m' = Function.update m id none) ∧
      (m id = none → Refused m result m')
  | .get id =>
      (∀ values, m id = some values → result = .ok (.profile ⟨id, values⟩) ∧ m' = m) ∧
      (m id = none → Refused m result m')
  | .list =>
      ∃ profiles, result = .ok (.profiles profiles) ∧ profiles.Nodup ∧
        (∀ profile, profile ∈ profiles ↔ m profile.id = some profile.values) ∧ m' = m

/-- No field is set by both. -/
structure ProfileChanges.Disjoint (a b : ProfileChanges) : Prop where
  name : a.name = none ∨ b.name = none
  sittingHeightCm : a.sittingHeightCm = none ∨ b.sittingHeightCm = none
  standingHeightCm : a.standingHeightCm = none ∨ b.standingHeightCm = none
  ledColor : a.ledColor = none ∨ b.ledColor = none

/-- Updates of different fields can be exchanged. -/
theorem apply_comm {a b : ProfileChanges} (h : a.Disjoint b) (values : ProfileValues) :
    a.apply (b.apply values) = b.apply (a.apply values) := by
  simp only [ProfileChanges.apply, ProfileValues.mk.injEq]
  refine ⟨?_, ?_, ?_, ?_⟩
  · rcases h.name with h | h <;> rw [h] <;> rfl
  · rcases h.sittingHeightCm with h | h <;> rw [h] <;> rfl
  · rcases h.standingHeightCm with h | h <;> rw [h] <;> rfl
  · rcases h.ledColor with h | h <;> rw [h] <;> rfl

/-- Two updates of a profile, one after the other. -/
theorem updates_spec {m m₁ m₂ : ProfileMap} {first second : Outcome Returned} {id : PyStr}
    {a b : ProfileUpdate} {values : ProfileValues} (hid : m id = some values)
    (ha : Call.Spec m first m₁ (.update id a)) (hb : Call.Spec m₁ second m₂ (.update id b)) :
    m₂ = Function.update m id (some (b.changes.apply (a.changes.apply values))) := by
  have hfirst := (ha.1 values hid).2
  have hsecond := (hb.1 (a.changes.apply values) (by rw [hfirst, Function.update_self])).2
  rw [hsecond, hfirst, Function.update_idem]

/-- **Of two updates of different fields none is lost**: their order does not matter. -/
theorem updates_comm {m m₁ m₂ n₁ n₂ : ProfileMap} {r₁ r₂ q₁ q₂ : Outcome Returned} {id : PyStr}
    {a b : ProfileUpdate} {values : ProfileValues} (hdisjoint : a.changes.Disjoint b.changes)
    (hid : m id = some values)
    (ha : Call.Spec m r₁ m₁ (.update id a)) (hab : Call.Spec m₁ r₂ m₂ (.update id b))
    (hb : Call.Spec m q₁ n₁ (.update id b)) (hba : Call.Spec n₁ q₂ n₂ (.update id a)) :
    m₂ = n₂ := by
  rw [updates_spec hid ha hab, updates_spec hid hb hba, apply_comm hdisjoint]

/-! ## The constraints -/

/-- A name that SQLite can keep. -/
def NameStorable (name : PyStr) : Prop :=
  (encode name).isSome = true ∧ name.head? ≠ some (.scalar '\x00')

/-- The name that the call is to write can be kept; an update of no profile writes none. -/
def Call.Storable (m : ProfileMap) : Call → Prop
  | .create _ fields => NameStorable fields.values.name
  | .update id fields =>
      m id ≠ none → ∀ name, fields.changes.name = some name → NameStorable name
  | _ => True

theorem exists_encode {text : PyStr} (h : ∀ c ∈ text, ∃ char, c = .scalar char) :
    ∃ chars, encode text = some chars := by
  induction text with
  | nil => exact ⟨[], rfl⟩
  | cons c text ih =>
    obtain ⟨char, rfl⟩ := h c List.mem_cons_self
    obtain ⟨chars, hchars⟩ := ih fun d hd => h d (List.mem_cons_of_mem _ hd)
    exact ⟨char :: chars, by rw [encode, hchars]; rfl⟩

theorem scalar_of_isUpperHex {c : CodePoint} (h : isUpperHex c = true) :
    ∃ char, c = .scalar char ∧ char ∈ upperHexDigits := by
  cases c with
  | surrogate _ => cases h
  | scalar char => exact ⟨char, rfl, by simpa [isUpperHex] using h⟩

theorem encode_profileId (id : ProfileId) : ∃ chars, encode id.id = some chars := by
  obtain ⟨id, h⟩ := id
  simp only [isProfileId, Bool.and_eq_true, beq_iff_eq, List.all_eq_true] at h
  obtain ⟨⟨hbegin, _⟩, hdigits⟩ := h
  refine exists_encode fun c hmem => ?_
  have hc : c ∈ id.take 8 ++ id.drop 8 := by rwa [List.take_append_drop]
  rw [List.mem_append] at hc
  rcases hc with hc | hc
  · rw [hbegin] at hc
    obtain ⟨char, _, rfl⟩ := List.mem_map.mp hc
    exact ⟨char, rfl⟩
  · have hhex := hdigits c hc
    cases c with
    | surrogate _ => cases hhex
    | scalar char => exact ⟨char, rfl⟩

/-- The first character of a name that is kept is none that ends it. -/
theorem nameCheck_of_normalized {chars : List Char} {value : PyStr}
    (hname : normalizeName value = some (decode chars))
    (hnul : (decode chars).head? ≠ some (.scalar '\x00')) :
    0 < sqlLength (sqlTrim chars) := by
  obtain ⟨hne, hends⟩ := normalizeName_eq_some hname
  have htrim : sqlTrim chars = chars := by
    refine stripWhere_eq_self ⟨fun c hc => ?_, fun c hc => ?_⟩
    · have hspace : PyText.isSpace c = false :=
        hends.1 (.scalar c) (by rw [decode, List.head?_map, Option.mem_def.mp hc]; rfl)
      rw [beq_eq_false_iff_ne]
      rintro rfl
      exact absurd hspace (by decide)
    · have hspace : PyText.isSpace c = false :=
        hends.2 (.scalar c) (by rw [decode, List.getLast?_map, Option.mem_def.mp hc]; rfl)
      rw [beq_eq_false_iff_ne]
      rintro rfl
      exact absurd hspace (by decide)
  rw [htrim]
  cases chars with
  | nil => exact absurd rfl hne
  | cons c chars =>
    have hc : (c != '\x00') = true := by
      rw [bne_iff_ne]
      rintro rfl
      exact hnul rfl
    rw [sqlLength, List.takeWhile_cons, if_pos hc]
    exact Nat.succ_pos _

theorem ledCheck_of_normalized {led : Option (List Char)} {value : Option PyStr}
    (h : normalizeLedColor value = some (led.map decode)) : ledCheck led = true := by
  cases led with
  | none => rfl
  | some chars =>
    obtain ⟨hlength, hupper, _⟩ := isUpperHex_of_normalizeLedColor h
    have hdigit : ∀ c ∈ chars, c ∈ upperHexDigits := by
      intro c hc
      obtain ⟨char, hchar, hmem⟩ := scalar_of_isUpperHex (hupper (.scalar c) (List.mem_map_of_mem hc))
      cases hchar
      exact hmem
    have hwhole : chars.takeWhile (· != '\x00') = chars := by
      rw [List.takeWhile_eq_self_iff]
      intro c hc
      rw [bne_iff_ne]
      rintro rfl
      exact absurd (hdigit _ hc) (by decide)
    have hlength' : chars.length = 6 := by
      simpa [decode] using hlength
    simp only [ledCheck, sqlLength, globNoUpperHex, hwhole, hlength', Bool.and_eq_true,
      Bool.not_eq_true', List.any_eq_false]
    refine ⟨rfl, fun c hc => ?_⟩
    simpa using hdigit c hc

theorem betweenHeights_of_validated {height result : Ieee} (h : validateHeight height = some result) :
    betweenHeights height = true := by
  obtain ⟨_, hallowed⟩ := validateHeight_eq_some h
  simp only [heightAllowed, Bool.and_eq_true] at hallowed
  rw [betweenHeights, hallowed.1.2, hallowed.2]
  rfl

/-- **What the models accept, the constraints accept**, if the name can be kept. -/
theorem check_of_accepted {row : Row} (h : row.values.modelValidate = some row.values)
    (hnul : row.values.name.head? ≠ some (.scalar '\x00')) : row.check = true := by
  obtain ⟨hname, hsitting, hstanding, hled⟩ := modelValidate_eq_self_iff.mp h
  have hlength : 0 < sqlLength (sqlTrim row.name) := nameCheck_of_normalized hname hnul
  have hsits : betweenHeights row.sittingHeightCm = true := betweenHeights_of_validated hsitting
  have hstands : betweenHeights row.standingHeightCm = true := betweenHeights_of_validated hstanding
  rw [Row.check, hsits, hstands, ledCheck_of_normalized hled, decide_eq_true hlength]
  rfl

/-- A name that meets its constraint begins with another character. -/
theorem head_of_check {row : Row} (h : row.check = true) :
    row.values.name.head? ≠ some (.scalar '\x00') := by
  intro hhead
  simp only [Row.check, Bool.and_eq_true, decide_eq_true_eq] at h
  obtain ⟨⟨⟨hlength, _⟩, _⟩, _⟩ := h
  cases hname : row.name with
  | nil => rw [Row.values, hname] at hhead; cases hhead
  | cons c chars =>
    rw [Row.values, hname] at hhead
    cases hhead
    -- The text keeps its begin when the spaces at its end are cut.
    have hbegin : sqlTrim ('\x00' :: chars) <+: '\x00' :: chars := List.rdropWhile_prefix _ _
    rw [hname, sqlLength] at hlength
    cases htrim : sqlTrim ('\x00' :: chars) with
    | nil => rw [htrim] at hlength; cases hlength
    | cons d rest =>
      rw [htrim] at hbegin hlength
      obtain ⟨rfl, _⟩ := List.cons_prefix_cons.mp hbegin
      cases hlength

/-! ## The tables of the repository -/

/-- The map of a table. -/
def stored (table : Table) : ProfileMap :=
  fun id => (table.find? fun row => decide (decode row.id = id)).map Row.values

/-- One row for each ID, whose values the models accept and the constraints keep. -/
structure Good (table : Table) : Prop where
  nodup : (table.map Row.id).Nodup
  accepted : ∀ row ∈ table, isProfileId (decode row.id) = true ∧
    row.values.modelValidate = some row.values
  checked : ∀ row ∈ table, row.check = true

theorem good_nil : Good [] :=
  ⟨List.nodup_nil, fun _ h => absurd h List.not_mem_nil, fun _ h => absurd h List.not_mem_nil⟩

variable {table : Table}

/-- Rows of one ID are one row. -/
theorem Good.unique (hg : Good table) {a b : Row} (ha : a ∈ table) (hb : b ∈ table)
    (hid : a.id = b.id) : a = b :=
  List.inj_on_of_nodup_map hg.nodup ha hb hid

theorem stored_eq_some_iff (hg : Good table) {id : PyStr} {values : ProfileValues} :
    stored table id = some values ↔ ∃ row ∈ table, decode row.id = id ∧ row.values = values := by
  unfold stored
  rw [Option.map_eq_some_iff]
  constructor
  · rintro ⟨row, hrow, rfl⟩
    exact ⟨row, List.mem_of_find?_eq_some hrow, by simpa using List.find?_some hrow, rfl⟩
  · rintro ⟨row, hmem, rfl, rfl⟩
    refine ⟨row, ?_, rfl⟩
    cases hfind : table.find? fun other => decide (decode other.id = decode row.id) with
    | none =>
      have hnot := List.find?_eq_none.mp hfind row hmem
      simp at hnot
    | some other =>
      have hid : decode other.id = decode row.id := by simpa using List.find?_some hfind
      rw [hg.unique (List.mem_of_find?_eq_some hfind) hmem (decode_injective hid)]

theorem stored_eq_none_iff {id : PyStr} :
    stored table id = none ↔ ∀ row ∈ table, decode row.id ≠ id := by
  rw [stored, Option.map_eq_none_iff, List.find?_eq_none]
  simp

/-- A row of the repository is a profile. -/
theorem profileFromRow_of_good (hg : Good table) {row : Row} (hmem : row ∈ table) :
    profileFromRow row = .ok ⟨decode row.id, row.values⟩ := by
  obtain ⟨hid, haccepted⟩ := hg.accepted row hmem
  rw [profileFromRow, Profile.modelValidate, if_pos hid, haccepted]
  rfl

/-- A profile is read as it is stored. -/
theorem getProfileOrRaise_of_some (hg : Good table) {id : PyStr} {values : ProfileValues}
    (h : stored table id = some values) : getProfileOrRaise id table = .ok ⟨id, values⟩ := by
  obtain ⟨row, hmem, rfl, rfl⟩ := (stored_eq_some_iff hg).mp h
  have hfind : (table.find? fun other => other.id == row.id) = some row := by
    cases hfind : table.find? fun other => other.id == row.id with
    | none => simpa using List.find?_eq_none.mp hfind row hmem
    | some other =>
      rw [hg.unique (List.mem_of_find?_eq_some hfind) hmem (by simpa using List.find?_some hfind)]
  rw [getProfileOrRaise, selectById, encode_decode]
  simp only [hfind]
  exact profileFromRow_of_good hg hmem

theorem getProfileOrRaise_of_none {id : PyStr} (h : stored table id = none) :
    ∃ e, getProfileOrRaise id table = .error e := by
  rw [getProfileOrRaise, selectById]
  cases hencode : encode id with
  | none => exact ⟨_, rfl⟩
  | some chars =>
    have hnone : (table.find? fun row => row.id == chars) = none := by
      rw [List.find?_eq_none]
      intro row hmem hrow
      exact stored_eq_none_iff.mp h row hmem (encode_eq_some_iff.mp (eq_of_beq hrow ▸ hencode))
    simp only [hnone]
    exact ⟨_, rfl⟩

/-! ## The statements -/

/-- What a call returns or raises, and the table that it leaves. -/
def Call.perform (call : Call) (table : Table) : Outcome Returned × Table :=
  executeSync {} call.operation call.writes table

theorem perform_read {call : Call} (hreads : call.writes = false) (table : Table) :
    call.perform table = call.operation table := by
  rw [Call.perform, hreads]
  rfl

theorem perform_ok {call : Call} {table' : Table} {value : Returned}
    (h : call.operation table = (.ok value, table')) : call.perform table = (.ok value, table') := by
  cases hwrites : call.writes with
  | false => rw [perform_read hwrites, h]
  | true =>
    rw [Call.perform, hwrites]
    simp [executeSync, Connection.begin, Connection.run, Connection.commit, Connection.close, h]

/-- A write that raises is rolled back. -/
theorem perform_error {call : Call} {e : Raised ProfileError} (hwrites : call.writes = true)
    (h : (call.operation table).1 = .error e) : call.perform table = (.error e, table) := by
  rw [Call.perform, hwrites]
  simp [executeSync, Connection.begin, Connection.run, rollbackLogged, Connection.rollback,
    Connection.close, h]

/-- A row that is added. -/
theorem stored_append {row : Row} (hg : Good table) (hg' : Good (table ++ [row])) :
    stored (table ++ [row]) = Function.update (stored table) (decode row.id) (some row.values) := by
  funext id
  refine Option.ext fun values => ?_
  rw [stored_eq_some_iff hg', Function.update_apply]
  split_ifs with hid
  · subst hid
    constructor
    · rintro ⟨other, hmem, hid, rfl⟩
      rw [hg'.unique hmem (List.mem_append_right _ List.mem_cons_self) (decode_injective hid)]
    · intro h
      cases h
      exact ⟨row, List.mem_append_right _ List.mem_cons_self, rfl, rfl⟩
  · rw [stored_eq_some_iff hg]
    constructor
    · rintro ⟨other, hmem, rfl, rfl⟩
      rcases List.mem_append.mp hmem with hmem | hmem
      · exact ⟨other, hmem, rfl, rfl⟩
      · rw [List.mem_singleton] at hmem
        exact absurd (by rw [hmem]) hid
    · rintro ⟨other, hmem, rfl, rfl⟩
      exact ⟨other, List.mem_append_left _ hmem, rfl, rfl⟩

theorem good_append {row : Row} (hg : Good table) (hid : isProfileId (decode row.id) = true)
    (haccepted : row.values.modelValidate = some row.values) (hcheck : row.check = true)
    (hnew : stored table (decode row.id) = none) : Good (table ++ [row]) := by
  refine ⟨?_, ?_, ?_⟩
  · rw [List.map_append, List.map_singleton, List.nodup_append]
    refine ⟨hg.nodup, List.nodup_singleton _, fun a ha b hb => ?_⟩
    obtain ⟨other, hmem, rfl⟩ := List.mem_map.mp ha
    rw [List.mem_singleton.mp hb]
    exact fun h => stored_eq_none_iff.mp hnew other hmem (by rw [h])
  · intro other hmem
    rcases List.mem_append.mp hmem with hmem | hmem
    · exact hg.accepted other hmem
    · rw [List.mem_singleton.mp hmem]
      exact ⟨hid, haccepted⟩
  · intro other hmem
    rcases List.mem_append.mp hmem with hmem | hmem
    · exact hg.checked other hmem
    · rw [List.mem_singleton.mp hmem]
      exact hcheck

/-- A colour that is accepted can be encoded. -/
theorem exists_encodeNullable {value led : Option PyStr} (h : normalizeLedColor value = some led) :
    ∃ chars, encodeNullable led = some chars ∧ chars.map decode = led := by
  cases led with
  | none => exact ⟨none, rfl, rfl⟩
  | some led =>
    obtain ⟨_, hupper, _⟩ := isUpperHex_of_normalizeLedColor h
    obtain ⟨chars, hchars⟩ := exists_encode fun c hc =>
      (scalar_of_isUpperHex (hupper c hc)).imp fun _ h => h.1
    exact ⟨some chars, by rw [encodeNullable, hchars]; rfl, by rw [← decode_of_encode hchars]; rfl⟩

/-- **A new profile is stored, and read back as it was validated.** -/
theorem create_spec (hg : Good table) (id : ProfileId) (fields : ProfileCreate)
    (hname : NameStorable fields.values.name) (hnew : stored table id.id = none) :
    Call.Spec (stored table) ((Call.create id fields).perform table).1
        (stored ((Call.create id fields).perform table).2) (.create id fields) ∧
      Good ((Call.create id fields).perform table).2 := by
  obtain ⟨hencodes, hnul⟩ := hname
  obtain ⟨chars, hchars⟩ := encode_profileId id
  obtain ⟨name, hname⟩ := Option.isSome_iff_exists.mp hencodes
  obtain ⟨led, hled, hleddecode⟩ :=
    exists_encodeNullable (modelValidate_eq_self_iff.mp fields.accepted).2.2.2
  let row : Row :=
    ⟨chars, name, fields.values.sittingHeightCm, fields.values.standingHeightCm, led⟩
  have hid : decode row.id = id.id := decode_of_encode hchars
  have hvalues : row.values = fields.values := by
    simp only [Row.values, row, decode_of_encode hname, hleddecode]
  have haccepted : row.values.modelValidate = some row.values := by
    rw [hvalues]
    exact fields.accepted
  have hcheck : row.check = true := check_of_accepted haccepted (by rw [hvalues]; exact hnul)
  have hg' : Good (table ++ [row]) :=
    good_append hg (by rw [hid]; exact id.accepted) haccepted hcheck (by rw [hid]; exact hnew)
  have hstored := stored_append hg hg'
  rw [hid, hvalues] at hstored
  have hinsert : insertRow id.id fields.values table = .ok (table ++ [row]) := by
    have hunique : (table.any fun other => other.id == chars) = false := by
      rw [List.any_eq_false]
      intro other hmem hother
      exact stored_eq_none_iff.mp hnew other hmem (by rw [eq_of_beq hother]; exact hid)
    simp only [insertRow, hchars, hname, hled]
    rw [if_neg, if_neg]
    · simp [hunique]
    · simpa using hcheck
  have hread : getProfileOrRaise id.id (table ++ [row]) = .ok ⟨id.id, fields.values⟩ :=
    getProfileOrRaise_of_some hg' (by rw [hstored, Function.update_self])
  have hperform : (Call.create id fields).perform table =
      (.ok (.profile ⟨id.id, fields.values⟩), table ++ [row]) := by
    refine perform_ok ?_
    simp only [Call.operation, insert, hinsert, hread]
    rfl
  rw [hperform]
  exact ⟨⟨rfl, hstored⟩, hg'⟩

/-- **A name that SQLite cannot keep is refused**, although the model has accepted it. -/
theorem create_refused (id : ProfileId) (fields : ProfileCreate)
    (hname : ¬ NameStorable fields.values.name) :
    ∃ e, (Call.create id fields).perform table = (.error e, table) := by
  suffices herror : ∃ e, ((Call.create id fields).operation table).1 = .error e by
    obtain ⟨e, he⟩ := herror
    exact ⟨e, perform_error rfl he⟩
  obtain ⟨chars, hchars⟩ := encode_profileId id
  obtain ⟨led, hled, hleddecode⟩ :=
    exists_encodeNullable (modelValidate_eq_self_iff.mp fields.accepted).2.2.2
  simp only [Call.operation, insert, insertRow, hchars, hled]
  cases hencode : encode fields.values.name with
  | none => exact ⟨_, rfl⟩
  | some name =>
    have hcheck : (Row.mk chars name fields.values.sittingHeightCm fields.values.standingHeightCm
        led).check = false := by
      rw [← Bool.not_eq_true]
      intro hcheck
      have hhead := head_of_check hcheck
      rw [Row.values, decode_of_encode hencode] at hhead
      exact hname ⟨by rw [hencode]; rfl, hhead⟩
    simp only [hcheck, Bool.not_false, if_true]
    exact ⟨_, rfl⟩

/-- The parameters can be bound, and the row then changes as `f` says. -/
def Binds (assignments : List Assignment) (f : ProfileValues → ProfileValues) : Prop :=
  ∃ set, bindAll assignments = some set ∧
    ∀ row : Row, (set row).id = row.id ∧ (set row).values = f row.values

theorem Binds.append {as bs : List Assignment} {f g : ProfileValues → ProfileValues}
    (hf : Binds as f) (hg : Binds bs g) : Binds (as ++ bs) fun values => g (f values) := by
  obtain ⟨set, hset, hf⟩ := hf
  obtain ⟨set', hset', hg⟩ := hg
  refine ⟨fun row => set' (set row), ?_, fun row => ?_⟩
  · clear hf hg
    induction as generalizing set with
    | nil => cases hset; simpa using hset'
    | cons a as ih =>
      simp only [bindAll, Option.bind_eq_bind, Option.pure_def, Option.bind_eq_some_iff] at hset
      obtain ⟨first, hfirst, rest, hrest, hset⟩ := hset
      cases hset
      simp [bindAll, hfirst, ih rest hrest]
  · rw [(hg (set row)).1, (hg (set row)).2, (hf row).1, (hf row).2]
    exact ⟨rfl, rfl⟩

/-- A field of an update, with the parameter that it has if it is set. -/
theorem binds_field {α : Type} {field : Option α} {assign : α → Assignment}
    {f : Option α → ProfileValues → ProfileValues} (hnone : ∀ values, f none values = values)
    (hsome : ∀ a, field = some a → ∃ set, (assign a).bind = some set ∧
      ∀ row : Row, (set row).id = row.id ∧ (set row).values = f (some a) row.values) :
    Binds (field.map assign).toList (f field) := by
  cases field with
  | none => exact ⟨id, rfl, fun row => ⟨rfl, (hnone row.values).symm⟩⟩
  | some a =>
    obtain ⟨set, hset, hrow⟩ := hsome a rfl
    exact ⟨set, by simp [bindAll, hset], hrow⟩

/-- The parameters of an accepted update change a row as the update says. -/
theorem binds_assignments {changes : ProfileChanges} (haccepted : changes.Accepted)
    (hname : ∀ name, changes.name = some name → (encode name).isSome = true) :
    Binds changes.assignments changes.apply := by
  obtain ⟨name, sitting, standing, led⟩ := changes
  have hnames : Binds (name.map Assignment.name).toList
      (ProfileChanges.apply ⟨name, none, none, none⟩) := by
    refine binds_field (f := fun field => ProfileChanges.apply ⟨field, none, none, none⟩)
      (fun _ => rfl) fun name h => ?_
    obtain ⟨chars, hchars⟩ := Option.isSome_iff_exists.mp (hname name h)
    refine ⟨fun row => { row with name := chars }, by rw [Assignment.bind, hchars]; rfl,
      fun row => ⟨rfl, ?_⟩⟩
    simp only [Row.values, decode_of_encode hchars]
    rfl
  have hsitting : Binds (sitting.map Assignment.sittingHeightCm).toList
      (ProfileChanges.apply ⟨none, sitting, none, none⟩) :=
    binds_field (f := fun field => ProfileChanges.apply ⟨none, field, none, none⟩)
      (fun _ => rfl) fun height _ => ⟨_, rfl, fun _ => ⟨rfl, rfl⟩⟩
  have hstanding : Binds (standing.map Assignment.standingHeightCm).toList
      (ProfileChanges.apply ⟨none, none, standing, none⟩) :=
    binds_field (f := fun field => ProfileChanges.apply ⟨none, none, field, none⟩)
      (fun _ => rfl) fun height _ => ⟨_, rfl, fun _ => ⟨rfl, rfl⟩⟩
  have hled : Binds (led.map Assignment.ledColor).toList
      (ProfileChanges.apply ⟨none, none, none, led⟩) := by
    refine binds_field (f := fun field => ProfileChanges.apply ⟨none, none, none, field⟩)
      (fun _ => rfl) fun led h => ?_
    obtain ⟨chars, hchars, hdecode⟩ := exists_encodeNullable (haccepted.led led h)
    refine ⟨fun row => { row with ledColor := chars }, by rw [Assignment.bind, hchars]; rfl,
      fun row => ⟨rfl, ?_⟩⟩
    simp only [Row.values, hdecode]
    rfl
  exact ((hnames.append hsitting).append hstanding).append hled

theorem isEmpty_assignments (changes : ProfileChanges) :
    changes.assignments.isEmpty = changes.isEmpty := by
  obtain ⟨name, sitting, standing, led⟩ := changes
  cases name <;> cases sitting <;> cases standing <;> cases led <;> rfl

/-- Rows that change, but not their IDs. -/
theorem good_map {f : Row → Row} (hg : Good table) (hid : ∀ row, (f row).id = row.id)
    (hvalid : ∀ row ∈ table, (f row).values.modelValidate = some (f row).values ∧
      (f row).check = true) : Good (table.map f) := by
  refine ⟨?_, ?_, ?_⟩
  · rw [List.map_map]
    have hids : Row.id ∘ f = Row.id := funext hid
    rw [hids]
    exact hg.nodup
  · intro row' hmem
    obtain ⟨row, hrow, rfl⟩ := List.mem_map.mp hmem
    exact ⟨by rw [hid]; exact (hg.accepted row hrow).1, (hvalid row hrow).1⟩
  · intro row' hmem
    obtain ⟨row, hrow, rfl⟩ := List.mem_map.mp hmem
    exact (hvalid row hrow).2

/-- The row of one ID changes. -/
theorem stored_map {set : Row → Row} {row : Row} (hg : Good table) (hmem : row ∈ table)
    (hid : ∀ row, (set row).id = row.id)
    (hg' : Good (table.map fun other => if other.id = row.id then set other else other)) :
    stored (table.map fun other => if other.id = row.id then set other else other) =
      Function.update (stored table) (decode row.id) (some (set row).values) := by
  funext id
  refine Option.ext fun values => ?_
  rw [stored_eq_some_iff hg', Function.update_apply]
  split_ifs with hrow
  · subst hrow
    constructor
    · rintro ⟨other', hmem', hid', rfl⟩
      obtain ⟨other, hother, rfl⟩ := List.mem_map.mp hmem'
      split_ifs at hid' ⊢ with h
      · rw [hg.unique hother hmem h]
      · exact absurd (decode_injective hid') h
    · intro h
      cases h
      exact ⟨set row, List.mem_map.mpr ⟨row, hmem, if_pos rfl⟩, by rw [hid], rfl⟩
  · rw [stored_eq_some_iff hg]
    constructor
    · rintro ⟨other', hmem', rfl, rfl⟩
      obtain ⟨other, hother, rfl⟩ := List.mem_map.mp hmem'
      split_ifs at hrow ⊢ with h
      · exact absurd (by rw [hid, h]) hrow
      · exact ⟨other, hother, rfl, rfl⟩
    · rintro ⟨other, hother, rfl, rfl⟩
      have hne : other.id ≠ row.id := fun h => hrow (by rw [h])
      exact ⟨other, List.mem_map.mpr ⟨other, hother, if_neg hne⟩, rfl, rfl⟩

/-- A row that is not there is not counted. -/
theorem countP_eq_zero {id : PyStr} {chars : List Char} (hencode : encode id = some chars)
    (hnone : stored table id = none) : (table.countP fun row => row.id == chars) = 0 := by
  rw [List.countP_eq_zero]
  intro row hmem hrow
  exact stored_eq_none_iff.mp hnone row hmem (by rw [eq_of_beq hrow]; exact decode_of_encode hencode)

/-- A write that raises is refused. -/
theorem refused_of_error (call : Call) (hwrites : call.writes = true)
    (h : ∃ e, (call.operation table).1 = .error e) :
    Refused (stored table) (call.perform table).1 (stored (call.perform table).2) ∧
      (call.perform table).2 = table := by
  obtain ⟨e, he⟩ := h
  rw [perform_error hwrites he]
  exact ⟨⟨⟨e, rfl⟩, rfl⟩, rfl⟩

theorem update_missing (id : PyStr) (fields : ProfileUpdate) (hnone : stored table id = none) :
    ∃ e, ((Call.update id fields).operation table).1 = .error e := by
  have hsome : fields.changes.assignments.isEmpty = false := by
    rw [isEmpty_assignments]
    exact fields.changes_accepted.nonempty
  simp only [Call.operation, updateRow, updateRows, hsome]
  cases hset : bindAll fields.changes.assignments with
  | none => exact ⟨_, rfl⟩
  | some set =>
    cases hencode : encode id with
    | none => exact ⟨_, rfl⟩
    | some chars =>
      simp only [Bool.false_eq_true, if_false]
      split_ifs with hcheck
      · exact ⟨_, rfl⟩
      · simp only [countP_eq_zero hencode hnone]
        exact ⟨_, rfl⟩

/-- The constraints keep every row that an update changes. -/
theorem accepted_set (hg : Good table) {changes : ProfileChanges} (haccepted : changes.Accepted)
    (hname : ∀ name, changes.name = some name → NameStorable name) {set : Row → Row}
    (hrows : ∀ row : Row, (set row).id = row.id ∧ (set row).values = changes.apply row.values)
    {row : Row} (hmem : row ∈ table) :
    (set row).values.modelValidate = some (set row).values ∧ (set row).check = true := by
  have hvalues : (set row).values.modelValidate = some (set row).values := by
    rw [(hrows row).2]
    exact haccepted.apply (hg.accepted row hmem).2
  refine ⟨hvalues, check_of_accepted hvalues ?_⟩
  rw [(hrows row).2]
  cases hchange : changes.name with
  | none =>
    simp only [ProfileChanges.apply, hchange]
    exact head_of_check (hg.checked row hmem)
  | some name =>
    simp only [ProfileChanges.apply, hchange]
    exact (hname name hchange).2

/-- An update of a row that is there. -/
theorem update_found (hg : Good table) {row : Row} (hmem : row ∈ table) (fields : ProfileUpdate)
    (hname : ∀ name, fields.changes.name = some name → NameStorable name) :
    ∃ table', (Call.update (decode row.id) fields).perform table =
        (.ok (.profile ⟨decode row.id, fields.changes.apply row.values⟩), table') ∧
      stored table' = Function.update (stored table) (decode row.id)
        (some (fields.changes.apply row.values)) ∧ Good table' := by
  have haccepted := fields.changes_accepted
  obtain ⟨set, hset, hrows⟩ := binds_assignments haccepted fun name h => (hname name h).1
  have hvalid : ∀ other ∈ table, (set other).values.modelValidate = some (set other).values ∧
      (set other).check = true :=
    fun other hother => accepted_set hg haccepted hname hrows hother
  have hg' : Good (table.map fun other => if other.id = row.id then set other else other) := by
    refine good_map hg (fun other => ?_) fun other hother => ?_
    · split_ifs
      · exact (hrows other).1
      · rfl
    · split_ifs
      · exact hvalid other hother
      · exact ⟨(hg.accepted other hother).2, hg.checked other hother⟩
  have hstored := stored_map hg hmem (fun other => (hrows other).1) hg'
  rw [(hrows row).2] at hstored
  have hread := getProfileOrRaise_of_some hg' (by rw [hstored, Function.update_self])
  have hsome : fields.changes.assignments.isEmpty = false := by
    rw [isEmpty_assignments]
    exact haccepted.nonempty
  have hpass : (table.any fun other => other.id == row.id && !(set other).check) = false := by
    rw [List.any_eq_false]
    intro other hother
    simp [(hvalid other hother).2]
  have hcount : (table.countP fun other => other.id == row.id) ≠ 0 := by
    rw [← Nat.pos_iff_ne_zero, List.countP_pos_iff]
    exact ⟨row, hmem, beq_self_eq_true _⟩
  refine ⟨_, perform_ok ?_, hstored, hg'⟩
  simp only [Call.operation, updateRow, updateRows, hsome, hset, encode_decode, hpass,
    Bool.false_eq_true, if_false, if_neg hcount, hread]
  rfl

/-- **An update changes the fields that it sets, and nothing else.** -/
theorem update_spec (hg : Good table) (id : PyStr) (fields : ProfileUpdate)
    (hname : stored table id ≠ none →
      ∀ name, fields.changes.name = some name → NameStorable name) :
    Call.Spec (stored table) ((Call.update id fields).perform table).1
        (stored ((Call.update id fields).perform table).2) (.update id fields) ∧
      Good ((Call.update id fields).perform table).2 := by
  cases hstored : stored table id with
  | none =>
    obtain ⟨hrefused, htable⟩ :=
      refused_of_error (.update id fields) rfl (update_missing id fields hstored)
    refine ⟨⟨fun values h => ?_, fun _ => hrefused⟩, by rw [htable]; exact hg⟩
    rw [hstored] at h
    cases h
  | some values =>
    obtain ⟨row, hmem, rfl, rfl⟩ := (stored_eq_some_iff hg).mp hstored
    obtain ⟨table', hperform, hstored', hg'⟩ :=
      update_found hg hmem fields (hname (by rw [hstored]; simp))
    rw [hperform]
    refine ⟨⟨fun values h => ?_, fun h => ?_⟩, hg'⟩
    · rw [hstored] at h
      cases h
      exact ⟨rfl, hstored'⟩
    · rw [hstored] at h
      cases h

/-- **A delete removes its row, and no other.** -/
theorem delete_spec (hg : Good table) (id : PyStr) :
    Call.Spec (stored table) ((Call.delete id).perform table).1
        (stored ((Call.delete id).perform table).2) (.delete id) ∧
      Good ((Call.delete id).perform table).2 := by
  cases hstored : stored table id with
  | none =>
    have herror : ∃ e, ((Call.delete id).operation table).1 = .error e := by
      simp only [Call.operation, deleteRow, deleteRows]
      cases hencode : encode id with
      | none => exact ⟨_, rfl⟩
      | some chars =>
        simp only [countP_eq_zero hencode hstored]
        exact ⟨_, rfl⟩
    obtain ⟨hrefused, htable⟩ := refused_of_error (.delete id) rfl herror
    refine ⟨⟨fun values h => ?_, fun _ => hrefused⟩, by rw [htable]; exact hg⟩
    rw [hstored] at h
    cases h
  | some values =>
    obtain ⟨row, hmem, rfl, rfl⟩ := (stored_eq_some_iff hg).mp hstored
    have hg' : Good (table.filter (·.id != row.id)) :=
      ⟨hg.nodup.sublist (List.filter_sublist.map Row.id),
        fun other h => hg.accepted other (List.mem_filter.mp h).1,
        fun other h => hg.checked other (List.mem_filter.mp h).1⟩
    have hcount : (table.countP fun other => other.id == row.id) ≠ 0 := by
      rw [← Nat.pos_iff_ne_zero, List.countP_pos_iff]
      exact ⟨row, hmem, beq_self_eq_true _⟩
    have hperform : (Call.delete (decode row.id)).perform table =
        (.ok .none, table.filter (·.id != row.id)) := by
      refine perform_ok ?_
      simp only [Call.operation, deleteRow, deleteRows, encode_decode, if_neg hcount]
    rw [hperform]
    refine ⟨⟨fun values _ => ⟨rfl, ?_⟩, fun h => ?_⟩, hg'⟩
    · funext id
      refine Option.ext fun values => ?_
      rw [stored_eq_some_iff hg', Function.update_apply]
      split_ifs with hid
      · subst hid
        simp only [List.mem_filter, bne_iff_ne, iff_false]
        rintro ⟨other, ⟨_, hne⟩, hid, _⟩
        exact hne (decode_injective hid)
      · rw [stored_eq_some_iff hg]
        simp only [List.mem_filter, bne_iff_ne]
        constructor
        · rintro ⟨other, ⟨hother, _⟩, hother'⟩
          exact ⟨other, hother, hother'⟩
        · rintro ⟨other, hother, rfl, hvalues⟩
          exact ⟨other, ⟨hother, fun h => hid (by rw [h])⟩, rfl, hvalues⟩
    · rw [hstored] at h
      cases h

theorem get_spec (hg : Good table) (id : PyStr) :
    Call.Spec (stored table) ((Call.get id).perform table).1
        (stored ((Call.get id).perform table).2) (.get id) ∧
      Good ((Call.get id).perform table).2 := by
  rw [perform_read rfl]
  refine ⟨⟨fun values h => ⟨?_, rfl⟩, fun h => ⟨?_, rfl⟩⟩, hg⟩
  · simp only [Call.operation, getRow, getProfileOrRaise_of_some hg h]
    rfl
  · obtain ⟨e, he⟩ := getProfileOrRaise_of_none h
    simp only [Call.operation, getRow, he]
    exact ⟨e, rfl⟩

/-- **A list has every stored profile once.** -/
theorem list_spec (hg : Good table) :
    Call.Spec (stored table) (Call.list.perform table).1 (stored (Call.list.perform table).2) .list ∧
      Good (Call.list.perform table).2 := by
  rw [perform_read rfl]
  have hperm : (selectAll table).Perm table := List.mergeSort_perm _ _
  have hread : ∀ rows : List Row, (∀ row ∈ rows, row ∈ table) →
      rows.mapM profileFromRow = .ok (rows.map fun row => ⟨decode row.id, row.values⟩) := by
    intro rows
    induction rows with
    | nil => exact fun _ => rfl
    | cons row rows ih =>
      intro hrows
      rw [List.mapM_cons, profileFromRow_of_good hg (hrows row List.mem_cons_self),
        ih fun other h => hrows other (List.mem_cons_of_mem _ h)]
      rfl
  refine ⟨⟨(selectAll table).map fun row => ⟨decode row.id, row.values⟩, ?_, ?_, ?_, rfl⟩, hg⟩
  · simp only [Call.operation, listRows, hread _ fun row h => hperm.mem_iff.mp h]
    rfl
  · refine List.Nodup.of_map Profile.id ?_
    rw [List.map_map]
    have hids : ((selectAll table).map Row.id).Nodup := (hperm.map Row.id).nodup_iff.mpr hg.nodup
    simpa [Function.comp_def] using hids.map fun _ _ h => decode_injective h
  · intro profile
    rw [List.mem_map, stored_eq_some_iff hg]
    constructor
    · rintro ⟨row, hrow, rfl⟩
      exact ⟨row, hperm.mem_iff.mp hrow, rfl, rfl⟩
    · rintro ⟨row, hrow, hid, hvalues⟩
      refine ⟨row, hperm.mem_iff.mpr hrow, ?_⟩
      rw [hid, hvalues]

/-- **A call on a table is that call on its map.** -/
theorem perform_spec (hg : Good table) (call : Call) (hstorable : call.Storable (stored table))
    (hnew : ∀ id fields, call = .create id fields → stored table id.id = none) :
    call.Spec (stored table) (call.perform table).1 (stored (call.perform table).2) ∧
      Good (call.perform table).2 := by
  cases call with
  | create id fields => exact create_spec hg id fields hstorable (hnew id fields rfl)
  | update id fields => exact update_spec hg id fields hstorable
  | delete id => exact delete_spec hg id
  | get id => exact get_spec hg id
  | list => exact list_spec hg

end SmartDesk.Profiles
