import SmartDesk.Storage.SchemaCheck

/-!
# Migrations that fail and start again

* `runs_migrate` — a migration is committed as a whole, or leaves the file as it was.
* `versionDb` — the files of the versions, and `accepts_versionDb`: the last one is accepted.
* `runs_start` — what an attempt leaves, at whichever statement it fails or stops.
* `migration_resumes` — **after any attempts the file is that of a version that is no lower, with
  the same profile rows, and an attempt without failures reaches version 2.**
-/

namespace SmartDesk.Storage

open Sqlite Effect Effect.Eff

/-! ## One migration -/

/-- The file after a migration. -/
def migrated (name : String) (schema : Schema) (version : ℤ) (db : Db) : Db :=
  { db with userVersion := version, tables := db.tables ++ [⟨name, schema, []⟩] }

section Migrate

variable {calm : Bool} {db : Db} {name : String} {schema : Schema} {version : ℤ}

theorem createTable_eq (hfree : db.taken name = false) :
    db.createTable name schema =
      .ok { db with tables := db.tables ++ [⟨name, schema, []⟩] } := by
  rw [Db.createTable, hfree]
  rfl

theorem createTable_taken (htaken : db.taken name = true) :
    db.createTable name schema = .error (.other false) := by
  rw [Db.createTable, htaken]
  rfl

theorem free_of_createTable {db' : Db} (version : ℤ) (h : db.createTable name schema = .ok db') :
    db.taken name = false ∧ db'.setUserVersion version = migrated name schema version db := by
  cases htaken : db.taken name with
  | true =>
    rw [createTable_taken htaken] at h
    cases h
  | false =>
    rw [createTable_eq htaken] at h
    cases h
    exact ⟨rfl, rfl⟩

theorem runs_rollbackMigration {c : Conn} (h : Pending db c) :
    Runs calm rollbackMigration c fun r c' =>
      Pending db c' ∧ (calm = true → c' = .opened db ∧ r = .ok ()) := by
  refine Runs.attempt (runs_rollback h) ?_ ?_
  · rintro ⟨⟩ c ⟨hpending, hcalm⟩
    exact ⟨hpending, fun hc => ⟨(hcalm hc).1, rfl⟩⟩
  · rintro e c ⟨hpending, hcalm⟩
    have hsql (hc : calm = true) : ∃ e', e = .sql e' := by
      obtain ⟨-, x, hx⟩ := hcalm hc
      cases x with
      | ok u => cases hx
      | error e' => exact ⟨e', Except.error.inj hx⟩
    cases e with
    | sql e => exact runs_pure ⟨hpending, fun hc => ⟨(hcalm hc).1, rfl⟩⟩
    | own e => exact runs_raise ⟨hpending, fun hc => by obtain ⟨_, h⟩ := hsql hc; cases h⟩
    | stopped => exact runs_raise ⟨hpending, fun hc => by obtain ⟨_, h⟩ := hsql hc; cases h⟩

/-- What a migration leaves: the file as it was, or, if the name was free, as it is to be. -/
def MigrationEnds (calm : Bool) (db : Db) (name : String) (schema : Schema) (version : ℤ)
    (r : Except (Exc StorageError) Unit) (c : Conn) : Prop :=
  (Pending db c ∨ db.taken name = false ∧ Pending (migrated name schema version db) c) ∧
    (r = .ok () → db.taken name = false ∧ c = .opened (migrated name schema version db)) ∧
      (calm = true → r = if db.taken name then .error (.sql (.other false)) else .ok ())

/-- The three statements after `BEGIN`. -/
theorem runs_migration :
    Runs calm (do
        statement (Conn.change · fun db => db.createTable name schema)
        statement (Conn.change · fun db => .ok (db.setUserVersion version))
        statement Conn.commit) (transaction db db) (MigrationEnds calm db name schema version) := by
  refine Runs.bind (runs_change_transaction _) ?_ ?_
  · rintro ⟨⟩ c ⟨hok, -, -⟩
    obtain ⟨db₁, hcreate, rfl⟩ := hok rfl
    obtain ⟨hfree, hmigrated⟩ := free_of_createTable version hcreate
    refine Runs.bind (runs_change_transaction _) ?_ ?_
    · rintro ⟨⟩ c ⟨hok, -, -⟩
      obtain ⟨db₂, hversion, rfl⟩ := hok rfl
      cases hversion
      rw [hmigrated]
      refine runs_commit.mono ?_
      rintro r c ⟨hok, hpending, hcalm⟩
      refine ⟨hpending.imp_right fun h => ⟨hfree, .inl h⟩, fun hr => ⟨hfree, hok hr⟩, fun hc => ?_⟩
      rw [hcalm hc, hfree]
      rfl
    · rintro e c ⟨-, hpending, hcalm⟩
      refine ⟨.inl hpending, nofun, fun hc => ?_⟩
      cases (hcalm hc).1
  · rintro e c ⟨-, hpending, hcalm⟩
    refine ⟨.inl hpending, nofun, fun hc => ?_⟩
    have h := (hcalm hc).1
    cases htaken : db.taken name with
    | false =>
      rw [createTable_eq htaken] at h
      cases h
    | true =>
      rw [createTable_taken htaken] at h
      exact h

/-- **A migration is committed as a whole, or leaves the file as it was.** -/
theorem runs_migrate :
    Runs calm (migrate name schema version) (.opened db) fun r c =>
      MigrationEnds calm db name schema version r c ∧
        (calm = true → db.taken name = true → c = .opened db) := by
  refine Runs.bind runs_begin ?_ ?_
  · rintro ⟨⟩ c ⟨hbegun, -, -⟩
    obtain rfl := hbegun rfl
    refine Runs.cleaning runs_migration ?_ ?_
    · rintro r c ⟨hpending, hok, hcalm⟩ hraised
      obtain ⟨e, rfl⟩ : ∃ e, r = .error e := by
        cases r with
        | ok a => cases hraised
        | error e => exact ⟨e, rfl⟩
      -- The error is raised again, or that of the rollback.
      have hnot {r' : Except (Exc StorageError) Unit} : followed (.error e) r' ≠ .ok () := by
        cases r' <;> exact nofun
      have hends {r' : Except (Exc StorageError) Unit} (h : calm = true → r' = .ok ()) :
          calm = true → followed (.error e) r' =
            if db.taken name then .error (.sql (.other false)) else .ok () := by
        intro hc
        rw [h hc]
        exact hcalm hc
      rcases hpending with hpending | ⟨hfree, hpending⟩
      · refine (runs_rollbackMigration hpending).mono ?_
        rintro r' c' ⟨hpending', hdrop⟩
        exact ⟨⟨.inl hpending', fun h => absurd h hnot, hends fun hc => (hdrop hc).2⟩,
          fun hc _ => (hdrop hc).1⟩
      · refine (runs_rollbackMigration hpending).mono ?_
        rintro r' c' ⟨hpending', hdrop⟩
        refine ⟨⟨.inr ⟨hfree, hpending'⟩, fun h => absurd h hnot, hends fun hc => (hdrop hc).2⟩,
          fun hc htaken => ?_⟩
        rw [hfree] at htaken
        cases htaken
    · rintro r c hends hraised
      refine ⟨hends, fun hc htaken => ?_⟩
      have h := hends.2.2 hc
      rw [if_pos htaken] at h
      rw [h] at hraised
      cases hraised
  · rintro e c ⟨-, hpending, hcalm⟩
    refine ⟨⟨.inl hpending, nofun, fun hc => ?_⟩, fun hc _ => ?_⟩
    · cases hcalm hc
    · cases hcalm hc

end Migrate

/-! ## The files of the versions -/

/-- The file of a version, with the profile rows. -/
def versionDb (rows : List Row) : ℕ → Db
  | 0 => ⟨0, [], [], true⟩
  | 1 => ⟨1, [⟨"profiles", profilesSchema, rows⟩], [], true⟩
  | _ => ⟨2, [⟨"profiles", profilesSchema, rows⟩, ⟨"desk_height_cache", heightCacheSchema, []⟩], [],
      true⟩

/-- A row with an id as `_generate_profile_id` makes them. -/
def HasGeneratedId (row : Row) : Prop :=
  ∃ id : String, row.head? = some (.text id) ∧
    Profiles.isProfileId (PyText.decode id.toList) = true

/-- A profile. -/
def sampleRow : Row :=
  [.text "profile-0123456789abcdef0123456789abcdef", .text "A", .real 75, .real 115, .null]

theorem sampleRow_generated : HasGeneratedId sampleRow := ⟨_, rfl, by decide⟩

theorem sameKey_generated {row probe : Row} (h : HasGeneratedId row)
    (hprobe : probe ∈ [validFirst, validSecond]) : sameKey probe row = false := by
  obtain ⟨id, hid, hgenerated⟩ := h
  unfold sameKey
  rw [hid]
  have hne : ∀ key : String, key ∈ ["__schema_check_1__", "__schema_check_2__"] → key ≠ id := by
    have hprobes : ∀ key ∈ ["__schema_check_1__", "__schema_check_2__"],
        Profiles.isProfileId (PyText.decode key.toList) = false := by decide
    rintro key hkey rfl
    rw [hprobes key hkey] at hgenerated
    cases hgenerated
  simp only [List.mem_cons, List.not_mem_nil, or_false] at hprobe
  rcases hprobe with rfl | rfl
  · simp [validFirst, hne _ List.mem_cons_self]
  · simp [validSecond, hne "__schema_check_2__" (by simp)]

/-- Probes have no key of a stored row. -/
theorem profiles_passes {rows : List Row} (h : ∀ row ∈ rows, HasGeneratedId row) :
    Passes profilesSchema rows [validFirst, validSecond] invalidRows := by
  have hkey (probe : Row) (hprobe : probe ∈ [validFirst, validSecond]) :
      rows.any (sameKey probe) = false := by
    rw [List.any_eq_false]
    intro row hrow
    rw [sameKey_generated (h row hrow) hprobe]
    exact Bool.false_ne_true
  have hfirst : profilesSchema.insert rows validFirst = .ok (rows ++ [validFirst]) := by
    show storeKeyed rows validFirst = _
    rw [storeKeyed, hkey _ (by simp)]
    rfl
  have hsecond : profilesSchema.insert (rows ++ [validFirst]) validSecond =
      .ok (rows ++ [validFirst] ++ [validSecond]) := by
    show storeKeyed (rows ++ [validFirst]) validSecond = _
    have hboth : (rows ++ [validFirst]).any (sameKey validSecond) = false := by
      rw [List.any_append, hkey _ (by simp)]
      decide
    rw [storeKeyed, hboth]
    rfl
  refine ⟨rows ++ [validFirst] ++ [validSecond], ?_, fun row hrow => ?_⟩
  · rw [List.foldlM_cons, hfirst]
    show (profilesSchema.insert (rows ++ [validFirst]) validSecond >>= pure) = _
    rw [hsecond]
    rfl
  · have hcheck : profilesSchema.check row = .error .integrity := by
      revert row
      decide +kernel
    rw [Schema.insert, hcheck]
    rfl

theorem heights_passes : Passes heightCacheSchema [] [validHeight] invalidHeights :=
  ⟨[validHeight], by decide, by decide +kernel⟩

/-- **The file of version 2 is accepted.** -/
theorem accepts_versionDb {rows : List Row} (h : ∀ row ∈ rows, HasGeneratedId row) :
    Accepts (versionDb rows 2) where
  version := rfl
  names := by
    have hnames : (versionDb rows 2).tableNames =
        ["profiles", "desk_height_cache"].filter fun name => !isInternal name := rfl
    rw [hnames]
    decide
  profiles := by
    have hfirst : sameName "profiles" "profiles" = true := by decide
    refine ⟨⟨"profiles", profilesSchema, rows⟩, ?_, rfl, profiles_passes h⟩
    simp [Db.table?, versionDb, hfirst]
  heights := by
    have hfirst : sameName "profiles" "desk_height_cache" = false := by decide
    have hsecond : sameName "desk_height_cache" "desk_height_cache" = true := by decide
    refine ⟨⟨"desk_height_cache", heightCacheSchema, []⟩, ?_, rfl, heights_passes⟩
    simp [Db.table?, versionDb, hfirst, hsecond]

/-! ## Attempts -/

section Attempts

variable {calm : Bool} {rows : List Row}

/-- What is left of an attempt that started at version `v`. -/
def Resumable (calm : Bool) (rows : List Row) (v : ℕ) (r : Except (Exc StorageError) Unit)
    (c : Conn) : Prop :=
  (∃ w, v ≤ w ∧ w ≤ 2 ∧ c.file = versionDb rows w) ∧
    (calm = true → r = .ok () ∧ c.file = versionDb rows 2)

theorem runs_migrateToVersion1 :
    Runs calm migrateToVersion1 (.opened (versionDb [] 0)) fun r c =>
      (c.file = versionDb [] 0 ∨ c.file = versionDb [] 1) ∧
        (r = .ok () → c = .opened (versionDb [] 1)) ∧ (calm = true → r = .ok ()) := by
  refine runs_migrate.mono ?_
  rintro r c ⟨⟨hpending, hok, hcalm⟩, -⟩
  refine ⟨?_, fun hr => (hok hr).2, fun hc => hcalm hc⟩
  exact hpending.imp Pending.file fun h => h.2.file

theorem runs_migrateToVersion2 :
    Runs calm migrateToVersion2 (.opened (versionDb rows 1)) fun r c =>
      (c.file = versionDb rows 1 ∨ c.file = versionDb rows 2) ∧
        (r = .ok () → c = .opened (versionDb rows 2)) ∧ (calm = true → r = .ok ()) := by
  refine runs_migrate.mono ?_
  rintro r c ⟨⟨hpending, hok, hcalm⟩, -⟩
  have hfree : (versionDb rows 1).taken "desk_height_cache" = false := by
    have hname : sameName "profiles" "desk_height_cache" = false := by decide
    simp [Db.taken, versionDb, hname]
  refine ⟨?_, fun hr => (hok hr).2, fun hc => ?_⟩
  · exact hpending.imp Pending.file fun h => h.2.file
  · rw [hcalm hc, hfree]
    rfl

/-- The migrations from a version on. -/
theorem runs_migrateFrom {v : ℕ} (hv : v ≤ 2) (hrows : v = 0 → rows = []) :
    Runs calm (migrateFrom v) (.opened (versionDb rows v)) fun r c =>
      (∃ w, v ≤ w ∧ w ≤ 2 ∧ c.file = versionDb rows w) ∧
        (r = .ok () → c = .opened (versionDb rows 2)) ∧ (calm = true → r = .ok ()) := by
  have hlast (u : ℕ) (hu : u ≤ 1) : Runs calm migrateToVersion2 (.opened (versionDb rows 1))
      fun r c => (∃ w, u ≤ w ∧ w ≤ 2 ∧ c.file = versionDb rows w) ∧
        (r = .ok () → c = .opened (versionDb rows 2)) ∧ (calm = true → r = .ok ()) := by
    refine runs_migrateToVersion2.mono ?_
    rintro r c ⟨hfile | hfile, hrest⟩
    · exact ⟨⟨1, hu, by omega, hfile⟩, hrest⟩
    · exact ⟨⟨2, by omega, le_rfl, hfile⟩, hrest⟩
  match v, hv with
  | 0, _ =>
    obtain rfl := hrows rfl
    refine Runs.bind runs_migrateToVersion1 ?_ ?_
    · rintro ⟨⟩ c ⟨-, hok, -⟩
      obtain rfl := hok rfl
      exact hlast 0 (by omega)
    · rintro e c ⟨hfile, -, hcalm⟩
      refine ⟨?_, nofun, hcalm⟩
      rcases hfile with hfile | hfile
      · exact ⟨0, le_rfl, by omega, hfile⟩
      · exact ⟨1, by omega, by omega, hfile⟩
  | 1, _ => exact hlast 1 le_rfl
  | 2, _ => exact runs_pure ⟨⟨2, le_rfl, le_rfl, rfl⟩, fun _ => rfl, fun _ => rfl⟩

theorem userVersion_versionDb {v : ℕ} (hv : v ≤ 2) : (versionDb rows v).userVersion = v := by
  match v, hv with
  | 0, _ => rfl
  | 1, _ => rfl
  | 2, _ => rfl

theorem sound_versionDb (v : ℕ) : (versionDb rows v).sound = true := by
  match v with
  | 0 => rfl
  | 1 => rfl
  | _ + 2 => rfl

theorem checks_connect {db : Db} : Checks calm db True connect :=
  (checks_pragma.seq checks_pragma).congr (and_self_iff)

theorem checks_verifyQuickCheck {db : Db} : Checks calm db (db.sound = true) verifyQuickCheck := by
  refine checks_query ?_
  unfold demand
  cases hsound : db.sound with
  | true => exact checks_pure rfl
  | false => exact checks_raise nofun

/-- **An attempt leaves the file of a version that is no lower, and reaches version 2 if nothing
fails.** -/
theorem runs_startSync (hids : ∀ row ∈ rows, HasGeneratedId row) {v : ℕ} (hv : v ≤ 2)
    (hrows : v = 0 → rows = []) :
    Runs calm startSync (.opened (versionDb rows v)) (Resumable calm rows v) := by
  have herror (e : Exc StorageError) (c : Conn) (hfile : c.file = versionDb rows v)
      (hcalm : calm = false) : Resumable calm rows v (.error e) c :=
    ⟨⟨v, le_rfl, hv, hfile⟩, fun h => by rw [hcalm] at h; cases h⟩
  have hnot {A : Prop} (hA : A) (h : calm = true → ¬ A) : calm = false := by
    cases calm
    · rfl
    · exact absurd hA (h rfl)
  refine checks_connect.bind (fun _ => ?_) fun e c hfile h => herror e c hfile (hnot trivial h)
  refine checks_verifyQuickCheck.bind (fun _ => ?_) fun e c hfile h =>
    herror e c hfile (hnot (sound_versionDb v) h)
  refine runs_query ?_ fun hcalm e => herror e _ rfl hcalm
  have hle : decide ((v : ℤ) ≤ 2) = true := decide_eq_true (by omega)
  rw [userVersion_versionDb hv, hle]
  show Runs calm (migrateFrom v >>= fun _ => verifyVersion2Schema) _ _
  refine Runs.bind (runs_migrateFrom hv hrows) ?_ ?_
  · rintro ⟨⟩ c ⟨-, hok, -⟩
    obtain rfl := hok rfl
    refine checks_verify.mono ?_
    rintro r c ⟨hfile, hends⟩
    refine ⟨⟨2, hv, le_rfl, hfile⟩, fun hcalm => ⟨?_, hfile⟩⟩
    exact (hends (.inl hcalm)).2.2 hcalm (accepts_versionDb hids)
  · rintro e c ⟨hfile, -, hcalm⟩
    refine ⟨hfile, fun hc => ?_⟩
    cases hcalm hc

theorem runs_start (hids : ∀ row ∈ rows, HasGeneratedId row) {v : ℕ} (hv : v ≤ 2)
    (hrows : v = 0 → rows = []) :
    Runs calm start (.opened (versionDb rows v)) (Resumable calm rows v) := by
  refine Runs.attempt (runs_startSync hids hv hrows) (fun _ _ h => h) ?_
  rintro e c ⟨hfile, hcalm⟩
  have hraised (e' : Exc StorageError) : Resumable calm rows v (.error e') c :=
    ⟨hfile, fun hc => by cases (hcalm hc).1⟩
  cases e with
  | sql e =>
    dsimp only
    split <;> exact runs_raise (hraised _)
  | own e => exact runs_raise (hraised _)
  | stopped => exact runs_raise (hraised _)

/-- `start()` of a new process on the file, and the file afterwards; the connection is closed or
gone, and with it what is not committed. -/
def attempt (faults : ℕ → Fault) (db : Db) : Except (Exc StorageError) Unit × Db :=
  let (r, s) := start ⟨.opened db, faults, 0⟩
  (r, s.conn.file)

/-- The file after attempts with faults, one after the other. -/
def fileAfter (attempts : List (ℕ → Fault)) (db : Db) : Db :=
  attempts.foldl (fun db faults => (attempt faults db).2) db

/-- Nothing fails. -/
def faultless : ℕ → Fault := fun _ => .none

theorem attempt_grows (hids : ∀ row ∈ rows, HasGeneratedId row) {v : ℕ} (hv : v ≤ 2)
    (hrows : v = 0 → rows = []) (faults : ℕ → Fault) :
    ∃ w, v ≤ w ∧ w ≤ 2 ∧ (attempt faults (versionDb rows v)).2 = versionDb rows w := by
  have hruns : Runs false start (.opened (versionDb rows v)) (Resumable false rows v) :=
    runs_start hids hv hrows
  exact (hruns ⟨_, faults, 0⟩ rfl nofun).2.1

theorem attempt_faultless (hids : ∀ row ∈ rows, HasGeneratedId row) {v : ℕ} (hv : v ≤ 2)
    (hrows : v = 0 → rows = []) :
    attempt faultless (versionDb rows v) = (.ok (), versionDb rows 2) := by
  have hruns : Runs true start (.opened (versionDb rows v)) (Resumable true rows v) :=
    runs_start hids hv hrows
  have h := (hruns ⟨_, faultless, 0⟩ rfl fun _ _ => rfl).2.2 rfl
  exact Prod.ext h.1 h.2

/-- **Migration is crash-safe and resumable.**  Before any attempt the file is that of a version
with the profile rows; the attempt leaves it at a version that is no lower, and if nothing fails
it starts the database at version 2. -/
theorem migration_resumes (hids : ∀ row ∈ rows, HasGeneratedId row) {v : ℕ}
    (hv : v = 1 ∨ v = 0 ∧ rows = []) (attempts : List (ℕ → Fault)) :
    ∃ w, v ≤ w ∧ w ≤ 2 ∧ fileAfter attempts (versionDb rows v) = versionDb rows w ∧
      (∀ faults, ∃ w', w ≤ w' ∧ w' ≤ 2 ∧
        (attempt faults (versionDb rows w)).2 = versionDb rows w') ∧
      attempt faultless (versionDb rows w) = (.ok (), versionDb rows 2) := by
  have hstart : v ≤ 2 ∧ (v = 0 → rows = []) := by
    rcases hv with rfl | ⟨rfl, hrows⟩
    · exact ⟨by omega, nofun⟩
    · exact ⟨by omega, fun _ => hrows⟩
  obtain ⟨hle, hrows⟩ := hstart
  clear hv
  induction attempts generalizing v with
  | nil =>
    exact ⟨v, le_rfl, hle, rfl, attempt_grows hids hle hrows, attempt_faultless hids hle hrows⟩
  | cons faults attempts ih =>
    obtain ⟨w, hvw, hw, hfile⟩ := attempt_grows hids hle hrows faults
    obtain ⟨u, hwu, hu, hafter, hrest⟩ := ih hw fun h => hrows (by omega)
    refine ⟨u, hvw.trans hwu, hu, ?_, hrest⟩
    show fileAfter attempts (attempt faults (versionDb rows v)).2 = _
    rw [hfile, hafter]

/-- A version-1 file with a profile, and an attempt that stops in the second migration. -/
theorem migration_resumes_profile :
    ∃ w, 1 ≤ w ∧ w ≤ 2 ∧
      fileAfter [fun n => if n = 6 then .stop false else .none] (versionDb [sampleRow] 1) =
        versionDb [sampleRow] w ∧
      (∀ faults, ∃ w', w ≤ w' ∧ w' ≤ 2 ∧
        (attempt faults (versionDb [sampleRow] w)).2 = versionDb [sampleRow] w') ∧
      attempt faultless (versionDb [sampleRow] w) = (.ok (), versionDb [sampleRow] 2) :=
  migration_resumes (by
    simp only [List.mem_singleton, forall_eq]
    exact sampleRow_generated) (.inl rfl) _

end Attempts

end SmartDesk.Storage
