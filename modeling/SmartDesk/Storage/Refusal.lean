import SmartDesk.Storage.Resume

/-!
# Files that are refused

* `Unmigrated` — no migration is committed; `startFile` is the file that `start()` leaves.
* `refused_untouched_iff` — **a file that is refused is as it was exactly if no migration was
  committed to it or the migrated file is accepted.**
-/

namespace SmartDesk.Storage

open Sqlite Effect Effect.Eff

/-! ## The file that is left -/

/-- The file after `_migrate_to_version_2`. -/
def afterVersion2 (db : Db) : Db :=
  if db.taken "desk_height_cache" then db
  else migrated "desk_height_cache" heightCacheSchema 2 db

/-- The file after the migrations that its version needs. -/
def afterMigrations (db : Db) : Db :=
  if db.userVersion = 0 then
    if db.taken "profiles" then db else afterVersion2 (migrated "profiles" profilesSchema 1 db)
  else if db.userVersion = 1 then afterVersion2 db
  else db

/-- The migrations that the version needs succeed. -/
def Migrates (db : Db) : Prop :=
  if db.userVersion = 0 then
    db.taken "profiles" = false ∧
      (migrated "profiles" profilesSchema 1 db).taken "desk_height_cache" = false
  else if db.userVersion = 1 then db.taken "desk_height_cache" = false
  else True

section Runs

variable {db : Db}

theorem runs_afterVersion2 :
    Runs true migrateToVersion2 (.opened db) fun r c =>
      c = .opened (afterVersion2 db) ∧ (r = .ok () ↔ db.taken "desk_height_cache" = false) := by
  refine runs_migrate.mono ?_
  rintro r c ⟨⟨-, hok, hcalm⟩, htaken⟩
  have hr := hcalm rfl
  unfold afterVersion2
  cases h : db.taken "desk_height_cache" with
  | true =>
    rw [h] at hr
    refine ⟨by rw [if_pos rfl]; exact htaken rfl h, ?_⟩
    rw [hr]
    exact ⟨nofun, nofun⟩
  | false =>
    rw [h] at hr
    refine ⟨?_, fun _ => rfl, fun _ => hr⟩
    rw [if_neg Bool.false_ne_true]
    exact (hok hr).2

/-- **The migrations leave what `afterMigrations` says.** -/
theorem runs_afterMigrations :
    Runs true (migrateFrom db.userVersion) (.opened db) fun r c =>
      c = .opened (afterMigrations db) ∧ (r = .ok () ↔ Migrates db) := by
  unfold migrateFrom afterMigrations Migrates
  split
  · have hfirst : Runs true migrateToVersion1 (.opened db) fun r c =>
        MigrationEnds true db "profiles" profilesSchema 1 r c ∧
          (true = true → db.taken "profiles" = true → c = .opened db) := runs_migrate
    refine Runs.bind hfirst ?_ ?_
    · rintro ⟨⟩ c ⟨⟨-, hok, -⟩, -⟩
      obtain ⟨hfree, rfl⟩ := hok rfl
      refine runs_afterVersion2.mono ?_
      rintro r c ⟨rfl, hr⟩
      refine ⟨by rw [if_neg (by rw [hfree]; exact Bool.false_ne_true)], ?_⟩
      rw [hr]
      exact (and_iff_right hfree).symm
    · rintro e c ⟨⟨-, -, hcalm⟩, htaken⟩
      have he := hcalm rfl
      cases h : db.taken "profiles" with
      | true =>
        refine ⟨by rw [if_pos rfl]; exact htaken rfl h, nofun, fun hm => ?_⟩
        cases hm.1
      | false =>
        rw [h] at he
        cases he
  · split
    · exact runs_afterVersion2
    · exact runs_pure ⟨rfl, fun _ => trivial, fun _ => rfl⟩

/-- The file that `start()` leaves. -/
def startFile (db : Db) : Db :=
  if db.sound = true ∧ db.userVersion ≤ 2 then afterMigrations db else db

/-- `start()` returns. -/
def Starts (db : Db) : Prop :=
  db.sound = true ∧ db.userVersion ≤ 2 ∧ Migrates db ∧ Accepts (afterMigrations db)

theorem runs_startSync_calm :
    Runs true startSync (.opened db) fun r c =>
      c.file = startFile db ∧ (r = .ok () ↔ Starts db) := by
  refine checks_connect.bind (fun _ => ?_) fun e c _ h => absurd trivial (h rfl)
  refine checks_verifyQuickCheck.bind (fun hsound => ?_) fun e c hfile h => ?_
  swap
  · -- `quick_check` has failed.
    have hnot : ¬ db.sound = true := h rfl
    refine ⟨?_, nofun, fun hs => absurd hs.1 hnot⟩
    rw [startFile, if_neg fun hs => hnot hs.1]
    exact hfile
  refine runs_query ?_ nofun
  by_cases hversion : db.userVersion ≤ 2
  · rw [decide_eq_true hversion]
    show Runs true (migrateFrom db.userVersion >>= fun _ => verifyVersion2Schema) _ _
    have hfile : startFile db = afterMigrations db := by rw [startFile, if_pos ⟨hsound, hversion⟩]
    rw [hfile]
    refine Runs.bind runs_afterMigrations ?_ ?_
    · rintro ⟨⟩ c ⟨rfl, hok⟩
      have hverify : Checks true (afterMigrations db) (Accepts (afterMigrations db))
        verifyVersion2Schema := checks_verify
      refine hverify.mono ?_
      rintro r c ⟨hfile, hends⟩
      obtain ⟨-, hr, hr'⟩ := hends (.inl rfl)
      refine ⟨hfile, fun h => ⟨hsound, hversion, hok.mp rfl, hr h⟩, fun h => hr' rfl h.2.2.2⟩
    · rintro e c ⟨rfl, he⟩
      refine ⟨rfl, nofun, fun h => ?_⟩
      cases he.mpr h.2.2.1
  · rw [decide_eq_false hversion]
    refine runs_raise ⟨?_, nofun, fun h => absurd h.2.1 hversion⟩
    rw [startFile, if_neg fun hs => hversion hs.2]
    rfl

theorem runs_start_calm :
    Runs true start (.opened db) fun r c => c.file = startFile db ∧ (r = .ok () ↔ Starts db) := by
  refine Runs.attempt runs_startSync_calm (fun _ _ h => h) ?_
  rintro e c ⟨hfile, he⟩
  have hraised (e' : Exc StorageError) :
      c.file = startFile db ∧ ((.error e' : Except _ Unit) = .ok () ↔ Starts db) :=
    ⟨hfile, nofun, fun h => by cases he.mpr h⟩
  cases e with
  | sql e =>
    dsimp only
    split <;> exact runs_raise (hraised _)
  | own e => exact runs_raise (hraised _)
  | stopped => exact runs_raise (hraised _)

end Runs

/-! ## The conditions -/

/-- No migration is committed: the file is corrupt, of another version, or has the name of the
table that would be created. -/
def Unmigrated (db : Db) : Prop :=
  db.sound = false ∨ (db.userVersion ≠ 0 ∧ db.userVersion ≠ 1) ∨
    (db.userVersion = 0 ∧ db.taken "profiles" = true) ∨
      (db.userVersion = 1 ∧ db.taken "desk_height_cache" = true)

/-- A file without tables, or with the profile table alone, as it has to be. -/
def Migratable (db : Db) : Prop :=
  (db.userVersion = 0 ∧ db.tableNames = [] ∧ db.taken "desk_height_cache" = false) ∨
    (db.userVersion = 1 ∧ db.tableNames ≠ [] ∧ (∀ name ∈ db.tableNames, name = "profiles") ∧
      TableAccepted db "profiles" profilesSchema.columns id [validFirst, validSecond] invalidRows)

/-- `start()` without failures leaves a file that it refuses as it was. -/
def Untouched (db : Db) : Prop :=
  Runs true start (.opened db) fun r c => r ≠ .ok () → c.file = db

section Conditions

variable {db : Db} {name : String} {schema : Schema} {version : ℤ}

theorem sameName_profiles : sameName "profiles" "desk_height_cache" = false := by decide

theorem sameName_heights : sameName "desk_height_cache" "profiles" = false := by decide

theorem sameName_self (name : String) : sameName name name = true := decide_eq_true rfl

theorem taken_migrated (other : String) :
    (migrated name schema version db).taken other = (db.taken other || sameName name other) := by
  simp only [Db.taken, migrated, List.any_append, List.any_cons, List.any_nil, Bool.or_false]
  cases db.tables.any fun t => sameName t.name other <;> cases sameName name other <;> simp

theorem table?_migrated (other : String) :
    (migrated name schema version db).table? other =
      (db.table? other).or (if sameName name other then some ⟨name, schema, []⟩ else none) := by
  simp only [Db.table?, migrated, List.find?_append, List.find?_singleton]

theorem tableNames_migrated (hname : isInternal name = false) :
    (migrated name schema version db).tableNames = db.tableNames ++ [name] := by
  simp [Db.tableNames, migrated, hname]

theorem taken_of_mem (h : name ∈ db.tableNames) : db.taken name = true := by
  obtain ⟨hmem, -⟩ := List.mem_filter.mp h
  obtain ⟨t, ht, rfl⟩ := List.mem_map.mp hmem
  rw [Db.taken, Bool.or_eq_true, List.any_eq_true]
  exact .inl ⟨t, ht, sameName_self _⟩

theorem table?_of_free (h : db.taken name = false) : db.table? name = none := by
  rw [Db.table?, List.find?_eq_none]
  intro t ht hsame
  have htaken : db.taken name = true := by
    rw [Db.taken, Bool.or_eq_true, List.any_eq_true]
    exact .inl ⟨t, ht, hsame⟩
  rw [h] at htaken
  cases htaken

theorem userVersion_afterVersion2 (h : db.userVersion = 1) :
    1 ≤ (afterVersion2 db).userVersion := by
  unfold afterVersion2
  split
  · omega
  · exact (by decide : (1 : ℤ) ≤ 2)

theorem startFile_eq_iff : startFile db = db ↔ Unmigrated db := by
  unfold startFile Unmigrated
  by_cases hsound : db.sound = true
  swap
  · rw [if_neg fun h => hsound h.1]
    exact iff_of_true rfl (.inl ((Bool.not_eq_true _).mp hsound))
  by_cases hle : db.userVersion ≤ 2
  swap
  · rw [if_neg fun h => hle h.2]
    exact iff_of_true rfl (.inr (.inl (by omega)))
  rw [if_pos ⟨hsound, hle⟩, afterMigrations, hsound]
  split
  · next h0 =>
    cases htaken : db.taken "profiles" with
    | true => simp [h0]
    | false =>
      -- Version 1 at least is committed.
      have hne : afterVersion2 (migrated "profiles" profilesSchema 1 db) ≠ db := by
        intro heq
        have h : 1 ≤ (afterVersion2 (migrated "profiles" profilesSchema 1 db)).userVersion :=
          userVersion_afterVersion2 rfl
        rw [heq] at h
        omega
      simp [h0, hne]
  · next h0 =>
    split
    · next h1 =>
      unfold afterVersion2
      cases htaken : db.taken "desk_height_cache" with
      | true => simp [h1]
      | false =>
        have hne : migrated "desk_height_cache" heightCacheSchema 2 db ≠ db := by
          intro heq
          have h : (migrated "desk_height_cache" heightCacheSchema 2 db).userVersion = 2 := rfl
          rw [heq] at h
          omega
        simp [h1, hne]
    · next h1 => simp [h0, h1]

/-- The new tables are accepted. -/
theorem heights_accepted (h : db.taken "desk_height_cache" = false) :
    TableAccepted (migrated "desk_height_cache" heightCacheSchema version db) "desk_height_cache"
      heightCacheSchema.columns (fun _ => []) [validHeight] invalidHeights := by
  refine ⟨⟨"desk_height_cache", heightCacheSchema, []⟩, ?_, rfl, heights_passes⟩
  rw [table?_migrated, table?_of_free h, sameName_self]
  rfl

theorem accepts_migrated_iff (h : db.taken "desk_height_cache" = false) :
    Accepts (migrated "desk_height_cache" heightCacheSchema 2 db) ↔
      db.tableNames ≠ [] ∧ (∀ name ∈ db.tableNames, name = "profiles") ∧
        TableAccepted db "profiles" profilesSchema.columns id [validFirst, validSecond]
          invalidRows := by
  have hnames : (migrated "desk_height_cache" heightCacheSchema 2 db).tableNames =
      db.tableNames ++ ["desk_height_cache"] := tableNames_migrated (by decide)
  have hfound : (migrated "desk_height_cache" heightCacheSchema 2 db).table? "profiles" =
      db.table? "profiles" := by
    rw [table?_migrated, sameName_heights]
    simp
  have hfree : ∀ name ∈ db.tableNames, name ≠ "desk_height_cache" := by
    rintro name hmem rfl
    rw [taken_of_mem hmem] at h
    cases h
  constructor
  · intro ha
    have htables := ha.names
    rw [hnames] at htables
    simp only [hasTables, Bool.and_eq_true, List.contains_iff_mem, List.all_eq_true,
      List.mem_append, List.mem_singleton, Bool.or_eq_true, decide_eq_true_eq] at htables
    obtain ⟨⟨hmem, -⟩, hall⟩ := htables
    have hprofiles : "profiles" ∈ db.tableNames := hmem.resolve_right (by decide)
    refine ⟨List.ne_nil_of_mem hprofiles, fun name hname => ?_, ?_⟩
    · exact (hall name (.inl hname)).resolve_right (hfree name hname)
    · obtain ⟨t, ht, hpasses⟩ := ha.profiles
      exact ⟨t, hfound ▸ ht, hpasses⟩
  · rintro ⟨hne, hall, t, ht, hpasses⟩
    refine ⟨rfl, ?_, ⟨t, by rw [hfound, ht], hpasses⟩, heights_accepted h⟩
    obtain ⟨name, hname⟩ := List.exists_mem_of_ne_nil _ hne
    rw [hnames]
    simp only [hasTables, Bool.and_eq_true, List.contains_iff_mem, List.all_eq_true,
      List.mem_append, List.mem_singleton, Bool.or_eq_true, decide_eq_true_eq]
    refine ⟨⟨.inl (hall name hname ▸ hname), .inr trivial⟩, fun other hother => ?_⟩
    exact hother.imp_left (hall other)

/-- A file without the two names becomes one of version 2 if it has no tables. -/
theorem accepts_both_iff (hprofiles : db.taken "profiles" = false)
    (hheights : db.taken "desk_height_cache" = false) :
    Accepts (migrated "desk_height_cache" heightCacheSchema 2
      (migrated "profiles" profilesSchema 1 db)) ↔ db.tableNames = [] := by
  have hfree : (migrated "profiles" profilesSchema 1 db).taken "desk_height_cache" = false := by
    rw [taken_migrated, hheights, sameName_profiles]
    rfl
  have hnames : (migrated "profiles" profilesSchema 1 db).tableNames =
      db.tableNames ++ ["profiles"] := tableNames_migrated (by decide)
  rw [accepts_migrated_iff hfree, hnames]
  constructor
  · rintro ⟨-, hall, -⟩
    refine List.eq_nil_iff_forall_not_mem.mpr fun name hname => ?_
    obtain rfl := hall name (List.mem_append_left _ hname)
    rw [taken_of_mem hname] at hprofiles
    cases hprofiles
  · intro hnil
    rw [hnil]
    refine ⟨by simp, by simp, ⟨"profiles", profilesSchema, []⟩, ?_, rfl, profiles_pass⟩
    rw [table?_migrated, table?_of_free hprofiles, sameName_self]
    rfl

theorem starts_iff (h : ¬ Unmigrated db) : Starts db ↔ Migratable db := by
  unfold Unmigrated at h
  push Not at h
  obtain ⟨hsound, hversion, hprofiles, hheights⟩ := h
  have hsound' : db.sound = true := (Bool.not_eq_false _).mp hsound
  unfold Starts Migratable Migrates afterMigrations
  by_cases h0 : db.userVersion = 0
  · have hfree : db.taken "profiles" = false := (Bool.not_eq_true _).mp (hprofiles h0)
    have htaken : (migrated "profiles" profilesSchema 1 db).taken "desk_height_cache" =
        db.taken "desk_height_cache" := by
      rw [taken_migrated, sameName_profiles, Bool.or_false]
    rw [if_pos h0, if_pos h0, hfree, if_neg Bool.false_ne_true, afterVersion2, htaken]
    cases hother : db.taken "desk_height_cache" with
    | true => simp [h0]
    | false =>
      rw [if_neg Bool.false_ne_true, accepts_both_iff hfree hother]
      simp [h0, hsound']
  · have h1 : db.userVersion = 1 := hversion h0
    have hfree : db.taken "desk_height_cache" = false := (Bool.not_eq_true _).mp (hheights h1)
    rw [if_neg h0, if_pos h1, if_neg h0, if_pos h1, afterVersion2, hfree,
      if_neg Bool.false_ne_true, accepts_migrated_iff hfree]
    simp [h1, hsound']

/-- **A file that is refused is as it was exactly if no migration was committed to it, or the
migrated file is accepted.** -/
theorem refused_untouched_iff (db : Db) : Untouched db ↔ Unmigrated db ∨ Migratable db := by
  have hruns : Runs true start (.opened db) fun r c =>
    c.file = startFile db ∧ (r = .ok () ↔ Starts db) := runs_start_calm
  have huntouched : Untouched db ↔ startFile db = db ∨ Starts db := by
    constructor
    · intro h
      obtain ⟨r, c, ⟨hfile, hr⟩, hends⟩ := ends_of_runs hruns
      have hkept := hends _ h
      by_cases hstarts : Starts db
      · exact .inr hstarts
      · exact .inl (hfile.symm.trans (hkept fun hok => hstarts (hr.mp hok)))
    · intro h
      refine hruns.mono fun r c ⟨hfile, hr⟩ hne => ?_
      rcases h with h | h
      · exact hfile.trans h
      · exact absurd (hr.mpr h) hne
  rw [huntouched, startFile_eq_iff]
  by_cases h : Unmigrated db
  · simp [h]
  · rw [starts_iff h]

end Conditions

/-! ## Foreign tables -/

/-- A file of version 0 with another program's table. -/
def foreignDb : Db :=
  ⟨0, [⟨"notes", ⟨[⟨"id", "INTEGER", 0, 1⟩], fun _ => .ok (), storeKeyed, storeKeyed_nil⟩, []⟩], [],
    true⟩

/-- **Another program's file gets both tables and version 2 before it is refused.** -/
theorem foreign_migrated : ¬ ∀ db, Untouched db := by
  intro h
  have hruns : Runs true start (.opened foreignDb) fun r c =>
    c.file = startFile foreignDb ∧ (r = .ok () ↔ Starts foreignDb) := runs_start_calm
  obtain ⟨r, c, ⟨hfile, hr⟩, hends⟩ := ends_of_runs hruns
  have hnot : ¬ Starts foreignDb := by
    have hunmigrated : ¬ Unmigrated foreignDb := by
      unfold Unmigrated
      decide
    rw [starts_iff hunmigrated]
    rintro (⟨-, hnames, -⟩ | ⟨hversion, -⟩)
    · revert hnames
      decide
    · revert hversion
      decide
  have hkept := (hends _ (h foreignDb)) fun hok => hnot (hr.mp hok)
  rw [hfile] at hkept
  have hversion := congrArg Db.userVersion hkept
  revert hversion
  decide

end SmartDesk.Storage
