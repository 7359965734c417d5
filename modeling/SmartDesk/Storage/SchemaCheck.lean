import SmartDesk.Storage.Migration

/-!
# What the verification of a schema finds

* `runs_rejects`, `probes_probe` — the rows that have to be refused.
* `Accepts` — what `_verify_version_2_schema` tests, and `checks_verify`: it returns exactly then,
  and leaves the file as it was in any case.
* `Collides`, `Escapes` — a probe that only a uniqueness constraint refuses, and one that nothing
  refuses.
* `verification_sound_iff` — **it is sound exactly if no probe collides with a row that it meets,
  or another one escapes.**
-/

namespace SmartDesk.Storage

open Sqlite Effect Effect.Eff

/-! ## Rows that have to be refused -/

section Probes

variable {calm : Bool} {name table text : String} {db db' : Db} {row : Row}

theorem runs_rejects :
    Runs calm (rejects table row) (inside name db db') fun r c =>
      Scratch calm name db r c ∧
        (r = .ok true → db'.insert table row = .error .integrity ∧ c = inside name db db') ∧
        (calm = true → db'.insert table row = .error .integrity → r = .ok true) := by
  refine Runs.attempt (Q := fun r c => Scratch calm name db r c ∧ r ≠ .ok true ∧
    (r = .error (.sql .integrity) → db'.insert table row = .error .integrity ∧
      c = inside name db db') ∧
    (calm = true → db'.insert table row = .error .integrity →
      r = .error (.sql .integrity))) ?_ ?_ ?_
  · refine Runs.bind (runs_change_inside _) ?_ ?_
    · rintro u c ⟨hscratch, hok, -, hcalm⟩
      refine runs_pure ⟨hscratch.of_ok nofun, nofun, nofun, fun hc hinsert => ?_⟩
      have h := hcalm hc
      rw [hinsert] at h
      cases h
    · rintro e c ⟨hscratch, -, hintegrity, hcalm⟩
      refine ⟨hscratch.error, nofun, fun he => hintegrity (by rw [Except.error.inj he]),
        fun hc hinsert => ?_⟩
      have h := hcalm hc
      rw [hinsert] at h
      rw [Except.error.inj h]
  · rintro a c ⟨hscratch, hne, -, hcalm⟩
    exact ⟨hscratch, fun h => absurd h hne, fun hc hinsert => by cases hcalm hc hinsert⟩
  · rintro e c ⟨hscratch, -, hintegrity, hcalm⟩
    have hnot (he : e ≠ .sql .integrity) (hc : calm = true)
        (hinsert : db'.insert table row = .error .integrity) :
        (.error e : Except _ Bool) = .ok true :=
      absurd (Except.error.inj (hcalm hc hinsert)) he
    cases e with
    | sql e =>
      dsimp only
      split
      · next he =>
        rw [he] at hintegrity
        obtain ⟨hinsert, hc⟩ := hintegrity rfl
        exact runs_pure ⟨⟨nofun, .inl ⟨db', hc⟩⟩, fun _ => ⟨hinsert, hc⟩, fun _ _ => rfl⟩
      · next he =>
        exact runs_raise ⟨hscratch, nofun, hnot fun h => he (by cases h; rfl)⟩
    | own e => exact runs_raise ⟨hscratch, nofun, hnot nofun⟩
    | stopped => exact runs_raise ⟨hscratch, nofun, hnot nofun⟩

/-- **The probes pass exactly if each row is refused.** -/
theorem probes_probe (rows : List Row) :
    Probes calm name db (fun db' => ∀ row ∈ rows, db'.insert table row = .error .integrity)
      (probe table text rows) := by
  induction rows with
  | nil =>
    exact fun db' => runs_pure ⟨⟨nofun, .inl ⟨db', rfl⟩⟩, fun _ _ h => (by cases h), fun _ _ => rfl⟩
  | cons row rows ih =>
    intro db'
    refine Runs.bind runs_rejects ?_ ?_
    · rintro (_ | _) c ⟨hscratch, hrejected, hcalm⟩
      · refine Runs.bind (Q := fun r c => Scratch calm name db r c ∧ ∃ e, r = .error e)
          (runs_raise ⟨hscratch.of_ok nofun, _, rfl⟩) ?_ ?_
        · rintro _ _ ⟨-, e, he⟩
          cases he
        · rintro e c ⟨hscratch, -⟩
          refine ⟨hscratch, nofun, fun hc h => ?_⟩
          cases hcalm hc (h row List.mem_cons_self)
      · obtain ⟨hinsert, rfl⟩ := hrejected rfl
        refine (ih db').mono fun r c h => ⟨h.1, fun hr => ?_, fun hc hall => ?_⟩
        · exact List.forall_mem_cons.mpr ⟨hinsert, h.2.1 hr⟩
        · exact h.2.2 hc (List.forall_mem_cons.mp hall).2
    · rintro e c ⟨hscratch, -, hcalm⟩
      refine ⟨hscratch.error, nofun, fun hc h => ?_⟩
      cases hcalm hc (h row List.mem_cons_self)

end Probes

/-! ## One table -/

/-- The rows go in one after the other. -/
def insertAll (name : String) (rows : List Row) (db : Db) : Except SqlError Db :=
  rows.foldlM (fun db row => db.insert name row) db

/-- The table takes the valid rows, and then refuses each probe. -/
def Passes (t : Schema) (rows valid probes : List Row) : Prop :=
  ∃ stored, valid.foldlM t.insert rows = .ok stored ∧
    ∀ row ∈ probes, t.insert stored row = .error .integrity

section Table

variable {db : Db} {name : String} {t : Table}

theorem insert_eq (h : db.table? name = some t) (row : Row) :
    db.insert name row = (t.schema.insert t.rows row).map (db.setRows name) := by
  rw [Db.insert, h]

theorem table?_setRows (h : db.table? name = some t) (rows : List Row) :
    (db.setRows name rows).table? name = some { t with rows := rows } := by
  unfold Db.table? Db.setRows at *
  dsimp only
  rw [List.find?_map]
  have hsame : ((fun t : Table => sameName t.name name) ∘ fun t : Table =>
      if sameName t.name name then { t with rows := rows } else t) =
        fun t : Table => sameName t.name name := by
    funext t
    dsimp only [Function.comp]
    split <;> rfl
  rw [hsame, h, Option.map_some, if_pos (by simpa using List.find?_some h)]

/-- The rows of the file go through the constraints of the table. -/
theorem passes_iff (h : db.table? name = some t) (valid probes : List Row) :
    (∃ db', insertAll name valid db = .ok db' ∧
        ∀ row ∈ probes, db'.insert name row = .error .integrity) ↔
      Passes t.schema t.rows valid probes := by
  unfold Passes insertAll
  induction valid generalizing db t with
  | nil =>
    have hrefused (row : Row) : db.insert name row = .error .integrity ↔
        t.schema.insert t.rows row = .error .integrity := by
      rw [insert_eq h]
      cases t.schema.insert t.rows row <;> simp [Except.map]
    constructor
    · rintro ⟨_, hdb, hall⟩
      cases hdb
      exact ⟨t.rows, rfl, fun row hrow => (hrefused row).mp (hall row hrow)⟩
    · rintro ⟨_, hrows, hall⟩
      cases hrows
      exact ⟨db, rfl, fun row hrow => (hrefused row).mpr (hall row hrow)⟩
  | cons row valid ih =>
    rw [List.foldlM_cons, List.foldlM_cons, insert_eq h]
    cases hinsert : t.schema.insert t.rows row with
    | error e =>
      constructor
      · rintro ⟨_, hdb, -⟩
        cases hdb
      · rintro ⟨_, hrows, -⟩
        cases hrows
    | ok rows => exact ih (table?_setRows h rows)

/-- The table has the columns, takes the valid rows from `start` on and refuses the probes. -/
def TableAccepted (db : Db) (name : String) (columns : List Column)
    (start : List Row → List Row) (valid probes : List Row) : Prop :=
  ∃ t, db.table? name = some t ∧ t.schema.columns = columns ∧
    Passes t.schema (start t.rows) valid probes

theorem tableInfo_eq_iff {columns : List Column} (hne : columns ≠ []) :
    db.tableInfo name = columns ↔ ∃ t, db.table? name = some t ∧ t.schema.columns = columns := by
  unfold Db.tableInfo
  cases h : db.table? name with
  | none => simp [hne.symm]
  | some t => simp

end Table

/-! ## The verification -/

/-- What `_verify_version_2_schema` tests. -/
structure Accepts (db : Db) : Prop where
  version : db.userVersion = 2
  names : hasTables db.tableNames = true
  profiles : TableAccepted db "profiles" profilesSchema.columns id [validFirst, validSecond]
    invalidRows
  heights : TableAccepted db "desk_height_cache" heightCacheSchema.columns (fun _ => [])
    [validHeight] invalidHeights

section Verification

variable {calm : Bool} {db : Db} {A : Prop}

theorem checks_demand {holds : Bool} {e : StorageError} {rest : Sync Unit}
    (hrest : holds = true → Checks calm db A rest) :
    Checks calm db (holds = true ∧ A) (demand holds e >>= fun _ => rest) := by
  cases holds with
  | false =>
    have h : Checks calm db (false = true ∧ A) (raiseStorage e : Sync Unit) :=
      checks_raise fun h => by cases h.1
    exact h
  | true =>
    have h : Checks calm db (true = true ∧ A) rest := (hrest rfl).congr (by simp)
    exact h

/-- A query, and a demand on what it finds. -/
theorem checks_require {α : Type} {find : Db → α} {holds : α → Bool} {e : StorageError}
    {rest : Sync Unit} (hrest : holds (find db) = true → Checks calm db A rest) :
    Checks calm db (holds (find db) = true ∧ A)
      (statement (Conn.query · find) >>= fun found => demand (holds found) e >>= fun _ => rest) :=
  checks_query (checks_demand hrest)

theorem steps_insert {name table : String} {row : Row} :
    Steps calm name db (fun db => db.insert table row) (insert table row) := steps_change _

theorem probes_probeProfiles :
    Probes calm "validate_profiles_schema" db (fun db' => ∃ db₁,
        insertAll "profiles" [validFirst, validSecond] db' = .ok db₁ ∧
          ∀ row ∈ invalidRows, db₁.insert "profiles" row = .error .integrity)
      probeProfiles := by
  have hvalid : Steps calm "validate_profiles_schema" db
      (insertAll "profiles" [validFirst, validSecond])
      (insert "profiles" validFirst >>= fun _ => insert "profiles" validSecond) :=
    (steps_insert.seq steps_insert).congr fun db => by
      simp only [insertAll, List.foldlM_cons, List.foldlM_nil, bind_pure]
  exact (hvalid.handled fun _ => ⟨_, rfl⟩).probe (probes_probe invalidRows)

theorem probes_probeHeights :
    Probes calm "validate_height_cache_schema" db (fun db' => ∃ db₁,
        (db'.deleteAll "desk_height_cache" >>= insertAll "desk_height_cache" [validHeight]) =
            .ok db₁ ∧
          ∀ row ∈ invalidHeights, db₁.insert "desk_height_cache" row = .error .integrity)
      probeHeights := by
  refine Probes.congr
    (Steps.probe (steps_change _) (steps_insert.probe (probes_probe invalidHeights))) fun db => ?_
  cases db.deleteAll "desk_height_cache" with
  | error e =>
    constructor
    · rintro ⟨_, h, -⟩
      cases h
    · rintro ⟨_, h, -⟩
      cases h
  | ok db₁ =>
    have hone : insertAll "desk_height_cache" [validHeight] db₁ =
        db₁.insert "desk_height_cache" validHeight := by
      simp only [insertAll, List.foldlM_cons, List.foldlM_nil, bind_pure]
    show (∃ db₂, Except.ok db₁ = .ok db₂ ∧ _) ↔
      ∃ db₂, insertAll "desk_height_cache" [validHeight] db₁ = .ok db₂ ∧ _
    rw [hone]
    constructor
    · rintro ⟨_, h, hpasses⟩
      cases h
      exact hpasses
    · exact fun hpasses => ⟨db₁, rfl, hpasses⟩

/-- The savepoint finds out about the table of the name. -/
theorem passes_table {db : Db} {name : String} {columns : List Column} (hne : columns ≠ [])
    (valid probes : List Row) :
    (db.tableInfo name = columns ∧ ∃ db', insertAll name valid db = .ok db' ∧
        ∀ row ∈ probes, db'.insert name row = .error .integrity) ↔
      TableAccepted db name columns id valid probes := by
  rw [tableInfo_eq_iff hne]
  constructor
  · rintro ⟨⟨t, ht, hcolumns⟩, hpasses⟩
    exact ⟨t, ht, hcolumns, (passes_iff ht valid probes).mp hpasses⟩
  · rintro ⟨t, ht, hcolumns, hpasses⟩
    exact ⟨⟨t, ht, hcolumns⟩, (passes_iff ht valid probes).mpr hpasses⟩

theorem passes_emptied {db : Db} {name : String} {columns : List Column} (hne : columns ≠ [])
    (valid probes : List Row) :
    (db.tableInfo name = columns ∧ ∃ db', (db.deleteAll name >>= insertAll name valid) = .ok db' ∧
        ∀ row ∈ probes, db'.insert name row = .error .integrity) ↔
      TableAccepted db name columns (fun _ => []) valid probes := by
  rw [tableInfo_eq_iff hne]
  have hdelete {t : Table} (ht : db.table? name = some t) :
      (db.deleteAll name >>= insertAll name valid) = insertAll name valid (db.setRows name []) := by
    rw [Db.deleteAll, ht]
    rfl
  constructor
  · rintro ⟨⟨t, ht, hcolumns⟩, hpasses⟩
    rw [hdelete ht] at hpasses
    exact ⟨t, ht, hcolumns, (passes_iff (table?_setRows ht []) valid probes).mp hpasses⟩
  · rintro ⟨t, ht, hcolumns, hpasses⟩
    rw [hdelete ht]
    exact ⟨⟨t, ht, hcolumns⟩, (passes_iff (table?_setRows ht []) valid probes).mpr hpasses⟩

theorem accepts_iff : Accepts db ↔
    decide (db.userVersion = 2) = true ∧ hasTables db.tableNames = true ∧
      decide (db.tableInfo "profiles" = profilesSchema.columns) = true ∧
        (∃ db', insertAll "profiles" [validFirst, validSecond] db = .ok db' ∧
          ∀ row ∈ invalidRows, db'.insert "profiles" row = .error .integrity) ∧
        decide (db.tableInfo "desk_height_cache" = heightCacheSchema.columns) = true ∧
          ∃ db', (db.deleteAll "desk_height_cache" >>=
              insertAll "desk_height_cache" [validHeight]) = .ok db' ∧
            ∀ row ∈ invalidHeights, db'.insert "desk_height_cache" row = .error .integrity := by
  simp only [decide_eq_true_eq]
  constructor
  · intro h
    obtain ⟨hprofiles, hpasses⟩ := (passes_table (by decide) _ _).mpr h.profiles
    obtain ⟨hheights, hpasses'⟩ := (passes_emptied (by decide) _ _).mpr h.heights
    exact ⟨h.version, h.names, hprofiles, hpasses, hheights, hpasses'⟩
  · rintro ⟨hversion, hnames, hprofiles, hpasses, hheights, hpasses'⟩
    exact ⟨hversion, hnames, (passes_table (by decide) _ _).mp ⟨hprofiles, hpasses⟩,
      (passes_emptied (by decide) _ _).mp ⟨hheights, hpasses'⟩⟩

/-- **The verification returns exactly for what it accepts, and leaves the file as it is.** -/
theorem checks_verify : Checks calm db (Accepts db) verifyVersion2Schema := by
  refine Checks.congr ?_ accepts_iff.symm
  refine checks_require fun _ => checks_require fun _ => checks_require fun _ => ?_
  exact probes_probeProfiles.checks.seq (checks_require fun _ => probes_probeHeights.checks)

end Verification

/-! ## Soundness -/

/-- Version 2, with the two tables and their columns. -/
structure Version2 (db : Db) (profiles heights : Table) : Prop where
  version : db.userVersion = 2
  names : hasTables db.tableNames = true
  profilesFound : db.table? "profiles" = some profiles
  profileColumns : profiles.schema.columns = profilesSchema.columns
  heightsFound : db.table? "desk_height_cache" = some heights
  heightColumns : heights.schema.columns = heightCacheSchema.columns

/-- Each probed row is refused in an empty table. -/
def RefusesAlone (profiles heights : Schema) : Prop :=
  (∀ row ∈ invalidRows, profiles.insert [] row = .error .integrity) ∧
    ∀ row ∈ invalidHeights, heights.insert [] row = .error .integrity

/-- Without failures, the verification leaves the file as it is, with no transaction open, and
returns only if the tables refuse each probed row by a constraint on that row alone. -/
def Sound (db : Db) (profiles heights : Table) : Prop :=
  Runs true verifyVersion2Schema (.opened db) fun r c =>
    c = .opened db ∧ (r = .ok () → RefusesAlone profiles.schema heights.schema)

/-- The rows that the probes meet: the stored and the valid profiles, and the valid height. -/
structure Met (profiles heights : Table) (profileRows heightRows : List Row) : Prop where
  profiles :
    [validFirst, validSecond].foldlM profiles.schema.insert profiles.rows = .ok profileRows
  heights : [validHeight].foldlM heights.schema.insert [] = .ok heightRows

/-- Only a uniqueness constraint refuses the row, next to the rows of the table. -/
def Collides (t : Schema) (rows : List Row) (row : Row) : Prop :=
  t.check row = .ok () ∧ t.store rows row = .error .integrity

/-- Neither a constraint on the row alone nor a uniqueness constraint refuses the row: it goes
in, or fails with another error. -/
def Escapes (t : Schema) (rows : List Row) (row : Row) : Prop :=
  t.check row ≠ .error .integrity ∧ ¬ Collides t rows row

/-- It holds of some probe. -/
def SomeProbe (P : Schema → List Row → Row → Prop) (profiles heights : Schema)
    (profileRows heightRows : List Row) : Prop :=
  (∃ row ∈ invalidRows, P profiles profileRows row) ∨
    ∃ row ∈ invalidHeights, P heights heightRows row

/-- A row is refused by a constraint on it alone, by a uniqueness constraint or not at all. -/
theorem insert_eq_integrity_iff {t : Schema} {rows : List Row} {row : Row} :
    t.insert rows row = .error .integrity ↔
      t.check row = .error .integrity ∨ Collides t rows row := by
  unfold Schema.insert Collides
  cases hcheck : t.check row with
  | error e =>
    change (Except.error e : Except SqlError (List Row)) = _ ↔ _
    simp
  | ok u =>
    constructor
    · intro h
      exact .inr ⟨rfl, h⟩
    · rintro (h | ⟨_, h⟩)
      · cases h
      · exact h

/-- Alone, a row meets none with its key. -/
theorem insert_nil_eq_integrity_iff {t : Schema} {row : Row} :
    t.insert [] row = .error .integrity ↔ t.check row = .error .integrity := by
  rw [insert_eq_integrity_iff, Collides, t.store_nil]
  simp

/-- All probes are refused if none escapes. -/
theorem refused_iff {t : Schema} {rows probes : List Row} :
    (∀ row ∈ probes, t.insert rows row = .error .integrity) ↔
      ¬ ∃ row ∈ probes, Escapes t rows row := by
  have hrow (row : Row) : t.insert rows row = .error .integrity ↔ ¬ Escapes t rows row := by
    rw [insert_eq_integrity_iff, Escapes, not_and_not_right, or_iff_not_imp_left]
  constructor
  · rintro h ⟨row, hmem, hescapes⟩
    exact (hrow row).mp (h row hmem) hescapes
  · intro h row hmem
    exact (hrow row).mpr fun hescapes => h ⟨row, hmem, hescapes⟩

/-- Of the probes that are all refused each is refused alone, if none collides. -/
theorem refused_alone_iff {t : Schema} {rows probes : List Row}
    (hrefused : ∀ row ∈ probes, t.insert rows row = .error .integrity) :
    (∀ row ∈ probes, t.insert [] row = .error .integrity) ↔
      ¬ ∃ row ∈ probes, Collides t rows row := by
  constructor
  · rintro h ⟨row, hmem, hok, _⟩
    have hcheck := insert_nil_eq_integrity_iff.mp (h row hmem)
    rw [hok] at hcheck
    cases hcheck
  · intro h row hmem
    rw [insert_nil_eq_integrity_iff]
    exact (insert_eq_integrity_iff.mp (hrefused row hmem)).resolve_right
      fun hcollides => h ⟨row, hmem, hcollides⟩

theorem accepts_of_version2 {db : Db} {profiles heights : Table}
    (h : Version2 db profiles heights) :
    Accepts db ↔ Passes profiles.schema profiles.rows [validFirst, validSecond] invalidRows ∧
      Passes heights.schema [] [validHeight] invalidHeights := by
  constructor
  · intro ha
    obtain ⟨t, ht, -, hprofiles⟩ := ha.profiles
    obtain ⟨t', ht', -, hheights⟩ := ha.heights
    rw [h.profilesFound] at ht
    rw [h.heightsFound] at ht'
    cases ht
    cases ht'
    exact ⟨hprofiles, hheights⟩
  · rintro ⟨hprofiles, hheights⟩
    exact ⟨h.version, h.names, ⟨profiles, h.profilesFound, h.profileColumns, hprofiles⟩,
      ⟨heights, h.heightsFound, h.heightColumns, hheights⟩⟩

/-- Without failures there is one end of the verification. -/
theorem ends_of_runs {q : Sync Unit} {c : Conn} {Q : Except (Exc StorageError) Unit → Conn → Prop}
    (h : Runs true q c Q) : ∃ r c', Q r c' ∧ ∀ Q', Runs true q c Q' → Q' r c' := by
  have hcalm : true = true → ∀ n : ℕ, (fun _ : ℕ => Fault.none) n = .none := fun _ _ => rfl
  exact ⟨_, _, (h ⟨c, fun _ => .none, 0⟩ rfl hcalm).2,
    fun Q' h' => (h' ⟨c, fun _ => .none, 0⟩ rfl hcalm).2⟩

/-- **The verification is sound exactly if no probe collides with a row that it meets, or
another one escapes.** -/
theorem verification_sound_iff {db : Db} {profiles heights : Table}
    (h : Version2 db profiles heights) :
    Sound db profiles heights ↔
      ∀ profileRows heightRows, Met profiles heights profileRows heightRows →
        SomeProbe Collides profiles.schema heights.schema profileRows heightRows →
          SomeProbe Escapes profiles.schema heights.schema profileRows heightRows := by
  have hverify : Checks true db (Accepts db) verifyVersion2Schema := checks_verify
  rw [accepts_of_version2 h] at hverify
  constructor
  · rintro hsound profileRows heightRows ⟨hprofiles, hheights⟩ hcollides
    by_contra hnone
    obtain ⟨hprofile, hheight⟩ := not_or.mp hnone
    have hrefused := refused_iff.mpr hprofile
    have hrefused' := refused_iff.mpr hheight
    obtain ⟨r, c, ⟨-, hends⟩, hr⟩ := ends_of_runs hverify
    obtain ⟨-, -, hok⟩ := hends (.inl rfl)
    have halone := (hr _ hsound).2
      (hok rfl ⟨⟨profileRows, hprofiles, hrefused⟩, heightRows, hheights, hrefused'⟩)
    rcases hcollides with hcollides | hcollides
    · exact (refused_alone_iff hrefused).mp halone.1 hcollides
    · exact (refused_alone_iff hrefused').mp halone.2 hcollides
  · intro hcondition
    refine hverify.mono fun r c ⟨_, hends⟩ => ?_
    obtain ⟨hc, haccepted, -⟩ := hends (.inl rfl)
    refine ⟨hc, fun hr => ?_⟩
    obtain ⟨⟨profileRows, hprofiles, hrefused⟩, heightRows, hheights, hrefused'⟩ := haccepted hr
    have hnone : ¬ SomeProbe Collides profiles.schema heights.schema profileRows heightRows := by
      intro hcollides
      rcases hcondition profileRows heightRows ⟨hprofiles, hheights⟩ hcollides with hescapes | hescapes
      · exact refused_iff.mp hrefused hescapes
      · exact refused_iff.mp hrefused' hescapes
    obtain ⟨hprofile, hheight⟩ := not_or.mp hnone
    exact ⟨(refused_alone_iff hrefused).mpr hprofile, (refused_alone_iff hrefused').mpr hheight⟩

/-! ## A height that nobody refuses -/

/-- A height cache that only checks its id. -/
def uncheckedHeights : Schema where
  columns := heightCacheSchema.columns
  check
    | [id, _, _] => checked (id = .integer 1)
    | _ => .error (.other false)
  store := storeKeyed
  store_nil := storeKeyed_nil

def uncheckedDb : Db :=
  ⟨2, [⟨"profiles", profilesSchema, []⟩, ⟨"desk_height_cache", uncheckedHeights, []⟩], [], true⟩

theorem profiles_pass : Passes profilesSchema [] [validFirst, validSecond] invalidRows :=
  ⟨[validFirst, validSecond], by decide, by decide +kernel⟩

/-- **The height 72.9 is only refused for the id of the valid row.** -/
theorem height_unchecked :
    ¬ ∀ db profiles heights, Version2 db profiles heights → Sound db profiles heights := by
  intro h
  have hversion : Version2 uncheckedDb ⟨"profiles", profilesSchema, []⟩
      ⟨"desk_height_cache", uncheckedHeights, []⟩ :=
    ⟨rfl, by decide, rfl, rfl, rfl, rfl⟩
  have hverify : Checks true uncheckedDb (Accepts uncheckedDb) verifyVersion2Schema :=
    checks_verify
  obtain ⟨r, c, ⟨-, hends⟩, hr⟩ := ends_of_runs hverify
  obtain ⟨-, -, hok⟩ := hends (.inl rfl)
  have haccepts : Accepts uncheckedDb :=
    (accepts_of_version2 hversion).mpr
      ⟨profiles_pass, [validHeight], by decide, by decide⟩
  have halone := ((hr _ (h _ _ _ hversion)).2 (hok rfl haccepts)).2
  revert halone
  decide

/-- A profile and a height that are stored. -/
def storedDb : Db :=
  ⟨2,
    [⟨"profiles", profilesSchema, [[.text "1", .text "desk", .real 80, .real 110, .text "0A1B2C"]]⟩,
      ⟨"desk_height_cache", heightCacheSchema, [[.integer 1, .real 90, .text "2026-08-14"]]⟩],
    [], true⟩

/-- In the tables of the migrations no probe collides with a row that it meets. -/
theorem verification_sound_created :
    Sound storedDb
      ⟨"profiles", profilesSchema, [[.text "1", .text "desk", .real 80, .real 110, .text "0A1B2C"]]⟩
      ⟨"desk_height_cache", heightCacheSchema, [[.integer 1, .real 90, .text "2026-08-14"]]⟩ := by
  refine (verification_sound_iff ⟨rfl, by decide, rfl, rfl, rfl, rfl⟩).mpr ?_
  have hprofiles : ∀ row ∈ invalidRows, profilesSchema.check row = .error .integrity := by
    decide +kernel
  have hheights : ∀ row ∈ invalidHeights, heightCacheSchema.check row = .error .integrity := by
    decide +kernel
  rintro profileRows heightRows - (⟨row, hmem, hok, _⟩ | ⟨row, hmem, hok, _⟩)
  · cases (hprofiles row hmem).symm.trans hok
  · cases (hheights row hmem).symm.trans hok

end SmartDesk.Storage
