import SmartDesk.Lib.Effect
import Mathlib.Data.Rat.Defs

/-!
# A SQLite file and a connection to it

Tables are lists of rows under constraints; a transaction works on a copy of the file, which
only `COMMIT` and the end of the outermost savepoint write back.  Any statement can fail, and
the process can stop at any statement.

* `Db`, `Table`, `Schema` — what a file holds.
* `Conn` — a connection, with the copy of an open transaction and its savepoints.
* `statement` — a statement of a program, under the faults of a `Session`.
* `ensures_statement` — what a statement leaves, whether or not it fails.
-/

namespace Sqlite

open Effect Effect.Eff

/-! ## Files -/

inductive Value where
  | null
  | integer (n : ℤ)
  | real (q : ℚ)
  | text (s : String)
  | blob (bytes : List UInt8)
  deriving DecidableEq

abbrev Row : Type := List Value

/-- A `sqlite3.Error`. -/
inductive SqlError where
  | integrity
  /-- Any other, with whether it says that the file is corrupt. -/
  | other (corruption : Bool)
  deriving DecidableEq

/-- A row of `PRAGMA table_info`. -/
structure Column where
  name : String
  type : String
  notnull : ℕ
  pk : ℕ
  deriving DecidableEq

/-- The declarations of a table. -/
structure Schema where
  columns : List Column
  /-- The constraints on a row alone. -/
  check : Row → Except SqlError Unit
  /-- What the uniqueness constraints make of the stored rows and a checked row. -/
  store : List Row → Row → Except SqlError (List Row)
  /-- Alone, a row conflicts with none. -/
  store_nil : ∀ row, store [] row = .ok [row]

/-- `INSERT` -/
def Schema.insert (t : Schema) (rows : List Row) (row : Row) : Except SqlError (List Row) :=
  t.check row >>= fun _ => t.store rows row

structure Table where
  name : String
  schema : Schema
  rows : List Row

structure Db where
  userVersion : ℤ
  tables : List Table
  /-- The names of views and indexes. -/
  others : List String
  /-- `PRAGMA quick_check` says `ok`. -/
  sound : Bool

def foldName (name : String) : List Char := name.toList.map Char.toLower

/-- Names are compared without the case of ASCII letters. -/
def sameName (a b : String) : Bool := foldName a = foldName b

/-- `name LIKE 'sqlite_%'` -/
def isInternal (name : String) : Bool :=
  (foldName name).take 6 = "sqlite".toList && decide (7 ≤ name.toList.length)

namespace Db

variable (db : Db)

def table? (name : String) : Option Table := db.tables.find? fun t => sameName t.name name

/-- The name is that of a table, a view or an index. -/
def taken (name : String) : Bool :=
  db.tables.any (fun t => sameName t.name name) || db.others.any fun other => sameName other name

/-- The tables that are not SQLite's own. -/
def tableNames : List String := (db.tables.map Table.name).filter fun name => !isInternal name

/-- `PRAGMA table_info(name)`; without the table there are no rows. -/
def tableInfo (name : String) : List Column :=
  ((db.table? name).map fun t => t.schema.columns).getD []

def createTable (name : String) (schema : Schema) : Except SqlError Db :=
  if db.taken name then .error (.other false)
  else .ok { db with tables := db.tables ++ [⟨name, schema, []⟩] }

def setUserVersion (version : ℤ) : Db := { db with userVersion := version }

def setRows (name : String) (rows : List Row) : Db :=
  { db with tables := db.tables.map fun t =>
      if sameName t.name name then { t with rows := rows } else t }

def insert (name : String) (row : Row) : Except SqlError Db :=
  match db.table? name with
  | none => .error (.other false)
  | some t => (t.schema.insert t.rows row).map (db.setRows name)

/-- `DELETE FROM name` -/
def deleteAll (name : String) : Except SqlError Db :=
  match db.table? name with
  | none => .error (.other false)
  | some _ => .ok (db.setRows name [])

end Db

/-! ## Connections -/

structure Conn where
  file : Db
  /-- What an open transaction sees. -/
  view : Option Db
  /-- The transaction was opened by `BEGIN`. -/
  begun : Bool
  savepoints : List (String × Db)

namespace Conn

variable (c : Conn)

def opened (db : Db) : Conn := ⟨db, none, false, []⟩

def current : Db := c.view.getD c.file

/-- Without a transaction every change is committed at once. -/
def put (db : Db) : Conn :=
  if c.view.isSome then { c with view := some db } else { c with file := db }

/-- The transaction is dropped. -/
def drop : Conn := opened c.file

def query {α : Type} (f : Db → α) : Except SqlError α × Conn := (.ok (f c.current), c)

def change (f : Db → Except SqlError Db) : Except SqlError Unit × Conn :=
  match f c.current with
  | .error e => (.error e, c)
  | .ok db => (.ok (), c.put db)

/-- `BEGIN IMMEDIATE` -/
def begin : Except SqlError Unit × Conn :=
  match c.view with
  | some _ => (.error (.other false), c)
  | none => (.ok (), { c with view := some c.file, begun := true })

/-- `COMMIT` -/
def commit : Except SqlError Unit × Conn :=
  match c.view with
  | none => (.error (.other false), c)
  | some db => (.ok (), opened db)

/-- `ROLLBACK` -/
def rollback : Except SqlError Unit × Conn :=
  match c.view with
  | none => (.error (.other false), c)
  | some _ => (.ok (), c.drop)

/-- `SAVEPOINT name` -/
def savepoint (name : String) : Except SqlError Unit × Conn :=
  (.ok (), { c with view := some c.current, savepoints := (name, c.current) :: c.savepoints })

/-- `ROLLBACK TO name` -/
def rollbackTo (name : String) : Except SqlError Unit × Conn :=
  match c.savepoints.dropWhile fun p => p.1 ≠ name with
  | [] => (.error (.other false), c)
  | p :: rest => (.ok (), { c with view := some p.2, savepoints := p :: rest })

/-- `RELEASE name`; the outermost savepoint of a transaction that it opened commits. -/
def release (name : String) : Except SqlError Unit × Conn :=
  match c.savepoints.dropWhile fun p => p.1 ≠ name with
  | [] => (.error (.other false), c)
  | _ :: rest =>
      if rest.isEmpty && !c.begun then (.ok (), opened c.current)
      else (.ok (), { c with savepoints := rest })

end Conn

/-! ## Programs -/

/-- What becomes of a statement. -/
inductive Fault where
  | none
  /-- It raises, and SQLite may drop the whole transaction. -/
  | error (corruption dropped : Bool)
  /-- The process stops before or after its effect. -/
  | stop (done : Bool)

structure Session where
  conn : Conn
  /-- The faults of the statements, in their order. -/
  faults : ℕ → Fault
  count : ℕ

/-- What a program raises: a `sqlite3.Error`, or an error of its own.  A process that has stopped
runs no handler. -/
inductive Exc (E : Type) where
  | sql (e : SqlError)
  | own (e : E)
  | stopped
  deriving DecidableEq

abbrev Op (E α : Type) : Type := Eff (Exc E) Session α

variable {E α : Type}

/-- A statement with an effect on the connection. -/
def statement (effect : Conn → Except SqlError α × Conn) : Op E α := fun s =>
  match s.faults s.count with
  | .none => ((effect s.conn).1.mapError Exc.sql, ⟨(effect s.conn).2, s.faults, s.count + 1⟩)
  | .error corruption dropped =>
      (.error (.sql (.other corruption)),
        ⟨if dropped then s.conn.drop else s.conn, s.faults, s.count + 1⟩)
  | .stop done =>
      (.error .stopped, ⟨if done then (effect s.conn).2 else s.conn, s.faults, s.count + 1⟩)

/-- What comes of a program with the end `r` that is followed by a cleanup. -/
def followed (r : Except (Exc E) α) : Except (Exc E) Unit → Except (Exc E) α
  | .ok _ => r
  | .error e => .error e

/-- The cleanup runs after the ends that `reached` says. -/
def cleaning (reached : Except (Exc E) α → Bool) (body : Op E α) (cleanup : Op E Unit) :
    Op E α := fun s =>
  match body s with
  | (r, s) => if reached r then (followed r (cleanup s).1, (cleanup s).2) else (r, s)

/-- The process goes on. -/
def alive : Except (Exc E) α → Bool
  | .error .stopped => false
  | _ => true

/-- The process goes on with an exception. -/
def raised : Except (Exc E) α → Bool
  | .ok _ => false
  | .error .stopped => false
  | .error _ => true

/-- `try: body finally: cleanup` -/
def tryFinally (body : Op E α) (cleanup : Op E Unit) : Op E α := cleaning alive body cleanup

/-- `try: body except BaseException: cleanup; raise` -/
def onError (body : Op E α) (cleanup : Op E Unit) : Op E α := cleaning raised body cleanup

/-- `try: body except sqlite3.Error as e: handler(e)` -/
def onSqlError (body : Op E α) (handler : SqlError → Op E α) : Op E α :=
  attempt body fun
    | .sql e => handler e
    | e => raise e

/-! ## Rules -/

/-- From the connection `c` on, under any faults, or without any if it is `calm`, `Q` holds of
what the program returns or raises and of the connection that it leaves. -/
def Runs (calm : Bool) (p : Op E α) (c : Conn) (Q : Except (Exc E) α → Conn → Prop) : Prop :=
  ∀ s : Session, s.conn = c → (calm = true → ∀ n, s.faults n = .none) →
    Ensures p s fun r s' => s'.faults = s.faults ∧ Q r s'.conn

section Rules

variable {β : Type} {calm : Bool} {c : Conn} {p : Op E α} {Q : Except (Exc E) α → Conn → Prop}

theorem Runs.mono {Q' : Except (Exc E) α → Conn → Prop} (h : Runs calm p c Q)
    (hQ : ∀ r c', Q r c' → Q' r c') : Runs calm p c Q' :=
  fun s hs hcalm => (h s hs hcalm).mono fun _ _ h => ⟨h.1, hQ _ _ h.2⟩

theorem runs_lift {x : Except (Exc E) α} (h : Q x c) : Runs calm (lift x) c Q := by
  rintro s rfl -
  exact ⟨rfl, h⟩

theorem runs_pure {a : α} (h : Q (.ok a) c) : Runs calm (pure a) c Q := runs_lift h

theorem runs_raise {e : Exc E} (h : Q (.error e) c) : Runs calm (raise e) c Q := runs_lift h

theorem Runs.bind {f : α → Op E β} {Q' : Except (Exc E) β → Conn → Prop} (hp : Runs calm p c Q)
    (hok : ∀ a c', Q (.ok a) c' → Runs calm (f a) c' Q')
    (herror : ∀ e c', Q (.error e) c' → Q' (.error e) c') : Runs calm (p >>= f) c Q' := by
  intro s hs hcalm
  refine ensures_bind.mpr ((hp s hs hcalm).mono ?_)
  rintro (e | a) s' ⟨hfaults, h⟩
  · exact ⟨hfaults, herror e _ h⟩
  · have hrest := hok a _ h s' rfl fun hc n => by rw [hfaults]; exact hcalm hc n
    exact ⟨hrest.1.trans hfaults, hrest.2⟩

theorem Runs.attempt {handler : Exc E → Op E α} {Q' : Except (Exc E) α → Conn → Prop}
    (hp : Runs calm p c Q) (hok : ∀ a c', Q (.ok a) c' → Q' (.ok a) c')
    (herror : ∀ e c', Q (.error e) c' → Runs calm (handler e) c' Q') :
    Runs calm (attempt p handler) c Q' := by
  intro s hs hcalm
  refine ensures_attempt.mpr ((hp s hs hcalm).mono ?_)
  rintro (e | a) s' ⟨hfaults, h⟩
  · have hrest := herror e _ h s' rfl fun hc n => by rw [hfaults]; exact hcalm hc n
    exact ⟨hrest.1.trans hfaults, hrest.2⟩
  · exact ⟨hfaults, hok a _ h⟩

/-- What a statement at `c` comes to: its result `x` and the connection `c₁`, or a failure or a
stop, which may also come after the effect or drop the transaction. -/
def Came (calm : Bool) (c : Conn) (x : Except SqlError α) (c₁ : Conn) (r : Except (Exc E) α)
    (c' : Conn) : Prop :=
  (r = x.mapError .sql ∧ c' = c₁) ∨
    calm = false ∧ (∃ e, r = .error e ∧ e ≠ .sql .integrity) ∧ (c' = c ∨ c' = c.drop ∨ c' = c₁)

theorem runs_statement {effect : Conn → Except SqlError α × Conn} {x : Except SqlError α}
    {c₁ : Conn} (heffect : effect c = (x, c₁)) :
    Runs calm (statement effect : Op E α) c (Came calm c x c₁) := by
  rintro s rfl hcalm
  have hnot (h : s.faults s.count ≠ .none) : calm = false := by
    cases calm
    · rfl
    · exact absurd (hcalm rfl _) h
  unfold Ensures statement
  rw [heffect]
  cases hfault : s.faults s.count with
  | none => exact ⟨rfl, .inl ⟨rfl, rfl⟩⟩
  | error corruption dropped =>
    refine ⟨rfl, .inr ⟨hnot (by rw [hfault]; nofun), ⟨_, rfl, nofun⟩, ?_⟩⟩
    cases dropped
    · exact .inl rfl
    · exact .inr (.inl rfl)
  | stop done =>
    refine ⟨rfl, .inr ⟨hnot (by rw [hfault]; nofun), ⟨_, rfl, nofun⟩, ?_⟩⟩
    cases done
    · exact .inl rfl
    · exact .inr (.inr rfl)

/-- The rest of a program gets what a query without a transaction finds. -/
theorem runs_query {γ : Type} {db : Db} {find : Db → γ} {rest : γ → Op E α}
    (hrest : Runs calm (rest (find db)) (.opened db) Q)
    (herror : calm = false → ∀ e, Q (.error e) (.opened db)) :
    Runs calm (statement (Conn.query · find) >>= rest) (.opened db) Q := by
  have heffect : (Conn.opened db).query find = (.ok (find db), .opened db) := rfl
  refine Runs.bind (runs_statement heffect) ?_ ?_
  · rintro a c (⟨ha, rfl⟩ | ⟨-, ⟨e, he, -⟩, -⟩)
    · cases ha
      exact hrest
    · cases he
  · rintro e c (⟨he, -⟩ | ⟨hcalm, -, hc⟩)
    · cases he
    · have hopened : c = .opened db := by rcases hc with rfl | rfl | rfl <;> rfl
      rw [hopened]
      exact herror hcalm e

/-- The rule for `finally` and `except BaseException`. -/
theorem Runs.cleaning {reached : Except (Exc E) α → Bool} {cleanup : Op E Unit}
    {Q' : Except (Exc E) α → Conn → Prop} (hp : Runs calm p c Q)
    (hcleanup : ∀ r c', Q r c' → reached r = true →
      Runs calm cleanup c' fun r' c'' => Q' (followed r r') c'')
    (hpass : ∀ r c', Q r c' → reached r = false → Q' r c') :
    Runs calm (cleaning reached p cleanup) c Q' := by
  intro s hs hcalm
  obtain ⟨hfaults, h⟩ := hp s hs hcalm
  unfold Ensures Sqlite.cleaning
  rcases hpr : p s with ⟨r, s'⟩
  rw [hpr] at hfaults h
  dsimp only
  split
  · next hr =>
    have hrest := hcleanup r _ h hr s' rfl fun hc n => by rw [hfaults]; exact hcalm hc n
    exact ⟨hrest.1.trans hfaults, hrest.2⟩
  · next hr => exact ⟨hfaults, hpass r _ h ((Bool.not_eq_true _).mp hr)⟩

end Rules

/-! ## Savepoints -/

/-- The connection in a savepoint that has opened a transaction. -/
def inside (name : String) (db db' : Db) : Conn := ⟨db, some db', false, [(name, db)]⟩

/-- A program in a savepoint has not left it, unless a failure has dropped the transaction. -/
def Scratch (calm : Bool) (name : String) (db : Db) (r : Except (Exc E) α) (c : Conn) : Prop :=
  (r = .error .stopped → calm = false) ∧
    ((∃ db', c = inside name db db') ∨ calm = false ∧ c = .opened db ∧ ∃ e, r = .error e)

/-- `ROLLBACK TO name`, `RELEASE name` -/
def undo (name : String) : Op E Unit := do
  statement (Conn.rollbackTo · name)
  statement (Conn.release · name)

section Savepoints

variable {calm : Bool} {name : String} {db db' : Db}

theorem rollbackTo_inside :
    (inside name db db').rollbackTo name = (.ok (), inside name db db) := by
  simp [Conn.rollbackTo, inside]

theorem release_inside : (inside name db db).release name = (.ok (), .opened db) := by
  simp [Conn.release, inside, Conn.current]

theorem alive_eq_false {r : Except (Exc E) α} (h : alive r = false) : r = .error .stopped := by
  rcases r with ⟨⟨⟩⟩ | a
  all_goals first | rfl | cases h

/-- **A savepoint is undone and released.** -/
theorem runs_undo_inside :
    Runs calm (undo name : Op E Unit) (inside name db db') fun r c =>
      c.file = db ∧ (r = .ok () → c = .opened db) ∧ (calm = true → r = .ok ()) := by
  have hfailed {e : Exc E} {c : Conn} (hcalm : calm = false) (hfile : c.file = db) :
      c.file = db ∧ ((.error e : Except (Exc E) Unit) = .ok () → c = .opened db) ∧
        (calm = true → (.error e : Except (Exc E) Unit) = .ok ()) :=
    ⟨hfile, nofun, fun hc => by rw [hcalm] at hc; cases hc⟩
  refine Runs.bind (runs_statement rollbackTo_inside) ?_ ?_
  · rintro u c (⟨-, rfl⟩ | ⟨-, ⟨e, he, -⟩, -⟩)
    · refine (runs_statement release_inside).mono ?_
      rintro _ c (⟨rfl, rfl⟩ | ⟨hcalm, ⟨e, rfl, -⟩, hc⟩)
      · exact ⟨rfl, fun _ => rfl, fun _ => rfl⟩
      · exact hfailed hcalm (by rcases hc with rfl | rfl | rfl <;> rfl)
    · cases he
  · rintro e c (⟨he, -⟩ | ⟨hcalm, -, hc⟩)
    · cases he
    · exact hfailed hcalm (by rcases hc with rfl | rfl | rfl <;> rfl)

/-- Without its savepoint, undoing raises. -/
theorem runs_undo_opened :
    Runs calm (undo name : Op E Unit) (.opened db) fun r c => c.file = db ∧ ∃ e, r = .error e := by
  refine Runs.bind (runs_statement rfl) ?_ ?_
  · rintro u c (⟨hu, -⟩ | ⟨-, ⟨e, he, -⟩, -⟩)
    · cases hu
    · cases he
  · rintro e c (⟨-, rfl⟩ | ⟨-, -, hc⟩)
    · exact ⟨rfl, e, rfl⟩
    · exact ⟨by rcases hc with rfl | rfl | rfl <;> rfl, e, rfl⟩

/-- **A program in a savepoint that is undone at the end leaves the file as it was.** -/
theorem runs_savepoint {body : Op E α} {R : Except (Exc E) α → Prop}
    (hbody : Runs calm body (inside name db db) fun r c => Scratch calm name db r c ∧ R r) :
    Runs calm (statement (Conn.savepoint · name) >>= fun _ => tryFinally body (undo name))
      (.opened db) fun r c =>
        c.file = db ∧ ((calm = true ∨ ∃ a, r = .ok a) → c = .opened db ∧ R r) := by
  have hfailed {e : Exc E} {c : Conn} (hcalm : calm = false) (hfile : c.file = db) :
      c.file = db ∧ ((calm = true ∨ ∃ a, (.error e : Except (Exc E) α) = .ok a) →
        c = .opened db ∧ R (.error e)) := by
    refine ⟨hfile, ?_⟩
    rintro (hc | ⟨a, ha⟩)
    · rw [hcalm] at hc
      cases hc
    · cases ha
  refine Runs.bind (runs_statement rfl) ?_ ?_
  · rintro u c (⟨-, rfl⟩ | ⟨-, ⟨e, he, -⟩, -⟩)
    · refine Runs.cleaning hbody ?_ ?_
      · rintro r c ⟨⟨-, ⟨db', rfl⟩ | ⟨hcalm, rfl, e, rfl⟩⟩, hR⟩ -
        · refine runs_undo_inside.mono ?_
          rintro (e | ⟨⟩) c ⟨hfile, hopened, hok⟩
          · refine hfailed ?_ hfile
            cases calm
            · rfl
            · cases hok rfl
          · exact ⟨hfile, fun _ => ⟨hopened rfl, hR⟩⟩
        · refine runs_undo_opened.mono ?_
          rintro _ c ⟨hfile, e', rfl⟩
          exact hfailed hcalm hfile
      · rintro r c ⟨⟨hstopped, hscratch⟩, -⟩ hr
        obtain rfl := alive_eq_false hr
        refine hfailed (hstopped rfl) ?_
        rcases hscratch with ⟨db', rfl⟩ | ⟨-, rfl, -⟩ <;> rfl
    · cases he
  · rintro e c (⟨he, -⟩ | ⟨hcalm, -, hc⟩)
    · cases he
    · exact hfailed hcalm (by rcases hc with rfl | rfl | rfl <;> rfl)

/-- **A change in a savepoint.**  It is refused as integrity demands only if it really is. -/
theorem runs_change_inside (f : Db → Except SqlError Db) :
    Runs calm (statement (Conn.change · f) : Op E Unit) (inside name db db') fun r c =>
      Scratch calm name db r c ∧
        (r = .ok () → ∃ db'', f db' = .ok db'' ∧ c = inside name db db'') ∧
        (r = .error (.sql .integrity) → f db' = .error .integrity ∧ c = inside name db db') ∧
        (calm = true → r = ((f db').map fun _ => ()).mapError .sql) := by
  have heffect : ∃ x db'', (inside name db db').change f = (x, inside name db db'') ∧
      x = (f db').map (fun _ => ()) ∧ (∀ db₁, f db' = .ok db₁ → db'' = db₁) ∧
        (∀ e, f db' = .error e → db'' = db') := by
    unfold Conn.change
    rw [show (inside name db db').current = db' from rfl]
    cases hf : f db' with
    | error e => exact ⟨.error e, db', rfl, rfl, nofun, fun _ _ => rfl⟩
    | ok db₁ => exact ⟨.ok (), db₁, rfl, rfl, fun _ h => (by cases h; rfl), nofun⟩
  obtain ⟨x, db'', heffect, rfl, hok, herror⟩ := heffect
  refine (runs_statement heffect).mono ?_
  rintro r c (⟨rfl, rfl⟩ | ⟨hcalm, ⟨e, rfl, he⟩, hc⟩)
  · cases hf : f db' with
    | error e =>
      rw [herror e hf]
      refine ⟨⟨nofun, .inl ⟨db', rfl⟩⟩, nofun, fun h => ?_, fun _ => rfl⟩
      cases h
      exact ⟨rfl, rfl⟩
    | ok db₁ =>
      rw [hok db₁ hf]
      exact ⟨⟨nofun, .inl ⟨db₁, rfl⟩⟩, fun _ => ⟨db₁, rfl, rfl⟩, nofun, fun _ => rfl⟩
  · refine ⟨⟨fun _ => hcalm, ?_⟩, nofun, fun h => ?_, fun hc => ?_⟩
    · rcases hc with rfl | rfl | rfl
      · exact .inl ⟨db', rfl⟩
      · exact .inr ⟨hcalm, rfl, e, rfl⟩
      · exact .inl ⟨db'', rfl⟩
    · exact absurd (Except.error.inj h) he
    · rw [hcalm] at hc
      cases hc

end Savepoints

/-! ## Programs that change or check -/

/-- The program succeeds if, as far as nothing fails, and only if `A`. -/
def Decides (calm : Bool) (A : Prop) (r : Except (Exc E) Unit) : Prop :=
  (r = .ok () → A) ∧ (calm = true → A → r = .ok ())

/-- In a savepoint, the program makes of the copy what `f` does. -/
def Steps (calm : Bool) (name : String) (db : Db) (f : Db → Except SqlError Db) (q : Op E Unit) :
    Prop :=
  ∀ db', Runs calm q (inside name db db') fun r c =>
    Scratch calm name db r c ∧ (r = .ok () → ∃ db'', f db' = .ok db'' ∧ c = inside name db db'') ∧
      (calm = true → (∃ db'', f db' = .ok db'') → r = .ok ())

/-- In a savepoint, the program decides what `A` says of the copy. -/
def Probes (calm : Bool) (name : String) (db : Db) (A : Db → Prop) (q : Op E Unit) : Prop :=
  ∀ db', Runs calm q (inside name db db') fun r c =>
    Scratch calm name db r c ∧ Decides calm (A db') r

/-- Without a transaction, the program decides `A` and leaves the file as it is. -/
def Checks (calm : Bool) (db : Db) (A : Prop) (q : Op E Unit) : Prop :=
  Runs calm q (.opened db) fun r c =>
    c.file = db ∧ ((calm = true ∨ ∃ a, r = .ok a) → c = .opened db ∧ Decides calm A r)

section Deciding

variable {calm : Bool} {name : String} {db : Db} {f g : Db → Except SqlError Db}
  {q q' : Op E Unit} {A B : Prop}

theorem steps_change (f : Db → Except SqlError Db) :
    Steps calm name db f (statement (Conn.change · f) : Op E Unit) := by
  refine fun db' => (runs_change_inside f).mono ?_
  rintro r c ⟨hscratch, hok, -, hcalm⟩
  refine ⟨hscratch, hok, fun hc => ?_⟩
  rintro ⟨db'', hf⟩
  rw [hcalm hc, hf]
  rfl

theorem Scratch.error {α β : Type} {e : Exc E} {c : Conn}
    (h : Scratch calm name db (.error e : Except (Exc E) α) c) :
    Scratch calm name db (.error e : Except (Exc E) β) c := by
  refine ⟨fun he => h.1 (by rw [Except.error.inj he]), h.2.imp_right ?_⟩
  rintro ⟨hcalm, hc, -⟩
  exact ⟨hcalm, hc, e, rfl⟩

/-- A program that has returned is still in the savepoint, whatever comes next. -/
theorem Scratch.of_ok {α β : Type} {a : α} {c : Conn} {r : Except (Exc E) β}
    (h : Scratch calm name db (.ok a : Except (Exc E) α) c) (hr : r ≠ .error .stopped) :
    Scratch calm name db r c := by
  refine ⟨fun h => absurd h hr, h.2.imp_right ?_⟩
  rintro ⟨-, -, e, he⟩
  cases he

theorem Steps.seq (hq : Steps calm name db f q) (hq' : Steps calm name db g q') :
    Steps calm name db (fun db => f db >>= g) (q >>= fun _ => q') := by
  intro db'
  refine Runs.bind (hq db') ?_ ?_
  · rintro ⟨⟩ c ⟨-, hok, -⟩
    obtain ⟨db₁, hf, rfl⟩ := hok rfl
    refine (hq' db₁).mono fun r c h => ?_
    dsimp only
    rw [hf]
    exact h
  · rintro e c ⟨hscratch, -, hcalm⟩
    refine ⟨hscratch, nofun, fun hc => ?_⟩
    rintro ⟨db₂, h⟩
    cases hf : f db' with
    | error e' =>
      dsimp only at h
      rw [hf] at h
      cases h
    | ok db₁ => cases hcalm hc ⟨db₁, hf⟩

theorem Steps.congr (hq : Steps calm name db f q) (hfg : ∀ db, f db = g db) :
    Steps calm name db g q := by
  rw [← funext hfg]
  exact hq

/-- A handler of `sqlite3.Error` that raises. -/
theorem Steps.handled {handler : SqlError → Op E Unit} (hq : Steps calm name db f q)
    (hhandler : ∀ e, ∃ e', handler e = raise (.own e')) :
    Steps calm name db f (onSqlError q handler) := by
  intro db'
  refine Runs.attempt (hq db') (fun _ _ h => h) ?_
  rintro e c ⟨hscratch, -, hcalm⟩
  have hnever (hc : calm = true) (h : ∃ db'', f db' = .ok db'') {r : Except (Exc E) Unit} :
      r = .ok () := by cases hcalm hc h
  cases e with
  | sql e =>
    obtain ⟨e', he'⟩ := hhandler e
    dsimp only
    rw [he']
    refine runs_raise ⟨⟨nofun, hscratch.2.imp_right ?_⟩, nofun, fun hc h => hnever hc h⟩
    rintro ⟨hcalm', hc, -⟩
    exact ⟨hcalm', hc, _, rfl⟩
  | own e => exact runs_raise ⟨hscratch, nofun, fun hc h => hnever hc h⟩
  | stopped => exact runs_raise ⟨hscratch, nofun, fun hc h => hnever hc h⟩

theorem Steps.probe {P : Db → Prop} (hq : Steps calm name db f q)
    (hq' : Probes calm name db P q') :
    Probes calm name db (fun db' => ∃ db₁, f db' = .ok db₁ ∧ P db₁) (q >>= fun _ => q') := by
  intro db'
  refine Runs.bind (hq db') ?_ ?_
  · rintro ⟨⟩ c ⟨-, hok, -⟩
    obtain ⟨db₁, hf, rfl⟩ := hok rfl
    refine (hq' db₁).mono fun r c ⟨hscratch, hdecides⟩ => ⟨hscratch, fun hr => ?_, fun hc => ?_⟩
    · exact ⟨db₁, hf, hdecides.1 hr⟩
    · rintro ⟨db₂, hf', hP⟩
      rw [hf] at hf'
      cases hf'
      exact hdecides.2 hc hP
  · rintro e c ⟨hscratch, -, hcalm⟩
    refine ⟨hscratch, nofun, fun hc => ?_⟩
    rintro ⟨db₁, hf, -⟩
    cases hcalm hc ⟨db₁, hf⟩

theorem Probes.congr {P P' : Db → Prop} (hq : Probes calm name db P q)
    (hP : ∀ db, P db ↔ P' db) : Probes calm name db P' q := by
  have h : P = P' := funext fun db => propext (hP db)
  rw [← h]
  exact hq

/-- **What is probed in a savepoint that is undone is checked.** -/
theorem Probes.checks {P : Db → Prop} (hq : Probes calm name db P q) :
    Checks calm db (P db)
      (statement (Conn.savepoint · name) >>= fun _ => tryFinally q (undo name)) :=
  runs_savepoint (hq db)

/-- The rest of a program goes on if the check has passed. -/
theorem Checks.bind {α : Type} {rest : Op E α} {Q : Except (Exc E) α → Conn → Prop}
    (hq : Checks calm db A q) (hrest : A → Runs calm rest (.opened db) Q)
    (herror : ∀ e c, c.file = db → (calm = true → ¬ A) → Q (.error e) c) :
    Runs calm (q >>= fun _ => rest) (.opened db) Q := by
  refine Runs.bind hq ?_ ?_
  · rintro ⟨⟩ c ⟨-, hok⟩
    obtain ⟨rfl, hA, -⟩ := hok (.inr ⟨(), rfl⟩)
    exact hrest (hA rfl)
  · rintro e c ⟨hfile, hok⟩
    refine herror e c hfile fun hcalm h => ?_
    cases (hok (.inl hcalm)).2.2 hcalm h

theorem Checks.seq (hq : Checks calm db A q) (hq' : Checks calm db B q') :
    Checks calm db (A ∧ B) (q >>= fun _ => q') := by
  refine Runs.bind hq ?_ ?_
  · rintro ⟨⟩ c ⟨-, hok⟩
    obtain ⟨rfl, hA, -⟩ := hok (.inr ⟨(), rfl⟩)
    refine hq'.mono fun r c ⟨hfile, hrest⟩ => ⟨hfile, fun h => ?_⟩
    obtain ⟨hc, hB, hB'⟩ := hrest h
    exact ⟨hc, fun hr => ⟨hA rfl, hB hr⟩, fun hcalm h => hB' hcalm h.2⟩
  · rintro e c ⟨hfile, hok⟩
    refine ⟨hfile, ?_⟩
    rintro (hcalm | ⟨a, ha⟩)
    · obtain ⟨hc, -, hA⟩ := hok (.inl hcalm)
      exact ⟨hc, nofun, fun _ h => by cases hA hcalm h.1⟩
    · cases ha

theorem checks_raise {e : Exc E} (h : ¬ A) : Checks calm db A (raise e : Op E Unit) :=
  runs_raise ⟨rfl, fun _ => ⟨rfl, nofun, fun _ hA => absurd hA h⟩⟩

theorem checks_pure (h : A) : Checks calm db A (pure () : Op E Unit) :=
  runs_pure ⟨rfl, fun _ => ⟨rfl, fun _ => h, fun _ _ => rfl⟩⟩

/-- The rest of a program gets what a query finds. -/
theorem checks_query {α : Type} {find : Db → α} {rest : α → Op E Unit}
    (hrest : Checks calm db A (rest (find db))) :
    Checks calm db A (statement (Conn.query · find) >>= rest) := by
  refine runs_query hrest fun hcalm e => ⟨rfl, ?_⟩
  rintro (h | ⟨a, ha⟩)
  · rw [hcalm] at h
    cases h
  · cases ha

/-- A query whose result is not looked at. -/
theorem checks_pragma {find : Db → Unit} :
    Checks calm db True (statement (Conn.query · find) : Op E Unit) := by
  have heffect : (Conn.opened db).query find = (.ok (), .opened db) := rfl
  refine (runs_statement heffect).mono ?_
  rintro r c (⟨rfl, rfl⟩ | ⟨hcalm, ⟨e, rfl, -⟩, hc⟩)
  · exact ⟨rfl, fun _ => ⟨rfl, fun _ => trivial, fun _ _ => rfl⟩⟩
  · refine ⟨by rcases hc with rfl | rfl | rfl <;> rfl, ?_⟩
    rintro (h | ⟨a, ha⟩)
    · rw [hcalm] at h
      cases h
    · cases ha

theorem Checks.congr (h : Checks calm db A q) (hAB : A ↔ B) : Checks calm db B q := by
  rw [← propext hAB]
  exact h

end Deciding

/-! ## Transactions -/

/-- The connection in a transaction with `BEGIN`. -/
def transaction (db db' : Db) : Conn := ⟨db, some db', true, []⟩

/-- The transaction is open, or was dropped. -/
def Pending (db : Db) (c : Conn) : Prop := c = .opened db ∨ ∃ db', c = transaction db db'

theorem Pending.file {db : Db} {c : Conn} (h : Pending db c) : c.file = db := by
  rcases h with rfl | ⟨db', rfl⟩ <;> rfl

section Transactions

variable {calm : Bool} {db db' : Db}

theorem runs_begin :
    Runs calm (statement Conn.begin : Op E Unit) (.opened db) fun r c =>
      (r = .ok () → c = transaction db db) ∧ Pending db c ∧ (calm = true → r = .ok ()) := by
  have heffect : (Conn.opened db).begin = (.ok (), transaction db db) := rfl
  refine (runs_statement heffect).mono ?_
  rintro r c (⟨rfl, rfl⟩ | ⟨hcalm, ⟨e, rfl, -⟩, hc⟩)
  · exact ⟨fun _ => rfl, .inr ⟨db, rfl⟩, fun _ => rfl⟩
  · refine ⟨nofun, ?_, fun h => (by rw [hcalm] at h; cases h)⟩
    rcases hc with rfl | rfl | rfl
    · exact .inl rfl
    · exact .inl rfl
    · exact .inr ⟨db, rfl⟩

theorem runs_change_transaction (f : Db → Except SqlError Db) :
    Runs calm (statement (Conn.change · f) : Op E Unit) (transaction db db') fun r c =>
      (r = .ok () → ∃ db'', f db' = .ok db'' ∧ c = transaction db db'') ∧ Pending db c ∧
        (calm = true → r = ((f db').map fun _ => ()).mapError .sql ∧
          ∃ db'', c = transaction db db'') := by
  have heffect : ∃ x db'', (transaction db db').change f = (x, transaction db db'') ∧
      x = (f db').map (fun _ => ()) ∧ ∀ db₁, f db' = .ok db₁ → db'' = db₁ := by
    unfold Conn.change
    rw [show (transaction db db').current = db' from rfl]
    cases hf : f db' with
    | error e => exact ⟨.error e, db', rfl, rfl, nofun⟩
    | ok db₁ => exact ⟨.ok (), db₁, rfl, rfl, fun _ h => (by cases h; rfl)⟩
  obtain ⟨x, db'', heffect, rfl, hok⟩ := heffect
  refine (runs_statement heffect).mono ?_
  rintro r c (⟨rfl, rfl⟩ | ⟨hcalm, ⟨e, rfl, -⟩, hc⟩)
  · refine ⟨fun hr => ?_, .inr ⟨db'', rfl⟩, fun _ => ⟨rfl, db'', rfl⟩⟩
    cases hf : f db' with
    | error e =>
      rw [hf] at hr
      cases hr
    | ok db₁ => exact ⟨db₁, rfl, by rw [hok db₁ hf]⟩
  · refine ⟨nofun, ?_, fun h => (by rw [hcalm] at h; cases h)⟩
    rcases hc with rfl | rfl | rfl
    · exact .inr ⟨db', rfl⟩
    · exact .inl rfl
    · exact .inr ⟨db'', rfl⟩

/-- A commit that fails, or at which the process stops, has happened or not. -/
theorem runs_commit :
    Runs calm (statement Conn.commit : Op E Unit) (transaction db db') fun r c =>
      (r = .ok () → c = .opened db') ∧ (Pending db c ∨ c = .opened db') ∧
        (calm = true → r = .ok ()) := by
  have heffect : (transaction db db').commit = (.ok (), .opened db') := rfl
  refine (runs_statement heffect).mono ?_
  rintro r c (⟨rfl, rfl⟩ | ⟨hcalm, ⟨e, rfl, -⟩, hc⟩)
  · exact ⟨fun _ => rfl, .inr rfl, fun _ => rfl⟩
  · refine ⟨nofun, ?_, fun h => (by rw [hcalm] at h; cases h)⟩
    rcases hc with rfl | rfl | rfl
    · exact .inl (.inr ⟨db', rfl⟩)
    · exact .inl (.inl rfl)
    · exact .inr rfl

/-- **A rollback leaves the file as it is.** -/
theorem runs_rollback {c : Conn} (h : Pending db c) :
    Runs calm (statement Conn.rollback : Op E Unit) c fun r c' =>
      Pending db c' ∧ (calm = true → c' = .opened db ∧ ∃ x : Except SqlError Unit,
        r = x.mapError .sql) := by
  have heffect : ∃ x, c.rollback = (x, .opened db) := by
    rcases h with rfl | ⟨db', rfl⟩
    · exact ⟨_, rfl⟩
    · exact ⟨_, rfl⟩
  obtain ⟨x, heffect⟩ := heffect
  refine (runs_statement heffect).mono ?_
  rintro r c' (⟨rfl, rfl⟩ | ⟨hcalm, -, hc⟩)
  · exact ⟨.inl rfl, fun _ => ⟨rfl, x, rfl⟩⟩
  · refine ⟨?_, fun h => (by rw [hcalm] at h; cases h)⟩
    rcases hc with rfl | rfl | rfl
    · exact h
    · rcases h with rfl | ⟨db', rfl⟩
      · exact .inl rfl
      · exact .inl rfl
    · exact .inl rfl

end Transactions

end Sqlite
