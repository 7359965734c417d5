import Mathlib.Logic.Function.Basic
import SmartDesk.Lib.Transition

/-!
# The SQLite database

`storage/sqlite.py`: one transaction after the other, each in a worker thread, for the
tasks of the event loop.

* `executeSync` — what a worker thread does with its connection.
* `SQLiteDatabase`, `step` — the flags, the lock and the tasks, up to one `await` at a
  time.  `asyncio.Lock` hands the lock over in the order of the waiters; here any of them
  can get it.
-/

namespace SmartDesk.Storage

/-- What a coroutine or a worker raises: a `sqlite3.Error`, with whether it is one of
corruption, the errors of `storage/sqlite.py`, a cancellation, or anything else. -/
inductive Raised (E : Type) where
  | sqlite (corruption : Bool)
  | notReady
  | corrupted
  | operation
  | cancelled
  | other (e : E)
  deriving DecidableEq

/-- A callback: what it returns or raises, and what it makes of the rows that it sees. -/
abbrev DatabaseOperation (Db V E : Type) : Type := Db → Except (Raised E) V × Db

/-! ## A worker thread -/

/-- A connection: the committed rows, and those of an open transaction. -/
structure Connection (Db : Type) where
  committed : Db
  transaction : Option Db

namespace Connection

variable {Db V E : Type} (c : Connection Db)

/-- `BEGIN IMMEDIATE`. -/
def begin : Connection Db := { c with transaction := some c.committed }

/-- `COMMIT`. -/
def commit : Connection Db := ⟨c.transaction.getD c.committed, none⟩

/-- `ROLLBACK`. -/
def rollback : Connection Db := { c with transaction := none }

/-- Without a transaction every statement is committed at once. -/
def run (operation : DatabaseOperation Db V E) : Except (Raised E) V × Connection Db :=
  match c.transaction with
  | some rows => ((operation rows).1, { c with transaction := some (operation rows).2 })
  | none => ((operation c.committed).1, { c with committed := (operation c.committed).2 })

/-- `close()` drops an open transaction. -/
def close : Db := c.committed

end Connection

/-- The statements that fail with a `sqlite3.Error`, with whether it is one of
corruption. -/
structure Faults where
  connect : Option Bool := none
  begin : Option Bool := none
  commit : Option Bool := none
  rollback : Bool := false

/-- The `except BaseException` of `_execute_sync`: a rollback that fails is logged. -/
def rollbackLogged {Db : Type} (faults : Faults) (c : Connection Db) : Connection Db :=
  if faults.rollback then c else c.rollback

/-- `_execute_sync(operation, write)` on the committed rows. -/
def executeSync {Db V E : Type} (faults : Faults) (operation : DatabaseOperation Db V E)
    (write : Bool) (rows : Db) : Except (Raised E) V × Db :=
  match faults.connect with
  | some corruption => (.error (.sqlite corruption), rows)
  | none =>
      let c : Connection Db := ⟨rows, none⟩
      if !write then
        let (result, c) := c.run operation
        (result, c.close)
      else
        match faults.begin with
        | some corruption => (.error (.sqlite corruption), c.close)
        | none =>
            match c.begin.run operation with
            | (.error e, c) => (.error e, (rollbackLogged faults c).close)
            | (.ok value, c) =>
                match faults.commit with
                | some corruption =>
                    (.error (.sqlite corruption), (rollbackLogged faults c).close)
                | none => (.ok value, c.commit.close)

/-! ## The tasks -/

/-- What a worker thread is started for. -/
inductive Work (Db V E : Type) where
  | start
  | execute (operation : DatabaseOperation Db V E) (write : Bool)

/-- The coroutines that run as tasks; `finishStop` and `thread` are those of
`_await_completion`. -/
inductive Job (Db V E : Type) where
  | start
  | stop
  | read (operation : DatabaseOperation Db V E)
  | write (operation : DatabaseOperation Db V E)
  | finishStop
  | thread (work : Work Db V E)

/-- The coroutines that a caller can await. -/
def Job.isPublic {Db V E : Type} : Job Db V E → Bool
  | .finishStop => false
  | .thread _ => false
  | _ => true

/-- Where a task is: not begun, at the operation lock, in `_await_completion` for a task
(`told` of a cancellation or not), in its thread, or at its end. -/
inductive Phase (V E : Type) where
  | ready
  | locking
  | completing (worker : ℕ) (told : Bool)
  | running
  | ended (result : Except (Raised E) (Option V))

/-- `cancelled` is a cancellation that has still to be raised in the task. -/
structure Task (Db V E : Type) where
  job : Job Db V E
  phase : Phase V E
  cancelled : Bool

structure SQLiteDatabase (Db V E : Type) where
  rows : Db
  started : Bool
  closing : Bool
  owner : Option ℕ
  task : ℕ → Option (Task Db V E)
  count : ℕ

/-- A database object before its `start()`. -/
def SQLiteDatabase.init {Db V E : Type} (rows : Db) : SQLiteDatabase Db V E where
  rows := rows
  started := false
  closing := false
  owner := none
  task := fun _ => none
  count := 0

namespace SQLiteDatabase

variable {Db V E : Type} (s : SQLiteDatabase Db V E)

def put (t : ℕ) (k : Task Db V E) : SQLiteDatabase Db V E :=
  { s with task := Function.update s.task t (some k) }

/-- `asyncio.create_task`. -/
def spawn (job : Job Db V E) : SQLiteDatabase Db V E :=
  { s.put s.count ⟨job, .ready, false⟩ with count := s.count + 1 }

def finish (t : ℕ) (k : Task Db V E) (result : Except (Raised E) (Option V)) :
    SQLiteDatabase Db V E :=
  s.put t { k with phase := .ended result, cancelled := false }

/-- The begin of `_await_completion`. -/
def awaitCompletion (t : ℕ) (k : Task Db V E) (job : Job Db V E) : SQLiteDatabase Db V E :=
  (s.spawn job).put t { k with phase := .completing s.count false }

@[simp, grind =] theorem task_put (t u : ℕ) (k : Task Db V E) :
    (s.put t k).task u = if u = t then some k else s.task u := by
  simp only [put, Function.update_apply]

@[simp, grind =] theorem owner_put (t : ℕ) (k : Task Db V E) : (s.put t k).owner = s.owner := rfl

@[simp, grind =] theorem started_put (t : ℕ) (k : Task Db V E) : (s.put t k).started = s.started := rfl

@[simp, grind =] theorem count_put (t : ℕ) (k : Task Db V E) : (s.put t k).count = s.count := rfl

@[simp, grind =] theorem task_spawn (u : ℕ) (job : Job Db V E) :
    (s.spawn job).task u = if u = s.count then some ⟨job, .ready, false⟩ else s.task u :=
  s.task_put s.count u _

@[simp, grind =] theorem owner_spawn (job : Job Db V E) : (s.spawn job).owner = s.owner := rfl

@[simp, grind =] theorem started_spawn (job : Job Db V E) : (s.spawn job).started = s.started := rfl

@[simp, grind =] theorem count_spawn (job : Job Db V E) : (s.spawn job).count = s.count + 1 := rfl

/-- The end of `async with self._operation_lock`. -/
def release : SQLiteDatabase Db V E := { s with owner := none }

/-- The begin of a coroutine, up to its first `await`. -/
def runReady (t : ℕ) (k : Task Db V E) : Option (SQLiteDatabase Db V E) :=
  match k.job with
  | .start => some (s.put t { k with phase := .locking })
  | .finishStop => some (s.put t { k with phase := .locking })
  | .stop => some (awaitCompletion { s with closing := true } t k .finishStop)
  | .read _ | .write _ =>
      if !s.started || s.closing then some (s.finish t k (.error .notReady))
      else some (s.put t { k with phase := .locking })
  | .thread _ => none

/-- What a coroutine does when it has got the lock. -/
def runLocked (t : ℕ) (k : Task Db V E) : Option (SQLiteDatabase Db V E) :=
  let s := { s with owner := some t }
  match k.job with
  | .start =>
      if s.started then some (s.release.finish t k (.ok none))
      else some (awaitCompletion { s with closing := false } t k (.thread .start))
  | .finishStop =>
      some (({ s with started := false, closing := false }).release.finish t k (.ok none))
  | .read operation =>
      if !s.started || s.closing then some (s.release.finish t k (.error .notReady))
      else some (s.awaitCompletion t k (.thread (.execute operation false)))
  | .write operation =>
      if !s.started || s.closing then some (s.release.finish t k (.error .notReady))
      else some (s.awaitCompletion t k (.thread (.execute operation true)))
  | .stop | .thread _ => none

/-- What a coroutine returns or raises after `_await_completion`: `sqlite3.Error` is
replaced. -/
def translated (job : Job Db V E) (result : Except (Raised E) (Option V)) :
    Except (Raised E) (Option V) :=
  match job, result with
  | .start, .error (.sqlite true) => .error .corrupted
  | .stop, result => result
  | _, .error (.sqlite _) => .error .operation
  | _, result => result

/-- The end of a coroutine after `_await_completion`. -/
def settle (t : ℕ) (k : Task Db V E) (result : Except (Raised E) (Option V)) :
    Option (SQLiteDatabase Db V E) :=
  match k.job with
  | .start =>
      let started := match result with
        | .ok _ => true
        | .error _ => s.started
      some (({ s with started := started }).release.finish t k (translated k.job result))
  | .stop => some (s.finish t k (translated k.job result))
  | .read _ | .write _ => some (s.release.finish t k (translated k.job result))
  | .finishStop | .thread _ => none

/-- `_await_completion`: a cancellation is raised when the task that is awaited is
done. -/
def runCompleting (t : ℕ) (k : Task Db V E) (worker : ℕ) (told : Bool) :
    Option (SQLiteDatabase Db V E) :=
  match s.task worker with
  | some ⟨_, .ended result, _⟩ =>
      s.settle t k (if k.cancelled || told then .error .cancelled else result)
  | _ =>
      if k.cancelled then
        some (s.put t { k with phase := .completing worker true, cancelled := false })
      else none

/-- The event loop runs the task up to its next `await`. -/
def run (t : ℕ) : Option (SQLiteDatabase Db V E) :=
  match s.task t with
  | none => none
  | some ⟨.thread _, _, _⟩ => none
  | some k =>
      match k.phase with
      | .ready => if k.cancelled then some (s.finish t k (.error .cancelled)) else s.runReady t k
      | .locking =>
          if k.cancelled then some (s.finish t k (.error .cancelled))
          else if s.owner = none then s.runLocked t k
          else none
      | .completing worker told => s.runCompleting t k worker told
      | .running => none
      | .ended _ => none

end SQLiteDatabase

/-! ## Steps -/

/-- What can happen: a coroutine is called or cancelled, the event loop runs a task, a
worker thread begins or ends. -/
inductive Label (Db V E : Type) where
  | call (job : Job Db V E)
  | cancel (t : ℕ)
  | run (t : ℕ)
  | begin (u : ℕ)
  | finish (u : ℕ) (faults : Faults)

/-- What the worker thread returns or raises, and the rows that it leaves; the checks and
migrations of `_start_sync` are a parameter. -/
def Work.perform {Db V E : Type} (startSync : Faults → Db → Except (Raised E) Unit × Db)
    (work : Work Db V E) (faults : Faults) (rows : Db) : Except (Raised E) (Option V) × Db :=
  match work with
  | .start => ((startSync faults rows).1.map fun _ => none, (startSync faults rows).2)
  | .execute operation write =>
      ((executeSync faults operation write rows).1.map some,
        (executeSync faults operation write rows).2)

/-- One step of the database. -/
def step {Db V E : Type} (startSync : Faults → Db → Except (Raised E) Unit × Db)
    (s : SQLiteDatabase Db V E) : Label Db V E → Option (SQLiteDatabase Db V E)
  | .call job => if job.isPublic then some (s.spawn job) else none
  | .cancel t =>
      match s.task t with
      | some ⟨_, .ended _, _⟩ => none
      | some k => if k.job.isPublic then some (s.put t { k with cancelled := true }) else none
      | none => none
  | .run t => s.run t
  | .begin u =>
      match s.task u with
      | some ⟨.thread work, .ready, cancelled⟩ =>
          some (s.put u ⟨.thread work, .running, cancelled⟩)
      | _ => none
  | .finish u faults =>
      match s.task u with
      | some ⟨.thread work, .running, cancelled⟩ =>
          let (result, rows) := work.perform startSync faults s.rows
          some (({ s with rows := rows }).put u ⟨.thread work, .ended result, cancelled⟩)
      | _ => none

end SmartDesk.Storage
