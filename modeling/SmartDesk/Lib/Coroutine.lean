import Mathlib.Logic.Function.Basic
import SmartDesk.Lib.Transition

/-!
# Cooperative tasks on an event loop

Programs that run until they await something, as `asyncio` runs them: between two
awaits nothing else runs, at an await any other task may run, and a cancellation
arrives as an exception at the await.

* `Prog` — a program, as the tree of its atomic actions and awaits; `bind` and
  `attempt` (`try … except`) compose programs.
* `Mem` — the variables, the locks and the tasks, without the programs.
* `Prog.advance` — run a program up to its next await.
* `System`, `Pool`, `step` — the tasks of a system and what can happen next.

A lock is the fair lock of `asyncio`: `release` hands it to the waiter at the head
of its queue, and only an acquire that finds it free and nobody waiting but tasks
already cancelled gets it at once.
-/

namespace Coroutine

/-- The types of a system: its variables, what it reads from its surroundings, the
calls it awaits, the values that tasks return, its exceptions, its locks and the
names of its programs. -/
structure Signature where
  Vars : Type
  Reading : Type
  Call : Type
  Value : Type
  Err : Type
  Lock : Type
  Job : Type

/-- Why a program stops without a value. -/
inductive Raised (ε : Type) where
  | cancelled
  | error (e : ε)
  deriving DecidableEq

/-- What a task can wait for: a lock, with the call that it will make under it; a
call to the surroundings; another task, shielded or gathered. -/
inductive Wait (S : Signature) where
  | lock (l : S.Lock) (next : Option S.Call)
  | call (c : S.Call)
  | shield (t : ℕ)
  | gather (t : ℕ)

/-- The outcome of an await. -/
abbrev Reply (S : Signature) := Except (Raised S.Err) S.Value

/-! ## Programs -/

/-- A program with result `α`.  `again` goes back to the head of the task's own
program after a pause, in which the handler is told of a cancellation. -/
inductive Prog (S : Signature) (α : Type) where
  | ret (a : α)
  | raise (e : Raised S.Err)
  | get (k : S.Vars → Prog S α)
  | set (s : S.Vars) (k : Prog S α)
  | read (k : S.Reading → Prog S α)
  | self (k : ℕ → Prog S α)
  | spawn (j : S.Job) (k : ℕ → Prog S α)
  | cancel (t : ℕ) (k : Prog S α)
  | isDone (t : ℕ) (k : Bool → Prog S α)
  | release (l : S.Lock) (k : Prog S α)
  | await (w : Wait S) (k : Reply S → Prog S α)
  | again (h : Raised S.Err → Prog S α)

namespace Prog

variable {S : Signature} {α β : Type}

/-- One program after the other. -/
def bind : Prog S α → (α → Prog S β) → Prog S β
  | ret a, f => f a
  | raise e, _ => raise e
  | get k, f => get fun s => (k s).bind f
  | set s k, f => set s (k.bind f)
  | read k, f => read fun r => (k r).bind f
  | self k, f => self fun t => (k t).bind f
  | spawn j k, f => spawn j fun t => (k t).bind f
  | cancel t k, f => cancel t (k.bind f)
  | isDone t k, f => isDone t fun b => (k b).bind f
  | release l k, f => release l (k.bind f)
  | await w k, f => await w fun r => (k r).bind f
  | again h, f => again fun e => (h e).bind f

/-- `try p except handler`; the handler decides which exceptions it raises again. -/
def attempt : Prog S α → (Raised S.Err → Prog S α) → Prog S α
  | ret a, _ => ret a
  | raise e, handler => handler e
  | get k, handler => get fun s => (k s).attempt handler
  | set s k, handler => set s (k.attempt handler)
  | read k, handler => read fun r => (k r).attempt handler
  | self k, handler => self fun t => (k t).attempt handler
  | spawn j k, handler => spawn j fun t => (k t).attempt handler
  | cancel t k, handler => cancel t (k.attempt handler)
  | isDone t k, handler => isDone t fun b => (k b).attempt handler
  | release l k, handler => release l (k.attempt handler)
  | await w k, handler => await w fun r => (k r).attempt handler
  | again h, handler => again fun e => (h e).attempt handler

/-- Run a program that only reads, as far as the end. -/
def peek : Prog S α → (ℕ → S.Reading) → Option (α × (ℕ → S.Reading))
  | ret a, env => some (a, env)
  | read k, env => (k (env 0)).peek fun i => env (i + 1)
  | _, _ => none

instance : Monad (Prog S) where
  pure := ret
  bind := bind

/-- Wait, and raise what the await raises. -/
def wait (w : Wait S) : Prog S S.Value :=
  await w fun
    | .ok v => ret v
    | .error e => raise e

/-- `async with lock`: the lock is released however the body ends. -/
def withLock (l : S.Lock) (next : Option S.Call) (body : Prog S α) : Prog S α :=
  (wait (.lock l next)).bind fun _ =>
    (body.attempt fun e => release l (raise e)).bind fun a => release l (ret a)

end Prog

/-! ## The memory -/

inductive Status (S : Signature) where
  /-- Created, and not started. -/
  | ready
  | running
  | waiting (w : Wait S)
  /-- Pausing before it starts its program again. -/
  | pausing
  | finished (r : Reply S)

/-- A task; `cancelled` is a cancellation that it has still to be told. -/
structure Task (S : Signature) where
  job : S.Job
  status : Status S
  cancelled : Bool

/-- A task in the queue of a lock, and whether its wait was cancelled. -/
structure Waiter where
  task : ℕ
  cancelled : Bool

structure LockState where
  owner : Option ℕ
  queue : List Waiter

/-- All that the tasks share. -/
structure Mem (S : Signature) where
  vars : S.Vars
  lock : S.Lock → LockState
  task : ℕ → Option (Task S)
  count : ℕ

namespace Mem

variable {S : Signature} [DecidableEq S.Lock]

def owner (m : Mem S) (l : S.Lock) : Option ℕ := (m.lock l).owner

def setLock (m : Mem S) (l : S.Lock) (state : LockState) : Mem S :=
  { m with lock := Function.update m.lock l state }

def setTask (m : Mem S) (t : ℕ) (k : Task S) : Mem S :=
  { m with task := Function.update m.task t (some k) }

/-- Change a task that exists. -/
def alter (m : Mem S) (t : ℕ) (f : Task S → Task S) : Mem S :=
  match m.task t with
  | some k => m.setTask t (f k)
  | none => m

/-- The outcome of a task that has ended. -/
def outcome (m : Mem S) (t : ℕ) : Option (Reply S) :=
  match m.task t with
  | some ⟨_, .finished r, _⟩ => some r
  | _ => none

/-- The program of a task. -/
def job (m : Mem S) (t : ℕ) : Option S.Job := (m.task t).map (·.job)

/-- `create_task`. -/
def spawn (m : Mem S) (j : S.Job) : Mem S :=
  { m.setTask m.count ⟨j, .ready, false⟩ with count := m.count + 1 }

/-- An acquire gets the lock at once. -/
def free (m : Mem S) (l : S.Lock) : Bool :=
  (m.owner l).isNone && (m.lock l).queue.all (·.cancelled)

/-- The task is the waiter whose turn it is. -/
def turn (m : Mem S) (l : S.Lock) (t : ℕ) : Bool :=
  (m.owner l).isNone && ((m.lock l).queue.head?.map (·.task) == some t)

def take (m : Mem S) (l : S.Lock) (t : ℕ) : Mem S :=
  m.setLock l { m.lock l with owner := some t }

/-- An await that does not suspend the task: the memory after it. -/
def atOnce (m : Mem S) (t : ℕ) : Wait S → Option (Mem S)
  | .lock l _ => if m.free l then some (m.take l t) else none
  | _ => none

def release (m : Mem S) (l : S.Lock) : Mem S :=
  m.setLock l { m.lock l with owner := none }

def enqueue (m : Mem S) (l : S.Lock) (t : ℕ) : Mem S :=
  m.setLock l { m.lock l with queue := (m.lock l).queue ++ [⟨t, false⟩] }

def dequeue (m : Mem S) (l : S.Lock) (t : ℕ) : Mem S :=
  m.setLock l { m.lock l with queue := (m.lock l).queue.filter fun w => w.task != t }

/-- The wait of a task in the queue of a lock is cancelled, unless its turn has come. -/
def markWaiter (m : Mem S) (l : S.Lock) (t : ℕ) : Mem S :=
  if m.turn l t then m
  else
    let mark (w : Waiter) : Waiter := if w.task = t then { w with cancelled := true } else w
    m.setLock l { m.lock l with queue := (m.lock l).queue.map mark }

/-- `task.cancel()`; a gathered task is cancelled with the one that gathers it. -/
def cancelWithin : ℕ → ℕ → Mem S → Mem S
  | 0, _, m => m
  | n + 1, t, m =>
      let flagged := m.alter t fun k => { k with cancelled := true }
      match m.task t with
      | none => m
      | some ⟨_, status, _⟩ =>
          match status with
          | .finished _ => m
          | .waiting (.gather u) => cancelWithin n u flagged
          | .waiting (.lock l _) => flagged.markWaiter l t
          | _ => flagged

/-- `task.cancel()`: no chain of gathered tasks is longer than their number. -/
def cancel (m : Mem S) (t : ℕ) : Mem S := cancelWithin (m.count + 1) t m

/-- The task runs, and has been told of its cancellation. -/
def wake (m : Mem S) (t : ℕ) : Mem S :=
  m.alter t fun k => { k with status := .running, cancelled := false }

/-- The task begins to wait. -/
def suspend (m : Mem S) (t : ℕ) (w : Wait S) : Mem S :=
  let m := m.alter t fun k => { k with status := .waiting w }
  match w with
  | .lock l _ => m.enqueue l t
  | _ => m

def pause (m : Mem S) (t : ℕ) : Mem S := m.alter t fun k => { k with status := .pausing }

def finish (m : Mem S) (t : ℕ) (r : Reply S) : Mem S :=
  m.alter t fun k => { k with status := .finished r }

/-- All tasks pass a check. -/
def all (m : Mem S) (f : Task S → Bool) : Bool :=
  (List.range m.count).all fun t => (m.task t).all f

end Mem

/-! ## What the operations on the memory leave alone -/

section Frame

variable {S : Signature}

/-- The programs of the tasks and where they are, without the cancellations. -/
def Mem.shape (m : Mem S) (t : ℕ) : Option (S.Job × Status S) :=
  (m.task t).map fun k => (k.job, k.status)

/-- The task has still to be told of a cancellation. -/
def Mem.Flagged (m : Mem S) (t : ℕ) : Prop := ∃ k, m.task t = some k ∧ k.cancelled = true

/-- Nothing changes but the cancellations, and none is taken back. -/
structure SameButCancelled (m m' : Mem S) : Prop where
  vars : m'.vars = m.vars
  count : m'.count = m.count
  owner : ∀ l, m'.owner l = m.owner l
  shape : ∀ t, m'.shape t = m.shape t
  flagged : ∀ t, m.Flagged t → m'.Flagged t

namespace Mem

theorem shape_eq_some {m : Mem S} {t : ℕ} {job : S.Job} {status : Status S} :
    m.shape t = some (job, status) ↔ ∃ c, m.task t = some ⟨job, status, c⟩ := by
  unfold shape
  cases m.task t with
  | none => simp
  | some k =>
    obtain ⟨job', status', c⟩ := k
    simp

/-- What was checked of all tasks holds for each. -/
theorem of_all {m : Mem S} {f : Task S → Bool} (h : m.all f = true)
    (habsent : ∀ u, m.count ≤ u → m.task u = none) {t : ℕ} {k : Task S}
    (hk : m.task t = some k) : f k = true := by
  have hlt : t < m.count := by
    by_contra hle
    rw [habsent t (Nat.le_of_not_lt hle)] at hk
    cases hk
  have ht := List.all_eq_true.mp h t (List.mem_range.mpr hlt)
  rw [hk] at ht
  exact ht

theorem job_of_shape {m : Mem S} {t : ℕ} {job : S.Job} {status : Status S}
    (h : m.shape t = some (job, status)) : m.job t = some job := by
  obtain ⟨c, hc⟩ := shape_eq_some.mp h
  rw [Mem.job, hc]
  rfl

theorem shape_of_outcome {m : Mem S} {t : ℕ} {job : S.Job} {r : Reply S}
    (h : m.outcome t = some r) (hjob : m.job t = some job) :
    m.shape t = some (job, .finished r) := by
  unfold outcome at h
  split at h
  · next j r' c htask =>
    rw [Mem.job, htask] at hjob
    cases hjob
    cases h
    exact shape_eq_some.mpr ⟨c, htask⟩
  · cases h

@[simp] theorem vars_alter (m : Mem S) (t : ℕ) (f : Task S → Task S) :
    (m.alter t f).vars = m.vars := by
  unfold alter
  split <;> rfl

@[simp] theorem count_alter (m : Mem S) (t : ℕ) (f : Task S → Task S) :
    (m.alter t f).count = m.count := by
  unfold alter
  split <;> rfl

@[simp] theorem lock_alter (m : Mem S) (t : ℕ) (f : Task S → Task S) :
    (m.alter t f).lock = m.lock := by
  unfold alter
  split <;> rfl

@[simp] theorem owner_alter (m : Mem S) (t : ℕ) (f : Task S → Task S) (l : S.Lock) :
    (m.alter t f).owner l = m.owner l := by
  simp [owner]

theorem task_alter_self {m : Mem S} {t : ℕ} {k : Task S} (h : m.task t = some k)
    (f : Task S → Task S) : (m.alter t f).task t = some (f k) := by
  simp [alter, h, setTask]

theorem task_alter_ne (m : Mem S) {t u : ℕ} (h : u ≠ t) (f : Task S → Task S) :
    (m.alter t f).task u = m.task u := by
  unfold alter
  split
  · exact Function.update_of_ne h _ _
  · rfl

theorem shape_spawn (m : Mem S) (j : S.Job) (u : ℕ) :
    (m.spawn j).shape u = if u = m.count then some (j, .ready) else m.shape u := by
  unfold spawn setTask shape
  by_cases h : u = m.count
  · simp [h]
  · simp [h]

theorem shape_finish {m : Mem S} {t : ℕ} {job : S.Job} {status : Status S}
    (h : m.shape t = some (job, status)) (r : Reply S) (u : ℕ) :
    (m.finish t r).shape u = if u = t then some (job, .finished r) else m.shape u := by
  unfold finish
  by_cases hu : u = t
  · obtain ⟨c, hc⟩ := shape_eq_some.mp h
    rw [if_pos hu, hu, shape, task_alter_self hc]
    rfl
  · rw [if_neg hu, shape, task_alter_ne m hu, shape]

/-- The program of a task is part of its shape. -/
theorem job_eq_fst_shape (m : Mem S) (t : ℕ) : m.job t = (m.shape t).map Prod.fst := by
  simp [job, shape, Function.comp_def]

variable [DecidableEq S.Lock]

@[simp] theorem vars_setLock (m : Mem S) (l : S.Lock) (state : LockState) :
    (m.setLock l state).vars = m.vars := rfl

@[simp] theorem count_setLock (m : Mem S) (l : S.Lock) (state : LockState) :
    (m.setLock l state).count = m.count := rfl

@[simp] theorem task_setLock (m : Mem S) (l : S.Lock) (state : LockState) :
    (m.setLock l state).task = m.task := rfl

theorem owner_setLock (m : Mem S) (l l' : S.Lock) (state : LockState) :
    (m.setLock l state).owner l' = if l' = l then state.owner else m.owner l' := by
  unfold owner setLock
  by_cases h : l' = l
  · subst h
    simp
  · simp [h]

theorem owner_take (m : Mem S) (l l' : S.Lock) (t : ℕ) :
    (m.take l t).owner l' = if l' = l then some t else m.owner l' := owner_setLock m l l' _

theorem owner_release (m : Mem S) (l l' : S.Lock) :
    (m.release l).owner l' = if l' = l then none else m.owner l' := owner_setLock m l l' _

/-- A change of the queue of a lock does not change its owner. -/
theorem owner_setQueue (m : Mem S) (l l' : S.Lock) (queue : List Waiter) :
    (m.setLock l { m.lock l with queue := queue }).owner l' = m.owner l' := by
  rw [owner_setLock]
  split_ifs with h
  · rw [h]
    rfl
  · rfl

omit [DecidableEq S.Lock] in
theorem sameButCancelled_alter (m : Mem S) (t : ℕ) :
    SameButCancelled m (m.alter t fun k => { k with cancelled := true }) where
  vars := by simp
  count := by simp
  owner := by simp
  shape := by
    intro u
    by_cases h : u = t
    · subst h
      unfold shape
      cases hk : m.task u with
      | none => simp [alter, hk]
      | some k => simp [task_alter_self hk]
    · rw [shape, task_alter_ne m h, shape]
  flagged := by
    rintro u ⟨k, hk, hflag⟩
    by_cases h : u = t
    · subst h
      exact ⟨_, task_alter_self hk _, rfl⟩
    · exact ⟨k, (task_alter_ne m h _).trans hk, hflag⟩

theorem sameButCancelled_markWaiter (m : Mem S) (l : S.Lock) (t : ℕ) :
    SameButCancelled m (m.markWaiter l t) := by
  unfold markWaiter
  split
  · exact ⟨rfl, rfl, fun _ => rfl, fun _ => rfl, fun _ h => h⟩
  · exact ⟨rfl, rfl, fun l' => owner_setQueue m l l' _, fun _ => rfl, fun _ h => h⟩

end Mem

theorem SameButCancelled.refl (m : Mem S) : SameButCancelled m m :=
  ⟨rfl, rfl, fun _ => rfl, fun _ => rfl, fun _ h => h⟩

theorem SameButCancelled.trans {m m' m'' : Mem S} (h : SameButCancelled m m')
    (h' : SameButCancelled m' m'') : SameButCancelled m m'' :=
  ⟨h'.vars.trans h.vars, h'.count.trans h.count, fun l => (h'.owner l).trans (h.owner l),
    fun t => (h'.shape t).trans (h.shape t), fun t ht => h'.flagged t (h.flagged t ht)⟩

variable [DecidableEq S.Lock]

/-- A cancellation changes nothing else. -/
theorem sameButCancelled_cancelWithin (n : ℕ) (t : ℕ) (m : Mem S) :
    SameButCancelled m (Mem.cancelWithin n t m) := by
  induction n generalizing t m with
  | zero => exact .refl m
  | succ n ih =>
    have hflag := m.sameButCancelled_alter t
    unfold Mem.cancelWithin
    dsimp only
    split
    · exact .refl m
    · split
      · exact .refl m
      · exact hflag.trans (ih _ _)
      · exact hflag.trans (Mem.sameButCancelled_markWaiter _ _ _)
      · exact hflag

theorem sameButCancelled_cancel (m : Mem S) (t : ℕ) : SameButCancelled m (m.cancel t) :=
  sameButCancelled_cancelWithin _ _ _

end Frame

/-! ## Running a program -/

/-- A system: its programs, which of them can be called from outside, and when a
call that is awaited gives an answer. -/
structure System (S : Signature) where
  /-- What an await without a value returns. -/
  nothing : S.Value
  body : S.Job → Prog S S.Value
  callable : S.Job → Bool
  /-- The answer to a call, with the readings that are left; none if it is not there yet. -/
  answer : S.Call → (ℕ → S.Reading) → Option (Except S.Err S.Value × (ℕ → S.Reading))

/-- Where a program stops: at its end, at an await or before it starts again. -/
inductive Halt (S : Signature) (α : Type) where
  | done (r : Except (Raised S.Err) α)
  | waiting (w : Wait S) (k : Reply S → Prog S α)
  | pausing (h : Raised S.Err → Prog S α)

variable {S : Signature} [DecidableEq S.Lock]

/-- Run a program of task `t` up to its next await. -/
def Prog.advance {α : Type} (nothing : S.Value) (t : ℕ) :
    Prog S α → (ℕ → S.Reading) → Mem S → Halt S α × Mem S
  | .ret a, _, m => (.done (.ok a), m)
  | .raise e, _, m => (.done (.error e), m)
  | .get k, env, m => (k m.vars).advance nothing t env m
  | .set s k, env, m => k.advance nothing t env { m with vars := s }
  | .read k, env, m => (k (env 0)).advance nothing t (fun i => env (i + 1)) m
  | .self k, env, m => (k t).advance nothing t env m
  | .spawn j k, env, m => (k m.count).advance nothing t env (m.spawn j)
  | .cancel u k, env, m => k.advance nothing t env (m.cancel u)
  | .isDone u k, env, m => (k (m.outcome u).isSome).advance nothing t env m
  | .release l k, env, m => k.advance nothing t env (m.release l)
  | .await w k, env, m =>
      match m.atOnce t w with
      | some m' => (k (.ok nothing)).advance nothing t env m'
      | none => (.waiting w k, m)
  | .again h, _, m => (.pausing h, m)

/-- What a waiting task goes on with, if it can: the reply, the readings that are
left and the memory. -/
def System.resume (sys : System S) (m : Mem S) (t : ℕ) (w : Wait S) (cancelled : Bool)
    (env : ℕ → S.Reading) : Option (Reply S × (ℕ → S.Reading) × Mem S) :=
  if cancelled then
    match w with
    | .lock l _ => some (.error .cancelled, env, (m.wake t).dequeue l t)
    | .gather u =>
        if (m.outcome u).isSome then some (.error .cancelled, env, m.wake t) else none
    | _ => some (.error .cancelled, env, m.wake t)
  else
    match w with
    | .lock l _ =>
        if m.turn l t then some (.ok sys.nothing, env, ((m.wake t).dequeue l t).take l t)
        else none
    | .call c => (sys.answer c env).map fun a => (a.1.mapError .error, a.2, m.wake t)
    | .shield u => (m.outcome u).map fun r => (r, env, m.wake t)
    | .gather u =>
        if (m.outcome u).isSome then some (.ok sys.nothing, env, m.wake t) else none

/-! ## The event loop -/

/-- The memory and, for each task that waits or pauses, how it goes on. -/
structure Pool (S : Signature) where
  mem : Mem S
  cont : ℕ → Reply S → Prog S S.Value

/-- What can happen: a program is called from outside, a task is cancelled from
outside, or a task runs up to its next await, with what it reads on the way. -/
inductive Label (S : Signature) where
  | call (j : S.Job)
  | cancel (t : ℕ)
  | run (t : ℕ) (env : ℕ → S.Reading)

/-- Where a program of the task stopped. -/
def Pool.settle (p : Pool S) (t : ℕ) : Halt S S.Value × Mem S → Pool S
  | (.done r, m) => { p with mem := m.finish t r }
  | (.waiting w k, m) => { mem := m.suspend t w, cont := Function.update p.cont t k }
  | (.pausing h, m) =>
      { mem := m.pause t
        cont := Function.update p.cont t fun
          | .ok v => .ret v
          | .error e => h e }

/-- Run a program of the task. -/
def Pool.go (sys : System S) (p : Pool S) (t : ℕ) (program : Prog S S.Value)
    (env : ℕ → S.Reading) (m : Mem S) : Pool S :=
  p.settle t (program.advance sys.nothing t env m)

/-- One step of the event loop. -/
def step (sys : System S) (p : Pool S) : Label S → Option (Pool S)
  | .call j => if sys.callable j then some { p with mem := p.mem.spawn j } else none
  | .cancel t => some { p with mem := p.mem.cancel t }
  | .run t env =>
      match p.mem.task t with
      | none => none
      | some ⟨job, status, cancelled⟩ =>
          match status with
          | .ready =>
              if cancelled then some { p with mem := p.mem.finish t (.error .cancelled) }
              else some (p.go sys t (sys.body job) env (p.mem.wake t))
          | .pausing =>
              if cancelled then
                some (p.go sys t (p.cont t (.error .cancelled)) env (p.mem.wake t))
              else some (p.go sys t (sys.body job) env (p.mem.wake t))
          | .waiting w =>
              match sys.resume p.mem t w cancelled env with
              | some (r, env', m) => some (p.go sys t (p.cont t r) env' m)
              | none => none
          | .running => none
          | .finished _ => none

/-- A system without tasks. -/
def Pool.start (sys : System S) (vars : S.Vars) : Pool S :=
  { mem := { vars := vars, lock := fun _ => ⟨none, []⟩, task := fun _ => none, count := 0 }
    cont := fun _ _ => .ret sys.nothing }

end Coroutine
