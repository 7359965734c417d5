import Mathlib.Logic.Function.Basic
import SmartDesk.Lib.Transition

/-!
# Serial line source

`modules/serial/source.py`: one serial port for the tasks of the event loop.  Opening, reading and
closing run in worker threads, to completion, whether or not the task that waits is cancelled.

* `SerialLineSource` — the fields, the lock and the tasks; `run` goes up to the next `await`.
  `asyncio.Lock` hands the lock over in the order of the waiters; here any of them can get it, and
  a read may or may not wait for a reconnect.
* `World` — the source with the ports that were opened and closed.
* `step` — calls, cancellations, tasks and threads, in any order.
-/

namespace SmartDesk.Serial

/-- `SerialStatus` -/
inductive SerialStatus where
  | stopped
  | disconnected
  | connected
  | error
  deriving DecidableEq

/-- Ports are numbered as they are opened. -/
abbrev Port : Type := ℕ

abbrev Bytes : Type := List UInt8

inductive Job where
  | start
  | stop
  | readLine
  deriving DecidableEq

/-- What a task waits for with the lock held: the blocking calls, by where they stand. -/
inductive Purpose where
  /-- `serial.Serial(…)` in `_open_port` -/
  | opening
  /-- `_read_with_timeout(connection, timeout)` -/
  | reading (p : Port)
  /-- `connection.close` in `stop` -/
  | stopping (p : Port)
  /-- `connection.close` in `_mark_disconnected` -/
  | disconnecting (p : Port) (error : String)
  /-- `connection.close` in `_open_connection`, for a source that was stopped meanwhile -/
  | unstarted (p : Port)
  /-- `connection.close` in `_open_port`, for a task that was cancelled meanwhile -/
  | abandoned (p : Port)
  deriving DecidableEq

/-- The port that is to be closed. -/
def Purpose.closes : Purpose → Option Port
  | .opening => none
  | .reading _ => none
  | .stopping p => some p
  | .disconnecting p _ => some p
  | .unstarted p => some p
  | .abandoned p => some p

/-- A worker thread. -/
inductive Thread where
  | running
  | opened (p : Port)
  | returned (line : Bytes)
  | raised (error : String)
  deriving DecidableEq

/-- How a call ends. -/
inductive Result where
  | returned (line : Bytes)
  /-- `RuntimeError` -/
  | refused
  | cancelled
  deriving DecidableEq

/-- Where a task is: not begun, in `_wait_for_reconnect`, at the lock, in `asyncio.shield` or,
once it was told of a cancellation, in `asyncio.gather`, or at its end. -/
inductive Phase where
  | ready
  | waiting
  | locking
  | blocked (purpose : Purpose) (thread : Thread) (told : Bool)
  | ended (result : Result)
  deriving DecidableEq

/-- `cancelled` is a cancellation that has still to be raised in the task; there is one at most. -/
structure Task where
  job : Job
  phase : Phase
  cancelled : Bool
  wasCancelled : Bool
  deriving DecidableEq

def Task.live (k : Task) : Bool :=
  match k.phase with
  | .ended _ => false
  | _ => true

structure SerialLineSource where
  connection : Option Port
  status : SerialStatus
  lastError : Option String
  started : Bool
  owner : Option ℕ
  task : ℕ → Option Task
  count : ℕ

/-- A source and what became of the ports. -/
structure World extends SerialLineSource where
  /-- How many were opened. -/
  ports : ℕ
  /-- How often `close()` was called. -/
  closes : Port → ℕ
  /-- `close()` has ended. -/
  closed : Port → Bool
  /-- A `stop()` has returned, and no `start()` was called since. -/
  settled : Bool

/-- A source before its first call. -/
def World.init : World where
  connection := none
  status := .stopped
  lastError := none
  started := false
  owner := none
  task := fun _ => none
  count := 0
  ports := 0
  closes := fun _ => 0
  closed := fun _ => false
  settled := false

namespace World

variable (w : World)

def put (t : ℕ) (k : Task) : World := { w with task := Function.update w.task t (some k) }

/-- The end of `async with self._io_lock`. -/
def release : World := { w with owner := none }

def finish (t : ℕ) (k : Task) (result : Result) : World :=
  w.put t { k with phase := .ended result, cancelled := false }

/-- `_run_blocking` or `_open_port`, up to its `await`. -/
def block (t : ℕ) (k : Task) (purpose : Purpose) : World :=
  w.put t { k with phase := .blocked purpose .running false }

/-- `await self._run_blocking(connection.close)` -/
def blockClose (t : ℕ) (k : Task) (purpose : Purpose) (p : Port) : World :=
  { w with closes := Function.update w.closes p (w.closes p + 1) }.block t k purpose

/-- `_record_error(error)` -/
def recordError (error : String) : World := { w with status := .error, lastError := some error }

/-- The begin of a call; `waits` says whether a reconnect time is still to come. -/
def runReady (t : ℕ) (k : Task) (waits : Bool) : World :=
  match k.job with
  | .start => w.put t { k with phase := .locking }
  | .stop => { w with started := false }.put t { k with phase := .locking }
  | .readLine =>
      if !w.started then w.finish t k .refused
      else if waits then w.put t { k with phase := .waiting }
      else w.put t { k with phase := .locking }

/-- What `stop` does at its end. -/
def settleStop (t : ℕ) (k : Task) (closeError : Option String) : World :=
  { w.release.finish t k (.returned []) with
    status := .stopped, lastError := closeError.or w.lastError, settled := true }

/-- What a call does when it has got the lock. -/
def runLocked (t : ℕ) (k : Task) : World :=
  let w := { w with owner := some t }
  match k.job with
  | .start =>
      if w.started then w.release.finish t k .refused
      else
        { w with started := true, connection := none, status := .disconnected,
                 lastError := none }.release.finish t k (.returned [])
  | .stop =>
      match w.connection with
      | none => w.settleStop t k none
      | some p => { w with connection := none }.blockClose t k (.stopping p) p
  | .readLine =>
      if !w.started then w.release.finish t k .refused
      else
        match w.connection with
        | none => w.block t k .opening
        | some p => w.block t k (.reading p)

/-- What a call does when its thread has ended. -/
def settle (t : ℕ) (k : Task) (purpose : Purpose) (told : Bool) : Thread → Option World
  | .running => none
  | .opened p =>
      if told then some (w.blockClose t k (.abandoned p) p)
      else if !w.started then some (w.blockClose t k (.unstarted p) p)
      else
        some ({ w with connection := some p, status := .connected, lastError := none }.block t k
          (.reading p))
  | .returned line =>
      if told then some (w.release.finish t k .cancelled)
      else
        match purpose with
        | .opening => none
        | .reading _ => some (w.release.finish t k (.returned line))
        | .stopping _ => some (w.settleStop t k none)
        | .disconnecting _ error =>
            some ((w.recordError error).release.finish t k (.returned []))
        | .unstarted _ => some (w.release.finish t k (.returned []))
        | .abandoned _ => some (w.release.finish t k .cancelled)
  | .raised error =>
      if told then some (w.release.finish t k .cancelled)
      else
        match purpose with
        | .opening => some ((w.recordError error).release.finish t k (.returned []))
        | .reading p =>
            some ({ w with connection := if w.connection = some p then none else w.connection
                    }.blockClose t k (.disconnecting p error) p)
        | .stopping _ => some (w.settleStop t k (some error))
        | .disconnecting _ error =>
            some ((w.recordError error).release.finish t k (.returned []))
        | .unstarted _ => some (w.release.finish t k (.returned []))
        | .abandoned _ => some (w.release.finish t k .cancelled)

/-- The event loop runs the task up to its next `await`. -/
def run (t : ℕ) (waits : Bool) : Option World :=
  match w.task t with
  | none => none
  | some k =>
      match k.phase with
      | .ready =>
          if k.cancelled then some (w.finish t k .cancelled) else some (w.runReady t k waits)
      | .waiting =>
          if k.cancelled then some (w.finish t k .cancelled)
          else some (w.put t { k with phase := .locking })
      | .locking =>
          if k.cancelled then some (w.finish t k .cancelled)
          else if w.owner = none then some (w.runLocked t k)
          else none
      | .blocked purpose thread told =>
          if k.cancelled then
            some (w.put t { k with phase := .blocked purpose thread true, cancelled := false })
          else w.settle t k purpose told thread
      | .ended _ => none

/-- A thread ends: a port is opened or closed, a line is read; or a `serial.SerialException` or an
`OSError` is raised, and then the port counts as closed too. -/
def finishThread (t : ℕ) (k : Task) (purpose : Purpose) (told : Bool)
    (outcome : Except String Bytes) : World :=
  let thread : Thread := match outcome with
    | .error error => .raised error
    | .ok line => .returned line
  match purpose with
  | .opening =>
      match outcome with
      | .error error => w.put t { k with phase := .blocked .opening (.raised error) told }
      | .ok _ =>
          { w with ports := w.ports + 1 }.put t
            { k with phase := .blocked .opening (.opened w.ports) told }
  | .reading p => w.put t { k with phase := .blocked (.reading p) thread told }
  | purpose =>
      { w with closed := match purpose.closes with
          | some p => Function.update w.closed p true
          | none => w.closed }.put t { k with phase := .blocked purpose thread told }

end World

/-! ## Steps -/

/-- What can happen: a call, a cancellation, a task that runs, a thread that ends. -/
inductive Label where
  | call (job : Job)
  | cancel (t : ℕ)
  | run (t : ℕ) (waits : Bool)
  | finish (t : ℕ) (outcome : Except String Bytes)

/-- A new task. -/
def World.spawn (w : World) (job : Job) : World :=
  { w.put w.count ⟨job, .ready, false, false⟩ with
    count := w.count + 1, settled := w.settled && job ≠ .start }

/-- One step; a call is cancelled once at most. -/
def step (w : World) : Label → Option World
  | .call job => some (w.spawn job)
  | .cancel t =>
      match w.task t with
      | some k =>
          if k.live && !k.wasCancelled then
            some (w.put t { k with cancelled := true, wasCancelled := true })
          else none
      | none => none
  | .run t waits => w.run t waits
  | .finish t outcome =>
      match w.task t with
      | some k =>
          match k.phase with
          | .blocked purpose .running told => some (w.finishThread t k purpose told outcome)
          | _ => none
      | none => none

end SmartDesk.Serial
