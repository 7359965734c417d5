import SmartDesk.Desk.Models
import SmartDesk.Desk.Settings
import SmartDesk.Lib.Coroutine
import SmartDesk.Lib.PyText

/-!
# The controller: state, readings and guards

`modules/desk/controller.py`: the fields of `DeskController`, and its methods that
do not await.  A method that is a coroutine of the source is a `Prog`, which stops
where the source awaits something that can suspend it: a lock, a relay call, another
task, a pause.  `_command_lock` is never held across such an await, so it is always
free when it is acquired and a section under it is one action.

* `ControlState`, `DeskController` — the fields of the source.
* `Vars` — the fields together with the record of what the controller did.
* `Reading` — what the height monitor, the relay client and the clocks say.
* `deskSignature`, `Code` — the programs of the controller.
* `requireHeight`, `requireRelayReady`, `requireDirectionAllowed`, … — the guards.
-/

namespace SmartDesk.Desk

open Coroutine

/-! ## Fields -/

inductive MotionMode where
  | none
  | wake
  | target
  | manual
  deriving DecidableEq, Repr

inductive TargetPhase where
  | continuous
  | settling
  | fine
  deriving DecidableEq, Repr

/-- `_ControlState`. -/
structure ControlState where
  publicState : DeskState
  mode : MotionMode
  targetPhase : Option TargetPhase
  targetHeightCm : Option Ieee
  direction : Option Direction
  detail : String
  lastError : Option String
  updatedAt : Instant
  generation : ℕ
  awaitingFreshHeight : Bool
  wakeObservedAt : Option Instant
  wakeStartedAt : Option Ieee
  deriving DecidableEq

/-- A control state without a motion. -/
def ControlState.still (publicState : DeskState) (detail : String) (updatedAt : Instant)
    (generation : ℕ) : ControlState where
  publicState := publicState
  mode := .none
  targetPhase := none
  targetHeightCm := none
  direction := none
  detail := detail
  lastError := none
  updatedAt := updatedAt
  generation := generation
  awaitingFreshHeight := false
  wakeObservedAt := none
  wakeStartedAt := none

/-- The fields of `DeskController` that change; `startupWakePending` is the deadline
of the pending WAKE, a task is its number. -/
structure DeskController where
  control : ControlState
  running : Bool
  closing : Bool
  stopInProgress : Bool
  runnerTask : Option ℕ
  startupWakePending : Option Ieee
  motionStartedAt : Option Ieee
  lastHoldAt : Option Ieee
  nextRefreshAt : Option Ieee
  settleUntil : Option Ieee
  lastFineObservedAt : Option Instant
  relayBaselineReceivedAt : Option Instant
  relayLastSeenAt : Option Instant
  firstPulseSentAt : Option Ieee
  relayDirectionConfirmed : Bool
  lastUnexpectedRelayAt : Option Instant
  lastStopBaselineReceivedAt : Option Instant
  deriving DecidableEq

namespace DeskController

/-- `DeskController(…)`. -/
def init (now : Instant) : DeskController where
  control := .still .idle "책상 제어기가 시작되지 않았습니다." now 0
  running := false
  closing := false
  stopInProgress := false
  runnerTask := none
  startupWakePending := none
  motionStartedAt := none
  lastHoldAt := none
  nextRefreshAt := none
  settleUntil := none
  lastFineObservedAt := none
  relayBaselineReceivedAt := none
  relayLastSeenAt := none
  firstPulseSentAt := none
  relayDirectionConfirmed := false
  lastUnexpectedRelayAt := none
  lastStopBaselineReceivedAt := none

/-- `_reset_motion_fields()`. -/
def resetMotionFields (d : DeskController) : DeskController :=
  { d with
    motionStartedAt := none, lastHoldAt := none, nextRefreshAt := none, settleUntil := none
    lastFineObservedAt := none, relayBaselineReceivedAt := none, relayLastSeenAt := none
    firstPulseSentAt := none, relayDirectionConfirmed := false }

/-- `_initialize_relay_tracking(snapshot)`. -/
def initializeRelayTracking (snapshot : RelaySnapshot) (d : DeskController) : DeskController :=
  { d with
    relayBaselineReceivedAt := snapshot.receivedAt, relayLastSeenAt := snapshot.receivedAt
    firstPulseSentAt := none, relayDirectionConfirmed := false }

/-- `_cancel_startup_wake_pending_locked()`. -/
def cancelStartupWakePendingLocked (d : DeskController) : DeskController :=
  { d with startupWakePending := none }

/-- `_invalidate_motion_locked(detail)`. -/
def invalidateMotionLocked (detail : String) (now : Instant) (d : DeskController) :
    DeskController :=
  { d.cancelStartupWakePendingLocked.resetMotionFields with
    control := .still .stopped detail now (d.control.generation + 1) }

end DeskController

/-! ## The record -/

/-- What a runner cycle decided a pulse on: the control state, the height and the
relay status that it read, and the time at which it checked the status. -/
structure CycleView where
  control : ControlState
  height : HeightSnapshot
  relay : RelaySnapshot
  checkedAt : Instant
  deriving DecidableEq

/-- What the controller did.  The number is that of the task; `pulse` and `wake` are
the calls of the relay client, with the fields at that moment; `installed` is a new
motion intent, with the control state that its operation found; `activated` is a motion
that goes on after its WAKE, with the snapshots of its cycle.  A startup WAKE is
registered by `wakePending`; `commanded` is an operation whose arguments are valid, and
`closed` the begin of a `stop()`. -/
inductive Event where
  | pulse (fields : DeskController) (view : CycleView) (direction : Direction) (holdMs : ℤ)
  | wake (fields : DeskController) (generation : ℕ) (direction : Direction) (basisHeightCm : Ieee)
  | sendStop (t : ℕ)
  | exchangeBegun (t : ℕ) (baseline : Option Instant)
  | exchangeConfirmed (t : ℕ) (baseline : Option Instant) (relay : RelaySnapshot)
  | installed (found new : ControlState)
  | activated (found new : ControlState) (height : HeightSnapshot) (relay : RelaySnapshot)
  | wakePending
  | commanded
  | closed
  deriving DecidableEq

/-- The fields, the entry of the task manager for the runner, and the record, newest
event first. -/
structure Vars where
  desk : DeskController
  registered : Option ℕ
  trace : List Event

/-! ## Exceptions and numbers -/

inductive Exc where
  /-- `DeskCommandRejectedError` -/
  | rejected (text : String)
  | runtimeError (text : String)
  | typeError (text : String)
  | valueError (text : String)
  | overflowError (text : String)
  | assertionError
  /-- An exception of the relay client. -/
  | relay (text : String)
  /-- Any other exception, which the code of an argument raises. -/
  | foreign (text : String)
  deriving DecidableEq

/-- `str(error)`. -/
def Exc.text : Exc → String
  | .rejected text => text
  | .runtimeError text => text
  | .typeError text => text
  | .valueError text => text
  | .overflowError text => text
  | .assertionError => ""
  | .relay text => text
  | .foreign text => text

/-- What a caller can pass for a number. -/
inductive PyValue where
  | int (n : ℤ)
  | float (x : Ieee)
  | bool (b : Bool)
  /-- An instance of a subclass of `int` or `float`, or an object that passes for one, of
  which `float()` makes `x`. -/
  | numeric (x : Ieee)
  /-- An object on which `isinstance()` or `float()` raises: its `__class__` or its
  `__float__` does. -/
  | raising (e : Exc)
  | other
  deriving DecidableEq

/-- `f"{x:.1f}"`. -/
def fixedOne : Ieee → String
  | .nan => "nan"
  | .inf negative => if negative then "-inf" else "inf"
  | .finite q =>
      let tenths := (Ieee.roundHalfEven (q * 10)).natAbs
      (if q < 0 then "-" else "") ++ toString (tenths / 10) ++ "." ++ toString (tenths % 10)

/-- `f"{x:g}"` for a bound between 10 and 1000: six significant digits without
trailing zeros. -/
def general (q : ℚ) : String :=
  let decimals := if q < 100 then 4 else 3
  let n := (Ieee.roundHalfEven (q * 10 ^ decimals)).natAbs
  let digits := (Nat.toDigits 10 (10 ^ decimals + n % 10 ^ decimals)).tail
  let fraction := (digits.reverse.dropWhile (· = '0')).reverse
  toString (n / 10 ^ decimals) ++
    if fraction = [] then "" else "." ++ String.ofList fraction

/-- `timedelta(seconds=x)` in microseconds. -/
def timedelta (seconds : ℚ) : ℤ :=
  ⌊seconds⌋ * 1000000 + Ieee.roundHalfEven (Ieee.double ((seconds - ⌊seconds⌋) * 1000000))

/-- `text.strip()`. -/
def strip (text : String) : String :=
  String.ofList (PyText.stripWhere PyText.isSpace text.toList)

/-! ## Programs of the controller -/

/-- What the surroundings say: `get_snapshot()` of the height monitor and of the relay
client, the clocks, whether an awaited relay call has returned or raised, and whether
the task manager is shutting down. -/
structure Reading where
  height : HeightSnapshot
  relay : RelaySnapshot
  now : Instant
  monotonic : Ieee
  result : Option (Except String Unit)
  managerClosing : Bool

/-- The awaited calls; the generation of a motion, whether a STOP is sent under a latch
that its sender clears and the baseline of its exchange are for the record.  `freshStop`
is the loop of `_wait_for_fresh_stop`. -/
inductive RelayCall where
  | pulse (generation : ℕ) (direction : Direction) (holdMs : ℤ)
  | wake (generation : ℕ) (direction : Direction) (basisHeightCm : Ieee)
  | stop (latched : Bool) (baseline : Option Instant)
  | freshStop (baseline : Option Instant) (deadline : Ieee)
  deriving DecidableEq

/-- A value returned by a coroutine: `None`, an error text, or `None` with the status
that confirmed a STOP. -/
inductive Value where
  | none
  | error (text : String)
  | stop (relay : RelaySnapshot)
  deriving DecidableEq

/-- The error text, if there is one. -/
def Value.text? : Value → Option String
  | .error text => some text
  | _ => Option.none

inductive DeskLock where
  | intent
  | relayIo
  deriving DecidableEq

/-- The coroutines that run as tasks of their own: the public operations, the runner
and the STOPs that `_stop_motion` and the runner shield. -/
inductive Job where
  | start
  | stop
  | stopMotion (reason : String)
  | setTarget (heightCm : PyValue)
  | increaseTarget (amountCm : PyValue)
  | decreaseTarget (amountCm : PyValue)
  | holdUp
  | holdDown
  | runner
  | stopAndConfirm (detail : String) (errorDetail : Option String)
  | shieldedStop (detail : String) (errorDetail : Option String)
  deriving DecidableEq

abbrev deskSignature : Signature where
  Vars := Vars
  Reading := Reading
  Call := RelayCall
  Value := Value
  Err := Exc
  Lock := DeskLock
  Job := Job

abbrev Code (α : Type) := Prog deskSignature α

instance : DecidableEq deskSignature.Lock := inferInstanceAs (DecidableEq DeskLock)

namespace Code

def vars : Code Vars := .get .ret

/-- The fields as they are now. -/
def fields : Code DeskController := .get fun v => .ret v.desk

def setVars (f : Vars → Vars) : Code Unit := .get fun v => .set (f v) (.ret ())

/-- Change the fields. -/
def modify (f : DeskController → DeskController) : Code Unit :=
  setVars fun v => { v with desk := f v.desk }

/-- Change the fields and record an event. -/
def modifyNote (f : DeskController → DeskController) (event : DeskController → Event) :
    Code Unit :=
  setVars fun v => { v with desk := f v.desk, trace := event v.desk :: v.trace }

/-- Record an event. -/
def note (event : DeskController → Event) : Code Unit := modifyNote id event

def throw {α : Type} (e : Exc) : Code α := .raise (.error e)

/-- `self._height_monitor.get_snapshot()`. -/
def height : Code HeightSnapshot := .read fun r => .ret r.height

/-- `self._relay.get_snapshot()`. -/
def relay : Code RelaySnapshot := .read fun r => .ret r.relay

/-- `self._require_utc(self._now())`. -/
def now : Code Instant := .read fun r => .ret r.now

/-- `self._monotonic()`. -/
def monotonic : Code Ieee := .read fun r => .ret r.monotonic

/-- Go on only if the condition holds. -/
def require (condition : Bool) (e : Exc) : Code Unit := if condition then .ret () else throw e

/-- `assert value is not None`. -/
def assertSome {α : Type} : Option α → Code α
  | some a => .ret a
  | none => throw .assertionError

/-- `except Exception as error`, with the value that the handler returns. -/
def exceptError {α : Type} (c : Code α) (handler : Exc → Code α) : Code α :=
  c.attempt fun
    | .cancelled => .raise .cancelled
    | .error e => handler e

/-- `except DeskCommandRejectedError as error`. -/
def exceptRejected {α : Type} (c : Code α) (handler : String → Code α) : Code α :=
  c.exceptError fun
    | .rejected text => handler text
    | e => throw e

end Code

open Code

/-! ## Guards -/

variable (settings : DeskSettings)

/-- A finite height inside the measurement range. -/
def measured (h : Ieee) : Bool :=
  h.isFinite && decide (Ieee.finite settings.measurementMinCm ≤ h) &&
    decide (h ≤ Ieee.finite settings.measurementMaxCm)

/-- `_require_height()`. -/
def requireHeight : Code HeightSnapshot := do
  let snapshot ← height
  require (snapshot.status == .online && snapshot.heightCm.any (measured settings) &&
      snapshot.observedAt.isSome)
    (.rejected "신선하고 유효한 현재 높이가 없습니다.")
  return snapshot

/-- `_require_wake_basis(snapshot)`. -/
def requireWakeBasis (snapshot : HeightSnapshot) : Code HeightSnapshot := do
  require ((snapshot.status == .stale || snapshot.status == .sensorSleeping) &&
      snapshot.heightCm.any (measured settings) && snapshot.observedAt.isSome)
    (.rejected "WAKE를 위한 유효한 마지막 높이가 없습니다.")
  return snapshot

/-- `SUPPORTED_RELAY_FIRMWARES`. -/
def supportedRelayFirmwares : List String := ["smartdesk-fin-relay-1.0.0"]

/-- `_require_relay_available_for_wake()`, with the time of the check. -/
def requireRelayAvailableForWake : Code (RelaySnapshot × Instant) := do
  let snapshot ← relay
  require snapshot.lastError.isNone (.rejected "릴레이 상태 payload가 유효하지 않습니다.")
  require snapshot.event.isSome (.rejected "릴레이 live 상태를 아직 받지 못했습니다.")
  require (snapshot.event != some .offline && snapshot.event != some .rejected)
    (.rejected (match snapshot.code with
      | some code => if code = "" then "릴레이가 이동 명령을 받을 수 없습니다." else code
      | none => "릴레이가 이동 명령을 받을 수 없습니다."))
  require (snapshot.firmware.any fun firmware => decide (firmware ∈ supportedRelayFirmwares))
    (.rejected "승인되지 않은 릴레이 펌웨어입니다.")
  match snapshot.receivedAt with
  | none => throw (.rejected "릴레이 live 상태를 아직 받지 못했습니다.")
  | some receivedAt => do
      let checkedAt ← now
      let age := checkedAt - receivedAt
      require (decide (0 ≤ age) && decide (age ≤ timedelta settings.relayStaleAfterSeconds))
        (.rejected "릴레이 상태가 오래됐습니다.")
      return (snapshot, checkedAt)

/-- The codes of a firmware whose height lease is not ready. -/
def leaseCodes : List String := ["height_waiting", "height_not_ready", "height_stale"]

/-- `_require_relay_ready()`, with the time of the check. -/
def requireRelayReady : Code (RelaySnapshot × Instant) := do
  let checked ← requireRelayAvailableForWake settings
  require (checked.1.code.all fun code => decide (code ∉ leaseCodes))
    (.rejected "펌웨어의 높이 안전 lease가 준비되지 않았습니다.")
  return checked

/-- `_require_direction_allowed(height_cm, direction)`. -/
def requireDirectionAllowed (heightCm : Ieee) (direction : Direction) : Code Unit :=
  match direction with
  | .up =>
      require (!decide (Ieee.finite settings.operationMaxCm ≤ heightCm))
        (.rejected "제어 상한에서는 위로 이동할 수 없습니다.")
  | .down =>
      require (!decide (heightCm ≤ Ieee.finite settings.operationMinCm))
        (.rejected "제어 하한에서는 아래로 이동할 수 없습니다.")

/-- `_require_running_locked()`; `_admit_motion`, `_admit_wake` and `_hold` begin with
the same checks. -/
def requireRunningLocked : Code Unit := do
  let d ← fields
  require (d.running && !d.closing) (.runtimeError "책상 제어기가 실행 중이 아닙니다.")
  require (!d.stopInProgress) (.rejected "STOP 명령이 진행 중입니다.")

/-- `_admit_motion()`. -/
def admitMotion : Code (HeightSnapshot × RelaySnapshot) := do
  requireRunningLocked
  let snapshot ← requireHeight settings
  let checked ← requireRelayReady settings
  require (checked.1.state == some .stop) (.rejected "릴레이가 STOP 상태가 아닙니다.")
  return (snapshot, checked.1)

/-- `_admit_wake()`. -/
def admitWake : Code RelaySnapshot := do
  requireRunningLocked
  let checked ← requireRelayAvailableForWake settings
  require (checked.1.state == some .stop) (.rejected "WAKE는 릴레이 STOP 상태에서만 허용됩니다.")
  return checked.1

/-- `_validate_number(value, label)`. -/
def validateNumber (value : PyValue) (label : String) : Code Ieee := do
  let converted ←
    match value with
    | .int n =>
        match Ieee.float64 n with
        | .finite q => Prog.ret (Ieee.finite q)
        | _ => throw (.overflowError "int too large to convert to float")
    | .float x => Prog.ret x
    | .numeric x => Prog.ret x
    | .raising e => throw e
    | _ => throw (.typeError (label ++ "은 bool이 아닌 숫자여야 합니다."))
  require converted.isFinite (.valueError (label ++ "은 finite 숫자여야 합니다."))
  return converted

/-- The direction of a difference that is not zero. -/
def directionOf (delta : Ieee) : Direction := if Ieee.finite 0 < delta then .up else .down

end SmartDesk.Desk
