import SmartDesk.Desk.Control

/-!
# The operations of the controller

The coroutines of `DeskController` that the public operations run: STOP with its
confirmation, WAKE, the motion intents, `start` and `stop`.

* `sendStopBounded`, `waitForFreshStop`, `stopAndConfirm` — a STOP exchange.
* `stopMotion`, `stopForTransition` — its two callers.
* `beginWake`, `setTarget`, `hold` — the ways in which a motion intent is installed.
* `startCall`, `stopCall` — the lifecycle.
-/

namespace SmartDesk.Desk

open Coroutine Code

variable (settings : DeskSettings)

/-! ## STOP -/

/-- `_send_stop_bounded()`: the error text, if there is one.  `latched` records that
the caller has set the latch and clears it after the confirmation, by a status newer
than `baseline`. -/
def sendStopBounded (latched : Bool) (baseline : Option Instant) : Code (Option String) :=
  exceptError
    (Prog.withLock .relayIo (some (.stop latched baseline)) do
      let t ← Prog.self .ret
      note fun _ => .sendStop t
      let _ ← Prog.wait (.call (.stop latched baseline))
      return none)
    fun error => return some error.text

/-- A status that confirms a STOP. -/
def isFreshStop (baseline : Option Instant) (snapshot : RelaySnapshot) : Bool :=
  snapshot.state == some .stop &&
    snapshot.receivedAt.any (fun receivedAt => baseline.all fun b => decide (b < receivedAt)) &&
    snapshot.event != some .offline && snapshot.event != some .rejected

def freshStopMissing : String := "릴레이의 최신 STOP 응답을 확인하지 못했습니다."

/-- One round of the loop in `_wait_for_fresh_stop`: what the loop ends with, or
nothing if it waits for another round. -/
def freshStopRound (baseline : Option Instant) (deadline : Ieee) : Code (Option Value) := do
  let current ← monotonic
  if current ≤ deadline then
    let snapshot ← relay
    if isFreshStop baseline snapshot then return some (.stop snapshot)
    else
      let later ← monotonic
      if deadline.sub later ≤ Ieee.finite 0 then return some (.error freshStopMissing)
      else return none
  else return some (.error freshStopMissing)

/-- `_wait_for_fresh_stop(baseline)`. -/
def waitForFreshStop (baseline : Option Instant) : Code Value := do
  let started ← monotonic
  let deadline := started.add (Ieee.finite settings.relayAckTimeoutSeconds)
  match ← freshStopRound baseline deadline with
  | some value => return value
  | none => Prog.wait (.call (.freshStop baseline deadline))

/-- Publish a STOP under the latch and wait for its confirmation. -/
def publishAndConfirm (baseline : Option Instant) : Code Value := do
  match ← sendStopBounded true baseline with
  | some text => return .error text
  | none => waitForFreshStop settings baseline

/-- Record the status that confirmed the STOP of the task. -/
def noteConfirmed (t : ℕ) (baseline : Option Instant) : Value → Code Unit
  | .stop status => note fun _ => .exchangeConfirmed t baseline status
  | _ => .ret ()

/-- `final_error` of `_stop_and_confirm`. -/
def finalError (stopError : Value) (errorDetail : Option String) : Option String :=
  match stopError.text?, errorDetail with
  | none, _ => errorDetail
  | some text, none => some text
  | some text, some error => some (if error = "" then text else error ++ "; STOP 실패: " ++ text)

/-- The last section of `_stop_and_confirm`. -/
def DeskController.concludeStop (detail : String) (error : Option String) (updatedAt : Instant)
    (d : DeskController) : DeskController :=
  { d with
    stopInProgress := false
    control :=
      { d.control with
        publicState := if error.isSome then .error else .stopped
        detail := detail, lastError := error, updatedAt := updatedAt } }

/-- The second half of `_stop_and_confirm`: the intent is invalid and the latch is
set. -/
def confirmStop (detail : String) (errorDetail : Option String) (baseline : Option Instant) :
    Code Value := do
  let t ← Prog.self .ret
  let stopError ← publishAndConfirm settings baseline
  noteConfirmed t baseline stopError
  let updatedAt ← now
  modify (.concludeStop detail (finalError stopError errorDetail) updatedAt)
  return stopError

/-- `_stop_and_confirm(detail, error_detail, reject_if_stopping)`. -/
def stopAndConfirm (detail : String) (errorDetail : Option String) (rejectIfStopping : Bool) :
    Code Value := do
  let t ← Prog.self .ret
  let d ← fields
  if rejectIfStopping then requireRunningLocked
  else require (d.running || d.closing) (.runtimeError "책상 제어기가 실행 중이 아닙니다.")
  if d.stopInProgress then
    require (!rejectIfStopping) (.rejected "다른 STOP 명령이 진행 중입니다.")
    return .none
  else
    let snapshot ← relay
    let updatedAt ← now
    modifyNote
      (fun d =>
        { d.invalidateMotionLocked detail updatedAt with
          stopInProgress := true, lastStopBaselineReceivedAt := snapshot.receivedAt })
      fun _ => .exchangeBegun t snapshot.receivedAt
    confirmStop settings detail errorDetail snapshot.receivedAt

/-- `_stop_motion(detail, error_detail)`: the STOP runs as a task of its own. -/
def stopMotion (detail : String) (errorDetail : Option String) : Code Unit := do
  let stopTask ← Prog.spawn (.stopAndConfirm detail errorDetail) .ret
  let stopError ← (Prog.wait (.shield stopTask)).attempt fun
    | .cancelled => do
        let _ ← Prog.wait (.gather stopTask)
        Prog.raise .cancelled
    | .error e => throw e
  match stopError.text?, errorDetail with
  | some text, none => throw (.runtimeError text)
  | _, _ => return ()

/-- `_stop_for_transition(detail)`. -/
def stopForTransition (detail : String) : Code Unit := do
  let stopError ← stopAndConfirm settings detail none true
  match stopError.text? with
  | some text => throw (.rejected text)
  | none => return ()

/-! ## WAKE -/

/-- The fields with a new motion intent. -/
def DeskController.withIntent (relay : RelaySnapshot) (control : ControlState)
    (motionStartedAt lastHoldAt nextRefreshAt : Option Ieee) (d : DeskController) :
    DeskController :=
  { d.initializeRelayTracking relay with
    control := control
    motionStartedAt := motionStartedAt
    lastHoldAt := lastHoldAt
    nextRefreshAt := nextRefreshAt
    settleUntil := none
    lastFineObservedAt := none }

/-- The intent that waits for a fresh height. -/
def ControlState.waking (mode : MotionMode) (direction : Direction) (target : Option Ieee)
    (detail : String) (updatedAt : Instant) (generation : ℕ) (observedAt : Instant)
    (startedAt : Ieee) : ControlState where
  publicState := .waking
  mode := mode
  targetPhase := if mode = .target then some .continuous else none
  targetHeightCm := target
  direction := some direction
  detail := detail
  lastError := none
  updatedAt := updatedAt
  generation := generation
  awaitingFreshHeight := true
  wakeObservedAt := some observedAt
  wakeStartedAt := some startedAt

/-- The call of `_begin_wake` under the relay I/O lock: the error text, if there is
one. -/
def sendWake (generation : ℕ) (direction : Direction) (basisHeightCm : Ieee) :
    Code (Option String) :=
  Prog.withLock .relayIo (some (.wake generation direction basisHeightCm))
    (exceptError
      (do
        note fun d => .wake d generation direction basisHeightCm
        let _ ← Prog.wait (.call (.wake generation direction basisHeightCm))
        return none)
      fun error => return some error.text)

/-- `_begin_wake(…)`; `found` is the control state that the operation found. -/
def beginWake (mode : MotionMode) (direction : Direction) (target : Option Ieee)
    (basis : HeightSnapshot) (relay : RelaySnapshot) (detail : String) (found : ControlState) :
    Code Unit := do
  let basisHeightCm ← assertSome basis.heightCm
  let observedAt ← assertSome basis.observedAt
  requireRunningLocked
  let d ← fields
  require (!d.control.awaitingFreshHeight) (.rejected "높이 센서를 이미 깨우는 중입니다.")
  let generation := d.control.generation + 1
  let startedAt ← monotonic
  let updatedAt ← now
  let control : ControlState :=
    .waking mode direction target detail updatedAt generation observedAt startedAt
  modifyNote
    (.withIntent relay control (if mode = .wake then none else some startedAt)
      (if mode = .manual then some startedAt else none) none)
    fun _ => .installed found control
  match ← sendWake generation direction basisHeightCm with
  | none => return ()
  | some text => do
      let d ← fields
      if d.control.generation = generation then
        stopMotion "높이 센서 깨우기 명령에 실패했습니다." (some text)
      else return ()

/-- `_set_sensor_check_needed(target)`. -/
def setSensorCheckNeeded (target : Ieee) : Code Unit := do
  requireRunningLocked
  let updatedAt ← now
  modify fun d =>
    { d.resetMotionFields with
      control := .still .idle
        ("목표 " ++ fixedOne target ++ "cm가 마지막 높이와 가깝습니다. " ++
          "도달 여부를 확인하려면 센서 높이가 필요합니다.")
        updatedAt (d.control.generation + 1) }

/-! ## Motion intents -/

/-- `_has_active_motion()`. -/
def hasActiveMotion : Code Bool := do
  let d ← fields
  return d.control.mode != .none

/-- `except (TypeError, ValueError)`: an active motion is stopped before the exception
is raised again. -/
def stopOnInvalid {α : Type} (detail : String) (c : Code α) : Code α :=
  c.exceptError fun
    | .typeError text => do
        if ← hasActiveMotion then stopMotion detail none
        throw (.typeError text)
    | .valueError text => do
        if ← hasActiveMotion then stopMotion detail none
        throw (.valueError text)
    | e => throw e

/-- A relay that reports a motion. -/
def isMoving (snapshot : RelaySnapshot) : Bool :=
  snapshot.state == some .up || snapshot.state == some .down

/-- The intent of a target with an ONLINE height. -/
def ControlState.towards (target : Ieee) (direction : Direction) (updatedAt : Instant)
    (generation : ℕ) : ControlState where
  publicState := .moving
  mode := .target
  targetPhase := some .continuous
  targetHeightCm := some target
  direction := some direction
  detail := "목표 " ++ fixedOne target ++ "cm로 이동합니다."
  lastError := none
  updatedAt := updatedAt
  generation := generation
  awaitingFreshHeight := false
  wakeObservedAt := none
  wakeStartedAt := none

/-- The last part of `_set_target`: the motion towards the target. -/
def installTarget (target : Ieee) (direction : Direction) (relay : RelaySnapshot)
    (found : ControlState) : Code Unit := do
  requireRunningLocked
  let d ← fields
  let updatedAt ← now
  let current ← monotonic
  let control : ControlState :=
    .towards target direction updatedAt (d.control.generation + 1)
  modifyNote (.withIntent relay control (some current) none (some current))
    fun _ => .installed found control

/-- `_set_target` after the old motion has been stopped. -/
def approachTarget (target : Ieee) (found : ControlState) : Code Unit := do
  let snapshot ← height
  if snapshot.status != .online then
    let basis ← requireWakeBasis settings snapshot
    let relay ← admitWake settings
    let basisHeightCm ← assertSome basis.heightCm
    let delta := target.sub basisHeightCm
    if delta.abs ≤ Ieee.finite settings.targetToleranceCm then setSensorCheckNeeded target
    else
      let direction := directionOf delta
      requireDirectionAllowed settings basisHeightCm direction
      beginWake .target direction (some target) basis relay
        ("목표 " ++ fixedOne target ++ "cm 전 센서 높이를 확인합니다.") found
  else
    let (snapshot, relay) ← admitMotion settings
    let heightCm ← assertSome snapshot.heightCm
    let delta := target.sub heightCm
    if delta.abs ≤ Ieee.finite settings.targetToleranceCm then
      stopMotion ("목표 " ++ fixedOne target ++ "cm에 도달했습니다.") none
    else
      let direction := directionOf delta
      requireDirectionAllowed settings heightCm direction
      installTarget target direction relay found

/-- The validation at the head of `_set_target`. -/
def validateTarget (heightCm : PyValue) : Code Ieee := do
  let target ← validateNumber heightCm "목표 높이"
  require (decide (Ieee.finite settings.operationMinCm ≤ target) &&
      decide (target ≤ Ieee.finite settings.operationMaxCm))
    (.valueError ("목표 높이는 " ++ general settings.operationMinCm ++ "~" ++
      general settings.operationMaxCm ++ "cm여야 합니다."))
  return target

/-- An operation with valid arguments cancels a pending startup WAKE. -/
def cancelStartupWakePending : Code Unit :=
  modifyNote DeskController.cancelStartupWakePendingLocked fun _ => .commanded

/-- `_set_target(height_cm)`. -/
def setTarget (heightCm : PyValue) : Code Unit := do
  let target ← stopOnInvalid "잘못된 대체 목표로 기존 이동을 정지했습니다."
    (validateTarget settings heightCm)
  cancelStartupWakePending
  let found := (← fields).control
  if found.awaitingFreshHeight then
    require (found.mode == .target && found.targetHeightCm == some target)
      (.rejected "높이 센서를 깨우는 중에는 목표를 바꿀 수 없습니다.")
  else
    let d ← fields
    if found.mode == .target && found.targetHeightCm == some target && !d.stopInProgress then
      return ()
    else
      let snapshot ← relay
      if found.mode != .none || isMoving snapshot then
        stopForTransition settings "새 목표를 적용하기 위해 기존 이동을 정지했습니다."
      approachTarget settings target found

/-- `_adjust_target(amount_cm, increase)`. -/
def adjustTarget (amountCm : PyValue) (increase : Bool) : Code Unit := do
  let amount ← stopOnInvalid "잘못된 목표 증감 요청으로 기존 이동을 정지했습니다." do
    let amount ← validateNumber amountCm "목표 증감량"
    require (!decide (amount ≤ Ieee.finite 0)) (.valueError "목표 증감량은 0보다 커야 합니다.")
    return amount
  cancelStartupWakePending
  let control := (← fields).control
  match control.mode, control.targetHeightCm with
  | .target, some target =>
      setTarget settings (.float (if increase then target.add amount else target.sub amount))
  | _, _ => throw (.rejected "활성 목표가 없어 높이를 증감할 수 없습니다.")

/-- The intent of a manual motion with an ONLINE height. -/
def ControlState.manually (direction : Direction) (updatedAt : Instant) (generation : ℕ) :
    ControlState where
  publicState := .manual
  mode := .manual
  targetPhase := none
  targetHeightCm := none
  direction := some direction
  detail := "수동 " ++ direction.value ++ " 이동을 시작합니다."
  lastError := none
  updatedAt := updatedAt
  generation := generation
  awaitingFreshHeight := false
  wakeObservedAt := none
  wakeStartedAt := none

/-- The last part of `_hold`: the manual motion. -/
def installManual (direction : Direction) (relay : RelaySnapshot) (found : ControlState) :
    Code Unit := do
  requireRunningLocked
  let d ← fields
  let current ← monotonic
  let updatedAt ← now
  let control : ControlState := .manually direction updatedAt (d.control.generation + 1)
  modifyNote (.withIntent relay control (some current) (some current) (some current))
    fun _ => .installed found control

/-- A hold that goes on: `_last_hold_at` and the detail are refreshed. -/
def refreshHold (detail : String) : Code Unit := do
  let current ← monotonic
  let updatedAt ← now
  modify fun d =>
    { d with
      lastHoldAt := some current
      control := { d.control with detail := detail, updatedAt := updatedAt } }

/-- `_hold` with an ONLINE height. -/
def holdOnline (direction : Direction) (found : ControlState) : Code Unit := do
  let snapshot ← requireHeight settings
  let (relay, _) ← requireRelayReady settings
  let heightCm ← assertSome snapshot.heightCm
  requireDirectionAllowed settings heightCm direction
  requireRunningLocked
  let d ← fields
  if d.control.mode == .manual && d.control.direction == some direction && !d.stopInProgress then
    refreshHold ("수동 " ++ direction.value ++ " 입력을 유지하고 있습니다.")
  else if d.control.mode != .none || isMoving relay then
    stopForTransition settings "수동 이동 전 기존 이동을 정지했습니다."
    let (snapshot, relay) ← admitMotion settings
    let heightCm ← assertSome snapshot.heightCm
    requireDirectionAllowed settings heightCm direction
    installManual direction relay found
  else installManual direction relay found

/-- `_hold(direction)`. -/
def hold (direction : Direction) : Code Unit := do
  requireRunningLocked
  let snapshot ← height
  cancelStartupWakePending
  let found := (← fields).control
  if found.awaitingFreshHeight then
    require (found.mode == .manual && found.direction == some direction)
      (.rejected "높이 센서를 깨우는 중입니다.")
    refreshHold ("센서 깨우기 후 수동 " ++ direction.value ++ " 입력을 기다립니다.")
  else if snapshot.status != .online then
    let basis ← requireWakeBasis settings snapshot
    let relay ← admitWake settings
    let basisHeightCm ← assertSome basis.heightCm
    requireDirectionAllowed settings basisHeightCm direction
    beginWake .manual direction none basis relay
      ("수동 " ++ direction.value ++ " 전 센서 높이를 확인합니다.") found
  else holdOnline settings direction found

/-! ## Public operations -/

/-- `stop_motion(reason)`. -/
def stopMotionCall (reason : String) : Code Unit :=
  Prog.withLock .intent none
    (stopMotion
      (if strip reason = "" then "사용자 요청으로 책상을 정지했습니다." else strip reason) none)

/-- `set_target(height_cm)`. -/
def setTargetCall (heightCm : PyValue) : Code Unit :=
  Prog.withLock .intent none (setTarget settings heightCm)

/-- `increase_target(amount_cm)` and `decrease_target(amount_cm)`. -/
def adjustTargetCall (amountCm : PyValue) (increase : Bool) : Code Unit :=
  Prog.withLock .intent none (adjustTarget settings amountCm increase)

/-- `hold_up()` and `hold_down()`. -/
def holdCall (direction : Direction) : Code Unit :=
  Prog.withLock .intent none (hold settings direction)

/-- The task is there and has not ended. -/
def alive : Option ℕ → Code Bool
  | none => .ret false
  | some t => .isDone t fun finished => .ret !finished

/-- `self._task_manager.create(DESK_CONTROLLER_TASK_NAME, self._run())`. -/
def createRunner : Code Unit := do
  let duplicate ← alive (← vars).registered
  require (!duplicate)
    (.runtimeError "비동기 작업 'desk-controller'이(가) 이미 실행 중입니다.")
  let closing ← Prog.read fun r => .ret r.managerClosing
  require (!closing) (.runtimeError "TaskManager가 종료 중이어서 새 작업을 만들 수 없습니다.")
  let task ← Prog.spawn .runner .ret
  setVars fun v => { v with desk := { v.desk with runnerTask := some task }, registered := some task }

/-- `_set_startup_sensor_check_needed(error)`. -/
def setStartupSensorCheckNeeded (error : String) : Code Unit := do
  modify DeskController.cancelStartupWakePendingLocked
  let d ← fields
  if !d.running || d.closing then return ()
  else
    let updatedAt ← now
    modify fun d =>
      { d with control :=
          { d.control with
            publicState := .idle, detail := "높이 센서 확인이 필요합니다."
            lastError := some error, updatedAt := updatedAt } }

/-- The direction of a startup WAKE: towards the middle of the operation range. -/
def startupDirection (heightCm : Ieee) : Direction :=
  let midpoint :=
    ((Ieee.finite settings.operationMinCm).add (Ieee.finite settings.operationMaxCm)).divNat 2
  if heightCm < midpoint then .up else .down

/-- `_register_startup_wake()`. -/
def registerStartupWake : Code Unit := do
  let snapshot ← height
  if snapshot.status == .online then return ()
  else
    let refused : Option String ← exceptRejected
      (do
        let basis ← requireWakeBasis settings snapshot
        let basisHeightCm ← assertSome basis.heightCm
        requireDirectionAllowed settings basisHeightCm (startupDirection settings basisHeightCm)
        return none)
      fun text => return some text
    match refused with
    | some text => setStartupSensorCheckNeeded text
    | none => do
        let d ← fields
        if !d.running || d.closing || d.stopInProgress then return ()
        else
          let current ← monotonic
          let updatedAt ← now
          modifyNote
            (fun d =>
              { d with
                startupWakePending := some (current.add (Ieee.finite settings.wakeTimeoutSeconds))
                control :=
                  { d.control with
                    publicState := .idle
                    detail := "시작 후 릴레이 상태를 기다려 높이 센서를 확인합니다."
                    lastError := none, updatedAt := updatedAt } })
            fun _ => .wakePending

/-- `start()` after its first section. -/
def confirmStart : Code Unit := do
  let baseline := (← relay).receivedAt
  let stopError ← publishAndConfirm settings baseline
  let updatedAt ← now
  match stopError.text? with
  | none => do
      modify fun d =>
        { d with
          stopInProgress := false
          control :=
            { d.control with
              publicState := .idle
              detail := "책상 제어기가 안전 정지 상태로 시작되었습니다.", updatedAt := updatedAt } }
      registerStartupWake settings
  | some text =>
      modify fun d =>
        { d with
          stopInProgress := false
          control :=
            { d.control with
              publicState := .error
              detail := "시작 안전 정지 명령을 발행하지 못했습니다."
              lastError := some text, updatedAt := updatedAt } }

/-- `start()`. -/
def startCall : Code Unit := do
  let d ← fields
  let runnerAlive ← alive d.runnerTask
  require (!(d.running || runnerAlive)) (.runtimeError "책상 제어기가 이미 실행 중입니다.")
  let updatedAt ← now
  modify fun d =>
    { d.resetMotionFields with
      running := true, closing := false, stopInProgress := true
      control := .still .idle "책상 제어기를 시작하고 있습니다." updatedAt
        (d.control.generation + 1) }
  exceptError createRunner fun e => do
    modify fun d => { d with running := false, stopInProgress := false }
    throw e
  confirmStart settings

/-- The end of the runner in `stop()`. -/
def endRunner : Code Unit := do
  let d ← fields
  modify fun d => { d with runnerTask := none }
  match d.runnerTask with
  | none => return ()
  | some task => do
      if ← alive (some task) then Prog.cancel task (.ret ())
      let _ ← Prog.wait (.gather task)
      return ()

/-- `stop()`. -/
def stopCall : Code Unit := do
  let d ← fields
  if !d.running && d.runnerTask.isNone then return ()
  else
    let invalidatedAt ← now
    modifyNote
      (fun d =>
        { d.invalidateMotionLocked "애플리케이션 종료" invalidatedAt with
          closing := true, stopInProgress := true })
      fun _ => .closed
    let stopError ← sendStopBounded false none
    endRunner
    let updatedAt ← now
    modify fun d =>
      { d with
        running := false
        stopInProgress := false
        control :=
          { d.control with
            publicState := if stopError.isNone then .stopped else .error
            detail := if stopError.isNone then "책상 제어기가 종료되었습니다."
              else "종료 중 안전 정지 명령을 발행하지 못했습니다."
            lastError := stopError, updatedAt := updatedAt } }
    match stopError with
    | none => return ()
    | some text => throw (.runtimeError text)

end SmartDesk.Desk
