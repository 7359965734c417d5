import SmartDesk.Desk.Operations

/-!
# The runner

`_run` of `DeskController` and what one cycle does: the startup WAKE, the wait after a
WAKE, the phases of a target, pulses, and the watch over a relay that should be at
rest.

* `publishPulse` — the guards before a pulse, under the relay I/O lock.
* `runCycle` — one cycle.
* `run` — the loop with its handlers.
* `deskSystem` — all programs together.
-/

namespace SmartDesk.Desk

open Coroutine Code

variable (settings : DeskSettings)

/-! ## Pulses -/

/-- The guard of `_publish_pulse`, under both locks. -/
def pulseAllowed (d : DeskController) (generation : ℕ) (direction : Direction) : Bool :=
  d.control.generation == generation && d.control.mode != .none &&
    d.control.direction == some direction && !d.closing && !d.stopInProgress

/-- `_record_pulse_failure(generation, detail)`. -/
def recordPulseFailure (generation : ℕ) (detail : String) : Code Unit := do
  let d ← fields
  if d.control.generation = generation then
    stopMotion "릴레이 이동 명령 발행에 실패했습니다." (some detail)
  else return ()

/-- What `_publish_pulse` has done under the locks. -/
inductive PulseOutcome where
  | skipped
  | published
  | failed (text : String)

/-- `_publish_pulse` under the relay I/O lock. -/
def sendPulse (generation : ℕ) (direction : Direction) (holdMs : ℤ) (view : CycleView) :
    Code PulseOutcome :=
  Prog.withLock .relayIo (some (.pulse generation direction holdMs)) do
    let d ← fields
    if pulseAllowed d generation direction then
      exceptError
        (do
          note fun d => .pulse d view direction holdMs
          let _ ← Prog.wait (.call (.pulse generation direction holdMs))
          return .published)
        fun error => return .failed error.text
    else return .skipped

/-- `_publish_pulse(generation, direction, hold_ms, fine_observed_at)`; `view` is what
the cycle decided on. -/
def publishPulse (generation : ℕ) (direction : Direction) (holdMs : ℤ)
    (fineObservedAt : Option Instant) (view : CycleView) : Code Unit := do
  let startedAt ← monotonic
  match ← sendPulse generation direction holdMs view with
  | .skipped => return ()
  | .failed text => recordPulseFailure generation text
  | .published => do
      let d ← fields
      if d.control.generation != generation then return ()
      else
        let refreshed (d : DeskController) : DeskController :=
          { d with
            firstPulseSentAt := some (d.firstPulseSentAt.getD startedAt)
            nextRefreshAt :=
              some (startedAt.add (Ieee.finite settings.pulseRefreshIntervalSeconds)) }
        match fineObservedAt with
        | none => modify refreshed
        | some observedAt => do
            let updatedAt ← now
            let current ← monotonic
            let hold := (Ieee.finite holdMs).divNat 1000
            modify fun d =>
              { refreshed d with
                lastFineObservedAt := some observedAt
                control :=
                  { d.control with
                    targetPhase := some .settling, direction := none
                    detail := "미세 보정 뒤 새 높이를 기다립니다.", updatedAt := updatedAt }
                settleUntil :=
                  some ((current.add hold).add (Ieee.finite settings.fineSettleSeconds)) }

/-! ## A relay that should obey -/

def ackMissing : String := "릴레이 이동 응답 시간이 초과되었습니다."

/-- The first pulse was sent longer ago than the relay may take to answer. -/
def ackExpired (d : DeskController) (current : Ieee) : Bool :=
  d.firstPulseSentAt.any fun sent =>
    decide (Ieee.finite settings.relayAckTimeoutSeconds < current.sub sent)

/-- `_evaluate_relay_status(control, snapshot, now_mono)`. -/
def evaluateRelayStatus (control : ControlState) (snapshot : RelaySnapshot) (current : Ieee) :
    Code Unit :=
  match control.direction, snapshot.receivedAt with
  | some direction, some receivedAt => do
      let d ← fields
      if d.relayBaselineReceivedAt.any (fun baseline => decide (receivedAt ≤ baseline)) then
        require (!ackExpired settings d current) (.rejected ackMissing)
      else if d.relayLastSeenAt.any (fun seen => decide (receivedAt ≤ seen)) then return ()
      else
        modify fun d => { d with relayLastSeenAt := some receivedAt }
        if snapshot.state = some direction.toRelayState then
          modify fun d => { d with relayDirectionConfirmed := true }
        else
          require (!isMoving snapshot) (.rejected "릴레이가 요청과 반대 방향을 보고했습니다.")
          require (!(snapshot.state == some .stop && d.relayDirectionConfirmed))
            (.rejected "이동 중 릴레이가 예기치 않게 정지했습니다.")
          require (!(snapshot.state == some .stop && ackExpired settings d current))
            (.rejected ackMissing)
  | _, _ => return ()

/-- `_watch_inactive_relay()`. -/
def watchInactiveRelay : Code Unit := do
  let d ← fields
  if d.stopInProgress then return ()
  else
    let snapshot ← relay
    match isMoving snapshot, snapshot.receivedAt with
    | true, some receivedAt =>
        if d.lastStopBaselineReceivedAt.any (fun baseline => decide (receivedAt ≤ baseline)) ||
            d.lastUnexpectedRelayAt == some receivedAt then
          return ()
        else
          exceptRejected (do let _ ← requireRelayReady settings) fun _ => return ()
          modify fun d => { d with lastUnexpectedRelayAt := some receivedAt }
          stopMotion "제어기 밖에서 발생한 릴레이 이동을 정지했습니다."
            (some "예기치 않은 릴레이 이동 상태")
    | _, _ => return ()

/-! ## After a WAKE -/

/-- `_activate_after_wake` for a bare WAKE: the sensor answers, nothing moves. -/
def activateWake (control : ControlState) : Code Unit := do
  let d ← fields
  if d.control.generation != control.generation then return ()
  else
    let updatedAt ← now
    modify fun d =>
      { d.resetMotionFields with
        control := .still .idle "높이 센서 연결을 확인했습니다." updatedAt
          (control.generation + 1) }

/-- `_activate_after_wake` for a motion, which goes on as `change` says. -/
def activateMotion (control : ControlState) (change : ControlState → ControlState)
    (height : HeightSnapshot) (relay : RelaySnapshot) (current : Ieee) : Code Unit := do
  let d ← fields
  if d.control.generation != control.generation then return ()
  else
    let updatedAt ← now
    let activated : ControlState :=
      { change d.control with
        awaitingFreshHeight := false, wakeObservedAt := none, wakeStartedAt := none
        updatedAt := updatedAt }
    modifyNote
      (fun d =>
        { d.initializeRelayTracking relay with
          control := activated, nextRefreshAt := some current })
      fun d => .activated d.control activated height relay

/-- `_activate_after_wake(control, height, relay, now_mono)`. -/
def activateAfterWake (control : ControlState) (height : HeightSnapshot) (relay : RelaySnapshot)
    (current : Ieee) : Code Unit := do
  let heightCm ← assertSome height.heightCm
  match control.mode with
  | .wake => activateWake control
  | .manual => do
      let direction ← assertSome control.direction
      requireDirectionAllowed settings heightCm direction
      let change (c : ControlState) : ControlState :=
        { c with
          publicState := .manual, detail := "수동 " ++ direction.value ++ " 이동을 시작합니다." }
      activateMotion control change height relay current
  | .target => do
      let target ← assertSome control.targetHeightCm
      let delta := target.sub heightCm
      if delta.abs ≤ Ieee.finite settings.targetToleranceCm then
        stopMotion ("목표 " ++ fixedOne target ++ "cm에 도달했습니다.") none
      else
        let direction := directionOf delta
        requireDirectionAllowed settings heightCm direction
        let change (c : ControlState) : ControlState :=
          { c with
            publicState := .moving, targetPhase := some .continuous, direction := some direction
            detail := "목표 " ++ fixedOne target ++ "cm로 이동합니다." }
        activateMotion control change height relay current
  | .none => throw .assertionError

/-- The manual watchdog has run out. -/
def watchdogExpired (control : ControlState) (d : DeskController) (current : Ieee) : Bool :=
  control.mode == .manual && d.lastHoldAt.any fun held =>
    decide (Ieee.finite settings.manualWatchdogSeconds < current.sub held)

/-- `_run_wake_cycle(control)`. -/
def runWakeCycle (control : ControlState) : Code Unit := do
  let current ← monotonic
  require (control.wakeStartedAt.any fun started =>
      !decide (Ieee.finite settings.wakeTimeoutSeconds < current.sub started))
    (.rejected "센서 깨우기 뒤 새 높이 관측 시간이 초과되었습니다.")
  let d ← fields
  if watchdogExpired settings control d current then
    stopMotion "수동 HOLD 입력이 끊겨 센서 깨우기를 취소하고 정지했습니다." none
  else
    let snapshot ← height
    require (snapshot.status != .error) (.rejected "높이 센서 transport가 오류 상태입니다.")
    match snapshot.status, snapshot.observedAt, control.wakeObservedAt with
    | .online, some observedAt, some before =>
        if observedAt ≤ before then return ()
        else
          let (relay, _) ← requireRelayAvailableForWake settings
          if relay.state = some .stop ∧ relay.code = some "ready" then
            let _ ← assertSome snapshot.heightCm
            activateAfterWake settings control snapshot relay current
          else return ()
    | _, _, _ => return ()

/-- `_run_startup_wake_cycle()` under the intent lock; `found` is the control state
that it found. -/
def startupWakeCycle : Code Bool := do
  let d ← fields
  match d.startupWakePending with
  | none => return false
  | some deadline =>
      if !d.running || d.closing || d.stopInProgress then
        modify DeskController.cancelStartupWakePendingLocked
        return true
      else
        let snapshot ← height
        if snapshot.status == .online then
          modify DeskController.cancelStartupWakePendingLocked
          return true
        else
          let refused : Option String ← exceptRejected
            (do
              let _ ← requireWakeBasis settings snapshot
              return none)
            fun text => return some text
          match refused with
          | some text => do
              setStartupSensorCheckNeeded text
              return true
          | none => do
              let current ← monotonic
              if deadline < current then
                setStartupSensorCheckNeeded
                  "시작 WAKE 대기 시간 안에 유효한 릴레이 live 상태를 받지 못했습니다."
                return true
              else
                let admitted : Option RelaySnapshot ← exceptRejected
                  (do return some (← admitWake settings))
                  fun _ => return none
                match admitted with
                | none => return true
                | some relay => do
                    let heightCm ← assertSome snapshot.heightCm
                    let direction := startupDirection settings heightCm
                    exceptRejected
                      (do
                        requireDirectionAllowed settings heightCm direction
                        modify DeskController.cancelStartupWakePendingLocked
                        beginWake .wake direction none snapshot relay
                          "시작 후 높이 센서 연결을 확인하고 있습니다." d.control)
                      fun text => setStartupSensorCheckNeeded text
                    return true

/-- `_run_startup_wake_cycle()`. -/
def runStartupWakeCycle : Code Bool := Prog.withLock .intent none (startupWakeCycle settings)

/-! ## Targets -/

/-- `_enter_settling(generation)`. -/
def enterSettling (generation : ℕ) : Code Unit := do
  let d ← fields
  if d.control.generation != generation then return ()
  else
    let updatedAt ← now
    modify fun d =>
      { d with
        control :=
          { d.control with
            targetPhase := some .settling, direction := none, generation := generation + 1
            detail := "목표 근처에서 관성 안정화를 기다립니다.", updatedAt := updatedAt }
        nextRefreshAt := none
        relayDirectionConfirmed := false }
    match ← sendStopBounded false none with
    | some text => stopMotion "미세 접근 전 정지 명령에 실패했습니다." (some text)
    | none => do
        let current ← monotonic
        modify fun d =>
          { d with settleUntil := some (current.add (Ieee.finite settings.fineSettleSeconds)) }

/-- `_run_target_cycle` once the phase is CONTINUOUS or FINE. -/
def pulseTowards (control : ControlState) (delta : Ieee) (needed : Direction) (current : Ieee)
    (view : CycleView) : Code Unit := do
  match control.targetPhase with
  | some .continuous =>
      if delta.abs ≤ Ieee.finite settings.fineApproachDistanceCm ∨
          control.direction ≠ some needed then
        enterSettling settings control.generation
      else
        let d ← fields
        if d.nextRefreshAt.all fun due => decide (due ≤ current) then
          publishPulse settings control.generation needed settings.continuousHoldMs none view
        else return ()
  | some .fine => do
      let d ← fields
      let seen : Bool :=
        match d.lastFineObservedAt, view.height.observedAt with
        | some last, some observedAt => decide (observedAt ≤ last)
        | _, _ => false
      if seen then return ()
      else
        publishPulse settings control.generation needed settings.fineHoldMs
          view.height.observedAt view
  | _ => return ()

/-- `_run_target_cycle(control, height, now_mono)`. -/
def runTargetCycle (control : ControlState) (current : Ieee) (view : CycleView) : Code Unit := do
  let target ← assertSome control.targetHeightCm
  let heightCm ← assertSome view.height.heightCm
  let delta := target.sub heightCm
  if delta.abs ≤ Ieee.finite settings.targetToleranceCm then
    stopMotion ("목표 " ++ fixedOne target ++ "cm에 도달했습니다.") none
  else
    let needed := directionOf delta
    requireDirectionAllowed settings heightCm needed
    if control.targetPhase = some .settling then
      let d ← fields
      if d.settleUntil.any fun due => decide (current < due) then return ()
      else
        let snapshot ← relay
        require (snapshot.state == some .stop)
          (.rejected "미세 이동 전 릴레이 STOP을 확인하지 못했습니다.")
        let d ← fields
        if d.control.generation != control.generation then return ()
        else
          let updatedAt ← now
          modify fun d =>
            { d with
              control :=
                { d.control with
                  targetPhase := some .fine, direction := some needed, updatedAt := updatedAt }
              nextRefreshAt := some current }
          pulseTowards settings (← fields).control delta needed current view
    else pulseTowards settings control delta needed current view

/-! ## The cycle -/

/-- `_run_cycle` with an active motion that does not wait for a height. -/
def runMotionCycle (control : ControlState) : Code Unit := do
  let height ← requireHeight settings
  let (snapshot, checkedAt) ← requireRelayReady settings
  let heightCm ← assertSome height.heightCm
  let current ← monotonic
  let d ← fields
  require (!(control.mode == .target && d.motionStartedAt.any fun started =>
      decide (Ieee.finite settings.targetTimeoutSeconds < current.sub started)))
    (.rejected "목표 이동 제한시간을 초과했습니다.")
  if watchdogExpired settings control d current then
    stopMotion "수동 HOLD 입력이 끊겨 정지했습니다." none
  else
    let view : CycleView := ⟨control, height, snapshot, checkedAt⟩
    evaluateRelayStatus settings control snapshot current
    if control.mode = .manual then
      let direction ← assertSome control.direction
      requireDirectionAllowed settings heightCm direction
      let d ← fields
      if d.nextRefreshAt.all fun due => decide (due ≤ current) then
        publishPulse settings control.generation direction settings.manualHoldMs none view
      else return ()
    else runTargetCycle settings control current view

/-- `_run_cycle()`. -/
def runCycle : Code Unit := do
  let d ← fields
  if !d.running || d.closing || d.stopInProgress then return ()
  else if d.control.mode = .none then
    if ← runStartupWakeCycle settings then return ()
    else watchInactiveRelay settings
  else
    exceptRejected
      (if d.control.awaitingFreshHeight then runWakeCycle settings d.control
        else runMotionCycle settings d.control)
      fun text =>
        stopMotion "안전 조건을 충족하지 못해 이동을 정지했습니다." (some text)

/-- What `_run()` stops a failed runner with. -/
def runnerErrorDetail : String := "책상 제어 runner 오류로 정지했습니다."

/-- The handlers of `_run()`. -/
def endRun : Raised Exc → Code Unit
  | .cancelled => do
      let d ← fields
      if !d.closing then
        let child ← Prog.spawn
          (.shieldedStop "책상 제어 runner 취소로 정지했습니다."
            (some "책상 제어 runner가 lifecycle 밖에서 취소되었습니다.")) .ret
        let _ ← Prog.wait (.shield child)
      Prog.raise .cancelled
  | .error e => do
      let d ← fields
      if !d.closing then
        stopMotion runnerErrorDetail (some e.text)
      throw e

/-- `_run()`: a cycle, then a pause and the next one. -/
def run : Code Unit :=
  Prog.attempt
    (do
      let d ← fields
      if d.running then
        runCycle settings
        Prog.again Prog.raise
      else return ())
    endRun

/-! ## The whole controller -/

/-- A coroutine that returns `None`. -/
def returnsNone (c : Code Unit) : Code Value := do
  c
  return Value.none

/-- The coroutine of a job. -/
def body : Job → Code Value
  | .start => returnsNone (startCall settings)
  | .stop => returnsNone stopCall
  | .stopMotion reason => returnsNone (stopMotionCall reason)
  | .setTarget heightCm => returnsNone (setTargetCall settings heightCm)
  | .increaseTarget amountCm => returnsNone (adjustTargetCall settings amountCm true)
  | .decreaseTarget amountCm => returnsNone (adjustTargetCall settings amountCm false)
  | .holdUp => returnsNone (holdCall settings .up)
  | .holdDown => returnsNone (holdCall settings .down)
  | .runner => returnsNone (run settings)
  | .stopAndConfirm detail errorDetail => stopAndConfirm settings detail errorDetail false
  | .shieldedStop detail errorDetail => returnsNone (stopMotion detail errorDetail)

/-- The public operations. -/
def Job.isPublic : Job → Bool
  | .runner => false
  | .stopAndConfirm _ _ => false
  | .shieldedStop _ _ => false
  | _ => true

/-- What an awaited call gives, when it is there. -/
def answer (call : RelayCall) (env : ℕ → Reading) : Option (Except Exc Value × (ℕ → Reading)) :=
  match call with
  | .freshStop baseline deadline =>
      match (freshStopRound baseline deadline).peek env with
      | some (some value, rest) => some (.ok value, rest)
      | _ => none
  | _ =>
      match (env 0).result with
      | none => none
      | some (.ok _) => some (.ok .none, fun i => env (i + 1))
      | some (.error text) => some (.error (.relay text), fun i => env (i + 1))

/-- The controller on its event loop. -/
def deskSystem : System deskSignature where
  nothing := Value.none
  body := body settings
  callable := Job.isPublic
  answer := answer

/-- The controller as it is constructed. -/
def deskStart (now : Instant) : Pool deskSignature :=
  Pool.start (deskSystem settings) ⟨.init now, none, []⟩

end SmartDesk.Desk
