import SmartDesk.Firmware.Platform
import SmartDesk.Firmware.Relay

/-!
# The control handler

`firmware/relay-controller/src/control_handler.cpp`: the height session, the
admission of motion commands, and the status messages.

The third-party code is the parameter `Platform`; the network, the clocks and the
interrupt are read from an environment, one `Reading` for each call out of the
firmware.

* `Reading`, `World` — the environment and the state.
* `publishStatus`, `failClosed`, `updateArming`, `handleHeight`, `handleControl`,
  `tick`, … — the methods of `ControlHandler` under their own names.
* `HandlerCall`, `runCalls` — any sequence of method calls.
-/

namespace SmartDesk.Firmware

/-- What one call out of the firmware meets. -/
structure Reading (P : Platform) where
  millis : UInt32
  wifiStatus : ℤ
  net : P.Net
  preempt : ℕ → Preemption
  /-- How many messages `loop()` handles at most. -/
  burst : ℕ

/-- The fields of `ControlHandler`. -/
structure Session where
  hasBaseline : Bool
  hasDistinctHeight : Bool
  armed : Bool
  baselineObservedAt : Bytes
  lastObservedAt : Bytes
  lastHeightCm : Ieee
  sessionStartedAt : UInt32
  lastDistinctHeightAt : UInt32
  deriving DecidableEq

/-- The whole firmware: the relay, the MQTT client, the handler and the globals
of `main.cpp`.  `history` and `statuses` record the relay calls made and the
messages published; `publishFailed` and `begunSinceFailure` record a failed
status publish and a session begun after it. -/
structure World (P : Platform) where
  env : ℕ → Reading P
  pos : ℕ
  relay : Relay
  history : List RelayCall
  mqtt : P.Client
  statuses : List Status
  session : Session
  lastWifiAttempt : UInt32
  lastMqttAttempt : UInt32
  lastHeartbeat : UInt32
  wifiWasConnected : Bool
  mqttWasConnected : Bool
  lastWifiStatus : ℤ
  publishFailed : Bool
  begunSinceFailure : Bool

/-- `copyObservedAt(source, destination, size)`: what the destination holds afterwards. -/
def copyObservedAt (source destination : Bytes) (size : ℕ) : Bytes :=
  if source.length = 0 ∨ size ≤ source.length then destination else source

namespace World

variable {P : Platform}

/-! ## Calls out of the firmware -/

def reading (w : World P) : Reading P := w.env w.pos

def advance (w : World P) : World P := { w with pos := w.pos + 1 }

/-- `millis()`. -/
def millis (w : World P) : UInt32 × World P := (w.reading.millis, w.advance)

/-- A call of a relay method. -/
def relayCall (op : RelayOp) (w : World P) : op.Result × World P :=
  let result := op.run w.reading.preempt w.relay
  (result.1, { w.advance with
    relay := result.2
    history := w.history ++ [⟨op, w.reading.preempt⟩] })

/-- `mqtt_.connected()`. -/
def mqttConnected (w : World P) : Bool × World P :=
  let result := P.connected w.reading.net w.mqtt
  (result.1, { w.advance with mqtt := result.2 })

/-- `mqtt_.disconnect()`. -/
def mqttDisconnect (w : World P) : World P := { w with mqtt := P.disconnect w.mqtt }

/-! ## The session -/

/-- `beginSession(now)`. -/
def beginSession (now : UInt32) (w : World P) : World P :=
  let w := (w.relayCall .stop).2
  { w with
    session :=
      { hasBaseline := false, hasDistinctHeight := false, armed := false
        baselineObservedAt := [], lastObservedAt := [], lastHeightCm := .nan
        sessionStartedAt := now, lastDistinctHeightAt := 0 }
    begunSinceFailure := true }

/-- `invalidateSession()`. -/
def invalidateSession (w : World P) : World P :=
  let w := (w.relayCall .stop).2
  { w with session :=
      { w.session with
        hasBaseline := false, hasDistinctHeight := false, armed := false
        baselineObservedAt := [], lastObservedAt := [], lastHeightCm := .nan
        lastDistinctHeightAt := 0 } }

/-- `failClosed()`. -/
def failClosed (w : World P) : World P :=
  let w := (w.relayCall .stop).2.invalidateSession
  let up := w.mqttConnected
  if up.1 then up.2.mqttDisconnect else up.2

/-! ## Status messages -/

/-- A publish that did not go through. -/
def noteFailure (w : World P) : World P :=
  { w with publishFailed := true, begunSinceFailure := false }

/-- `publishStatus(event, code, detail)`; the payload buffer has 300 bytes. -/
def publishStatus (event code detail : String) (w : World P) : Bool × World P :=
  let up := w.mqttConnected
  if ¬ up.1 then (false, up.2.noteFailure)
  else
    let direction := up.2.relayCall .direction
    let w := direction.2
    let message : Status :=
      { event := event, state := direction.1.name, firmware := firmwareVersion, code := code
        detail := detail }
    let payload := P.serializeJson message
    if payload.length = 0 ∨ 300 ≤ payload.length then (false, w.noteFailure)
    else
      let sent := P.publish w.reading.net (literal mqttStatusTopic) payload w.mqtt
      let w := { w.advance with mqtt := sent.2 }
      if sent.1 then (true, { w with statuses := w.statuses ++ [message] })
      else (false, w.noteFailure)

/-- `if (!publishStatus(event, code, detail)) failClosed();` -/
def publishOrFail (event code detail : String) (w : World P) : World P :=
  let sent := w.publishStatus event code detail
  if sent.1 then sent.2 else sent.2.failClosed

/-- `if (mqtt_.connected() && !publishStatus(event, code, detail)) failClosed();` -/
def publishIfConnected (event code detail : String) (w : World P) : World P :=
  let up := w.mqttConnected
  if up.1 then up.2.publishOrFail event code detail else up.2

/-- `reject(code, detail)`. -/
def reject (code detail : String) (w : World P) : World P :=
  (w.relayCall .stop).2.publishOrFail "rejected" code detail

/-- `stopAndPublish(code, detail)`. -/
def stopAndPublish (code detail : String) (w : World P) : World P :=
  (w.relayCall .stop).2.publishOrFail "stopped" code detail

/-! ## Admission -/

/-- `isReady(now)`. -/
def isReady (now : UInt32) (w : World P) : Bool :=
  w.session.armed && w.session.hasDistinctHeight && w.session.lastHeightCm.isFinite &&
    !elapsed now w.session.lastDistinctHeightAt heightLeaseMs

/-- `boundaryAllows(direction)`. -/
def boundaryAllows (direction : RelayDirection) (w : World P) : Bool :=
  match direction with
  | .up => directionAllowed w.session.lastHeightCm true
  | .down => directionAllowed w.session.lastHeightCm false
  | .stop => false

/-- `updateArming(now)`. -/
def updateArming (now : UInt32) (w : World P) : World P :=
  if w.session.armed ∨ ¬ w.session.hasBaseline ∨ ¬ w.session.hasDistinctHeight then w
  else if ¬ elapsed now w.session.sessionStartedAt controlArmDelayMs then w
  else if elapsed now w.session.lastDistinctHeightAt heightLeaseMs then w
  else
    { w with session := { w.session with armed := true } }.publishIfConnected "online" "ready"
      "릴레이 제어기가 준비되었습니다."

/-! ## Messages -/

/-- `handleHeight` for a payload that does not parse. -/
def rejectHeight (w : World P) : World P :=
  let stopped := w.relayCall .stop
  let w := stopped.2.invalidateSession
  let report := if stopped.1 then (true, w) else w.mqttConnected
  if report.1 then
    report.2.publishOrFail (if stopped.1 then "stopped" else "rejected") "height_invalid"
      "높이 메시지가 유효하지 않아 제어를 중단했습니다."
  else report.2

/-- `handleHeight` for the first height of a session. -/
def acceptBaseline (observation : Height) (w : World P) : World P :=
  { w with session :=
      { w.session with
        baselineObservedAt := copyObservedAt observation.observedAt w.session.baselineObservedAt 48
        lastObservedAt := copyObservedAt observation.observedAt w.session.lastObservedAt 48
        lastHeightCm := observation.heightCm
        hasBaseline := true } }

/-- The stop at a control limit, at the end of `handleHeight`. -/
def stopAtLimit (height : Ieee) (w : World P) : World P :=
  let rising := w.relayCall .direction
  if rising.1 = .up ∧ maxControlHeightCm ≤ height then
    rising.2.stopAndPublish "upper_limit" "제어 상한에 도달해 상승을 정지했습니다."
  else
    let falling := rising.2.relayCall .direction
    if falling.1 = .down ∧ height ≤ minControlHeightCm then
      falling.2.stopAndPublish "lower_limit" "제어 하한에 도달해 하강을 정지했습니다."
    else falling.2

/-- `handleHeight` for a height that is not the last one again. -/
def acceptHeight (observation : Height) (now : UInt32) (w : World P) : World P :=
  let w := { w with session :=
      { w.session with
        lastObservedAt := copyObservedAt observation.observedAt w.session.lastObservedAt 48
        lastHeightCm := observation.heightCm
        lastDistinctHeightAt := now
        hasDistinctHeight := true } }
  (w.updateArming now).stopAtLimit observation.heightCm

/-- `handleHeight(payload, length)`. -/
def handleHeight (payload : Bytes) (w : World P) : World P :=
  match parseHeight P.deserializeJson payload maxHeightPayloadBytes maxObservedAtBytes {} with
  | .error _ => w.rejectHeight
  | .ok observation =>
      let now := w.millis
      let w := now.2
      if ¬ w.session.hasBaseline then w.acceptBaseline observation
      else if observation.observedAt = w.session.lastObservedAt then w
      else w.acceptHeight observation now.1

/-- The code and detail of a rejected control payload. -/
def Error.report : Error → String × String
  | .payloadSize => ("invalid_payload_size", "명령 크기가 올바르지 않습니다.")
  | .invalidJson => ("invalid_json", "JSON 명령 형식이 올바르지 않습니다.")
  | .untrustedSource => ("untrusted_source", "Desk 서비스의 명령만 실행할 수 있습니다.")
  | .invalidHold => ("hold_ms_out_of_range", "hold_ms는 50~500 정수여야 합니다.")
  | _ => ("invalid_command", "지원하지 않는 릴레이 명령입니다.")

/-- The code of an accepted motion command. -/
def startCode : RelayStartResult → String
  | .started => "command_started"
  | .extended => "deadline_extended"
  | .switched => "direction_switched"

/-- `handleControl` for a motion command. -/
def handleMotion (requested : RelayDirection) (holdMs : ℕ) (w : World P) : World P :=
  let now := w.millis
  let w := now.2
  if ¬ w.isReady now.1 then
    w.reject "height_not_ready" "현재 세션의 신선한 높이가 준비되지 않았습니다."
  else if ¬ w.boundaryAllows requested then
    w.reject (if requested = .up then "upper_limit" else "lower_limit")
      (if requested = .up then "제어 상한에서는 상승할 수 없습니다."
        else "제어 하한에서는 하강할 수 없습니다.")
  else
    let started := w.relayCall (.start requested holdMs)
    started.2.publishOrFail "moving" (startCode started.1) "릴레이 이동 deadline을 적용했습니다."

/-- `handleControl(payload, length)`. -/
def handleControl (payload : Bytes) (w : World P) : World P :=
  match parseControl P.deserializeJson payload maxControlPayloadBytes {} with
  | .error (parseError, _) => w.reject (Error.report parseError).1 (Error.report parseError).2
  | .ok command =>
      match command.type with
      | .stop =>
          (w.relayCall .stop).2.publishOrFail "stopped" "command"
            "명시적 정지 명령을 실행했습니다."
      | .up => w.handleMotion .up command.holdMs
      | .down => w.handleMotion .down command.holdMs

/-- `handleMessage(topic, payload, length)`. -/
def handleMessage (topic payload : Bytes) (w : World P) : World P :=
  if cString topic = literal mqttHeightTopic then w.handleHeight payload
  else if cString topic = literal mqttControlTopic then w.handleControl payload
  else w

/-! ## Periodic work -/

/-- The session behind an expired lease. -/
def dropLease (w : World P) : World P :=
  { w with session := { w.session with armed := false, hasDistinctHeight := false } }

/-- `tick(now)`. -/
def tick (now : UInt32) (w : World P) : World P :=
  let w := w.updateArming now
  if w.session.armed ∧ elapsed now w.session.lastDistinctHeightAt heightLeaseMs then
    let stopped := w.relayCall .stop
    let w := stopped.2.dropLease
    if stopped.1 then
      w.publishOrFail "stopped" "height_stale" "높이 lease가 만료되어 릴레이를 정지했습니다."
    else w
  else w

/-- `publishHeartbeat(now)`. -/
def publishHeartbeat (now : UInt32) (w : World P) : Bool × World P :=
  w.publishStatus "heartbeat" (if w.isReady now then "ready" else "height_waiting")
    (if w.isReady now then "릴레이 제어기가 준비되었습니다." else "새 높이 측정을 기다리고 있습니다.")

/-- `handleTimeoutEvent()`. -/
def handleTimeoutEvent (w : World P) : World P :=
  w.publishIfConnected "stopped" "timeout" "이동 deadline이 끝나 hardware timer가 정지했습니다."

end World

/-! ## Sequences of calls -/

/-- A call of a public method of the handler or of the relay. -/
inductive HandlerCall where
  | beginSession (now : UInt32)
  | invalidateSession
  | handleMessage (topic payload : Bytes)
  | tick (now : UInt32)
  | publishStatus (event code detail : String)
  | publishHeartbeat (now : UInt32)
  | handleTimeoutEvent
  | failClosed
  | relayStop
  | takeTimeoutEvent
  | idle

/-- Make one call. -/
def HandlerCall.run {P : Platform} (w : World P) : HandlerCall → World P
  | .beginSession now => w.beginSession now
  | .invalidateSession => w.invalidateSession
  | .handleMessage topic payload => w.handleMessage topic payload
  | .tick now => w.tick now
  | .publishStatus event code detail => (w.publishStatus event code detail).2
  | .publishHeartbeat now => (w.publishHeartbeat now).2
  | .handleTimeoutEvent => w.handleTimeoutEvent
  | .failClosed => w.failClosed
  | .relayStop => (w.relayCall .stop).2
  | .takeTimeoutEvent => (w.relayCall .takeTimeoutEvent).2
  | .idle => (w.relayCall .idle).2

/-- Make a sequence of calls. -/
def runCalls {P : Platform} (w : World P) (calls : List HandlerCall) : World P :=
  calls.foldl HandlerCall.run w

/-- The firmware before its first call, in an environment. -/
def World.boot {P : Platform} (env : ℕ → Reading P) (mqtt : P.Client) : World P :=
  { env := env, pos := 0, relay := Relay.boot, history := [], mqtt := mqtt, statuses := []
    session :=
      { hasBaseline := false, hasDistinctHeight := false, armed := false
        baselineObservedAt := [], lastObservedAt := [], lastHeightCm := .nan
        sessionStartedAt := 0, lastDistinctHeightAt := 0 }
    lastWifiAttempt := 0, lastMqttAttempt := 0, lastHeartbeat := 0
    wifiWasConnected := false, mqttWasConnected := false, lastWifiStatus := -1
    publishFailed := false, begunSinceFailure := false }

end SmartDesk.Firmware
