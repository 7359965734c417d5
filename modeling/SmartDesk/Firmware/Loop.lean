import SmartDesk.Firmware.Handler

/-!
# The main loop

`firmware/relay-controller/src/main.cpp` without the bench build: `setup()`, the
two reconnect functions and `loop()` with its early returns.

* `connectWifi`, `connectMqtt`, `mqttLoop` — what `loop` calls.
* `LoopExit`, `loop` — one iteration, together with the place where it returned.
* `afterLoops` — the state after any number of iterations.
-/

namespace SmartDesk.Firmware

/-- `WL_CONNECTED`. -/
def wlConnected : ℤ := 3

/-- Where an iteration of `loop()` returned; at its end it has called `tick`. -/
inductive LoopExit where
  | wifiDown
  | mqttDown
  | loopFailed
  | ticked (controlNow : UInt32)
  deriving DecidableEq

namespace World

variable {P : Platform}

/-- `WiFi.status()`. -/
def wifiStatus (w : World P) : ℤ × World P := (w.reading.wifiStatus, w.advance)

/-- `mqtt.connect(…)`. -/
def mqttConnect (w : World P) : Bool × World P :=
  let result := P.connect w.reading.net w.mqtt
  (result.1, { w.advance with mqtt := result.2 })

/-- `mqtt.subscribe(topic, 1)`. -/
def mqttSubscribe (topic : String) (w : World P) : Bool × World P :=
  let result := P.subscribe w.reading.net (literal topic) w.mqtt
  (result.1, { w.advance with mqtt := result.2 })

/-- The messages of one `mqtt.loop()`, each handed to the callback. -/
def mqttDeliver : ℕ → World P → World P
  | 0, w => w
  | burst + 1, w =>
      let result := P.incoming w.reading.net w.mqtt
      let w := { w.advance with mqtt := result.2 }
      match result.1 with
      | none => w
      | some message => mqttDeliver burst (w.handleMessage message.1 message.2)

/-- `mqtt.loop()`. -/
def mqttLoop (w : World P) : Bool × World P :=
  let w := w.advance.mqttDeliver w.reading.burst
  let result := P.endLoop w.reading.net w.mqtt
  (result.1, { w.advance with mqtt := result.2 })

/-- `connectWifi(now)`. -/
def connectWifi (now : UInt32) (w : World P) : World P :=
  let direction := w.relayCall .direction
  if direction.1 ≠ .stop then direction.2
  else
    let status := direction.2.wifiStatus
    let w := status.2
    if status.1 = wlConnected ∨
        w.lastWifiAttempt ≠ 0 ∧ ¬ elapsed now w.lastWifiAttempt wifiRetryMs then w
    else { w with lastWifiAttempt := now }

/-- `connectMqtt(now)` behind a successful `connect`. -/
def openSession (now : UInt32) (w : World P) : World P :=
  let heights := (w.beginSession now).mqttSubscribe mqttHeightTopic
  if ¬ heights.1 then heights.2.failClosed
  else
    let controls := heights.2.mqttSubscribe mqttControlTopic
    if ¬ controls.1 then controls.2.failClosed
    else
      let sent := controls.2.publishStatus "online" "height_waiting"
        "현재 MQTT 세션의 새 높이를 기다리고 있습니다."
      if ¬ sent.1 then sent.2.failClosed
      else { sent.2 with mqttWasConnected := true, lastHeartbeat := now }

/-- `connectMqtt(now)`. -/
def connectMqtt (now : UInt32) (w : World P) : World P :=
  let direction := w.relayCall .direction
  if direction.1 ≠ .stop then direction.2
  else
    let status := direction.2.wifiStatus
    if status.1 ≠ wlConnected then status.2
    else
      let up := status.2.mqttConnected
      let w := up.2
      if up.1 = true ∨
          w.lastMqttAttempt ≠ 0 ∧ ¬ elapsed now w.lastMqttAttempt mqttRetryMs then w
      else
        let w := { w with lastMqttAttempt := now }
        let connection := w.mqttConnect
        if ¬ connection.1 then connection.2 else connection.2.openSession now

/-- `if (was || relay.direction() != Stop) { relay.stop(); control.invalidateSession(); }` -/
def stopIfActive (was : Bool) (w : World P) : World P :=
  if was then (w.relayCall .stop).2.invalidateSession
  else
    let direction := w.relayCall .direction
    if direction.1 ≠ .stop then (direction.2.relayCall .stop).2.invalidateSession
    else direction.2

/-- `delay(1)`. -/
def rest (w : World P) : World P := (w.relayCall .idle).2

/-- The branch of `loop()` for a lost Wi-Fi connection. -/
def loopWithoutWifi (now : UInt32) (w : World P) : World P :=
  let w := { w.stopIfActive w.wifiWasConnected with
    wifiWasConnected := false, mqttWasConnected := false }
  let up := w.mqttConnected
  let w := if up.1 then up.2.mqttDisconnect else up.2
  (w.connectWifi now).rest

/-- The branch of `loop()` for a lost MQTT connection. -/
def loopWithoutMqtt (now : UInt32) (w : World P) : World P :=
  let w := { w.stopIfActive w.mqttWasConnected with mqttWasConnected := false }
  (w.connectMqtt now).rest

/-- The branch of `loop()` for a failed `mqtt.loop()`. -/
def loopFailed (w : World P) : World P :=
  let w := (w.relayCall .stop).2.invalidateSession
  let w := { w.mqttDisconnect with mqttWasConnected := false }
  w.rest

/-- The end of `loop()`: `tick` and the heartbeat. -/
def loopTick (controlNow : UInt32) (w : World P) : World P :=
  let up := (w.tick controlNow).mqttConnected
  let w := up.2
  if up.1 = true ∧ elapsed controlNow w.lastHeartbeat statusHeartbeatMs then
    let sent := w.publishHeartbeat controlNow
    let w := if sent.1 then sent.2 else sent.2.failClosed
    let w := { w with lastHeartbeat := controlNow }
    w.rest
  else w.rest

/-- `loop()` from `mqtt.loop()` on. -/
def loopConnected (w : World P) : LoopExit × World P :=
  let alive := w.mqttLoop
  if ¬ alive.1 then (.loopFailed, alive.2.loopFailed)
  else
    let control := alive.2.millis
    (.ticked control.1, control.2.loopTick control.1)

/-- `loop()` with Wi-Fi up. -/
def loopOnline (now : UInt32) (w : World P) : LoopExit × World P :=
  let up := w.mqttConnected
  if ¬ up.1 then (.mqttDown, up.2.loopWithoutMqtt now) else up.2.loopConnected

/-- `if (relay.takeTimeoutEvent()) control.handleTimeoutEvent();` -/
def reportTimeout (w : World P) : World P :=
  let event := w.relayCall .takeTimeoutEvent
  if event.1 then event.2.handleTimeoutEvent else event.2

/-- `lastWifiStatus = wifiStatus` -/
def setWifiStatus (status : ℤ) (w : World P) : World P := { w with lastWifiStatus := status }

/-- `wifiWasConnected = true` -/
def setWifiConnected (w : World P) : World P := { w with wifiWasConnected := true }

/-- The two notes about failed publishes start afresh in every iteration. -/
def clearNotes (w : World P) : World P :=
  { w with publishFailed := false, begunSinceFailure := false }

/-- `loop()`. -/
def loop (w : World P) : LoopExit × World P :=
  let now := w.clearNotes.millis
  let status := now.2.reportTimeout.wifiStatus
  let w := status.2.setWifiStatus status.1
  if status.1 ≠ wlConnected then (.wifiDown, w.loopWithoutWifi now.1)
  else w.setWifiConnected.loopOnline now.1

/-- `setup()`, behind a successful `relay.begin()`. -/
def setup (env : ℕ → Reading P) : World P :=
  let now := (World.boot env P.initial).millis
  now.2.connectWifi now.1

/-- The state after `n` iterations of `loop()`. -/
def afterLoops (n : ℕ) (w : World P) : World P := (fun w => w.loop.2)^[n] w

end World

end SmartDesk.Firmware
