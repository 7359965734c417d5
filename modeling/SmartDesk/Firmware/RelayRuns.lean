import SmartDesk.Firmware.Loop
import SmartDesk.Firmware.RelaySafety

/-!
# The outputs over whole runs

Whatever the handler does, it reaches the outputs only through the calls that
its history records, so the invariants of the relay controller hold at every
point of every run.

* `Traced` — the relay is the replay of the recorded calls.
* `traced_runCalls`, `traced_afterLoops` — **every sequence of handler calls, and
  every number of iterations of the main loop, keeps this.**
* `never_longer_than_hold` — levels, deadline and timeout flag at every point
  outside the relay methods, and the bound of 500 ms.
* `break_before_make` — the outputs are never on together, and the break of 30 ms
  is kept as long as every start finds it.
-/

namespace SmartDesk.Firmware

variable {P : Platform}

/-- The relay is what the recorded calls make of it, and all of them are legal. -/
structure Traced (w : World P) : Prop where
  relay : w.relay = replay Relay.boot w.history
  legal : ∀ call ∈ w.history, call.op.Legal

/-! ## Every method keeps the trace -/

namespace Traced

variable {w : World P}

/-- Only the relay and the history count. -/
theorem of_eq {w' : World P} (h : Traced w) (hrelay : w'.relay = w.relay)
    (hhistory : w'.history = w.history) : Traced w' :=
  ⟨hrelay ▸ hhistory ▸ h.relay, hhistory ▸ h.legal⟩

theorem relayCall (h : Traced w) {op : RelayOp} (hop : op.Legal) :
    Traced (w.relayCall op).2 := by
  refine ⟨?_, ?_⟩
  · show (op.run w.reading.preempt w.relay).2 = replay Relay.boot (w.history ++ [_])
    rw [h.relay, replay, replay, List.foldl_append]
    rfl
  · intro call hcall
    rcases List.mem_append.mp hcall with hold | hnew
    · exact h.legal call hold
    · rw [List.mem_singleton.mp hnew]
      exact hop

theorem relayStop (h : Traced w) : Traced (w.relayCall .stop).2 := h.relayCall trivial

theorem relayDirection (h : Traced w) : Traced (w.relayCall .direction).2 := h.relayCall trivial

theorem mqttConnected (h : Traced w) : Traced w.mqttConnected.2 := ⟨h.relay, h.legal⟩

theorem invalidateSession (h : Traced w) : Traced w.invalidateSession :=
  ⟨h.relayStop.relay, h.relayStop.legal⟩

theorem beginSession (h : Traced w) (now : UInt32) : Traced (w.beginSession now) :=
  ⟨h.relayStop.relay, h.relayStop.legal⟩

theorem failClosed (h : Traced w) : Traced w.failClosed := by
  have hoff := h.relayStop.invalidateSession.mqttConnected
  unfold World.failClosed
  dsimp only
  split_ifs
  · exact ⟨hoff.relay, hoff.legal⟩
  · exact hoff

theorem publishStatus (h : Traced w) (event code detail : String) :
    Traced (w.publishStatus event code detail).2 := by
  have hread := h.mqttConnected.relayDirection
  unfold World.publishStatus
  dsimp only
  split_ifs
  · exact ⟨hread.relay, hread.legal⟩
  · exact ⟨hread.relay, hread.legal⟩
  · exact ⟨hread.relay, hread.legal⟩
  · exact ⟨h.relay, h.legal⟩

theorem publishOrFail (h : Traced w) (event code detail : String) :
    Traced (w.publishOrFail event code detail) := by
  have hsent := h.publishStatus event code detail
  unfold World.publishOrFail
  dsimp only
  split_ifs
  · exact hsent
  · exact hsent.failClosed

theorem publishIfConnected (h : Traced w) (event code detail : String) :
    Traced (w.publishIfConnected event code detail) := by
  unfold World.publishIfConnected
  dsimp only
  split_ifs
  · exact h.mqttConnected.publishOrFail event code detail
  · exact h.mqttConnected

theorem reject (h : Traced w) (code detail : String) : Traced (w.reject code detail) :=
  h.relayStop.publishOrFail _ _ _

theorem stopAndPublish (h : Traced w) (code detail : String) :
    Traced (w.stopAndPublish code detail) :=
  h.relayStop.publishOrFail _ _ _

theorem withSession (h : Traced w) (session : Session) : Traced { w with session := session } :=
  ⟨h.relay, h.legal⟩

theorem updateArming (h : Traced w) (now : UInt32) : Traced (w.updateArming now) := by
  unfold World.updateArming
  split_ifs
  · exact h
  · exact h
  · exact (h.withSession _).publishIfConnected _ _ _
  · exact h

theorem rejectHeight (h : Traced w) : Traced w.rejectHeight := by
  have hoff := h.relayStop.invalidateSession
  unfold World.rejectHeight
  dsimp only
  split_ifs
  · exact hoff.publishOrFail _ _ _
  · exact hoff
  · exact hoff.mqttConnected.publishOrFail _ _ _
  · exact hoff.mqttConnected

theorem stopAtLimit (h : Traced w) (height : Ieee) : Traced (w.stopAtLimit height) := by
  have hrising := h.relayDirection
  have hfalling := hrising.relayDirection
  unfold World.stopAtLimit
  dsimp only
  split_ifs
  · exact hrising.stopAndPublish _ _
  · exact hfalling.stopAndPublish _ _
  · exact hfalling

theorem millis (h : Traced w) : Traced w.millis.2 := ⟨h.relay, h.legal⟩

theorem handleHeight (h : Traced w) (payload : Bytes) : Traced (w.handleHeight payload) := by
  unfold World.handleHeight
  split
  · exact h.rejectHeight
  · dsimp only
    split_ifs
    · exact h.millis
    · exact ((h.millis.withSession _).updateArming _).stopAtLimit _
    · exact h.millis.withSession _

theorem handleMotion (h : Traced w) {requested : RelayDirection} {holdMs : ℕ}
    (hop : (RelayOp.start requested holdMs).Legal) : Traced (w.handleMotion requested holdMs) := by
  unfold World.handleMotion
  dsimp only
  split_ifs
  · exact (h.millis.relayCall hop).publishOrFail _ _ _
  all_goals exact h.millis.reject _ _

theorem handleControl (h : Traced w) (payload : Bytes) : Traced (w.handleControl payload) := by
  unfold World.handleControl
  split
  · exact h.reject _ _
  · rename_i command hparse
    have hhold := holdMs_of_parseControl _ hparse
    split
    · exact h.relayStop.publishOrFail _ _ _
    · rename_i htype
      exact h.handleMotion ⟨by decide, hhold.resolve_left (by simp [htype])⟩
    · rename_i htype
      exact h.handleMotion ⟨by decide, hhold.resolve_left (by simp [htype])⟩

theorem handleMessage (h : Traced w) (topic payload : Bytes) :
    Traced (w.handleMessage topic payload) := by
  unfold World.handleMessage
  split_ifs
  · exact h.handleHeight payload
  · exact h.handleControl payload
  · exact h

theorem tick (h : Traced w) (now : UInt32) : Traced (w.tick now) := by
  have harmed := h.updateArming now
  have hoff := harmed.relayStop
  unfold World.tick
  dsimp only
  split_ifs
  · exact (hoff.withSession _).publishOrFail _ _ _
  · exact hoff.withSession _
  · exact harmed

theorem run (h : Traced w) (call : HandlerCall) : Traced (call.run w) := by
  cases call with
  | beginSession now => exact h.beginSession now
  | invalidateSession => exact h.invalidateSession
  | handleMessage topic payload => exact h.handleMessage topic payload
  | tick now => exact h.tick now
  | publishStatus event code detail => exact h.publishStatus event code detail
  | publishHeartbeat now => exact h.publishStatus _ _ _
  | handleTimeoutEvent => exact h.publishIfConnected _ _ _
  | failClosed => exact h.failClosed
  | relayStop => exact h.relayCall trivial
  | takeTimeoutEvent => exact h.relayCall trivial
  | idle => exact h.relayCall trivial

end Traced

/-- **Every sequence of handler calls keeps the trace.** -/
theorem traced_runCalls {w : World P} (h : Traced w) (calls : List HandlerCall) :
    Traced (runCalls w calls) := by
  induction calls generalizing w with
  | nil => exact h
  | cons call calls ih => exact ih (h.run call)

theorem traced_boot (env : ℕ → Reading P) (mqtt : P.Client) : Traced (World.boot env mqtt) :=
  ⟨rfl, by simp [World.boot]⟩

namespace Traced

variable {w : World P}

theorem connectWifi (h : Traced w) (now : UInt32) : Traced (w.connectWifi now) := by
  have hread := h.relayDirection
  unfold World.connectWifi
  dsimp only
  split_ifs <;> exact ⟨hread.relay, hread.legal⟩

theorem openSession (h : Traced w) (now : UInt32) : Traced (w.openSession now) := by
  have hbegun := h.beginSession now
  have hheights : Traced ((w.beginSession now).mqttSubscribe mqttHeightTopic).2 :=
    ⟨hbegun.relay, hbegun.legal⟩
  have hcontrols : Traced
      ((w.beginSession now).mqttSubscribe mqttHeightTopic |>.2.mqttSubscribe mqttControlTopic).2 :=
    ⟨hbegun.relay, hbegun.legal⟩
  have hsent := hcontrols.publishStatus "online" "height_waiting"
    "현재 MQTT 세션의 새 높이를 기다리고 있습니다."
  unfold World.openSession
  dsimp only
  split_ifs
  · exact ⟨hsent.relay, hsent.legal⟩
  · exact hsent.failClosed
  · exact hcontrols.failClosed
  · exact hheights.failClosed

theorem connectMqtt (h : Traced w) (now : UInt32) : Traced (w.connectMqtt now) := by
  have hread := h.relayDirection
  unfold World.connectMqtt
  dsimp only
  split_ifs
  · exact hread
  · exact ⟨hread.relay, hread.legal⟩
  · exact ⟨hread.relay, hread.legal⟩
  · refine Traced.openSession ?_ now
    exact hread.of_eq rfl rfl
  · exact ⟨hread.relay, hread.legal⟩

theorem stopIfActive (h : Traced w) (was : Bool) : Traced (w.stopIfActive was) := by
  unfold World.stopIfActive
  dsimp only
  split_ifs
  · exact h.relayStop.invalidateSession
  · exact h.relayDirection.relayStop.invalidateSession
  · exact h.relayDirection

theorem rest (h : Traced w) : Traced w.rest := h.relayCall trivial

theorem mqttDeliver (h : Traced w) (burst : ℕ) : Traced (w.mqttDeliver burst) := by
  induction burst generalizing w with
  | zero => exact h
  | succ burst ih =>
    unfold World.mqttDeliver
    dsimp only
    split
    · exact ⟨h.relay, h.legal⟩
    · refine ih (Traced.handleMessage ?_ _ _)
      exact h.of_eq rfl rfl

theorem mqttLoop (h : Traced w) : Traced w.mqttLoop.2 := by
  have hadvance : Traced w.advance := ⟨h.relay, h.legal⟩
  have hdeliver := hadvance.mqttDeliver w.reading.burst
  exact ⟨hdeliver.relay, hdeliver.legal⟩

theorem loopWithoutWifi (h : Traced w) (now : UInt32) : Traced (w.loopWithoutWifi now) := by
  have hstop := h.stopIfActive w.wifiWasConnected
  refine (Traced.connectWifi ?_ now).rest
  dsimp only
  split_ifs <;> exact ⟨hstop.relay, hstop.legal⟩

theorem loopWithoutMqtt (h : Traced w) (now : UInt32) : Traced (w.loopWithoutMqtt now) := by
  have hstop := h.stopIfActive w.mqttWasConnected
  refine (Traced.connectMqtt ?_ now).rest
  exact hstop.of_eq rfl rfl

theorem loopFailed (h : Traced w) : Traced w.loopFailed := by
  have hstop := h.relayStop.invalidateSession
  refine Traced.rest ?_
  exact hstop.of_eq rfl rfl

theorem loopTick (h : Traced w) (now : UInt32) : Traced (w.loopTick now) := by
  have hup := (h.tick now).mqttConnected
  have hsent := hup.publishStatus "heartbeat"
    (if (w.tick now).mqttConnected.2.isReady now then "ready" else "height_waiting")
    (if (w.tick now).mqttConnected.2.isReady now then "릴레이 제어기가 준비되었습니다."
      else "새 높이 측정을 기다리고 있습니다.")
  unfold World.loopTick
  dsimp only
  split_ifs
  · refine Traced.rest ?_
    exact hsent.of_eq rfl rfl
  · refine Traced.rest ?_
    exact hsent.failClosed.of_eq rfl rfl
  · exact hup.rest

theorem loopConnected (h : Traced w) : Traced w.loopConnected.2 := by
  unfold World.loopConnected
  dsimp only
  split_ifs
  · exact h.mqttLoop.millis.loopTick _
  · exact h.mqttLoop.loopFailed

theorem loopOnline (h : Traced w) (now : UInt32) : Traced (w.loopOnline now).2 := by
  unfold World.loopOnline
  dsimp only
  split_ifs
  · exact h.mqttConnected.loopConnected
  · exact h.mqttConnected.loopWithoutMqtt now

theorem reportTimeout (h : Traced w) : Traced w.reportTimeout := by
  have hevent : Traced (w.relayCall .takeTimeoutEvent).2 := h.relayCall trivial
  unfold World.reportTimeout
  dsimp only
  split_ifs
  · exact hevent.publishIfConnected _ _ _
  · exact hevent

theorem loop (h : Traced w) : Traced w.loop.2 := by
  have hclear : Traced w.clearNotes := ⟨h.relay, h.legal⟩
  have hreport := hclear.millis.reportTimeout
  have hstatus : Traced (w.clearNotes.millis.2.reportTimeout.wifiStatus.2.setWifiStatus
      w.clearNotes.millis.2.reportTimeout.wifiStatus.1) := ⟨hreport.relay, hreport.legal⟩
  unfold World.loop
  dsimp only
  split_ifs
  · exact hstatus.loopWithoutWifi _
  · refine Traced.loopOnline ?_ _
    exact hstatus.of_eq rfl rfl

end Traced

/-- **Every number of iterations of the main loop keeps the trace**, so what
follows about traced worlds holds of the whole program. -/
theorem traced_afterLoops (env : ℕ → Reading P) (n : ℕ) :
    Traced ((World.setup env).afterLoops n) := by
  induction n with
  | zero => exact (traced_boot env P.initial).millis.connectWifi _
  | succ n ih =>
    rw [World.afterLoops, Function.iterate_succ_apply']
    exact Traced.loop ih

/-- The point of a run behind its first `n` relay calls and the time `p`. -/
def pointOf (w : World P) (n : ℕ) (p : Preemption) : Relay :=
  (replay Relay.boot (w.history.take n)).pass p

theorem sound_pointOf {w : World P} (h : Traced w) (n : ℕ) (p : Preemption) :
    Sound (lastHold (w.history.take n)) (pointOf w n p) :=
  (sound_replay fun call hcall => h.legal call (List.mem_of_mem_take hcall)).pass p

/-! ## Levels and deadline -/

theorem Traced.hold_bounds {w : World P} (h : Traced w) (n : ℕ) :
    lastHold (w.history.take n) = 0 ∨
      50 ≤ lastHold (w.history.take n) ∧ lastHold (w.history.take n) ≤ 500 :=
  lastHold_bounds fun call hcall => h.legal call (List.mem_of_mem_take hcall)

theorem Traced.moving_bounds {w : World P} (h : Traced w) {n : ℕ} {r : Relay}
    (hr : Sound (lastHold (w.history.take n)) r) (hmoving : r.direction ≠ .stop) :
    50 ≤ lastHold (w.history.take n) ∧ lastHold (w.history.take n) ≤ 500 ∧
      ∃ due, r.alarm = some due ∧ r.clock < due ∧
        due ≤ r.clock + lastHold (w.history.take n) * 1000 := by
  obtain ⟨due, hdue, hlt, hle⟩ := hr.deadline hmoving
  rcases h.hold_bounds n with hzero | ⟨hlow, hhigh⟩
  · rw [hzero] at hle
    exact absurd hle (by omega)
  · exact ⟨hlow, hhigh, due, hdue, hlt, hle⟩

theorem Traced.rest_after {w : World P} (h : Traced w) {n : ℕ} {r : Relay}
    (hr : Sound (lastHold (w.history.take n)) r) {later : List RelayCall}
    (hlater : ∀ call ∈ later, call.op.NotStart)
    (htime : r.clock + 500 * 1000 ≤ (replay r later).clock) (o : Output) :
    (replay r later).level o = false := by
  have hhold : lastHold (w.history.take n) ≤ 500 := by
    rcases h.hold_bounds n with hzero | ⟨_, hhigh⟩
    · rw [hzero]
      exact Nat.zero_le _
    · exact hhigh
  have hrest := hr.rest hlater
    (le_trans (Nat.add_le_add_left (Nat.mul_le_mul_right 1000 hhold) _) htime)
  rw [(hr.replay hlater).level, hrest]
  cases o <;> rfl

/-- **The deadline bounds every motion.**  At every point of every run outside
the relay methods the levels are those of the direction variable, a moving relay
has its one-shot timer armed for at most the hold of the last start, which is 50
to 500 ms, a pending timeout means that the relay is at rest, and 500 ms later,
whatever is called except a start, both outputs are off. -/
theorem never_longer_than_hold (env : ℕ → Reading P) (mqtt : P.Client)
    (calls : List HandlerCall) (n : ℕ) (p : Preemption) :
    let w := runCalls (World.boot env mqtt) calls
    let r := pointOf w n p
    (∀ o, r.level o = decide (o.direction = r.direction)) ∧
    (r.direction ≠ .stop → 50 ≤ lastHold (w.history.take n) ∧ lastHold (w.history.take n) ≤ 500 ∧
      ∃ due, r.alarm = some due ∧ r.clock < due ∧
        due ≤ r.clock + lastHold (w.history.take n) * 1000) ∧
    (r.timeoutPending = true → r.direction = .stop) ∧
    (∀ later : List RelayCall, (∀ call ∈ later, call.op.NotStart) →
      r.clock + 500 * 1000 ≤ (replay r later).clock →
      ∀ o, (replay r later).level o = false) := by
  intro w r
  have htraced : Traced w := traced_runCalls (traced_boot env mqtt) calls
  have hsound : Sound (lastHold (w.history.take n)) r := sound_pointOf htraced n p
  exact ⟨hsound.level, htraced.moving_bounds hsound, hsound.timeout,
    fun later hlater htime => htraced.rest_after hsound hlater htime⟩

/-- The relay after a run is the last of its points. -/
theorem relay_eq_pointOf {w : World P} (h : Traced w) (p : Preemption) :
    w.relay.pass p = pointOf w w.history.length p := by
  rw [pointOf, List.take_length, ← h.relay]

/-! ## Break before make -/

/-- **The outputs are never on together**, at any moment of any run. -/
theorem Traced.never_together {w : World P} (h : Traced w) : NeverTogether w.relay.log := by
  rw [h.relay]
  exact (sound_replay h.legal).recorded.together

/-- The main loop never has both outputs on. -/
theorem never_together_afterLoops (env : ℕ → Reading P) (n : ℕ) :
    NeverTogether ((World.setup env).afterLoops n).relay.log :=
  (traced_afterLoops env n).never_together

/-- **Break before make**, as far as the firmware keeps it: in a run in which
every start finds the relay still marked as moving, or the opposite output
switched off for 30 ms, these 30 ms lie between any two opposite changes. -/
theorem break_before_make (env : ℕ → Reading P) (mqtt : P.Client) (calls : List HandlerCall)
    (hsafe : Transition.Meets relayStep ReversesSafely Relay.boot
      (runCalls (World.boot env mqtt) calls).history) :
    NeverTogether (runCalls (World.boot env mqtt) calls).relay.log ∧
      BreakBeforeMake (runCalls (World.boot env mqtt) calls).relay.log := by
  have htraced := traced_runCalls (traced_boot env mqtt) calls
  refine ⟨htraced.never_together, ?_⟩
  rw [htraced.relay]
  exact breakBeforeMake_replay htraced.legal hsafe

/-- An environment with the link up, in which `gap` microseconds pass at every
step. -/
def steadyEnv (gap : ℕ) (_ : ℕ) : Reading flatPlatform :=
  { millis := 1000, wifiStatus := 3, net := ⟨true, true, none⟩
    preempt := fun _ => ⟨gap, false⟩, burst := 1 }

/-- A session that is armed, then UP, STOP and DOWN. -/
def upStopDown : List HandlerCall :=
  let height (second : String) := HandlerCall.handleMessage (literal mqttHeightTopic)
    (literal ("\x7b\"schema\":\"smartdesk.height.v1\",\"observed_at\":\"2026-01-01T00:00:0" ++
      second ++ "Z\",\"height_cm\":90.0\x7d"))
  let motion (command : String) := HandlerCall.handleMessage (literal mqttControlTopic)
    (literal ("\x7b\"command\":\"" ++ command ++
      "\",\"source\":\"desk_service\",\"hold_ms\":500\x7d"))
  [.beginSession 0, height "0", height "1", motion "UP",
    .handleMessage (literal mqttControlTopic) (literal "\x7b\"command\":\"STOP\"\x7d"),
    motion "DOWN"]

/-- With 30 ms between the steps the same commands keep the break. -/
theorem break_before_make_slow :
    BreakBeforeMake (runCalls (World.boot (P := flatPlatform) (steadyEnv 30000) true)
      upStopDown).relay.log := by
  refine (break_before_make (P := flatPlatform) (steadyEnv 30000) true upStopDown ?_).2
  decide +kernel

/-- With 10 µs between the steps the commands UP, STOP, DOWN have no break. -/
theorem no_break_after_stop :
    ¬ ∀ (env : ℕ → Reading flatPlatform) (calls : List HandlerCall),
      BreakBeforeMake (runCalls (World.boot (P := flatPlatform) env true) calls).relay.log := by
  intro h
  have hfast := h (steadyEnv 10) upStopDown
  revert hfast
  decide +kernel

end SmartDesk.Firmware
