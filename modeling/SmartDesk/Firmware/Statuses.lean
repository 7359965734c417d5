import SmartDesk.Firmware.LoopSafety
import SmartDesk.Lib.PyText

/-!
# What the firmware says

Every status message is written in one of two dozen places, with texts of its own.

* `Tidy`, `Announced` — what all of these messages have in common: `stopped` and `rejected` come
  with the state `STOP`.
* `Halted` — an interrupt that was not reported yet has switched the relay off.
* `Says` — what a method adds to the messages; the `says_` lemmas go through the methods.
* `announced_of_loops` — **every message of every run is one of these.**
-/

namespace SmartDesk.Firmware

open PyText

variable {P : Platform} {w w' w'' : World P}

/-! ## Messages -/

/-- A text that JSON writes as it is, and that `strip` leaves alone. -/
structure Tidy (text : String) : Prop where
  plain : FlatJson.PlainString text.toList
  strip : stripWhere isSpace text.toList = text.toList
  nonempty : text.toList ≠ []

/-- `Tidy`, computed. -/
def tidy (text : String) : Bool :=
  text.toList.all (fun c => c ≠ '"' ∧ c ≠ '\\' ∧ 32 ≤ c.toNat) &&
    stripWhere isSpace text.toList == text.toList && text.toList != []

theorem tidy_iff {text : String} : tidy text = true ↔ Tidy text := by
  simp only [tidy, Bool.and_eq_true, List.all_eq_true, decide_eq_true_eq, beq_iff_eq, bne_iff_ne]
  exact ⟨fun ⟨⟨h, h'⟩, h''⟩ => ⟨h, h', h''⟩, fun h => ⟨⟨h.plain, h.strip⟩, h.nonempty⟩⟩

/-- The events of a connected firmware. -/
def liveEvents : List String := ["online", "heartbeat", "moving", "stopped", "rejected"]

/-- The events that say that the relay was switched off. -/
def Halting (event : String) : Prop := event = "stopped" ∨ event = "rejected"

/-- What is said together, apart from the state. -/
structure Telling (event code detail : String) : Prop where
  event : event ∈ liveEvents
  code : Tidy code
  detail : Tidy detail

/-- `Telling`, computed. -/
def tells (event code detail : String) : Bool :=
  liveEvents.contains event && tidy code && tidy detail

theorem telling {event code detail : String} (h : tells event code detail = true) :
    Telling event code detail := by
  simp only [tells, Bool.and_eq_true, List.contains_iff_mem] at h
  exact ⟨h.1.1, tidy_iff.mp h.1.2, tidy_iff.mp h.2⟩

/-- What all messages have in common. -/
structure Announced (s : Status) : Prop extends Telling s.event s.code s.detail where
  state : ∃ d : RelayDirection, s.state = d.name
  halting : Halting s.event → s.state = "STOP"
  firmware : s.firmware = firmwareVersion

/-! ## The relay -/

/-- An interrupt that was not reported has switched the relay off. -/
def Relay.Halted (r : Relay) : Prop := r.timeoutPending = true → r.direction = .stop

theorem Relay.Halted.pass {r : Relay} (h : r.Halted) (p : Preemption) : (r.pass p).Halted := by
  unfold Relay.pass
  split
  · exact h
  · split_ifs
    · exact fun _ => rfl
    · exact fun _ => rfl
    · exact h

theorem Relay.halted_switchOn (r : Relay) (requested : RelayDirection) :
    (r.switchOn requested).Halted := fun h => by cases h

theorem Relay.Halted.armTimer {r : Relay} (h : r.Halted) (holdMs : ℕ) :
    (r.armTimer holdMs).Halted := h

theorem Relay.Halted.start {r : Relay} (h : r.Halted) (requested : RelayDirection) (holdMs : ℕ)
    (p : ℕ → Preemption) : (r.start requested holdMs p).2.Halted := by
  have hdisarmed : r.disarmTimer.Halted := h
  have hread := (hdisarmed.pass (p 1)).pass (p 2)
  unfold Relay.start
  dsimp only
  split
  · exact (hread.armTimer holdMs).pass (p 3)
  · exact (((Relay.halted_switchOn _ requested).pass (p 5)).armTimer holdMs).pass (p 6)

theorem Relay.Halted.run {r : Relay} (h : r.Halted) (op : RelayOp) (p : ℕ → Preemption) :
    (op.run p r).2.Halted := by
  have hlater := h.pass (p 0)
  cases op with
  | start requested holdMs => exact hlater.start requested holdMs p
  | stop => exact fun _ => rfl
  | direction => exact hlater
  | takeTimeoutEvent => exact fun h => by cases h
  | idle => exact hlater

/-! ## What a method says -/

/-- The same, of the relay of the firmware. -/
def Halted (w : World P) : Prop := w.relay.Halted

/-- What a method adds to the messages. -/
def Says (w w' : World P) : Prop :=
  Halted w → Halted w' ∧ ∀ s ∈ w'.statuses, s ∈ w.statuses ∨ Announced s

namespace Says

theorem refl (w : World P) : Says w w := fun h => ⟨h, fun _ hs => .inl hs⟩

theorem trans (h : Says w w') (h' : Says w' w'') : Says w w'' := by
  intro hw
  obtain ⟨hw', hsaid⟩ := h hw
  obtain ⟨hw'', hsaid'⟩ := h' hw'
  exact ⟨hw'', fun s hs => (hsaid' s hs).elim (hsaid s) .inr⟩

/-- A change of other fields. -/
theorem of_eq (hrelay : w'.relay = w.relay) (hstatuses : w'.statuses = w.statuses) :
    Says w w' := by
  intro hw
  refine ⟨?_, fun s hs => .inl (hstatuses ▸ hs)⟩
  unfold Halted
  rw [hrelay]
  exact hw

theorem relayCall (w : World P) (op : RelayOp) : Says w (w.relayCall op).2 :=
  fun hw => ⟨Relay.Halted.run hw op w.reading.preempt, fun _ hs => .inl hs⟩

theorem mqttConnected (w : World P) : Says w w.mqttConnected.2 := of_eq rfl rfl

theorem mqttDisconnect (w : World P) : Says w w.mqttDisconnect := of_eq rfl rfl

theorem mqttSubscribe (w : World P) (topic : String) : Says w (w.mqttSubscribe topic).2 :=
  of_eq rfl rfl

theorem wifiStatus (w : World P) : Says w w.wifiStatus.2 := of_eq rfl rfl

theorem millis (w : World P) : Says w w.millis.2 := of_eq rfl rfl

theorem beginSession (w : World P) (now : UInt32) : Says w (w.beginSession now) :=
  (relayCall w .stop).trans (of_eq rfl rfl)

theorem invalidateSession (w : World P) : Says w w.invalidateSession :=
  (relayCall w .stop).trans (of_eq rfl rfl)

theorem failClosed (w : World P) : Says w w.failClosed := by
  have hstopped := (relayCall w .stop).trans (invalidateSession _)
  unfold World.failClosed
  dsimp only
  split
  · exact (hstopped.trans (mqttConnected _)).trans (mqttDisconnect _)
  · exact hstopped.trans (mqttConnected _)

end Says

/-! ## Publishing -/

/-- **The state of a message is the direction of the relay**, and a relay that is off stays off. -/
theorem says_publishStatus {event code detail : String} (htelling : Telling event code detail)
    (hhalting : Halting event → w.relay.direction = .stop) :
    Says w (w.publishStatus event code detail).2 := by
  have hread := (Says.mqttConnected w).trans (Says.relayCall _ .direction)
  have hstate : Halting event → (w.mqttConnected.2.relayCall .direction).1.name = "STOP" := by
    intro h
    have hstop := (Settles.relayDirection w.mqttConnected.2).direction_stop (hhalting h)
    rw [show (w.mqttConnected.2.relayCall .direction).1 = .stop from hstop]
    rfl
  unfold World.publishStatus
  dsimp only
  split_ifs
  · exact hread.trans (.of_eq rfl rfl)
  · refine hread.trans fun hw => ⟨hw, fun s hs => ?_⟩
    rcases List.mem_append.mp hs with hold | hnew
    · exact .inl hold
    · rw [List.mem_singleton.mp hnew]
      exact .inr ⟨htelling, ⟨_, rfl⟩, hstate, rfl⟩
  · exact hread.trans (.of_eq rfl rfl)
  · exact (Says.mqttConnected w).trans (.of_eq rfl rfl)

theorem says_publishOrFail {event code detail : String} (htelling : Telling event code detail)
    (hhalting : Halting event → w.relay.direction = .stop) :
    Says w (w.publishOrFail event code detail) := by
  have hsent := says_publishStatus htelling hhalting
  unfold World.publishOrFail
  dsimp only
  split
  · exact hsent
  · exact hsent.trans (Says.failClosed _)

theorem says_publishIfConnected {event code detail : String} (htelling : Telling event code detail)
    (hhalting : Halting event → w.relay.direction = .stop) :
    Says w (w.publishIfConnected event code detail) := by
  unfold World.publishIfConnected
  dsimp only
  split
  · exact (Says.mqttConnected w).trans (says_publishOrFail htelling hhalting)
  · exact Says.mqttConnected w

theorem says_reject {code detail : String} (htelling : Telling "rejected" code detail) :
    Says w (w.reject code detail) :=
  (Says.relayCall w .stop).trans (says_publishOrFail htelling fun _ => rfl)

theorem says_stopAndPublish {code detail : String} (htelling : Telling "stopped" code detail) :
    Says w (w.stopAndPublish code detail) :=
  (Says.relayCall w .stop).trans (says_publishOrFail htelling fun _ => rfl)

theorem not_halting {event : String} (h : event ∈ ["online", "heartbeat", "moving"]) :
    Halting event → w.relay.direction = .stop := by
  rintro (rfl | rfl)
  · exact absurd h (by decide)
  · exact absurd h (by decide)

/-! ## Heights -/

theorem says_rejectHeight (w : World P) : Says w w.rejectHeight := by
  have hoff := (Says.relayCall w .stop).trans (Says.invalidateSession _)
  unfold World.rejectHeight
  dsimp only
  split_ifs
  · exact hoff.trans (says_publishOrFail (telling (by decide)) fun _ => rfl)
  · exact hoff
  · exact hoff.trans ((Says.mqttConnected _).trans
      (says_publishOrFail (telling (by decide)) fun _ => rfl))
  · exact hoff.trans (Says.mqttConnected _)

theorem says_updateArming (now : UInt32) (w : World P) : Says w (w.updateArming now) := by
  unfold World.updateArming
  split_ifs
  · exact Says.refl w
  · exact Says.refl w
  · refine .trans ?_ (says_publishIfConnected (telling (by decide)) (not_halting (by decide)))
    exact .of_eq rfl rfl
  · exact Says.refl w

theorem says_stopAtLimit (height : Ieee) (w : World P) : Says w (w.stopAtLimit height) := by
  have hrising := Says.relayCall w .direction
  have hfalling := hrising.trans (Says.relayCall _ .direction)
  unfold World.stopAtLimit
  dsimp only
  split_ifs
  · exact hrising.trans (says_stopAndPublish (telling (by decide)))
  · exact hfalling.trans (says_stopAndPublish (telling (by decide)))
  · exact hfalling

theorem says_handleHeight (payload : Bytes) (w : World P) : Says w (w.handleHeight payload) := by
  unfold World.handleHeight
  split
  · exact says_rejectHeight w
  · next observation _ =>
    dsimp only
    split_ifs
    · exact Says.millis w
    · refine (Says.millis w).trans (.trans ?_
        ((says_updateArming _ _).trans (says_stopAtLimit _ _)))
      exact .of_eq rfl rfl
    · exact (Says.millis w).trans (.of_eq rfl rfl)

/-! ## Commands -/

theorem telling_report (e : Error) :
    Telling "rejected" (World.Error.report e).1 (World.Error.report e).2 := by
  cases e <;> exact telling (by decide)

theorem telling_start (r : RelayStartResult) :
    Telling "moving" (World.startCode r) "릴레이 이동 deadline을 적용했습니다." := by
  cases r <;> exact telling (by decide)

theorem says_handleMotion (requested : RelayDirection) (holdMs : ℕ) (w : World P) :
    Says w (w.handleMotion requested holdMs) := by
  unfold World.handleMotion
  dsimp only
  split
  · exact (Says.millis w).trans (says_reject (telling (by decide)))
  · split
    · refine (Says.millis w).trans (says_reject ?_)
      split_ifs
      · exact telling (by decide)
      · exact telling (by decide)
    · exact (Says.millis w).trans ((Says.relayCall _ _).trans
        (says_publishOrFail (telling_start _) (not_halting (by decide))))

theorem says_handleControl (payload : Bytes) (w : World P) :
    Says w (w.handleControl payload) := by
  unfold World.handleControl
  split
  · next parseError _ _ => exact says_reject (telling_report parseError)
  · split
    · exact (Says.relayCall w .stop).trans (says_publishOrFail (telling (by decide)) fun _ => rfl)
    · exact says_handleMotion _ _ w
    · exact says_handleMotion _ _ w

theorem says_handleMessage (topic payload : Bytes) (w : World P) :
    Says w (w.handleMessage topic payload) := by
  unfold World.handleMessage
  split_ifs
  · exact says_handleHeight payload w
  · exact says_handleControl payload w
  · exact Says.refl w

/-! ## The loop -/

theorem says_tick (now : UInt32) (w : World P) : Says w (w.tick now) := by
  have harming := says_updateArming now w
  unfold World.tick
  dsimp only
  split_ifs
  · refine (harming.trans (Says.relayCall _ .stop)).trans
      (.trans ?_ (says_publishOrFail (telling (by decide)) fun _ => rfl))
    exact .of_eq rfl rfl
  · exact (harming.trans (Says.relayCall _ .stop)).trans (.of_eq rfl rfl)
  · exact harming

theorem says_publishHeartbeat (now : UInt32) (w : World P) :
    Says w (w.publishHeartbeat now).2 := by
  refine says_publishStatus ?_ (not_halting (by decide))
  split_ifs
  · exact telling (by decide)
  · exact telling (by decide)

theorem says_mqttDeliver (burst : ℕ) (w : World P) : Says w (w.mqttDeliver burst) := by
  induction burst generalizing w with
  | zero => exact Says.refl w
  | succ burst ih =>
    rw [World.mqttDeliver]
    dsimp only
    split
    · exact .of_eq rfl rfl
    · next message _ =>
      refine .trans ?_ ((says_handleMessage message.1 message.2 _).trans (ih _))
      exact .of_eq rfl rfl

theorem says_mqttLoop (w : World P) : Says w w.mqttLoop.2 :=
  ((Says.of_eq rfl rfl).trans (says_mqttDeliver w.reading.burst w.advance)).trans (.of_eq rfl rfl)

theorem says_connectWifi (now : UInt32) (w : World P) : Says w (w.connectWifi now) := by
  have hdirection := Says.relayCall w .direction
  unfold World.connectWifi
  dsimp only
  split_ifs
  · exact hdirection.trans (.of_eq rfl rfl)
  · exact hdirection.trans (.of_eq rfl rfl)
  · exact hdirection

theorem says_openSession (now : UInt32) (w : World P) : Says w (w.openSession now) := by
  have hheights := (Says.beginSession w now).trans (Says.mqttSubscribe _ mqttHeightTopic)
  have hcontrols := hheights.trans (Says.mqttSubscribe _ mqttControlTopic)
  have hwaiting (w : World P) : Says w (w.publishStatus "online" "height_waiting"
      "현재 MQTT 세션의 새 높이를 기다리고 있습니다.").2 :=
    says_publishStatus (telling (by decide)) (not_halting (by decide))
  unfold World.openSession
  dsimp only
  split
  · exact hheights.trans (Says.failClosed _)
  · split
    · exact hcontrols.trans (Says.failClosed _)
    · split
      · exact hcontrols.trans ((hwaiting _).trans (Says.failClosed _))
      · refine hcontrols.trans ((hwaiting _).trans ?_)
        exact .of_eq rfl rfl

theorem says_connectMqtt (now : UInt32) (w : World P) : Says w (w.connectMqtt now) := by
  have hdirection := Says.relayCall w .direction
  have hstatus := hdirection.trans (Says.wifiStatus _)
  have hup := hstatus.trans (Says.mqttConnected _)
  unfold World.connectMqtt
  dsimp only
  split
  · exact hdirection
  · split
    · exact hstatus
    · split
      · exact hup
      · split
        · exact hup.trans (.of_eq rfl rfl)
        · refine hup.trans (.trans ?_ (says_openSession now _))
          exact .of_eq rfl rfl

theorem says_stopIfActive (was : Bool) (w : World P) : Says w (w.stopIfActive was) := by
  have hdirection := Says.relayCall w .direction
  unfold World.stopIfActive
  dsimp only
  split
  · exact (Says.relayCall w .stop).trans (Says.invalidateSession _)
  · split
    · exact hdirection.trans ((Says.relayCall _ .stop).trans (Says.invalidateSession _))
    · exact hdirection

theorem says_loopWithoutWifi (now : UInt32) (w : World P) : Says w (w.loopWithoutWifi now) := by
  unfold World.loopWithoutWifi
  dsimp only
  refine .trans (.trans (says_stopIfActive w.wifiWasConnected w) ?_)
    ((says_connectWifi now _).trans (Says.relayCall _ .idle))
  split
  · exact .of_eq rfl rfl
  · exact .of_eq rfl rfl

theorem says_loopWithoutMqtt (now : UInt32) (w : World P) : Says w (w.loopWithoutMqtt now) := by
  unfold World.loopWithoutMqtt
  dsimp only
  refine .trans (.trans (says_stopIfActive w.mqttWasConnected w) ?_)
    ((says_connectMqtt now _).trans (Says.relayCall _ .idle))
  exact .of_eq rfl rfl

theorem says_loopFailed (w : World P) : Says w w.loopFailed := by
  refine .trans ((Says.relayCall w .stop).trans (Says.invalidateSession _)) ?_
  refine .trans ?_ (Says.relayCall _ .idle)
  exact .of_eq rfl rfl

theorem says_loopTick (now : UInt32) (w : World P) : Says w (w.loopTick now) := by
  have htick := (says_tick now w).trans (Says.mqttConnected _)
  unfold World.loopTick
  dsimp only
  split
  · refine htick.trans (.trans (says_publishHeartbeat now _) ?_)
    split
    · refine .trans ?_ (Says.relayCall _ .idle)
      exact .of_eq rfl rfl
    · refine (Says.failClosed _).trans (.trans ?_ (Says.relayCall _ .idle))
      exact .of_eq rfl rfl
  · exact htick.trans (Says.relayCall _ .idle)

theorem says_loopConnected (w : World P) : Says w w.loopConnected.2 := by
  unfold World.loopConnected
  dsimp only
  split
  · exact (says_mqttLoop w).trans (says_loopFailed _)
  · exact (says_mqttLoop w).trans ((Says.millis _).trans (says_loopTick _ _))

theorem says_loopOnline (now : UInt32) (w : World P) : Says w (w.loopOnline now).2 := by
  unfold World.loopOnline
  dsimp only
  split
  · exact (Says.mqttConnected w).trans (says_loopWithoutMqtt now _)
  · exact (Says.mqttConnected w).trans (says_loopConnected _)

/-- A timeout is reported before anything can start again. -/
theorem says_reportTimeout (w : World P) : Says w w.reportTimeout := by
  intro hw
  have hlater : (w.relay.pass (w.reading.preempt 0)).Halted := hw.pass _
  unfold World.reportTimeout
  dsimp only
  split
  · next hpending =>
    have hstop : (w.relayCall .takeTimeoutEvent).2.relay.direction = .stop := hlater hpending
    exact ((Says.relayCall w .takeTimeoutEvent).trans
      (says_publishIfConnected (telling (by decide)) fun _ => hstop)) hw
  · exact Says.relayCall w .takeTimeoutEvent hw

theorem says_loop (w : World P) : Says w w.loop.2 := by
  have hread : Says w w.clearNotes.millis.2.reportTimeout.wifiStatus.2 := by
    refine .trans ?_ ((says_reportTimeout _).trans (Says.wifiStatus _))
    exact .of_eq rfl rfl
  unfold World.loop
  dsimp only
  split
  · refine hread.trans (.trans ?_ (says_loopWithoutWifi _ _))
    exact .of_eq rfl rfl
  · refine hread.trans (.trans ?_ (says_loopOnline _ _))
    exact .of_eq rfl rfl

theorem says_setup (env : ℕ → Reading P) : Says (World.boot env P.initial) (World.setup env) :=
  (Says.millis _).trans (says_connectWifi _ _)

theorem says_afterLoops (n : ℕ) (w : World P) : Says w (World.afterLoops n w) := by
  induction n generalizing w with
  | zero => exact Says.refl w
  | succ n ih => exact (says_loop w).trans (ih w.loop.2)

/-- **Every message of every run is announced.** -/
theorem announced_of_loops (env : ℕ → Reading P) (n : ℕ) :
    ∀ s ∈ (World.afterLoops n (World.setup env)).statuses, Announced s := by
  intro s hs
  have hboot : Halted (World.boot env P.initial) := fun h => by cases h
  have hsaid := ((says_setup env).trans (says_afterLoops n _)) hboot
  exact (hsaid.2 s hs).resolve_left (List.not_mem_nil)

end SmartDesk.Firmware
