import SmartDesk.Firmware.Loop
import SmartDesk.Firmware.RelaySafety

/-!
# What holds at the end of every iteration

The session, the relay and the MQTT client change in a dozen methods, and a
failed publish ends any of them half-way with `failClosed`.

* `Idle`, `Offline` — the relay off with the session invalidated; a client that
  is not connected.
* `Safe` — the invariant that every method keeps: a moving relay has an armed
  session whose height allows the direction, and after a failed publish nothing
  is left running.
* `safe_handleHeight`, `safe_handleControl`, `safe_tick` — the handlers keep it.
* `Between` — what holds between two iterations.
* `loop_safe` — **the claim about every iteration of every run.**
-/

namespace SmartDesk.Firmware

variable {P : Platform}

/-- The relay is off and the session invalidated. -/
structure Idle (w : World P) : Prop where
  direction : w.relay.direction = .stop
  armed : w.session.armed = false
  hasBaseline : w.session.hasBaseline = false

/-- The client is not connected. -/
def Offline (w : World P) : Prop := P.state w.mqtt ≠ 0

/-- Nothing runs and nothing can arrive. -/
structure Quiet (w : World P) : Prop extends Idle w where
  offline : Offline w

/-- What the session and the relay owe each other. -/
structure Admitted (w : World P) : Prop where
  armed : w.session.armed = true → w.session.hasBaseline = true ∧ w.session.hasDistinctHeight = true
  measured : w.session.hasBaseline = true → measuredHeightAllowed w.session.lastHeightCm = true
  moving : w.relay.direction ≠ .stop →
    w.session.armed = true ∧ w.boundaryAllows w.relay.direction = true

/-- What holds between two iterations: as long as `main.cpp` remembers a lost
connection, nothing runs. -/
structure Between (w : World P) : Prop extends Admitted w where
  lost : w.wifiWasConnected = false ∨ w.mqttWasConnected = false → Quiet w

/-- The invariant of the handler: after a failed publish nothing runs either. -/
structure Safe (w : World P) : Prop extends Between w where
  failed : w.publishFailed = true → Quiet w

/-- The lease had not expired at `now`, as far as the relay moves. -/
def Fresh (now : UInt32) (w : World P) : Prop :=
  w.relay.direction ≠ .stop → elapsed now w.session.lastDistinctHeightAt heightLeaseMs = false

theorem Quiet.safe {w : World P} (h : Quiet w) : Safe w where
  armed := fun ha => absurd ha (by simp [h.armed])
  measured := fun hb => absurd hb (by simp [h.hasBaseline])
  moving := fun hm => absurd h.direction hm
  lost := fun _ => h
  failed := fun _ => h

/-! ## Calls out of the firmware -/

/-- What a call that starts nothing does: the relay may stop, the client may
disconnect, the rest stays. -/
structure Settles (w w' : World P) : Prop where
  direction : w'.relay.direction = w.relay.direction ∨ w'.relay.direction = .stop
  session : w'.session = w.session
  offline : Offline w → Offline w'
  failed : w'.publishFailed = w.publishFailed
  begun : w'.begunSinceFailure = w.begunSinceFailure
  wifi : w'.wifiWasConnected = w.wifiWasConnected
  mqtt : w'.mqttWasConnected = w.mqttWasConnected

namespace Settles

variable {w w' w'' : World P}

theorem refl (w : World P) : Settles w w := ⟨.inl rfl, rfl, id, rfl, rfl, rfl, rfl⟩

theorem trans (h : Settles w w') (h' : Settles w' w'') : Settles w w'' where
  direction := h'.direction.elim (fun hd => hd ▸ h.direction) .inr
  session := h'.session.trans h.session
  offline := fun ho => h'.offline (h.offline ho)
  failed := h'.failed.trans h.failed
  begun := h'.begun.trans h.begun
  wifi := h'.wifi.trans h.wifi
  mqtt := h'.mqtt.trans h.mqtt

theorem direction_stop (h : Settles w w') (hd : w.relay.direction = .stop) :
    w'.relay.direction = .stop := h.direction.elim (fun h => h.trans hd) id

theorem quiet (h : Settles w w') (hq : Quiet w) : Quiet w' :=
  { direction := h.direction_stop hq.direction
    armed := by rw [h.session, hq.armed]
    hasBaseline := by rw [h.session, hq.hasBaseline]
    offline := h.offline hq.offline }

theorem safe (h : Settles w w') (hs : Safe w) : Safe w' where
  armed := by rw [h.session]; exact hs.armed
  measured := by rw [h.session]; exact hs.measured
  moving := by
    intro hm
    rcases h.direction with hd | hd
    · rw [hd] at hm ⊢
      have hold := hs.moving hm
      unfold World.boundaryAllows at hold ⊢
      rw [h.session]
      exact hold
    · exact absurd hd hm
  lost := fun hl => h.quiet (hs.lost (by rwa [h.wifi, h.mqtt] at hl))
  failed := fun hf => h.quiet (hs.failed (h.failed ▸ hf))

theorem fresh (h : Settles w w') {now : UInt32} (hf : Fresh now w) : Fresh now w' := by
  intro hm
  rw [h.session]
  exact hf fun hd => hm (h.direction_stop hd)

theorem relayCall (w : World P) {op : RelayOp} (hop : op.NotStart) :
    Settles w (w.relayCall op).2 := by
  refine ⟨?_, rfl, id, rfl, rfl, rfl, rfl⟩
  rcases op.direction_run w.reading.preempt w.relay with hd | hd | ⟨d, holdMs, hstart, _⟩
  · exact .inr hd
  · exact .inl hd
  · exact absurd hstart (hop d holdMs)

theorem relayDirection (w : World P) : Settles w (w.relayCall .direction).2 :=
  relayCall w fun _ _ h => by cases h

theorem relayStop (w : World P) : Settles w (w.relayCall .stop).2 :=
  relayCall w fun _ _ h => by cases h

theorem rest (w : World P) : Settles w w.rest := relayCall w fun _ _ h => by cases h

theorem takeTimeoutEvent (w : World P) : Settles w (w.relayCall .takeTimeoutEvent).2 :=
  relayCall w fun _ _ h => by cases h

theorem millis (w : World P) : Settles w w.millis.2 := ⟨.inl rfl, rfl, id, rfl, rfl, rfl, rfl⟩

theorem advance (w : World P) : Settles w w.advance := ⟨.inl rfl, rfl, id, rfl, rfl, rfl, rfl⟩

theorem setWifiStatus (w : World P) (status : ℤ) :
    Settles w (w.setWifiStatus status) := ⟨.inl rfl, rfl, id, rfl, rfl, rfl, rfl⟩

theorem wifiStatus (w : World P) : Settles w w.wifiStatus.2 := ⟨.inl rfl, rfl, id, rfl, rfl, rfl, rfl⟩

theorem mqttConnected (hP : P.Documented) (w : World P) : Settles w w.mqttConnected.2 :=
  ⟨.inl rfl, rfl, hP.connected_keeps _ _, rfl, rfl, rfl, rfl⟩

/-- A publish that goes through settles. -/
theorem publishStatus (hP : P.Documented) (w : World P) (event code detail : String)
    (hsent : (w.publishStatus event code detail).1 = true) :
    Settles w (w.publishStatus event code detail).2 := by
  have hread := (mqttConnected hP w).trans (relayDirection _)
  unfold World.publishStatus at hsent ⊢
  dsimp only at hsent ⊢
  split_ifs at hsent ⊢
  exact ⟨hread.direction, hread.session, fun ho => hP.publish_keeps _ _ _ _ (hread.offline ho),
    hread.failed, hread.begun, hread.wifi, hread.mqtt⟩

end Settles

@[simp] theorem direction_relayStop (w : World P) :
    (w.relayCall .stop).2.relay.direction = .stop := rfl

/-! ## Failing closed -/

theorem idle_invalidateSession (w : World P) : Idle w.invalidateSession := ⟨rfl, rfl, rfl⟩

/-- **`failClosed` leaves nothing running**, from any state. -/
theorem quiet_failClosed (hP : P.Documented) (w : World P) : Quiet w.failClosed := by
  have hidle : Idle (w.relayCall .stop).2.invalidateSession := idle_invalidateSession _
  unfold World.failClosed
  dsimp only
  split_ifs with hup
  · exact { direction := hidle.direction, armed := hidle.armed, hasBaseline := hidle.hasBaseline
            offline := hP.disconnect_state _ }
  · exact { direction := hidle.direction, armed := hidle.armed, hasBaseline := hidle.hasBaseline
            offline := hP.connected_false _ _ (Bool.eq_false_of_not_eq_true hup) }

/-- What publishing with `failClosed` on failure does. -/
theorem settles_or_quiet_publishOrFail (hP : P.Documented) (w : World P)
    (event code detail : String) :
    Settles w (w.publishOrFail event code detail) ∨ Quiet (w.publishOrFail event code detail) := by
  unfold World.publishOrFail
  dsimp only
  split_ifs with hsent
  · exact .inl (Settles.publishStatus hP w _ _ _ hsent)
  · exact .inr (quiet_failClosed hP _)

theorem settles_or_quiet_publishIfConnected (hP : P.Documented) (w : World P)
    (event code detail : String) :
    Settles w (w.publishIfConnected event code detail) ∨
      Quiet (w.publishIfConnected event code detail) := by
  unfold World.publishIfConnected
  dsimp only
  split_ifs
  · exact (settles_or_quiet_publishOrFail hP _ _ _ _).imp_left (Settles.mqttConnected hP w).trans
  · exact .inl (Settles.mqttConnected hP w)

theorem Safe.settles_or_quiet {w w' : World P} (h : Safe w) (hw : Settles w w' ∨ Quiet w') :
    Safe w' := hw.elim (fun hs => hs.safe h) Quiet.safe

theorem Quiet.settles_or_quiet {w w' : World P} (h : Quiet w) (hw : Settles w w' ∨ Quiet w') :
    Quiet w' := hw.elim (fun hs => hs.quiet h) id

theorem direction_settles_or_quiet {w w' : World P} (hw : Settles w w' ∨ Quiet w')
    (hd : w.relay.direction = .stop) : w'.relay.direction = .stop :=
  hw.elim (fun hs => hs.direction_stop hd) fun hq => hq.direction

theorem Fresh.settles_or_quiet {now : UInt32} {w w' : World P} (h : Fresh now w)
    (hw : Settles w w' ∨ Quiet w') : Fresh now w' :=
  hw.elim (fun hs => hs.fresh h) fun hq hm => absurd hq.direction hm

theorem settles_or_quiet_reject (hP : P.Documented) (w : World P) (code detail : String) :
    Settles w (w.reject code detail) ∨ Quiet (w.reject code detail) :=
  (settles_or_quiet_publishOrFail hP _ _ _ _).imp_left (Settles.relayStop w).trans

theorem settles_or_quiet_stopAndPublish (hP : P.Documented) (w : World P) (code detail : String) :
    Settles w (w.stopAndPublish code detail) ∨ Quiet (w.stopAndPublish code detail) :=
  (settles_or_quiet_publishOrFail hP _ _ _ _).imp_left (Settles.relayStop w).trans

/-! ## Heights and commands -/

/-- No connection is lost and no publish has failed. -/
def Live (w : World P) : Prop :=
  w.wifiWasConnected = true ∧ w.mqttWasConnected = true ∧ w.publishFailed = false

theorem Settles.live {w w' : World P} (h : Settles w w') (hlive : Live w) : Live w' :=
  ⟨h.wifi.trans hlive.1, h.mqtt.trans hlive.2.1, h.failed.trans hlive.2.2⟩

/-- As long as something runs, nothing is lost. -/
theorem Safe.live {w : World P} (h : Safe w) (hq : ¬ Quiet w) : Live w := by
  refine ⟨?_, ?_, ?_⟩
  · by_contra hc
    exact hq (h.lost (.inl (Bool.eq_false_of_not_eq_true hc)))
  · by_contra hc
    exact hq (h.lost (.inr (Bool.eq_false_of_not_eq_true hc)))
  · by_contra hc
    exact hq (h.failed (Bool.eq_true_of_not_eq_false hc))

theorem not_quiet_of_hasBaseline {w : World P} (hb : w.session.hasBaseline = true) :
    ¬ Quiet w := fun hq => absurd hb (by simp [hq.hasBaseline])

/-- While no connection is lost the invariant is the agreement of session and
relay. -/
theorem Admitted.safe {w : World P} (h : Admitted w) (hlive : Live w) : Safe w := by
  obtain ⟨hwifi, hmqtt, hfailed⟩ := hlive
  refine { h with lost := ?_, failed := ?_ }
  · intro hl
    rcases hl with hl | hl
    · exact absurd (hwifi.symm.trans hl) (by decide)
    · exact absurd (hmqtt.symm.trans hl) (by decide)
  · intro hf
    exact absurd (hfailed.symm.trans hf) (by decide)

/-- Arming changes one field; then the session is reported or ended. -/
theorem updateArming_cases (hP : P.Documented) (now : UInt32) (w : World P) :
    w.updateArming now = w ∨
      w.session.hasBaseline = true ∧ w.session.hasDistinctHeight = true ∧
        (Settles { w with session := { w.session with armed := true } } (w.updateArming now) ∨
          Quiet (w.updateArming now)) := by
  unfold World.updateArming
  split_ifs with hskip harm hlease
  · exact .inl rfl
  · exact .inl rfl
  · push Not at hskip
    exact .inr ⟨by simpa using hskip.2.1, by simpa using hskip.2.2,
      settles_or_quiet_publishIfConnected hP _ _ _ _⟩
  · exact .inl rfl

/-- Arming keeps the invariant. -/
theorem Safe.updateArming (hP : P.Documented) {w : World P} (h : Safe w) (now : UInt32) :
    Safe (w.updateArming now) := by
  rcases updateArming_cases hP now w with heq | ⟨hb, hd, hw⟩
  · rw [heq]
    exact h
  · refine Safe.settles_or_quiet ?_ hw
    have harmed : Admitted { w with session := { w.session with armed := true } } :=
      { armed := fun _ => ⟨hb, hd⟩, measured := h.measured
        moving := fun hm => ⟨rfl, (h.moving hm).2⟩ }
    exact harmed.safe (h.live (not_quiet_of_hasBaseline hb))

theorem Quiet.updateArming (hP : P.Documented) {w : World P} (h : Quiet w) (now : UInt32) :
    Quiet (w.updateArming now) := by
  rcases updateArming_cases hP now w with heq | ⟨hb, _, _⟩
  · rw [heq]
    exact h
  · exact absurd hb (by simp [h.hasBaseline])

theorem safe_rejectHeight (hP : P.Documented) {w : World P} (h : Safe w) : Safe w.rejectHeight := by
  have hoff : Safe (w.relayCall .stop).2.invalidateSession := by
    have hstop := (Settles.relayStop w).safe h
    have hidle := idle_invalidateSession (w.relayCall .stop).2
    refine { armed := fun ha => absurd ha (by simp [hidle.armed])
             measured := fun hb => absurd hb (by simp [hidle.hasBaseline])
             moving := fun hm => absurd hidle.direction hm
             lost := fun hl => { hidle with offline := (hstop.lost hl).offline }
             failed := fun hf => { hidle with offline := (hstop.failed hf).offline } }
  unfold World.rejectHeight
  dsimp only
  split_ifs
  · exact hoff.settles_or_quiet (settles_or_quiet_publishOrFail hP _ _ _ _)
  · exact hoff
  · exact ((Settles.mqttConnected hP _).safe hoff).settles_or_quiet
      (settles_or_quiet_publishOrFail hP _ _ _ _)
  · exact (Settles.mqttConnected hP _).safe hoff

theorem safe_acceptBaseline {w : World P} (h : Safe w) (hlive : Live w)
    (hb : w.session.hasBaseline = false) {observation : Height}
    (hm : measuredHeightAllowed observation.heightCm = true) :
    Safe (w.acceptBaseline observation) := by
  have harmed : w.session.armed = false := by
    by_contra hc
    exact absurd (h.armed (Bool.eq_true_of_not_eq_false hc)).1 (by simp [hb])
  refine Admitted.safe ?_ hlive
  exact { armed := fun ha => absurd (harmed.symm.trans ha) (by decide)
          measured := fun _ => hm
          moving := fun hmove => absurd (harmed.symm.trans (h.moving hmove).1) (by decide) }

theorem settles_or_quiet_stopAtLimit (hP : P.Documented) (w : World P) (height : Ieee) :
    Settles w (w.stopAtLimit height) ∨ Quiet (w.stopAtLimit height) := by
  have hrising := Settles.relayDirection w
  have hfalling := hrising.trans (Settles.relayDirection _)
  unfold World.stopAtLimit
  dsimp only
  split_ifs
  · exact (settles_or_quiet_stopAndPublish hP _ _ _).imp_left hrising.trans
  · exact (settles_or_quiet_stopAndPublish hP _ _ _).imp_left hfalling.trans
  · exact .inl hfalling

/-- The stop at a control limit leaves no motion that the height forbids. -/
theorem boundary_stopAtLimit (hP : P.Documented) {w : World P} {height : Ieee}
    (hm : measuredHeightAllowed height = true) (hlast : w.session.lastHeightCm = height)
    (hmove : (w.stopAtLimit height).relay.direction ≠ .stop) :
    (w.stopAtLimit height).boundaryAllows (w.stopAtLimit height).relay.direction = true := by
  have hrising := Settles.relayDirection w
  have hfalling := Settles.relayDirection (w.relayCall .direction).2
  unfold World.stopAtLimit at hmove ⊢
  dsimp only at hmove ⊢
  split_ifs at hmove ⊢ with hup hdown
  · exact absurd (direction_settles_or_quiet (settles_or_quiet_publishOrFail hP _ _ _ _)
      (direction_relayStop _)) hmove
  · exact absurd (direction_settles_or_quiet (settles_or_quiet_publishOrFail hP _ _ _ _)
      (direction_relayStop _)) hmove
  · have hsession : (World.relayCall .direction (w.relayCall .direction).2).2.session.lastHeightCm
        = height := by
      rw [hfalling.session, hrising.session, hlast]
    have hkeep := hfalling.direction.resolve_right hmove
    unfold World.boundaryAllows
    rw [hsession]
    cases hd : (World.relayCall .direction (w.relayCall .direction).2).2.relay.direction with
    | stop => exact absurd hd hmove
    | up =>
      rw [hkeep] at hd
      exact (directionAllowed_up hm).mpr fun hle => hup ⟨hd, hle⟩
    | down => exact (directionAllowed_down hm).mpr fun hle => hdown ⟨hd, hle⟩

/-- A new height keeps the invariant: what it forbids is stopped. -/
theorem safe_acceptHeight (hP : P.Documented) {w : World P} (h : Safe w)
    (hb : w.session.hasBaseline = true) {observation : Height} (now : UInt32)
    (hm : measuredHeightAllowed observation.heightCm = true) :
    Safe (w.acceptHeight observation now) := by
  have hlive := h.live (not_quiet_of_hasBaseline hb)
  unfold World.acceptHeight
  dsimp only
  generalize hw₁ : ({ w with session := _ } : World P) = w₁
  by_cases hstop : w.relay.direction = .stop
  · have hsafe : Safe w₁ := by
      subst hw₁
      refine Admitted.safe ?_ hlive
      exact { armed := fun _ => ⟨hb, rfl⟩, measured := fun _ => hm
              moving := fun hmove => absurd hstop hmove }
    exact (hsafe.updateArming hP now).settles_or_quiet (settles_or_quiet_stopAtLimit hP _ _)
  · -- a moving relay is armed already, so `updateArming` does nothing
    have harmed := (h.moving hstop).1
    have hskip : w₁.updateArming now = w₁ := by
      subst hw₁
      exact if_pos (.inl harmed)
    rw [hskip]
    have hw := settles_or_quiet_stopAtLimit hP w₁ observation.heightCm
    have hboundary := boundary_stopAtLimit hP (w := w₁) hm (by subst hw₁; rfl)
    rcases hw with hs | hquiet
    · refine Admitted.safe ?_ ?_
      · subst hw₁
        exact { armed := fun _ => by rw [hs.session]; exact ⟨hb, rfl⟩
                measured := fun _ => by rw [hs.session]; exact hm
                moving := fun hmove => ⟨by rw [hs.session]; exact harmed, hboundary hmove⟩ }
      · subst hw₁
        exact hs.live hlive
    · exact hquiet.safe

/-- **`handleHeight` keeps the invariant**, for every payload. -/
theorem safe_handleHeight (hP : P.Documented) {w : World P} (h : Safe w) (hlive : Live w)
    (payload : Bytes) : Safe (w.handleHeight payload) := by
  unfold World.handleHeight
  split
  · exact safe_rejectHeight hP h
  · rename_i observation hparse
    have hm := measured_of_parseHeight _ hparse
    have hnow := (Settles.millis w).safe h
    dsimp only
    split_ifs with hb hsame
    · exact hnow
    · exact safe_acceptHeight hP hnow hb _ hm
    · exact safe_acceptBaseline hnow hlive (Bool.eq_false_of_not_eq_true hb) hm

/-- An admitted start keeps the invariant. -/
theorem safe_start {w : World P} (h : Safe w) {now : UInt32} {requested : RelayDirection}
    (holdMs : ℕ) (hready : w.isReady now = true) (hbound : w.boundaryAllows requested = true) :
    Safe (w.relayCall (.start requested holdMs)).2 := by
  have harmed : w.session.armed = true := by
    simp only [World.isReady, Bool.and_eq_true] at hready
    exact hready.1.1.1
  refine Admitted.safe ?_ (h.live (not_quiet_of_hasBaseline (h.armed harmed).1))
  refine { armed := h.armed, measured := h.measured, moving := fun hmove => ⟨harmed, ?_⟩ }
  have hd : (w.relayCall (.start requested holdMs)).2.relay.direction = requested :=
    (Relay.direction_start _ requested holdMs _).resolve_right hmove
  rw [hd]
  exact hbound

theorem safe_handleMotion (hP : P.Documented) {w : World P} (h : Safe w)
    (requested : RelayDirection) (holdMs : ℕ) : Safe (w.handleMotion requested holdMs) := by
  have hnow := (Settles.millis w).safe h
  unfold World.handleMotion
  dsimp only
  split_ifs with hready hbound
  · exact (safe_start hnow holdMs hready hbound).settles_or_quiet
      (settles_or_quiet_publishOrFail hP _ _ _ _)
  all_goals exact hnow.settles_or_quiet (settles_or_quiet_reject hP _ _ _)

/-- **`handleControl` keeps the invariant**, for every payload. -/
theorem safe_handleControl (hP : P.Documented) {w : World P} (h : Safe w) (payload : Bytes) :
    Safe (w.handleControl payload) := by
  unfold World.handleControl
  split
  · exact h.settles_or_quiet (settles_or_quiet_reject hP _ _ _)
  · split
    · exact ((Settles.relayStop w).safe h).settles_or_quiet
        (settles_or_quiet_publishOrFail hP _ _ _ _)
    · exact safe_handleMotion hP h .up _
    · exact safe_handleMotion hP h .down _

theorem safe_handleMessage (hP : P.Documented) {w : World P} (h : Safe w) (hlive : Live w)
    (topic payload : Bytes) : Safe (w.handleMessage topic payload) := by
  unfold World.handleMessage
  split_ifs
  · exact safe_handleHeight hP h hlive payload
  · exact safe_handleControl hP h payload
  · exact h

/-! ## Periodic work -/

theorem safe_dropLease {w : World P} (h : Safe w) (hstop : w.relay.direction = .stop) :
    Safe w.dropLease where
  armed := fun ha => absurd ha (by simp [World.dropLease])
  measured := h.measured
  moving := fun hm => absurd hstop hm
  lost := fun hl => { h.lost hl with armed := rfl }
  failed := fun hf => { h.failed hf with armed := rfl }

/-- **`tick` keeps the invariant and ends an expired motion.** -/
theorem safe_and_fresh_tick (hP : P.Documented) {w : World P} (h : Safe w) (now : UInt32) :
    Safe (w.tick now) ∧ Fresh now (w.tick now) := by
  have harm := h.updateArming hP now
  have hstop := (Settles.relayStop (w.updateArming now)).safe harm
  have hoff := safe_dropLease hstop (direction_relayStop _)
  unfold World.tick
  dsimp only
  split_ifs with hexpired hwas
  · have hw := settles_or_quiet_publishOrFail hP
      (World.relayCall .stop (w.updateArming now)).2.dropLease "stopped" "height_stale"
      "높이 lease가 만료되어 릴레이를 정지했습니다."
    exact ⟨hoff.settles_or_quiet hw,
      fun hm => absurd (direction_settles_or_quiet hw (direction_relayStop _)) hm⟩
  · exact ⟨hoff, fun hm => absurd (direction_relayStop _) hm⟩
  · refine ⟨harm, fun hm => ?_⟩
    by_contra hc
    exact hexpired ⟨(harm.moving hm).1, Bool.eq_true_of_not_eq_false hc⟩

theorem Settles.setHeartbeat (w : World P) (now : UInt32) :
    Settles w { w with lastHeartbeat := now } := ⟨.inl rfl, rfl, id, rfl, rfl, rfl, rfl⟩

/-- The heartbeat goes through, or it ends the session. -/
theorem settles_or_quiet_loopTick (hP : P.Documented) (now : UInt32) (w : World P) :
    Settles (w.tick now) (w.loopTick now) ∨ Quiet (w.loopTick now) := by
  have hup := Settles.mqttConnected hP (w.tick now)
  have hend (w : World P) : Settles w ({ w with lastHeartbeat := now } : World P).rest :=
    (Settles.setHeartbeat w now).trans (Settles.rest _)
  unfold World.loopTick
  dsimp only
  split_ifs with hbeat hsent
  · exact .inl ((hup.trans (Settles.publishStatus hP _ _ _ _ hsent)).trans (hend _))
  · exact .inr ((hend _).quiet (quiet_failClosed hP _))
  · exact .inl (hup.trans (Settles.rest _))

/-! ## One iteration -/

/-- What an early return leaves: nothing runs, unless a new session has begun. -/
structure Ended (w : World P) : Prop extends Idle w where
  lost : w.wifiWasConnected = false ∨ w.mqttWasConnected = false → Quiet w
  failed : w.publishFailed = true → Offline w ∨ w.begunSinceFailure = true

theorem Quiet.ended {w : World P} (h : Quiet w) : Ended w :=
  { h.toIdle with lost := fun _ => h, failed := fun _ => .inl h.offline }

theorem Ended.between {w : World P} (h : Ended w) : Between w where
  armed := fun ha => absurd ha (by simp [h.armed])
  measured := fun hb => absurd hb (by simp [h.hasBaseline])
  moving := fun hm => absurd h.direction hm
  lost := h.lost

theorem Settles.ended {w w' : World P} (h : Settles w w') (he : Ended w) : Ended w' where
  direction := h.direction_stop he.direction
  armed := by rw [h.session, he.armed]
  hasBaseline := by rw [h.session, he.hasBaseline]
  lost := fun hl => h.quiet (he.lost (by rwa [h.wifi, h.mqtt] at hl))
  failed := fun hf => (he.failed (h.failed ▸ hf)).imp h.offline fun hb => h.begun.trans hb

/-- Behind `stopIfActive` the session is idle, and what was lost stays lost. -/
theorem idle_stopIfActive {w : World P} {was : Bool} (hwas : was = false → Quiet w) :
    Idle (w.stopIfActive was) := by
  unfold World.stopIfActive
  dsimp only
  split_ifs with hw hd
  · exact idle_invalidateSession _
  · exact idle_invalidateSession _
  · exact ((Settles.relayDirection w).quiet (hwas (Bool.eq_false_of_not_eq_true hw))).toIdle

theorem mqtt_stopIfActive (w : World P) (was : Bool) : (w.stopIfActive was).mqtt = w.mqtt := by
  unfold World.stopIfActive
  dsimp only
  split_ifs <;> rfl

theorem settles_connectWifi (now : UInt32) (w : World P) : Settles w (w.connectWifi now) := by
  have hread := (Settles.relayDirection w).trans (Settles.wifiStatus _)
  unfold World.connectWifi
  dsimp only
  split_ifs
  · exact Settles.relayDirection w
  · exact hread
  · exact hread.trans ⟨.inl rfl, rfl, id, rfl, rfl, rfl, rfl⟩

theorem quiet_loopWithoutWifi (hP : P.Documented) {w : World P} (h : Safe w) (now : UInt32) :
    Quiet (w.loopWithoutWifi now) := by
  have hidle := idle_stopIfActive fun (hl : w.wifiWasConnected = false) => h.lost (.inl hl)
  have hoff : Quiet (let w := { w.stopIfActive w.wifiWasConnected with
      wifiWasConnected := false, mqttWasConnected := false }
      let up := w.mqttConnected
      if up.1 then up.2.mqttDisconnect else up.2) := by
    dsimp only
    split_ifs with hup
    · exact { direction := hidle.direction, armed := hidle.armed, hasBaseline := hidle.hasBaseline
              offline := hP.disconnect_state _ }
    · exact { direction := hidle.direction, armed := hidle.armed, hasBaseline := hidle.hasBaseline
              offline := hP.connected_false _ _ (Bool.eq_false_of_not_eq_true hup) }
  exact ((settles_connectWifi now _).trans (Settles.rest _)).quiet hoff

theorem quiet_loopFailed (hP : P.Documented) (w : World P) : Quiet w.loopFailed := by
  have hidle := idle_invalidateSession (w.relayCall .stop).2
  refine (Settles.rest _).quiet ?_
  exact { direction := hidle.direction, armed := hidle.armed, hasBaseline := hidle.hasBaseline
          offline := hP.disconnect_state _ }

theorem Settles.mqttSubscribe (hP : P.Documented) (topic : String) (w : World P) :
    Settles w (w.mqttSubscribe topic).2 :=
  ⟨.inl rfl, rfl, hP.subscribe_keeps _ _ _, rfl, rfl, rfl, rfl⟩

/-- A new session begins idle; if it cannot be announced it ends at once. -/
theorem ended_openSession (hP : P.Documented) {w : World P} (hwifi : w.wifiWasConnected = true)
    (now : UInt32) : Ended (w.openSession now) := by
  have hheights := Settles.mqttSubscribe hP mqttHeightTopic (w.beginSession now)
  have hcontrols := hheights.trans (Settles.mqttSubscribe hP mqttControlTopic _)
  unfold World.openSession
  dsimp only
  split_ifs with hh hc hsent
  · have hs := hcontrols.trans (Settles.publishStatus hP _ _ _ _ hsent)
    exact { direction := hs.direction_stop rfl
            armed := congrArg Session.armed hs.session
            hasBaseline := congrArg Session.hasBaseline hs.session
            lost := fun hl => by
              rcases hl with hl | hl
              · exact absurd ((hs.wifi.trans hwifi).symm.trans hl) (by decide)
              · exact absurd hl (by simp)
            failed := fun _ => .inr hs.begun }
  all_goals exact (quiet_failClosed hP _).ended

theorem ended_connectMqtt (hP : P.Documented) {w : World P} (h : Quiet w)
    (hwifi : w.wifiWasConnected = true) (now : UInt32) : Ended (w.connectMqtt now) := by
  have hdirection := Settles.relayDirection w
  have hstatus := hdirection.trans (Settles.wifiStatus _)
  have hup := hstatus.trans (Settles.mqttConnected hP _)
  unfold World.connectMqtt
  dsimp only
  split_ifs with hmoving hwl hskip hconnect
  · exact (hdirection.quiet h).ended
  · exact (hstatus.quiet h).ended
  · exact (hup.quiet h).ended
  · exact ended_openSession hP (by exact hup.wifi.trans hwifi) now
  · have hq := hup.quiet h
    have hoff := hP.connect_false _ _ (Bool.eq_false_of_not_eq_true hconnect)
    exact Quiet.ended { direction := hq.direction, armed := hq.armed
                        hasBaseline := hq.hasBaseline, offline := hoff }

theorem ended_loopWithoutMqtt (hP : P.Documented) {w : World P} (h : Safe w) (hoff : Offline w)
    (hwifi : w.wifiWasConnected = true) (now : UInt32) : Ended (w.loopWithoutMqtt now) := by
  have hidle := idle_stopIfActive fun (hl : w.mqttWasConnected = false) => h.lost (.inr hl)
  have hq : Quiet ({ w.stopIfActive w.mqttWasConnected with mqttWasConnected := false } : World P) :=
    { direction := hidle.direction, armed := hidle.armed, hasBaseline := hidle.hasBaseline
      offline := by
        show P.state (w.stopIfActive w.mqttWasConnected).mqtt ≠ 0
        rw [mqtt_stopIfActive]
        exact hoff }
  have hw : (w.stopIfActive w.mqttWasConnected).wifiWasConnected = true := by
    unfold World.stopIfActive
    dsimp only
    split_ifs <;> exact hwifi
  exact (Settles.rest _).ended (ended_connectMqtt hP hq hw now)

/-- Messages only arrive while the client is connected. -/
theorem safe_mqttDeliver (hP : P.Documented) (burst : ℕ) {w : World P} (h : Safe w) :
    Safe (w.mqttDeliver burst) := by
  induction burst generalizing w with
  | zero => exact h
  | succ burst ih =>
    have hs : Settles w { w.advance with mqtt := (P.incoming w.reading.net w.mqtt).2 } :=
      ⟨.inl rfl, rfl, hP.incoming_keeps _ _, rfl, rfl, rfl, rfl⟩
    unfold World.mqttDeliver
    dsimp only
    split
    · exact hs.safe h
    · rename_i message hmessage
      have hon : P.state w.mqtt = 0 := hP.incoming_some w.reading.net w.mqtt (by simp [hmessage])
      have hlive := h.live fun hq => hq.offline hon
      exact ih (safe_handleMessage hP (hs.safe h) (hs.live hlive) _ _)

theorem safe_mqttLoop (hP : P.Documented) {w : World P} (h : Safe w) : Safe w.mqttLoop.2 := by
  have hdeliver : Safe (w.advance.mqttDeliver w.reading.burst) :=
    safe_mqttDeliver hP _ ((Settles.advance w).safe h)
  have hs : Settles (w.advance.mqttDeliver w.reading.burst) w.mqttLoop.2 :=
    ⟨.inl rfl, rfl, hP.endLoop_keeps _ _, rfl, rfl, rfl, rfl⟩
  exact hs.safe hdeliver

theorem safe_setWifiConnected {w : World P} (h : Safe w) : Safe w.setWifiConnected where
  armed := h.armed
  measured := h.measured
  moving := h.moving
  lost := fun hl => { h.lost (.inr (hl.resolve_left (by simp [World.setWifiConnected]))) with }
  failed := fun hf => { h.failed hf with }

theorem safe_reportTimeout (hP : P.Documented) {w : World P} (h : Safe w) :
    Safe w.reportTimeout := by
  have hevent := (Settles.takeTimeoutEvent w).safe h
  unfold World.reportTimeout
  dsimp only
  split_ifs
  · exact hevent.settles_or_quiet (settles_or_quiet_publishIfConnected hP _ _ _ _)
  · exact hevent

/-- What an iteration leaves, by the place where it returned. -/
def Leaves (exit : LoopExit) (w : World P) : Prop :=
  match exit with
  | .ticked now => Safe w ∧ Fresh now w
  | _ => Ended w

theorem leaves_loopConnected (hP : P.Documented) {w : World P} (h : Safe w) :
    Leaves w.loopConnected.1 w.loopConnected.2 := by
  have hloop := safe_mqttLoop hP h
  unfold World.loopConnected
  dsimp only
  split_ifs with halive
  · have hnow := (Settles.millis w.mqttLoop.2).safe hloop
    obtain ⟨hsafe, hfresh⟩ := safe_and_fresh_tick hP hnow w.mqttLoop.2.millis.1
    have hw := settles_or_quiet_loopTick hP w.mqttLoop.2.millis.1 w.mqttLoop.2.millis.2
    exact ⟨hsafe.settles_or_quiet hw, hfresh.settles_or_quiet hw⟩
  · exact (quiet_loopFailed hP _).ended

theorem leaves_loopOnline (hP : P.Documented) {w : World P} (h : Safe w)
    (hwifi : w.wifiWasConnected = true) (now : UInt32) :
    Leaves (w.loopOnline now).1 (w.loopOnline now).2 := by
  have hup := Settles.mqttConnected hP w
  unfold World.loopOnline
  dsimp only
  split_ifs with hon
  · exact leaves_loopConnected hP (hup.safe h)
  · exact ended_loopWithoutMqtt hP (hup.safe h)
      (hP.connected_false _ _ (Bool.eq_false_of_not_eq_true hon)) (hup.wifi.trans hwifi) now

/-- **One iteration.** -/
theorem leaves_loop (hP : P.Documented) {w : World P} (h : Between w) :
    Leaves w.loop.1 w.loop.2 := by
  have hstart : Safe w.clearNotes :=
    { armed := h.armed, measured := h.measured, moving := h.moving
      lost := fun hl => { h.lost hl with }
      failed := fun hf => absurd hf (by simp [World.clearNotes]) }
  have hreported := safe_reportTimeout hP ((Settles.millis _).safe hstart)
  have hstatus := ((Settles.wifiStatus _).trans (Settles.setWifiStatus _
    w.clearNotes.millis.2.reportTimeout.wifiStatus.1)).safe hreported
  unfold World.loop
  dsimp only
  split_ifs with hwifi
  · exact (quiet_loopWithoutWifi hP hstatus _).ended
  · exact leaves_loopOnline hP (safe_setWifiConnected hstatus) rfl _

/-- Every iteration starts between two iterations. -/
theorem Leaves.between {exit : LoopExit} {w : World P} (h : Leaves exit w) : Between w := by
  cases exit with
  | wifiDown => exact Ended.between h
  | mqttDown => exact Ended.between h
  | loopFailed => exact Ended.between h
  | ticked now => exact h.1.toBetween

theorem Leaves.idle {exit : LoopExit} {w : World P} (h : Leaves exit w)
    (hended : (∀ now, exit ≠ .ticked now) ∨ w.publishFailed = true) : Idle w := by
  cases exit with
  | wifiDown => exact Ended.toIdle h
  | mqttDown => exact Ended.toIdle h
  | loopFailed => exact Ended.toIdle h
  | ticked now => exact (h.1.failed (hended.resolve_left fun hne => hne now rfl)).toIdle

theorem Leaves.failed {exit : LoopExit} {w : World P} (h : Leaves exit w)
    (hf : w.publishFailed = true) : Offline w ∨ w.begunSinceFailure = true := by
  cases exit with
  | wifiDown => exact Ended.failed h hf
  | mqttDown => exact Ended.failed h hf
  | loopFailed => exact Ended.failed h hf
  | ticked now => exact .inl (h.1.failed hf).offline

/-- A direction that the boundary test allows lies inside the limits. -/
theorem limits_of_boundary {w : World P}
    (hm : measuredHeightAllowed w.session.lastHeightCm = true)
    (hbound : w.boundaryAllows w.relay.direction = true) :
    ∃ q : ℚ, w.session.lastHeightCm = .finite q ∧ 73 ≤ q ∧ q ≤ 118 ∧
      (w.relay.direction = .up → q < 115) ∧ (w.relay.direction = .down → 75 < q) := by
  obtain ⟨q, hq, hlow, hhigh⟩ := measuredHeightAllowed_iff.mp hm
  refine ⟨q, hq, hlow, hhigh, ?_, ?_⟩
  · intro hd
    rw [hd] at hbound
    have := (directionAllowed_up hm).mp hbound
    simpa [hq, maxControlHeightCm] using this
  · intro hd
    rw [hd] at hbound
    have := (directionAllowed_down hm).mp hbound
    simpa [hq, minControlHeightCm] using this

theorem between_setup (hP : P.Documented) (env : ℕ → Reading P) : Between (World.setup env) := by
  have hboot : Quiet (World.boot env P.initial) :=
    { direction := rfl, armed := rfl, hasBaseline := rfl, offline := hP.initial_state }
  exact (((Settles.millis _).trans (settles_connectWifi _ _)).quiet hboot).ended.between

theorem between_afterLoops (hP : P.Documented) (env : ℕ → Reading P) (n : ℕ) :
    Between ((World.setup env).afterLoops n) := by
  induction n with
  | zero => exact between_setup hP env
  | succ n ih =>
    rw [World.afterLoops, Function.iterate_succ_apply']
    exact (leaves_loop hP ih).between

/-- **The loop is safe.**  At the end of every iteration of every run a moving
relay has an armed session with a measured height between the two limits that
the direction respects, and the lease had not expired at the tick of that
iteration; an iteration that found a connection lost, or in which a status
publish failed, ends with the relay off and the session invalidated, and after a
failed publish the client is disconnected unless a new session has begun since. -/
theorem loop_safe (hP : P.Documented) (env : ℕ → Reading P) (n : ℕ) :
    let exit := ((World.setup env).afterLoops n).loop.1
    let w := ((World.setup env).afterLoops n).loop.2
    (w.relay.direction ≠ .stop →
      w.session.armed = true ∧ w.session.hasBaseline = true ∧
      w.session.hasDistinctHeight = true ∧
      (∃ q : ℚ, w.session.lastHeightCm = .finite q ∧ 73 ≤ q ∧ q ≤ 118 ∧
        (w.relay.direction = .up → q < 115) ∧ (w.relay.direction = .down → 75 < q)) ∧
      ∃ now, exit = .ticked now ∧
        elapsed now w.session.lastDistinctHeightAt heightLeaseMs = false) ∧
    ((∀ now, exit ≠ .ticked now) ∨ w.publishFailed = true →
      w.relay.direction = .stop ∧ w.session.armed = false ∧ w.session.hasBaseline = false) ∧
    (w.publishFailed = true → P.state w.mqtt ≠ 0 ∨ w.begunSinceFailure = true) := by
  intro exit w
  have hleaves : Leaves exit w := leaves_loop hP (between_afterLoops hP env n)
  refine ⟨?_, ?_, ?_⟩
  · intro hmove
    cases hexit : exit with
    | ticked now =>
      rw [hexit] at hleaves
      obtain ⟨hsafe, hfresh⟩ := hleaves
      obtain ⟨harmed, hbound⟩ := hsafe.moving hmove
      obtain ⟨hbase, hdistinct⟩ := hsafe.armed harmed
      exact ⟨harmed, hbase, hdistinct, limits_of_boundary (hsafe.measured hbase) hbound, now, rfl,
        hfresh hmove⟩
    | wifiDown =>
      rw [hexit] at hleaves
      exact absurd hleaves.direction hmove
    | mqttDown =>
      rw [hexit] at hleaves
      exact absurd hleaves.direction hmove
    | loopFailed =>
      rw [hexit] at hleaves
      exact absurd hleaves.direction hmove
  · intro hended
    have hidle := hleaves.idle hended
    exact ⟨hidle.direction, hidle.armed, hidle.hasBaseline⟩
  · exact hleaves.failed

/-- What the broker delivers in the run below: a height, another one, then UP. -/
def heightsThenUp (i : ℕ) : Bytes × Bytes :=
  let height (second : String) := (literal mqttHeightTopic,
    literal ("\x7b\"schema\":\"smartdesk.height.v1\",\"observed_at\":\"2026-01-01T00:00:0" ++
      second ++ "Z\",\"height_cm\":90.0\x7d"))
  if i < 32 then height "0"
  else if i < 48 then height "1"
  else (literal mqttControlTopic,
    literal "\x7b\"command\":\"UP\",\"source\":\"desk_service\",\"hold_ms\":500\x7d")

/-- An environment with the link up, 20 ms and one message further at every call. -/
def movingEnv (i : ℕ) : Reading flatPlatform :=
  { millis := UInt32.ofNat (20 * i), wifiStatus := wlConnected
    net := ⟨true, true, some (heightsThenUp i)⟩, preempt := fun _ => ⟨10, false⟩, burst := 1 }

/-- In the fourth iteration of that run the relay moves, with an armed session. -/
theorem loop_safe_moving :
    (((World.setup movingEnv).afterLoops 3).loop.2.relay.direction = .up) ∧
      ((World.setup movingEnv).afterLoops 3).loop.2.session.armed = true := by
  have hmoving : ((World.setup movingEnv).afterLoops 3).loop.2.relay.direction = .up := by
    decide +kernel
  refine ⟨hmoving, ?_⟩
  exact ((loop_safe documented_flatPlatform movingEnv 3).1 (by rw [hmoving]; decide)).1

end SmartDesk.Firmware
