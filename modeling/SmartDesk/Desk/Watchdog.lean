import SmartDesk.Desk.Contracts
import SmartDesk.Desk.StopReturned

/-!
# The watch over a relay at rest

`_watch_inactive_relay` stops a relay that moves while the controller has no motion.  A
runner cycle reads the control state, and may then wait for the intent lock before it gets
to the watch.

* `watchContract` — the runner starts the STOP of the watch without a motion, unless it had
  to wait for the intent lock.
* `watch_stops_own_motion` — it can stop the motion that was installed meanwhile.
* `watch_idle` — **the watch starts a STOP only without a motion**, if no intent is installed
  while a runner waits for the intent lock.
-/

namespace SmartDesk.Desk

open Coroutine Code

variable {settings : DeskSettings}

/-- The STOP of `_watch_inactive_relay`. -/
def watchStop : Job :=
  .stopAndConfirm "제어기 밖에서 발생한 릴레이 이동을 정지했습니다." (some "예기치 않은 릴레이 이동 상태")

/-! ## The other parts of a cycle do not start it -/

/-- Any task but the STOP of the watch. -/
def NotWatch (j : Job) : Prop := j ≠ watchStop

section Spawns

variable {α β : Type}

theorem spawns_bind {c : Code α} {f : α → Code β} (h : c.Spawns NotWatch)
    (h' : ∀ a, (f a).Spawns NotWatch) : (c >>= f).Spawns NotWatch := Prog.spawns_bind h h'

theorem spawns_pure (a : α) : (pure a : Code α).Spawns NotWatch := trivial

theorem spawns_throw (e : Exc) : (throw e : Code α).Spawns NotWatch := trivial

theorem spawns_exceptError {c : Code α} {handler : Exc → Code α} (h : c.Spawns NotWatch)
    (h' : ∀ e, (handler e).Spawns NotWatch) : (exceptError c handler).Spawns NotWatch := by
  refine Prog.spawns_attempt h fun e => ?_
  cases e with
  | cancelled => exact trivial
  | error e => exact h' e

theorem spawns_exceptRejected {c : Code α} {handler : String → Code α} (h : c.Spawns NotWatch)
    (h' : ∀ e, (handler e).Spawns NotWatch) : (exceptRejected c handler).Spawns NotWatch := by
  refine spawns_exceptError h fun e => ?_
  cases e with
  | rejected text => exact h' text
  | _ => exact trivial

theorem spawns_ite {b : Prop} [Decidable b] {c c' : Code α} (h : c.Spawns NotWatch)
    (h' : c'.Spawns NotWatch) : (if b then c else c').Spawns NotWatch := by
  split
  · exact h
  · exact h'

theorem spawns_modify (f : DeskController → DeskController) : (modify f).Spawns NotWatch :=
  fun _ => trivial

theorem spawns_modifyNote (f : DeskController → DeskController) (event : DeskController → Event) :
    (modifyNote f event).Spawns NotWatch := fun _ => trivial

end Spawns

/-- A STOP with another text. -/
theorem spawns_stopMotion {detail : String} {errorDetail : Option String}
    (h : NotWatch (.stopAndConfirm detail errorDetail)) :
    (stopMotion detail errorDetail).Spawns NotWatch := by
  refine Prog.spawns_bind ⟨h, fun _ => trivial⟩ fun u => ?_
  refine Prog.spawns_bind (Prog.spawns_attempt (Prog.spawns_wait _) fun e => ?_) fun stopError => ?_
  · cases e with
    | cancelled => exact Prog.spawns_bind (Prog.spawns_wait _) fun _ => trivial
    | error e => exact trivial
  · split <;> exact trivial

/-- A text that begins with another character. -/
theorem notWatch_of_head {detail : String} {errorDetail : Option String}
    (h : detail.toList.head? ≠ some '제') : NotWatch (.stopAndConfirm detail errorDetail) := by
  intro heq
  cases heq
  exact h (by decide)

theorem notWatch_of_none (detail : String) : NotWatch (.stopAndConfirm detail none) :=
  fun heq => by cases heq

theorem spawns_setStartupSensorCheckNeeded (error : String) :
    (setStartupSensorCheckNeeded error).Spawns NotWatch := by
  refine spawns_bind (spawns_modify _) fun _ => spawns_bind reads_fields.spawns fun d => ?_
  split
  · exact trivial
  · exact spawns_bind reads_now.spawns fun _ => spawns_modify _

theorem spawns_note (event : DeskController → Event) : (note event).Spawns NotWatch :=
  spawns_modifyNote _ _

theorem spawns_sendStopBounded (latched : Bool) (baseline : Option Instant) :
    (sendStopBounded latched baseline).Spawns NotWatch := by
  refine spawns_exceptError (Prog.spawns_withLock ?_) fun _ => trivial
  refine Prog.spawns_bind (fun _ => trivial) fun t => spawns_bind (spawns_note _) fun _ => ?_
  exact Prog.spawns_bind (Prog.spawns_wait _) fun _ => trivial

/-! ### A WAKE -/

theorem spawns_sendWake (generation : ℕ) (direction : Direction) (basisHeightCm : Ieee) :
    (sendWake generation direction basisHeightCm).Spawns NotWatch := by
  refine Prog.spawns_withLock (spawns_exceptError ?_ fun _ => trivial)
  exact spawns_bind (spawns_note _) fun _ => Prog.spawns_bind (Prog.spawns_wait _) fun _ => trivial

theorem spawns_beginWake (mode : MotionMode) (direction : Direction) (target : Option Ieee)
    (basis : HeightSnapshot) (relay : RelaySnapshot) (detail : String) (found : ControlState) :
    (beginWake mode direction target basis relay detail found).Spawns NotWatch := by
  refine spawns_bind (reads_assertSome _).spawns fun basisHeightCm => ?_
  refine spawns_bind (reads_assertSome _).spawns fun observedAt => ?_
  refine spawns_bind reads_requireRunningLocked.spawns fun _ =>
    spawns_bind reads_fields.spawns fun d => ?_
  refine spawns_bind (reads_require _ _).spawns fun _ =>
    spawns_bind reads_monotonic.spawns fun startedAt => ?_
  refine spawns_bind reads_now.spawns fun updatedAt => spawns_bind (spawns_modifyNote _ _) fun _ =>
    ?_
  refine spawns_bind (spawns_sendWake _ _ _) fun failure => ?_
  cases failure with
  | none => exact trivial
  | some text =>
    refine spawns_bind reads_fields.spawns fun d' => ?_
    split
    · exact spawns_stopMotion (notWatch_of_head (by decide))
    · exact trivial

/-- The startup WAKE with a WAKE pending. -/
theorem spawns_startupWakeCycle : (startupWakeCycle settings).Spawns NotWatch := by
  refine spawns_bind reads_fields.spawns fun d => ?_
  cases d.startupWakePending with
  | none => exact trivial
  | some deadline =>
    dsimp only
    split
    · exact spawns_bind (spawns_modify _) fun _ => trivial
    refine spawns_bind reads_height.spawns fun snapshot => ?_
    split
    · exact spawns_bind (spawns_modify _) fun _ => trivial
    refine spawns_bind (spawns_exceptRejected
      (spawns_bind (reads_requireWakeBasis _).spawns fun _ => trivial) fun _ =>
        trivial) fun refused => ?_
    cases refused with
    | some text => exact spawns_bind (spawns_setStartupSensorCheckNeeded _) fun _ => trivial
    | none =>
      refine spawns_bind reads_monotonic.spawns fun current => ?_
      split
      · exact spawns_bind (spawns_setStartupSensorCheckNeeded _) fun _ => trivial
      refine spawns_bind (spawns_exceptRejected
        (spawns_bind reads_admitWake.spawns fun _ => trivial) fun _ => trivial) fun admitted => ?_
      cases admitted with
      | none => exact trivial
      | some relay =>
        refine spawns_bind (reads_assertSome _).spawns fun heightCm => ?_
        refine spawns_bind (spawns_exceptRejected ?_ fun text =>
          spawns_setStartupSensorCheckNeeded text) fun _ => trivial
        refine spawns_bind (reads_requireDirectionAllowed _ _).spawns fun _ => ?_
        exact spawns_bind (spawns_modify _) fun _ => spawns_beginWake _ _ _ _ _ _ _

/-! ### A motion -/

theorem spawns_recordPulseFailure (generation : ℕ) (detail : String) :
    (recordPulseFailure generation detail).Spawns NotWatch := by
  refine spawns_bind reads_fields.spawns fun d => ?_
  split
  · exact spawns_stopMotion (notWatch_of_head (by decide))
  · exact trivial

theorem spawns_sendPulse (generation : ℕ) (direction : Direction) (holdMs : ℤ)
    (view : CycleView) : (sendPulse generation direction holdMs view).Spawns NotWatch := by
  refine Prog.spawns_withLock (spawns_bind reads_fields.spawns fun d => ?_)
  split
  · refine spawns_exceptError (spawns_bind (spawns_note _) fun _ => ?_) fun _ => trivial
    exact Prog.spawns_bind (Prog.spawns_wait _) fun _ => trivial
  · exact trivial

theorem spawns_publishPulse (generation : ℕ) (direction : Direction) (holdMs : ℤ)
    (fineObservedAt : Option Instant) (view : CycleView) :
    (publishPulse settings generation direction holdMs fineObservedAt view).Spawns NotWatch := by
  refine spawns_bind reads_monotonic.spawns fun startedAt => ?_
  refine spawns_bind (spawns_sendPulse _ _ _ _) fun outcome => ?_
  cases outcome with
  | skipped => exact trivial
  | failed text => exact spawns_recordPulseFailure _ _
  | published =>
    refine spawns_bind reads_fields.spawns fun d => ?_
    split
    · exact trivial
    cases fineObservedAt with
    | none => exact spawns_modify _
    | some observedAt =>
      exact spawns_bind reads_now.spawns fun _ => spawns_bind reads_monotonic.spawns fun _ =>
        spawns_modify _

theorem spawns_evaluateRelayStatus (control : ControlState) (snapshot : RelaySnapshot)
    (current : Ieee) : (evaluateRelayStatus settings control snapshot current).Spawns NotWatch := by
  unfold evaluateRelayStatus
  split
  · refine spawns_bind reads_fields.spawns fun d => ?_
    split
    · exact (reads_require _ _).spawns
    split
    · exact trivial
    refine spawns_bind (spawns_modify _) fun _ => ?_
    split
    · exact spawns_modify _
    · exact spawns_bind (reads_require _ _).spawns fun _ =>
        spawns_bind (reads_require _ _).spawns fun _ => (reads_require _ _).spawns
  · exact trivial

theorem spawns_activateWake (control : ControlState) : (activateWake control).Spawns NotWatch := by
  refine spawns_bind reads_fields.spawns fun d => ?_
  split
  · exact trivial
  · exact spawns_bind reads_now.spawns fun _ => spawns_modify _

theorem spawns_activateMotion (control : ControlState) (change : ControlState → ControlState)
    (height : HeightSnapshot) (relay : RelaySnapshot) (current : Ieee) :
    (activateMotion control change height relay current).Spawns NotWatch := by
  refine spawns_bind reads_fields.spawns fun d => ?_
  split
  · exact trivial
  · exact spawns_bind reads_now.spawns fun _ => spawns_modifyNote _ _

theorem spawns_activateAfterWake (control : ControlState) (height : HeightSnapshot)
    (relay : RelaySnapshot) (current : Ieee) :
    (activateAfterWake settings control height relay current).Spawns NotWatch := by
  refine spawns_bind (reads_assertSome _).spawns fun heightCm => ?_
  cases control.mode with
  | wake => exact spawns_activateWake _
  | manual =>
    exact spawns_bind (reads_assertSome _).spawns fun _ =>
      spawns_bind (reads_requireDirectionAllowed _ _).spawns fun _ =>
        spawns_activateMotion _ _ _ _ _
  | target =>
    refine spawns_bind (reads_assertSome _).spawns fun target => ?_
    dsimp only
    split
    · exact spawns_stopMotion (notWatch_of_none _)
    · exact spawns_bind (reads_requireDirectionAllowed _ _).spawns fun _ =>
        spawns_activateMotion _ _ _ _ _
  | none => exact trivial

theorem spawns_runWakeCycle (control : ControlState) :
    (runWakeCycle settings control).Spawns NotWatch := by
  refine spawns_bind reads_monotonic.spawns fun current =>
    spawns_bind (reads_require _ _).spawns fun _ => ?_
  refine spawns_bind reads_fields.spawns fun d => ?_
  split
  · exact spawns_stopMotion (notWatch_of_none _)
  refine spawns_bind reads_height.spawns fun snapshot =>
    spawns_bind (reads_require _ _).spawns fun _ => ?_
  split
  · split
    · exact trivial
    refine spawns_bind reads_requireRelayAvailableForWake.spawns fun checked => ?_
    dsimp only
    split
    · exact spawns_bind (reads_assertSome _).spawns fun _ => spawns_activateAfterWake _ _ _ _
    · exact trivial
  · exact trivial

theorem spawns_enterSettling (generation : ℕ) :
    (enterSettling settings generation).Spawns NotWatch := by
  refine spawns_bind reads_fields.spawns fun d => ?_
  split
  · exact trivial
  refine spawns_bind reads_now.spawns fun _ => spawns_bind (spawns_modify _) fun _ => ?_
  refine spawns_bind (spawns_sendStopBounded _ _) fun failure => ?_
  cases failure with
  | some text => exact spawns_stopMotion (notWatch_of_head (by decide))
  | none => exact spawns_bind reads_monotonic.spawns fun _ => spawns_modify _

theorem spawns_pulseTowards (control : ControlState) (delta : Ieee) (needed : Direction)
    (current : Ieee) (view : CycleView) :
    (pulseTowards settings control delta needed current view).Spawns NotWatch := by
  unfold pulseTowards
  split
  · split
    · exact spawns_enterSettling _
    refine spawns_bind reads_fields.spawns fun d => ?_
    split
    · exact spawns_publishPulse _ _ _ _ _
    · exact trivial
  · refine spawns_bind reads_fields.spawns fun d => ?_
    exact spawns_ite trivial (spawns_publishPulse _ _ _ _ _)
  · exact trivial

theorem spawns_runTargetCycle (control : ControlState) (current : Ieee) (view : CycleView) :
    (runTargetCycle settings control current view).Spawns NotWatch := by
  refine spawns_bind (reads_assertSome _).spawns fun target => ?_
  refine spawns_bind (reads_assertSome _).spawns fun heightCm => ?_
  dsimp only
  split
  · exact spawns_stopMotion (notWatch_of_none _)
  refine spawns_bind (reads_requireDirectionAllowed _ _).spawns fun _ => ?_
  split
  · refine spawns_bind reads_fields.spawns fun d => ?_
    split
    · exact trivial
    refine spawns_bind reads_relay.spawns fun snapshot =>
      spawns_bind (reads_require _ _).spawns fun _ => ?_
    refine spawns_bind reads_fields.spawns fun d' => ?_
    split
    · exact trivial
    refine spawns_bind reads_now.spawns fun _ => spawns_bind (spawns_modify _) fun _ => ?_
    exact spawns_bind reads_fields.spawns fun _ => spawns_pulseTowards _ _ _ _ _
  · exact spawns_pulseTowards _ _ _ _ _

theorem spawns_runMotionCycle (control : ControlState) :
    (runMotionCycle settings control).Spawns NotWatch := by
  refine spawns_bind reads_requireHeight.spawns fun height => ?_
  refine spawns_bind reads_requireRelayReady.spawns fun checked => ?_
  refine spawns_bind (reads_assertSome _).spawns fun heightCm => ?_
  refine spawns_bind reads_monotonic.spawns fun current => spawns_bind reads_fields.spawns fun d =>
    ?_
  refine spawns_bind (reads_require _ _).spawns fun _ => ?_
  split
  · exact spawns_stopMotion (notWatch_of_none _)
  refine spawns_bind (spawns_evaluateRelayStatus _ _ _) fun _ => ?_
  split
  · refine spawns_bind (reads_assertSome _).spawns fun direction => ?_
    refine spawns_bind (reads_requireDirectionAllowed _ _).spawns fun _ => ?_
    refine spawns_bind reads_fields.spawns fun d' => ?_
    split
    · exact spawns_publishPulse _ _ _ _ _
    · exact trivial
  · exact spawns_runTargetCycle _ _ _

/-- The cycle of an intent. -/
theorem spawns_activeCycle (control : ControlState) :
    (exceptRejected
      (if control.awaitingFreshHeight then runWakeCycle settings control
        else runMotionCycle settings control)
      fun text => stopMotion "안전 조건을 충족하지 못해 이동을 정지했습니다." (some text)).Spawns
      NotWatch := by
  refine spawns_exceptRejected ?_ fun text => spawns_stopMotion (notWatch_of_head (by decide))
  split
  · exact spawns_runWakeCycle _
  · exact spawns_runMotionCycle _

theorem spawns_endRun (e : Raised Exc) : (endRun e).Spawns NotWatch := by
  cases e with
  | cancelled =>
    refine spawns_bind reads_fields.spawns fun d => ?_
    split
    · refine Prog.spawns_bind ⟨fun h => (by cases h), fun _ => trivial⟩ fun child => ?_
      exact Prog.spawns_bind (Prog.spawns_wait _) fun _ => trivial
    · exact trivial
  | error e =>
    refine spawns_bind reads_fields.spawns fun d => ?_
    split
    · exact spawns_bind (spawns_stopMotion (notWatch_of_head (by decide))) fun _ => trivial
    · exact trivial

/-! ## The contract of the runner -/

/-- The control state is that of the beginning of the segment, and has no motion unless the
runner has just waited for the intent lock. -/
structure Undisturbed (p : Spot) : Prop where
  control : p.mem.vars.desk.control = p.start.vars.desk.control
  mode : ¬ Waits p (.lock .intent none) → p.mem.vars.desk.control.mode = .none

/-- Where the runner stops, it has not created the STOP of the watch, or there was nothing
to disturb. -/
def watchContract : Guarantee deskSignature :=
  { Guarantee.free with
    suspend := fun p _ => p.job = .runner → p.Created NotWatch ∨ Undisturbed p
    pause := fun p => p.job = .runner → p.Created NotWatch
    finish := fun p _ => p.job = .runner → p.Created NotWatch }

/-- The runner, before it creates the STOP of the watch. -/
structure AtWork (p : Spot) : Prop where
  job : p.job = .runner
  created : p.Created NotWatch

theorem asksSpawns_watchContract : watchContract.AsksSpawns .runner NotWatch where
  write := fun _ _ _ _ => trivial
  spawn := fun _ _ _ _ _ => trivial
  cancel := fun _ _ _ _ => trivial
  suspend := fun _ _ _ h _ => .inl h
  pause := fun _ _ h _ => h

theorem frees_watchContract {j : Job} (hj : j ≠ .runner) : watchContract.Frees j where
  write := fun _ _ _ => trivial
  spawn := fun _ _ _ => trivial
  cancel := fun _ _ _ => trivial
  suspend := fun _ _ hp h => absurd (hp.symm.trans h) hj
  pause := fun _ hp h => absurd (hp.symm.trans h) hj
  finish := fun _ _ hp h => absurd (hp.symm.trans h) hj

section Observes

variable {α : Type} {p : Spot}

/-- A program that does not start it. -/
theorem observes_of_spawns {c : Code α} (hc : c.Spawns NotWatch) (hp : AtWork p) :
    Observes settings watchContract c p fun p' _ => AtWork p' :=
  (does_of_spawns (S := deskSignature) asksSpawns_watchContract hc (Prog.returns_true c) hp.job
    hp.created).mono fun _ _ h => ⟨h.1, h.2.1⟩

/-- **The watch** starts its STOP in the control state that it was called with. -/
theorem observes_watchInactiveRelay (hp : AtWork p) (hu : Undisturbed p) :
    Observes settings watchContract (watchInactiveRelay settings) p fun p' _ => AtWork p' := by
  refine observes_bind.mpr (observes_fields.mpr (follows_ok.mpr ?_))
  split
  · exact hp
  refine observes_bind.mpr (observes_relay.mpr (follows_ok.mpr ?_))
  have hnext : AtWork p.next := ⟨hp.job, hp.created⟩
  -- The text of a STOP does not matter once its task is there.
  have hother : NotWatch (.stopAndConfirm "" (some "예기치 않은 릴레이 이동 상태")) :=
    notWatch_of_head (by decide)
  split
  · split
    · exact hnext
    refine observes_bind.mpr (does_of_reads (S := deskSignature) ?_ fun env r => ?_)
    · exact reads_exceptRejected (reads_bind reads_requireRelayReady fun _ => trivial)
        fun _ => trivial
    have hread : AtWork { p.next with env := env } := ⟨hp.job, hp.created⟩
    cases r with
    | error e => exact hread
    | ok a =>
      refine observes_bind.mpr (observes_modify.mpr ⟨trivial, follows_ok.mpr ?_⟩)
      -- The STOP is created, and the runner begins to wait for it.
      refine And.intro trivial (And.intro (fun m hm => by cases hm) fun _ =>
        And.intro (fun _ => .inr ⟨hu.control, hu.mode⟩) fun p' r hr => ?_)
      exact observes_of_spawns ((spawns_stopMotion hother).2 _ r)
        ⟨hr.2.2.2.1.trans hp.job, hr.created⟩
  · exact hnext

/-- A startup cycle that lets the runner go on to the watch has changed nothing. -/
theorem observes_startupWakeCycle (hp : AtWork p) (hu : Undisturbed p) :
    Observes settings watchContract (startupWakeCycle settings) p fun p' r =>
      AtWork p' ∧ (r = .ok false → Undisturbed p') := by
  cases hpending : p.mem.vars.desk.startupWakePending with
  | none =>
    refine observes_bind.mpr (observes_fields.mpr (follows_ok.mpr ?_))
    rw [hpending]
    exact ⟨hp, fun _ => hu⟩
  | some deadline =>
    have hcycle : (startupWakeCycle settings).Spawns NotWatch := spawns_startupWakeCycle
    have hspawns := hcycle p.mem.vars
    refine observes_bind.mpr (observes_fields.mpr (follows_ok.mpr ?_))
    refine (does_of_spawns (S := deskSignature) (P := fun woken => woken = true)
      asksSpawns_watchContract hspawns ?_ hp.job hp.created).mono fun p' r h =>
        ⟨⟨h.1, h.2.1⟩, fun hr => by cases h.2.2 false hr⟩
    have hlast : Prog.Returns (fun woken => woken = true) (pure true : Code Bool) := rfl
    simp only [Prog.bind, hpending]
    split
    · exact Prog.returns_bind (fun _ => hlast) _
    refine Prog.returns_bind (fun snapshot => ?_) _
    split
    · exact Prog.returns_bind (fun _ => hlast) _
    refine Prog.returns_bind (fun refused => ?_) _
    cases refused with
    | some text => exact Prog.returns_bind (fun _ => hlast) _
    | none =>
      refine Prog.returns_bind (fun current => ?_) _
      split
      · exact Prog.returns_bind (fun _ => hlast) _
      refine Prog.returns_bind (fun admitted => ?_) _
      cases admitted with
      | none => exact hlast
      | some relay =>
        exact Prog.returns_bind (fun heightCm => Prog.returns_bind (fun _ => hlast) _) _

/-- The startup cycle under the intent lock, for which the runner may have to wait. -/
theorem observes_runStartupWakeCycle (hp : AtWork p) (hu : Undisturbed p) :
    Observes settings watchContract (runStartupWakeCycle settings) p fun p' r =>
      AtWork p' ∧ (r = .ok false → Undisturbed p') := by
  refine does_withLock (S := deskSignature) (fun _ _ => .inl hp.created) ?_ ?_ ?_
  · refine (observes_startupWakeCycle (p := p.setMem (p.mem.take .intent p.task))
      ⟨hp.job, hp.created⟩ ⟨hu.control, hu.mode⟩).mono fun p' r h => ?_
    exact ⟨⟨h.1.job, h.1.created⟩, fun hr => ⟨(h.2 hr).control, (h.2 hr).mode⟩⟩
  · intro p' hr
    have hwaits : Waits p' (.lock .intent none) := by
      obtain ⟨_, _, htask, hjob, cancelled, hstatus, _⟩ := hr
      exact Mem.shape_eq_some.mpr ⟨cancelled, by rw [htask, hjob]; exact hstatus⟩
    refine (observes_startupWakeCycle (p := p') ⟨hr.2.2.2.1.trans hp.job, hr.created⟩
      ⟨by rw [hr.wakes.vars], fun hnot => absurd hwaits hnot⟩).mono fun p' r h => ?_
    exact ⟨⟨h.1.job, h.1.created⟩, fun hr => ⟨(h.2 hr).control, (h.2 hr).mode⟩⟩
  · intro p' hr
    exact ⟨⟨hr.2.2.2.1.trans hp.job, hr.created⟩, fun h => by cases h⟩

theorem observes_runCycle (hp : AtWork p)
    (hcontrol : p.mem.vars.desk.control = p.start.vars.desk.control) :
    Observes settings watchContract (runCycle settings) p fun p' _ => AtWork p' := by
  refine observes_bind.mpr (observes_fields.mpr (follows_ok.mpr ?_))
  split
  · exact hp
  split
  · next hmode =>
    refine observes_bind.mpr ((observes_runStartupWakeCycle hp ⟨hcontrol, fun _ => hmode⟩).mono ?_)
    rintro p' (e | woken) h
    · exact h.1
    cases woken with
    | true => exact h.1
    | false => exact observes_watchInactiveRelay h.1 (h.2 rfl)
  · exact observes_of_spawns (spawns_activeCycle _) hp

end Observes

/-- **All programs meet the contract of the runner.** -/
theorem contracted_watch : Contracted settings watchContract := by
  intro p hbegins
  by_cases hjob : p.job = .runner
  · have hp : AtWork p := ⟨hjob, hbegins.created⟩
    rw [hjob]
    refine observes_bind.mpr ((does_attempt (S := deskSignature)).mpr ?_)
    refine observes_bind.mpr (observes_fields.mpr (follows_ok.mpr ?_))
    split
    · refine observes_bind.mpr ((observes_runCycle hp (by rw [hbegins.wakes.vars])).mono ?_)
      rintro p' (e | _) hp'
      · refine (observes_of_spawns (spawns_endRun e) hp').mono ?_
        rintro p'' (e | _) h
        · exact fun _ => h.created
        · exact fun _ => h.created
      · refine And.intro (fun _ => hp'.created) fun p'' hr => ?_
        refine (observes_of_spawns (spawns_endRun .cancelled)
          ⟨hr.2.2.2.1.trans hp'.job, hr.created⟩).mono ?_
        rintro p'' (e | _) h
        · exact fun _ => h.created
        · exact fun _ => h.created
    · exact fun _ => hp.created
  · exact does_of_allows (S := deskSignature) (frees_watchContract hjob).allows rfl
      fun p' r hp' h => absurd (hp'.symm.trans h) hjob

/-! ## Runs -/

/-- A step of the runner creates the task of the STOP of the watch. -/
def StartsWatch (t : ℕ) (pool pool' : DeskPool) : Prop :=
  pool.mem.job t = some .runner ∧ ∃ u, pool.mem.count ≤ u ∧ pool'.mem.job u = some watchStop

/-- While a runner waits for the intent lock, no step of another task installs an intent. -/
def installsNothing (settings : DeskSettings) (pool : DeskPool) : DeskLabel → Prop
  | .run t env => ∀ u pool' new, u ≠ t →
      pool.mem.shape u = some (.runner, .waiting (.lock .intent none)) →
      step (deskSystem settings) pool (.run t env) = some pool' →
      pool'.mem.vars.trace = new ++ pool.mem.vars.trace → ∀ e ∈ new, e.isInstalled = false
  | _ => True

/-! ### A watch that stops a motion of its own controller -/

/-- A target at the height of the desk is stopped at once; the runner finds its desk at rest
and waits behind another target, which wakes the sensor. -/
def crossingBefore : List DeskLabel :=
  bootRun ++
    [.call (.setTarget (.int 90)), .run 2 fun _ => readingAt 2, .call (.setTarget (.int 100)),
      .run 4 fun _ => readingAt 2, .run 3 fun _ => readingAt 2, .run 3 fun _ => readingAt 3,
      .run 1 fun _ => readingAt 3, .run 2 fun _ => readingAt 3, .run 4 fun _ => staleAt 4,
      .run 4 fun _ => staleAt 4]

/-- **The watch can stop the motion of a target** when the relay obeys its WAKE. -/
theorem watch_stops_own_motion : ¬ ∀ settings started before pool t env pool',
    Transition.exec (step (deskSystem settings)) (deskStart settings started) before = some pool →
    step (deskSystem settings) pool (.run t env) = some pool' → StartsWatch t pool pool' →
    pool'.mem.vars.desk.control.mode = .none := by
  intro hall
  have hbefore : (Transition.exec (step (deskSystem .default)) (deskStart .default 0)
      crossingBefore).map (fun pool => (pool.mem.count, decide (pool.mem.job 1 = some .runner))) =
      some (5, true) := by
    decide +kernel
  have hrun : (Transition.exec (step (deskSystem .default)) (deskStart .default 0)
      (crossingBefore ++ [.run 1 fun _ => movingAt 5])).map (fun pool =>
        (decide (pool.mem.job 5 = some watchStop), pool.mem.vars.desk.control.mode)) =
      some (true, .target) := by
    decide +kernel
  obtain ⟨pool, hpool, hstate⟩ := Option.map_eq_some_iff.mp hbefore
  obtain ⟨pool', hpool', hstate'⟩ := Option.map_eq_some_iff.mp hrun
  obtain ⟨hcount, hrunner⟩ := Prod.mk.inj hstate
  obtain ⟨hwatch, hmode⟩ := Prod.mk.inj hstate'
  obtain ⟨mid, hmid, hlast⟩ := Transition.exec_append.mp hpool'
  obtain rfl : mid = pool := Option.some.inj (hmid.symm.trans hpool)
  obtain ⟨next, hstep, hnil⟩ := Transition.exec_cons_eq_some.mp hlast
  cases hnil
  have hnone := hall .default 0 crossingBefore mid 1 _ pool' hpool hstep
    ⟨of_decide_eq_true hrunner, 5, hcount.le, of_decide_eq_true hwatch⟩
  rw [hmode] at hnone
  cases hnone

section Runs

variable {started : Instant} {before after : List DeskLabel} {pool pool' last : DeskPool} {t : ℕ}
  {env : ℕ → Reading}

/-- The watch starts its STOP in the mode that the runner had when its segment began, if it
waited for the intent lock, and without a motion else. -/
theorem mode_iff_of_startsWatch
    (hexec : Transition.exec (step (deskSystem settings)) (deskStart settings started) before =
      some pool) (hstep : step (deskSystem settings) pool (.run t env) = some pool')
    (hstarts : StartsWatch t pool pool') :
    pool'.mem.vars.desk.control.mode = .none ↔
      (pool.mem.shape t = some (.runner, .waiting (.lock .intent none)) →
        pool.mem.vars.desk.control.mode = .none) := by
  have hstepped := stepped_contract contracted_watch hexec hstep
  have hkept := kept_of_exec hexec
  obtain ⟨hrunner, u, hu, hwatch⟩ := hstarts
  generalize hm : pool'.mem = m' at hstepped hwatch ⊢
  cases hstepped with
  | drop htask =>
    -- A runner that is dropped creates nothing.
    have hjob : pool.mem.job u = some watchStop := by
      rw [← hwatch]
      exact (Elsewhere.job_alter pool.mem t
        (f := fun k => { k with status := .finished (.error .cancelled) }) (fun _ => rfl) u).symm
    rw [Mem.job, hkept.absent u hu] at hjob
    cases hjob
  | @run _ _ _ p q hsegment =>
    have hsame := hsegment.reach.sameSegment
    have hstart : q.start = pool.mem := hsame.start.trans hsegment.start
    have htask : q.task = t := hsame.task.trans hsegment.task
    have hjob : q.job = .runner := hsame.job.trans (hsegment.job_self hrunner)
    have hnot : ¬ q.Created NotWatch := by
      intro hcreated
      rw [hsegment.closes.job u] at hwatch
      have habsent := hsegment.reach.elsewhere.absent
        (hsegment.wakes.elsewhere.absent (hsegment.start ▸ hkept.absent))
      have hlt : u < q.mem.count := by
        by_contra hle
        rw [Mem.job, habsent u (not_lt.mp hle)] at hwatch
        cases hwatch
      exact hcreated u _ (hstart ▸ hu) hlt hwatch rfl
    have hu : Undisturbed q := by
      obtain ⟨status, _, hstopped⟩ := hsegment.shape_self hkept.absent
      cases hstopped with
      | waiting w h => exact (h.2 hjob).resolve_left hnot
      | pausing h => exact absurd (h.2 hjob) hnot
      | finished r h => exact absurd (h.2 hjob) hnot
    rw [hsegment.closes.vars, hu.control, hstart]
    constructor
    · exact fun hmode _ => hmode
    · intro hidle
      by_cases hwaits : Waits q (.lock .intent none)
      · rw [Waits, hstart, htask, hjob] at hwaits
        exact hidle hwaits
      · rw [← hstart, ← hu.control]
        exact hu.mode hwaits

/-- A runner that waits for the intent lock has found no motion, and there is none. -/
def RunnersIdle (m : Memory) : Prop :=
  ∀ u, m.shape u = some (.runner, .waiting (.lock .intent none)) →
    m.vars.desk.control.mode = .none

/-- The part of a segment that begins without a motion: it ends without one, or it has
installed an intent. -/
def InstallsOrRests (m : Memory) (v : Vars) : Prop :=
  ∃ new, v.trace = new ++ m.vars.trace ∧
    (m.vars.desk.control.mode = .none →
      v.desk.control.mode = .none ∨ ∃ e ∈ new, e.isInstalled = true)

theorem Change.installsOrRests {p q : Spot} {v : Vars} (h : Change settings q v)
    (hq : InstallsOrRests p.start q.mem.vars) : InstallsOrRests p.start v := by
  obtain ⟨old, hold, hbefore⟩ := hq
  obtain ⟨_, new, hnew, hafter⟩ := h.grows
  refine ⟨new ++ old, by rw [hnew, hold, List.append_assoc], fun hmode => ?_⟩
  rcases hbefore hmode with hrests | ⟨e, he, hinstalled⟩
  · rcases (hafter hrests).1 with hrests' | ⟨e, he, hinstalled⟩
    · exact .inl hrests'
    · exact .inr ⟨e, List.mem_append_left old he, hinstalled⟩
  · exact .inr ⟨e, List.mem_append_right new he, hinstalled⟩

/-- **A runner that waits for the intent lock finds no motion**, if no intent is installed
meanwhile. -/
theorem DeskRun.runnersIdle {ls : List DeskLabel}
    (h : DeskRun settings (installsNothing settings) started ls pool) :
    RunnersIdle pool.mem := by
  refine h.keeps_quiet (V := fun p v => InstallsOrRests p.start v) (fun u hu => by cases hu)
    ?_ ?_ ?_ ?_
  · intro m m' hquiet hi u hu
    rw [hquiet.vars]
    exact hi u (hquiet.waits hu)
  · exact fun pool pool' p _ _ _ _ _ => ⟨[], rfl, .inl⟩
  · exact fun p q v _ hq hchange => hchange.installsOrRests hq
  · intro pool pool' p q hk hok hi hstart hstep hq hvars hsegment u hu
    rw [hstart, ← hvars] at hq
    rcases hsegment.shape_cases hk.absent hu with ⟨_, hjob, hstopped⟩ | ⟨hne, hold | ⟨_, hready⟩⟩
    · cases hstopped with
      | waiting w hsuspends =>
        rw [hvars]
        exact hsuspends.idle (hsegment.reach.sameSegment.job.trans hjob.symm) rfl
    · obtain ⟨new, hnew, hrests⟩ := hq
      refine (hrests (hi u hold)).resolve_right ?_
      rintro ⟨e, he, hinstalled⟩
      rw [hok u pool' new hne hold hstep hnew e he] at hinstalled
      cases hinstalled
    · cases hready

/-- **The watch stops no motion of the controller**, if no intent is installed while a
runner waits for the intent lock: there is no motion when its STOP starts, and every later
one is newer than the status that the watch has read. -/
theorem watch_idle
    (hrun : DeskRun settings (installsNothing settings) started (before ++ .run t env :: after)
      last)
    (hexec : Transition.exec (step (deskSystem settings)) (deskStart settings started) before =
      some pool) (hstep : step (deskSystem settings) pool (.run t env) = some pool')
    (hstarts : StartsWatch t pool pool') :
    pool'.mem.vars.desk.control.mode = .none ∧
      (last.mem.vars.desk.control.mode ≠ .none →
        pool'.mem.vars.desk.control.generation < last.mem.vars.desk.control.generation) := by
  have hbefore : DeskRun settings (installsNothing settings) started before pool :=
    ⟨(Transition.meets_append hrun.meets).1, hexec⟩
  have hmode := (mode_iff_of_startsWatch hexec hstep hstarts).mpr (hbefore.runnersIdle t)
  refine ⟨hmode, fun hlast => ?_⟩
  have hkept : DeskKept settings pool' :=
    kept_of_exec (Transition.exec_append.mpr ⟨pool, hexec, Transition.exec_cons hstep []⟩)
  obtain ⟨mid, hmid, hrest⟩ := Transition.exec_append.mp hrun.exec
  obtain rfl : mid = pool := Option.some.inj (hmid.symm.trans hexec)
  rw [Transition.exec_cons hstep] at hrest
  rcases later_of_exec hkept hrest with hlater | hrefines
  · exact hlater
  · exact absurd (hrefines.mode.trans hmode) hlast

end Runs

def waitsAsRunner : Task deskSignature → Bool
  | ⟨.runner, .waiting (.lock .intent none), _⟩ => true
  | _ => false

/-- The condition of `watch_idle`, computed. -/
def checkInstallsNothing (pool : DeskPool) : DeskLabel → Bool
  | .run t env => (step (deskSystem .default) pool (.run t env)).all fun pool' =>
      ((List.range pool.mem.count).all fun u =>
        u == t || (pool.mem.task u).all (!waitsAsRunner ·)) ||
      pool'.mem.vars.trace.countP Event.isInstalled == pool.mem.vars.trace.countP Event.isInstalled
  | _ => true

theorem installsNothing_of_checked (pool : DeskPool) (l : DeskLabel)
    (hkept : DeskKept .default pool) (h : checkInstallsNothing pool l = true) :
    installsNothing .default pool l := by
  cases l with
  | call _ => trivial
  | cancel _ => trivial
  | run t env =>
    intro u pool' new hne hu hstep hnew e he
    rw [checkInstallsNothing, hstep] at h
    rcases Bool.or_eq_true_iff.mp h with hnone | hsame
    · have hwaits := List.all_eq_true.mp hnone u
        (List.mem_range.mpr (lt_count_of_shape hkept.absent hu))
      obtain ⟨cancelled, htask⟩ := Mem.shape_eq_some.mp hu
      rw [htask] at hwaits
      simp [waitsAsRunner, hne] at hwaits
    · rw [hnew, List.countP_append, beq_iff_eq, Nat.add_eq_right] at hsame
      simpa using List.countP_eq_zero.mp hsame e he

/-- A target at the height of the desk is stopped at once; the runner finds its desk at rest
and waits for the intent lock, which the target still has. -/
def waitingBefore : List DeskLabel :=
  bootRun ++
    [.call (.setTarget (.int 90)), .run 2 fun _ => readingAt 2, .run 3 fun _ => readingAt 2,
      .run 3 fun _ => readingAt 3, .run 1 fun _ => readingAt 3, .run 2 fun _ => readingAt 3]

/-- The watch stops a relay that moves by itself, after a wait for the intent lock. -/
theorem watch_idle_foreign : ∃ pool pool' : DeskPool,
    (pool.mem.task 1).map waitsAsRunner = some true ∧
      StartsWatch 1 pool pool' ∧ pool'.mem.vars.desk.control.mode = .none := by
  have hbefore : (Transition.exec (step (deskSystem .default)) (deskStart .default 0)
      waitingBefore).map (fun pool => (pool.mem.count, decide (pool.mem.job 1 = some .runner),
        (pool.mem.task 1).map waitsAsRunner)) = some (4, true, some true) := by
    decide +kernel
  have hrun : (Transition.exec (step (deskSystem .default)) (deskStart .default 0)
      (waitingBefore ++ [.run 1 fun _ => movingAt 5])).map (fun pool =>
        decide (pool.mem.job 4 = some watchStop)) = some true := by
    decide +kernel
  have hchecked : Transition.Meets (step (deskSystem .default))
      (fun pool l => checkInstallsNothing pool l = true) (deskStart .default 0)
      (waitingBefore ++ [.run 1 fun _ => movingAt 5]) := by
    decide +kernel
  obtain ⟨pool, hpool, hstate⟩ := Option.map_eq_some_iff.mp hbefore
  obtain ⟨pool', hpool', hwatch⟩ := Option.map_eq_some_iff.mp hrun
  obtain ⟨hcount, hstate⟩ := Prod.mk.inj hstate
  obtain ⟨hrunner, hwaits⟩ := Prod.mk.inj hstate
  obtain ⟨mid, hmid, hlast⟩ := Transition.exec_append.mp hpool'
  obtain rfl : mid = pool := Option.some.inj (hmid.symm.trans hpool)
  obtain ⟨next, hstep, hnil⟩ := Transition.exec_cons_eq_some.mp hlast
  cases hnil
  have hstarts : StartsWatch 1 mid pool' :=
    ⟨of_decide_eq_true hrunner, 4, hcount.le, of_decide_eq_true hwatch⟩
  have hdesk : DeskRun .default (installsNothing .default) 0
      (waitingBefore ++ .run 1 (fun _ => movingAt 5) :: []) pool' :=
    .of_checked checkInstallsNothing installsNothing_of_checked hchecked hpool'
  exact ⟨mid, pool', hwaits, hstarts, (watch_idle hdesk hpool hstep hstarts).1⟩

end SmartDesk.Desk
