import SmartDesk.Desk.Guards

/-!
# The motion intents keep the guarantee

The operations that install a motion intent, under the intent lock.

* `formed_waking`, `shown_waking`, … — the new control states are well formed.
* `runs_install` — **an intent is installed** only by the holder of the intent lock,
  while the controller runs and no STOP is in progress.
* `runs_beginWake`, `runs_setTarget`, `runs_adjustTarget`, `runs_hold` — the operations.
-/

namespace SmartDesk.Desk

open Coroutine Code

variable {settings : DeskSettings} {p : Spot}

/-! ## New control states -/

/-- A target inside the operation range. -/
def InRange (settings : DeskSettings) (target : Ieee) : Prop :=
  Ieee.finite settings.operationMinCm ≤ target ∧ target ≤ Ieee.finite settings.operationMaxCm

/-- The target fits the mode of the intent. -/
structure Fits (settings : DeskSettings) (mode : MotionMode) (target : Option Ieee) : Prop where
  moving : mode ≠ .none
  aimed : mode = .target ↔ ∃ x, target = some x
  range : ∀ x, target = some x → InRange settings x

theorem formed_waking {mode : MotionMode} {direction : Direction} {target : Option Ieee}
    {detail : String} {updatedAt observedAt : Instant} {generation : ℕ} {startedAt : Ieee}
    (h : Fits settings mode target) :
    Formed settings
      (.waking mode direction target detail updatedAt generation observedAt startedAt) where
  target := h.aimed
  range := h.range
  phase := by
    show mode = .target ↔ ∃ phase, (if mode = .target then some TargetPhase.continuous else none) =
      some phase
    by_cases hmode : mode = .target
    · simp [hmode]
    · simp [hmode]
  direction := by
    show some direction = none ↔ mode = .none ∨
      (if mode = .target then some TargetPhase.continuous else none) = some .settling
    have hmoving := h.moving
    by_cases hmode : mode = .target
    · simp [hmode]
    · simp [hmode, hmoving]
  observed := fun _ => ⟨⟨observedAt, rfl⟩, startedAt, rfl⟩
  waking := fun _ => rfl

theorem shown_waking {mode : MotionMode} {direction : Direction} {target : Option Ieee}
    {detail : String} {updatedAt observedAt : Instant} {generation : ℕ} {startedAt : Ieee}
    (h : mode ≠ .none) :
    Shown (.waking mode direction target detail updatedAt generation observedAt startedAt) where
  resting := by simp [ControlState.waking, DeskState.resting, h]
  waking := by simp [ControlState.waking]
  manual := by simp [ControlState.waking]
  moving := by simp [ControlState.waking]

theorem formed_towards {target : Ieee} {direction : Direction} {updatedAt : Instant}
    {generation : ℕ} (h : InRange settings target) :
    Formed settings (.towards target direction updatedAt generation) where
  target := by simp [ControlState.towards]
  range := by
    rintro x ⟨⟩
    exact h
  phase := by simp [ControlState.towards]
  direction := by simp [ControlState.towards]
  observed := fun h => by cases h
  waking := fun h => by cases h

theorem shown_towards {target : Ieee} {direction : Direction} {updatedAt : Instant}
    {generation : ℕ} : Shown (.towards target direction updatedAt generation) where
  resting := by simp [ControlState.towards, DeskState.resting]
  waking := by simp [ControlState.towards]
  manual := by simp [ControlState.towards]
  moving := by simp [ControlState.towards]

theorem formed_manually {direction : Direction} {updatedAt : Instant} {generation : ℕ} :
    Formed settings (.manually direction updatedAt generation) where
  target := by simp [ControlState.manually]
  range := by
    rintro x ⟨⟩
  phase := by simp [ControlState.manually]
  direction := by simp [ControlState.manually]
  observed := fun h => by cases h
  waking := fun h => by cases h

theorem shown_manually {direction : Direction} {updatedAt : Instant} {generation : ℕ} :
    Shown (.manually direction updatedAt generation) where
  resting := by simp [ControlState.manually, DeskState.resting]
  waking := by simp [ControlState.manually]
  manual := by simp [ControlState.manually]
  moving := by simp [ControlState.manually]

/-! ## Small changes -/

theorem Keeps.refl (c : ControlState) : Keeps settings c c := ⟨id, fun _ => id, fun _ => rfl⟩

/-- Only texts and times of the control state change. -/
theorem Keeps.detail (c : ControlState) (detail : String) (updatedAt : Instant) :
    Keeps settings c { c with detail := detail, updatedAt := updatedAt } where
  formed := fun h => ⟨h.target, h.range, h.phase, h.direction, h.observed, h.waking⟩
  shown := fun _ h => ⟨h.resting, h.waking, h.manual, h.moving⟩
  rest := fun _ => rfl

/-- A change of fields that are not part of the control state. -/
theorem Change.fields {v : Vars} (hflags : SameFlags p.mem.vars.desk v.desk)
    (hcontrol : v.desk.control = p.mem.vars.desk.control)
    (hpending : Wanes p.mem.vars.desk v.desk) (htrace : v.trace = p.mem.vars.trace) :
    Change settings p v := by
  refine .refine hflags ?_ ?_ hpending htrace
  · rw [hcontrol]
    exact .refl _
  · rw [hcontrol]
    exact .refl _

/-- A pending startup WAKE is cancelled. -/
theorem Change.cancelPending (settings : DeskSettings) (p : Spot) :
    Change settings p
      { p.mem.vars with desk := p.mem.vars.desk.cancelStartupWakePendingLocked } :=
  .fields ⟨rfl, rfl, rfl, rfl⟩ rfl (.inr rfl) rfl

/-- A change of the fields that keeps the flags. -/
theorem runs_modify_flags {f : DeskController → DeskController} (hp : Home p)
    (hflags : SameFlags p.mem.vars.desk (f p.mem.vars.desk))
    (hchange : Change settings p { p.mem.vars with desk := f p.mem.vars.desk }) :
    Runs settings (modify f) p fun p' r =>
      Back p p' ∧ r = .ok () ∧ p' = p.setVars { p.mem.vars with desk := f p.mem.vars.desk } :=
  ⟨hchange, ⟨hp.setVars hflags, .change hchange⟩, rfl, rfl⟩

/-- The same with a record of the change. -/
theorem runs_modifyNote_flags {f : DeskController → DeskController}
    {event : DeskController → Event} (hp : Home p)
    (hflags : SameFlags p.mem.vars.desk (f p.mem.vars.desk))
    (hchange : Change settings p
      { p.mem.vars with
        desk := f p.mem.vars.desk, trace := event p.mem.vars.desk :: p.mem.vars.trace }) :
    Runs settings (modifyNote f event) p fun p' r =>
      Back p p' ∧ r = .ok () ∧ p' = p.setVars
        { p.mem.vars with
          desk := f p.mem.vars.desk, trace := event p.mem.vars.desk :: p.mem.vars.trace } :=
  ⟨hchange, ⟨hp.setVars hflags, .change hchange⟩, rfl, rfl⟩

theorem runs_cancelStartupWakePending (hp : Home p) (hlock : HasLock p .intent) :
    Runs settings cancelStartupWakePending p fun p' r =>
      Back p p' ∧ r = .ok () ∧ p' = p.setVars
        { p.mem.vars with
          desk := p.mem.vars.desk.cancelStartupWakePendingLocked
          trace := .commanded :: p.mem.vars.trace } :=
  runs_modifyNote_flags hp ⟨rfl, rfl, rfl, rfl⟩ (.command ⟨rfl, rfl, rfl, rfl⟩ rfl hlock rfl rfl)

/-! ## Installing an intent -/

/-- The operation may install a new intent in the place of `found`. -/
structure Entitled (settings : DeskSettings) (p : Spot) (found new : ControlState) : Prop where
  lock : HasLock p .intent
  cleared : Cleared p
  handsOver : HandsOver settings p found new
  startup : new.mode = .wake → StartsUp p

theorem Reads.startsUp {q : Spot} (h : Reads p q) (hs : StartsUp p) : StartsUp q := by
  obtain ⟨n, rfl⟩ := h
  exact hs

theorem Reads.entitled {q : Spot} {found new : ControlState} (h : Reads p q)
    (he : Entitled settings p found new) : Entitled settings q found new :=
  ⟨h.lock he.lock, h.cleared he.cleared, h.handsOver he.handsOver,
    fun hmode => h.startsUp (he.startup hmode)⟩

/-- **An intent is installed.** -/
theorem runs_install {relay : RelaySnapshot} {found new : ControlState}
    {motionStartedAt lastHoldAt nextRefreshAt : Option Ieee} (hp : Home p)
    (hentitled : Entitled settings p found new) (hadmitted : Admitted p.mem.vars.desk)
    (hgeneration : p.mem.vars.desk.control.generation < new.generation)
    (hmode : new.mode ≠ .none)
    (hformed : Formed settings new) (hshown : Shown new) :
    Runs settings
      (modifyNote (.withIntent relay new motionStartedAt lastHoldAt nextRefreshAt)
        fun _ => .installed found new) p fun p' r =>
      Back p p' ∧ r = .ok () ∧ HasLock p' .intent ∧ p'.mem.vars.desk.control = new ∧
        ∃ older, p'.mem.vars.trace = .installed found new :: older := by
  rw [runs_modifyNote]
  have hflags : SameFlags p.mem.vars.desk
      (p.mem.vars.desk.withIntent relay new motionStartedAt lastHoldAt nextRefreshAt) :=
    ⟨rfl, rfl, rfl, rfl⟩
  have hchange : Change settings p
      { p.mem.vars with
        desk := p.mem.vars.desk.withIntent relay new motionStartedAt lastHoldAt nextRefreshAt
        trace := .installed found new :: p.mem.vars.trace } :=
    .install found hentitled.lock hadmitted.running hadmitted.closing hadmitted.stopInProgress
      hflags hgeneration hmode hformed hshown hentitled.cleared rfl
      hentitled.handsOver hentitled.startup rfl
  exact ⟨hchange, ⟨hp.setVars hflags, .change hchange⟩, rfl, hentitled.lock, rfl, _, rfl⟩

theorem runs_installTarget {target : Ieee} {direction : Direction} {relay : RelaySnapshot}
    {found : ControlState} (hp : Home p) (hrange : InRange settings target)
    (hentitled : ∀ new, new.mode = .target → Entitled settings p found new) :
    Runs settings (installTarget target direction relay found) p fun p' _ => Back p p' := by
  unfold installTarget
  rw [runs_bind]
  refine runs_requireRunningLocked (fun hrunning hclosing hfree => ?_) fun e _ => .refl hp
  dsimp only
  rw [runs_bind, runs_fields]
  dsimp only
  rw [runs_bind, runs_now]
  dsimp only
  rw [runs_bind, runs_monotonic]
  dsimp only
  have hread : Reads p p.next.next := (Reads.refl p).next.next
  refine (runs_install (hread.fit hp) (hread.entitled (hentitled _ rfl))
    ⟨hrunning, hclosing, hfree⟩ (Nat.lt_succ_self _) (by simp [ControlState.towards])
    (formed_towards hrange) shown_towards).mono ?_
  rintro p' r ⟨hback, _⟩
  exact hread.backTrans hback

theorem runs_installManual {direction : Direction} {relay : RelaySnapshot}
    {found : ControlState} (hp : Home p)
    (hentitled : ∀ new, new.mode = .manual → Entitled settings p found new) :
    Runs settings (installManual direction relay found) p fun p' _ => Back p p' := by
  unfold installManual
  rw [runs_bind]
  refine runs_requireRunningLocked (fun hrunning hclosing hfree => ?_) fun e _ => .refl hp
  dsimp only
  rw [runs_bind, runs_fields]
  dsimp only
  rw [runs_bind, runs_monotonic]
  dsimp only
  rw [runs_bind, runs_now]
  dsimp only
  have hread : Reads p p.next.next := (Reads.refl p).next.next
  refine (runs_install (hread.fit hp) (hread.entitled (hentitled _ rfl))
    ⟨hrunning, hclosing, hfree⟩ (Nat.lt_succ_self _) (by simp [ControlState.manually])
    formed_manually shown_manually).mono ?_
  rintro p' r ⟨hback, _⟩
  exact hread.backTrans hback

/-! ## WAKE -/

theorem isConfirming_wake {generation : ℕ} {direction : Direction} {basisHeightCm : Ieee}
    {w : Wait deskSignature}
    (hw : w = .lock .relayIo (some (.wake generation direction basisHeightCm)) ∨
      w = .call (.wake generation direction basisHeightCm)) : isConfirming w = false := by
  rcases hw with rfl | rfl <;> rfl

theorem suspends_wake {generation : ℕ} {direction : Direction} {basisHeightCm : Ieee}
    {w : Wait deskSignature}
    (hw : w = .lock .relayIo (some (.wake generation direction basisHeightCm)) ∨
      w = .call (.wake generation direction basisHeightCm)) (hp : Home p)
    (hgeneration : w = .lock .relayIo (some (.wake generation direction basisHeightCm)) →
      WakeInstalled p generation) : Suspends settings p w where
  calm := .inr (hp.calm rfl)
  shut := hp.shut
  manned := hp.manned
  unhindered := hp.unhindered
  latched := fun h => by rw [isConfirming_wake hw] at h; cases h
  wake := by
    rintro generation' direction' basis' rfl
    rcases hw with h | h
    · cases h
      exact hgeneration rfl
    · cases h
  confirms := by
    rintro baseline deadline rfl
    rcases hw with h | h <;> cases h
  child := by
    rintro u rfl
    rcases hw with h | h <;> cases h
  runner := by
    intro _
    rcases hw with rfl | rfl <;> exact .inr trivial
  idle := by
    intro _ hlock
    rcases hw with rfl | rfl <;> cases hlock

/-- How `sendWake` ends. -/
def SendWakeEnds (p p' : Spot) (r : Except (Raised Exc) (Option String)) : Prop :=
  Back p p' ∧ ∀ e, r = .error e → e = .cancelled ∧ Told p'.start p'.task

/-- **A WAKE is sent** for the generation that was current when the task asked for the
relay I/O lock. -/
theorem runs_sendWake {generation : ℕ} {direction : Direction} {basisHeightCm : Ieee}
    (hp : Home p) (hinstalled : WakeInstalled p generation) :
    Runs settings (sendWake generation direction basisHeightCm) p (SendWakeEnds p) := by
  have hbody : ∀ q, After p q → Home q → HasLock q .relayIo → HasLock q .intent →
      (JustInstalled q.mem.vars generation ∨
        (Waits q (.lock .relayIo (some (.wake generation direction basisHeightCm))) ∧
          ¬ Told q.start q.task ∧ q.mem.vars = q.start.vars)) →
      Runs settings
        (exceptError
          (do
            note fun d => .wake d generation direction basisHeightCm
            let _ ← Prog.wait (.call (.wake generation direction basisHeightCm))
            return none)
          fun error => return some error.text) q
        (Unlocks (S := deskSignature) DeskLock.relayIo (SendWakeEnds p)) := by
    intro q hafter hhome hio hintent hcurrent
    rw [runs_exceptError, runs_bind, note, runs_modifyNote]
    have hchange : Change settings q
        { q.mem.vars with
          trace := .wake q.mem.vars.desk generation direction basisHeightCm :: q.mem.vars.trace } :=
      .wake generation direction basisHeightCm rfl hintent hcurrent rfl
    refine ⟨hchange, ?_⟩
    have hhome' := hhome.setTrace
      (.wake q.mem.vars.desk generation direction basisHeightCm :: q.mem.vars.trace)
    dsimp only
    rw [runs_bind]
    refine safe_wait (S := deskSignature) rfl
      (suspends_wake (.inr rfl) hhome' fun h => by cases h) ?_
    intro p' r hr
    have hwoken := woken_of_resumes hr
    have hio' : HasLock p' .relayIo := hwoken.owner _ hio
    have hafter' : After p p' := hafter.trans ((After.change hchange).trans hwoken.toAfter)
    have hrelease : After p (p'.setMem (p'.mem.release .relayIo)) :=
      hafter'.trans (Still.refl p').release.toAfter
    have hcalm : Calm p' := hwoken.calm rfl
    have hfit : (∀ i, ∃ j, p'.env i = p'.given j) → Home p' := fun henv =>
      hwoken.fit henv (fun _ => hcalm) fun hl => by cases hl
    rcases resumes_call (fun _ _ h => by cases h) hr with
      ⟨htold, henv, rfl⟩ | ⟨henv, ⟨_, rfl⟩ | ⟨text, _, rfl⟩⟩
    · refine ⟨hio', ⟨(hfit fun i => ⟨i, by rw [henv]⟩).release, hrelease⟩, ?_⟩
      rintro e ⟨⟩
      exact ⟨rfl, htold⟩
    · exact ⟨hio', ⟨(hfit fun i => ⟨i + 1, by rw [henv]⟩).release, hrelease⟩,
        fun _ h => by cases h⟩
    · exact ⟨hio', ⟨(hfit fun i => ⟨i + 1, by rw [henv]⟩).release, hrelease⟩,
        fun _ h => by cases h⟩
  unfold sendWake
  refine safe_withLock (S := deskSignature)
    (fun _ => suspends_wake (.inl rfl) hp fun _ => hinstalled) ?_ ?_ ?_
  · intro _
    exact hbody _ (Still.refl p).take.toAfter hp.take (hasLock_taken p)
      (hasLock_take hinstalled.lock) (.inl hinstalled.installed)
  · intro p' hr
    have hwoken := woken_of_resumes hr
    obtain ⟨hio, henv⟩ := locked_of_resumes hr
    exact hbody p' hwoken.toAfter (hwoken.home henv rfl) hio (hwoken.lock hinstalled.lock)
      (.inr ⟨hwoken.waited, not_told_of_resumes_lock hr, hwoken.vars⟩)
  · intro p' hr
    have hwoken := woken_of_resumes hr
    obtain ⟨htold, henv⟩ := told_of_resumes_lock hr
    refine ⟨⟨hwoken.home henv rfl, hwoken.toAfter⟩, ?_⟩
    rintro e ⟨⟩
    exact ⟨rfl, htold⟩

/-- Why `_begin_wake` raises before it installs its intent. -/
inductive WakeRefused (p : Spot) (basis : HeightSnapshot) : Exc → Prop where
  | assertion (h : basis.heightCm = none ∨ basis.observedAt = none) :
      WakeRefused p basis .assertionError
  | declined (e : Exc) (h : Declined p.mem.vars.desk e) : WakeRefused p basis e

/-- How `_begin_wake` ends. -/
def BeginWakeEnds (settings : DeskSettings) (basis : HeightSnapshot) (p p' : Spot) :
    Except (Raised Exc) Unit → Prop
  | .ok _ => True
  | .error .cancelled => Broken settings p'
  | .error (.error e) => (p' = p ∧ WakeRefused p basis e) ∨
      (Broken settings p' ∧ ∀ text, e = .rejected text → ChildRaised p' e)

/-- **A WAKE intent**: it is installed, and the WAKE is sent. -/
theorem runs_beginWake {mode : MotionMode} {direction : Direction} {target : Option Ieee}
    {basis : HeightSnapshot} {relay : RelaySnapshot} {detail : String} {found : ControlState}
    (hp : Home p) (hfits : Fits settings mode target)
    (hentitled : p.mem.vars.desk.control.awaitingFreshHeight = false →
      ∀ new, new.mode = mode → new.direction = some direction → Entitled settings p found new) :
    Runs settings (beginWake mode direction target basis relay detail found) p fun p' r =>
      Back p p' ∧ BeginWakeEnds settings basis p p' r := by
  unfold beginWake
  rw [runs_bind, runs_assertSome]
  refine ⟨fun basisHeightCm _ => ?_, fun h => ⟨.refl hp, .inl ⟨rfl, .assertion (.inl h)⟩⟩⟩
  dsimp only
  rw [runs_bind, runs_assertSome]
  refine ⟨fun observedAt _ => ?_, fun h => ⟨.refl hp, .inl ⟨rfl, .assertion (.inr h)⟩⟩⟩
  dsimp only
  rw [runs_bind]
  refine runs_requireRunningLocked (fun hrunning hclosing hfree => ?_) fun e he =>
    ⟨.refl hp, .inl ⟨rfl, .declined e (.inr he)⟩⟩
  dsimp only
  rw [runs_bind, runs_fields]
  dsimp only
  rw [runs_bind, runs_require]
  refine ⟨fun hquiet => ?_, fun _ => ⟨.refl hp, .inl ⟨rfl, .declined _ (.inl ⟨_, rfl⟩)⟩⟩⟩
  dsimp only
  rw [runs_bind, runs_monotonic]
  dsimp only
  rw [runs_bind, runs_now]
  dsimp only
  rw [runs_bind]
  have hread : Reads p p.next.next := (Reads.refl p).next.next
  have hentitled' := hread.entitled (hentitled (by simpa using hquiet)
    (.waking mode direction target detail (p.env 1).now (p.mem.vars.desk.control.generation + 1)
      observedAt (p.env 0).monotonic) rfl rfl)
  refine (runs_install (hread.fit hp) hentitled' ⟨hrunning, hclosing, hfree⟩ (Nat.lt_succ_self _)
    hfits.moving (formed_waking hfits) (shown_waking hfits.moving)).mono ?_
  rintro q r ⟨hback, rfl, hlock, hcontrol, older, htrace⟩
  dsimp only
  have hback₀ : Back p q := hread.backTrans hback
  rw [runs_bind]
  have hinstalled : WakeInstalled q (p.mem.vars.desk.control.generation + 1) := by
    refine ⟨⟨found, older, ?_, ?_, ?_⟩, hlock, fun hmode => ?_⟩
    · rw [hcontrol]
      exact htrace
    · rw [hcontrol]
      rfl
    · rw [hcontrol]
      rfl
    · rw [hcontrol] at hmode
      exact hback₀.after.job.trans (hentitled'.startup hmode).1
  refine (runs_sendWake hback.home hinstalled).mono ?_
  rintro p' (e | wakeError) ⟨hback', hcancelled⟩
  · obtain ⟨rfl, htold⟩ := hcancelled e rfl
    exact ⟨hback₀.trans hback', .inl htold⟩
  cases wakeError with
  | none => exact ⟨hback₀.trans hback', trivial⟩
  | some text =>
    dsimp only
    rw [runs_bind, runs_fields]
    dsimp only
    rw [runs_ite]
    refine ⟨fun _ => ?_, fun _ => ⟨hback₀.trans hback', trivial⟩⟩
    refine (runs_stopMotion hback'.home fun _ => .inr (by decide)).mono ?_
    rintro p'' r ⟨hback'', hends⟩
    refine ⟨(hback₀.trans hback').trans hback'', ?_⟩
    rcases r with (_ | e) | u
    · exact hends
    · exact .inr hends
    · trivial

/-! ## Targets -/

/-- What an operation may rely on before it installs an intent: the intent lock, a
cancelled startup WAKE, and a motion that is over. -/
structure Prepared (p : Spot) (found : ControlState) : Prop where
  lock : HasLock p .intent
  cleared : Cleared p
  handsOver : found.mode = .none ∨ StopConfirmed p.mem.vars.trace
  user : p.job ≠ .runner

theorem Prepared.entitled {found new : ControlState} (h : Prepared p found)
    (hmode : new.mode ≠ .wake) : Entitled settings p found new :=
  ⟨h.lock, h.cleared, h.handsOver.imp_right .inl, fun hwake => absurd hwake hmode⟩

theorem Reads.prepared {q : Spot} {found : ControlState} (h : Reads p q)
    (hp : Prepared p found) : Prepared q found := by
  obtain ⟨n, rfl⟩ := h
  exact ⟨hp.lock, hp.cleared, hp.handsOver, hp.user⟩

/-- After its exchange an operation is prepared for the new intent. -/
theorem Exchanged.prepared {q : Spot} {found : ControlState} {status : RelaySnapshot}
    (h : Exchanged settings p q (.stop status)) (hback : Back p q) (hlock : HasLock p .intent)
    (huser : p.job ≠ .runner) (hstart : p.job ≠ .start) : Prepared q found where
  lock := hback.after.lock hlock
  cleared := by
    obtain ⟨w, hwaits, hconfirming, _⟩ := h.waits
    refine .inr ⟨⟨_, w, hwaits, hconfirming⟩, ?_, h.pending⟩
    rw [hback.after.job]
    exact hstart
  handsOver := .inr ((h.still hlock).2 status rfl)
  user := by
    rw [hback.after.job]
    exact huser

theorem runs_setSensorCheckNeeded {target : Ieee} (hp : Home p) :
    Runs settings (setSensorCheckNeeded target) p fun p' _ => Back p p' := by
  unfold setSensorCheckNeeded
  rw [runs_bind]
  refine runs_requireRunningLocked (fun _ _ hfree => ?_) fun e _ => .refl hp
  dsimp only
  rw [runs_bind, runs_now]
  dsimp only
  have hread : Reads p p.next := (Reads.refl p).next
  refine (runs_modify_flags (hread.fit hp) ⟨rfl, rfl, rfl, rfl⟩ ?_).mono ?_
  · exact .drop ⟨rfl, rfl, rfl, rfl⟩ (.inl hfree) ⟨Nat.lt_succ_self _, _, _, _, rfl, rfl⟩
      (.inl rfl) rfl
  · rintro p' r ⟨hback, _⟩
    exact hread.backTrans hback

/-- A stop of the motion by an operation of a user. -/
theorem runs_stopMotion_user {detail : String} {errorDetail : Option String} (hp : Home p)
    (huser : p.job ≠ .runner) :
    Runs settings (stopMotion detail errorDetail) p fun p' _ => Back p p' :=
  (runs_stopMotion hp fun h => absurd h huser).mono fun _ _ h => h.1

theorem runs_approachTarget {target : Ieee} {found : ControlState} (hp : Home p)
    (hrange : InRange settings target) (hprepared : Prepared p found) :
    Runs settings (approachTarget settings target found) p fun p' _ => Back p p' := by
  unfold approachTarget
  rw [runs_bind, runs_height]
  dsimp only
  have hnext : Reads p p.next := (Reads.refl p).next
  rw [runs_ite]
  constructor
  · intro _
    rw [runs_bind]
    refine runs_requireWakeBasis.mono ?_
    rintro q (e | basis) ⟨rfl, _, _⟩
    · exact hnext.back hp
    dsimp only
    rw [runs_bind]
    refine runs_admitWake.mono ?_
    rintro q (e | relay) ⟨hread, _, _⟩
    · exact (hnext.trans hread).back hp
    dsimp only
    have hq := hnext.trans hread
    rw [runs_bind, runs_assertSome]
    refine ⟨fun basisHeightCm _ => ?_, fun _ => hq.back hp⟩
    dsimp only
    rw [runs_ite]
    constructor
    · intro _
      exact (runs_setSensorCheckNeeded (hq.fit hp)).mono fun _ _ h => hq.backTrans h
    · intro _
      rw [runs_bind]
      refine runs_requireDirectionAllowed.mono ?_
      rintro q' (e | u) ⟨rfl, _, _⟩
      · exact hq.back hp
      dsimp only
      have hfits : Fits settings .target (some target) :=
        ⟨by simp, by simp, by rintro x ⟨⟩; exact hrange⟩
      refine (runs_beginWake (hq.fit hp) hfits fun _ new hmode _ =>
        (hq.prepared hprepared).entitled (by rw [hmode]; simp)).mono ?_
      rintro p' r ⟨hback, _⟩
      exact hq.backTrans hback
  · intro _
    rw [runs_bind]
    refine runs_admitMotion.mono ?_
    rintro q (e | granted) ⟨hread, _, _⟩
    · exact (hnext.trans hread).back hp
    have hq := hnext.trans hread
    obtain ⟨snapshot, relay⟩ := granted
    dsimp only
    rw [runs_bind, runs_assertSome]
    refine ⟨fun heightCm _ => ?_, fun _ => hq.back hp⟩
    dsimp only
    rw [runs_ite]
    constructor
    · intro _
      exact (runs_stopMotion_user (hq.fit hp) (hq.prepared hprepared).user).mono
        fun _ _ h => hq.backTrans h
    · intro _
      rw [runs_bind]
      refine runs_requireDirectionAllowed.mono ?_
      rintro q' (e | u) ⟨rfl, _, _⟩
      · exact hq.back hp
      dsimp only
      exact (runs_installTarget (hq.fit hp) hrange fun new hmode =>
        (hq.prepared hprepared).entitled (by rw [hmode]; simp)).mono fun _ _ h => hq.backTrans h

/-- The handler of an invalid number raises again. -/
theorem runs_stopOnInvalid {α : Type} {detail : String} {c : Code α} {P : α → Prop} (hp : Home p)
    (huser : p.job ≠ .runner)
    (hc : Runs settings c p fun p' r => p' = p ∧ ∀ a, r = .ok a → P a) :
    Runs settings (stopOnInvalid detail c) p fun p' r =>
      Back p p' ∧ ∀ a, r = .ok a → p' = p ∧ P a := by
  have hstop : ∀ e : Exc, Runs settings
      (do
        if ← hasActiveMotion then stopMotion detail none
        throw e : Code α) p fun p' r => Back p p' ∧ ∀ a, r = .ok a → p' = p ∧ P a := by
    intro e
    rw [runs_bind, hasActiveMotion, runs_bind, runs_fields]
    dsimp only
    rw [runs_pure]
    dsimp only
    rw [runs_ite]
    constructor
    · intro _
      rw [runs_bind]
      refine (runs_stopMotion_user hp huser).mono ?_
      rintro p' (e | u) hback
      · exact ⟨hback, fun _ h => by cases h⟩
      · exact ⟨hback, fun _ h => by cases h⟩
    · intro _
      exact ⟨.refl hp, fun _ h => by cases h⟩
  unfold stopOnInvalid
  rw [runs_exceptError]
  refine hc.mono ?_
  rintro p' ((_ | e) | a) ⟨rfl, hok⟩
  · exact ⟨.refl hp, fun _ h => by cases h⟩
  · cases e with
    | typeError text => exact hstop (.typeError text)
    | valueError text => exact hstop (.valueError text)
    | rejected text => exact ⟨.refl hp, fun _ h => by cases h⟩
    | runtimeError text => exact ⟨.refl hp, fun _ h => by cases h⟩
    | overflowError text => exact ⟨.refl hp, fun _ h => by cases h⟩
    | assertionError => exact ⟨.refl hp, fun _ h => by cases h⟩
    | relay text => exact ⟨.refl hp, fun _ h => by cases h⟩
    | foreign text => exact ⟨.refl hp, fun _ h => by cases h⟩
  · refine ⟨.refl hp, ?_⟩
    rintro a' ⟨⟩
    exact ⟨rfl, hok a rfl⟩

theorem runs_validateNumber {value : PyValue} {label : String} :
    Runs settings (validateNumber value label) p fun p' r =>
      p' = p ∧ ∀ x, r = .ok x → x.isFinite = true := by
  have hfinite : ∀ x : Ieee, Runs settings
      (do
        require x.isFinite (.valueError (label ++ "은 finite 숫자여야 합니다."))
        return x : Code Ieee) p fun p' r => p' = p ∧ ∀ x, r = .ok x → x.isFinite = true := by
    intro x
    rw [runs_bind, runs_require]
    constructor
    · intro h
      refine ⟨rfl, ?_⟩
      rintro x' ⟨⟩
      exact h
    · intro _
      exact ⟨rfl, fun _ h => by cases h⟩
  unfold validateNumber
  cases value with
  | int n =>
    dsimp only
    cases Ieee.float64 n with
    | finite q => exact hfinite (.finite q)
    | nan => exact ⟨rfl, fun _ h => by cases h⟩
    | inf negative => exact ⟨rfl, fun _ h => by cases h⟩
  | float x => exact hfinite x
  | numeric x => exact hfinite x
  | raising e => exact ⟨rfl, fun _ h => by cases h⟩
  | bool b => exact ⟨rfl, fun _ h => by cases h⟩
  | other => exact ⟨rfl, fun _ h => by cases h⟩

theorem runs_validateTarget {value : PyValue} :
    Runs settings (validateTarget settings value) p fun p' r =>
      p' = p ∧ ∀ target, r = .ok target → InRange settings target := by
  unfold validateTarget
  rw [runs_bind]
  refine runs_validateNumber.mono ?_
  rintro p' (e | x) ⟨rfl, _⟩
  · exact ⟨rfl, fun _ h => by cases h⟩
  dsimp only
  rw [runs_bind, runs_require]
  constructor
  · intro hrange
    refine ⟨rfl, ?_⟩
    rintro x' ⟨⟩
    simpa [InRange] using hrange
  · intro _
    exact ⟨rfl, fun _ h => by cases h⟩

/-- A job of a user: neither the runner nor `start`. -/
structure OfUser (p : Spot) : Prop where
  runner : p.job ≠ .runner
  start : p.job ≠ .start

/-- The old motion is stopped, if there is one, and then the new one is prepared. -/
theorem runs_transition {α : Type} {detail : String} {found : ControlState} {moving : Bool}
    {c : Code α} (hp : Home p) (hlock : HasLock p .intent) (huser : OfUser p)
    (hcleared : p.mem.vars.desk.startupWakePending = none)
    (hmoving : moving = false → found.mode = .none)
    (hc : ∀ q, Back p q → Prepared q found → Runs settings c q fun p' _ => Back q p') :
    Runs settings
      (do
        if moving then stopForTransition settings detail
        c) p fun p' _ => Back p p' := by
  rw [runs_ite]
  constructor
  · intro _
    rw [runs_bind]
    refine (runs_stopForTransition hp).mono ?_
    rintro q (e | u) ⟨hback, hexchanged⟩
    · exact hback
    dsimp only
    obtain ⟨status, h⟩ := hexchanged u rfl
    exact (hc q hback (h.prepared hback hlock huser.runner huser.start)).mono
      fun _ _ h => hback.trans h
  · intro hstill
    exact hc p (.refl hp) ⟨hlock, .inl hcleared, .inl (hmoving (by simpa using hstill)),
      huser.runner⟩

theorem runs_setTarget {heightCm : PyValue} (hp : Home p) (hlock : HasLock p .intent)
    (huser : OfUser p) :
    Runs settings (setTarget settings heightCm) p fun p' _ => Back p p' := by
  unfold setTarget
  rw [runs_bind]
  refine (runs_stopOnInvalid hp huser.runner runs_validateTarget).mono ?_
  rintro q (e | target) ⟨hback, hok⟩
  · exact hback
  obtain ⟨rfl, hrange⟩ := hok target rfl
  dsimp only
  rw [runs_bind]
  refine (runs_cancelStartupWakePending hp hlock).mono ?_
  rintro s r ⟨hback, rfl, rfl⟩
  dsimp only
  rw [runs_bind, runs_fields]
  dsimp only
  rw [runs_ite]
  constructor
  · intro _
    rw [runs_require]
    exact ⟨fun _ => hback, fun _ => hback⟩
  · intro _
    rw [runs_bind, runs_fields]
    dsimp only
    rw [runs_ite]
    refine ⟨fun _ => hback, fun _ => ?_⟩
    rw [runs_bind, runs_relay]
    dsimp only
    have hread := (Reads.refl (q.setVars
      { q.mem.vars with
        desk := q.mem.vars.desk.cancelStartupWakePendingLocked
        trace := .commanded :: q.mem.vars.trace })).next
    have hstill : (q.mem.vars.desk.control.mode != .none || isMoving (q.env 0).relay) = false →
        q.mem.vars.desk.control.mode = .none := by
      intro h
      simp only [Bool.or_eq_false_iff, bne_eq_false_iff_eq] at h
      exact h.1
    refine (runs_transition (hread.fit hback.home) (hread.lock hlock) ⟨huser.runner, huser.start⟩
      rfl hstill ?_).mono fun _ _ h => hback.trans (hread.backTrans h)
    intro q' hback' hprepared
    exact runs_approachTarget hback'.home hrange hprepared

theorem runs_adjustTarget {amountCm : PyValue} {increase : Bool} (hp : Home p)
    (hlock : HasLock p .intent) (huser : OfUser p) :
    Runs settings (adjustTarget settings amountCm increase) p fun p' _ => Back p p' := by
  unfold adjustTarget
  rw [runs_bind]
  refine (runs_stopOnInvalid (P := fun _ => True) hp huser.runner ?_).mono ?_
  · rw [runs_bind]
    refine runs_validateNumber.mono ?_
    rintro p' (e | x) ⟨rfl, _⟩
    · exact ⟨rfl, fun _ _ => trivial⟩
    dsimp only
    rw [runs_bind, runs_require]
    exact ⟨fun _ => ⟨rfl, fun _ _ => trivial⟩, fun _ => ⟨rfl, fun _ _ => trivial⟩⟩
  rintro q (e | amount) ⟨hback, hok⟩
  · exact hback
  obtain ⟨rfl, _⟩ := hok amount rfl
  dsimp only
  rw [runs_bind]
  refine (runs_cancelStartupWakePending hp hlock).mono ?_
  rintro s r ⟨hback, rfl, rfl⟩
  dsimp only
  rw [runs_bind, runs_fields]
  dsimp only
  split
  · exact (runs_setTarget hback.home hlock ⟨huser.runner, huser.start⟩).mono
      fun _ _ h => hback.trans h
  · exact hback

/-! ## Manual motions -/

theorem runs_refreshHold {detail : String} (hp : Home p) :
    Runs settings (refreshHold detail) p fun p' _ => Back p p' := by
  unfold refreshHold
  rw [runs_bind, runs_monotonic]
  dsimp only
  rw [runs_bind, runs_now]
  dsimp only
  have hread : Reads p p.next.next := (Reads.refl p).next.next
  refine (runs_modify_flags (hread.fit hp) ⟨rfl, rfl, rfl, rfl⟩ ?_).mono ?_
  · exact .refine ⟨rfl, rfl, rfl, rfl⟩
      ⟨⟨rfl, rfl, rfl, fun _ => rfl, .inl rfl, fun _ => ⟨.rfl, fun _ => rfl⟩⟩, rfl, rfl⟩
      (.detail _ _ _) (.inl rfl) rfl
  · rintro p' r ⟨hback, _⟩
    exact hread.backTrans hback

theorem runs_holdOnline {direction : Direction} {found : ControlState} (hp : Home p)
    (hlock : HasLock p .intent) (huser : OfUser p)
    (hcleared : p.mem.vars.desk.startupWakePending = none)
    (hfound : p.mem.vars.desk.control = found) :
    Runs settings (holdOnline settings direction found) p fun p' _ => Back p p' := by
  unfold holdOnline
  rw [runs_bind]
  refine runs_requireHeight.mono ?_
  rintro q (e | snapshot) ⟨hread, _, _⟩
  · exact hread.back hp
  dsimp only
  rw [runs_bind]
  refine runs_requireRelayReady.mono ?_
  rintro q' (e | checked) ⟨hread', _, _⟩
  · exact (hread.trans hread').back hp
  have hq := hread.trans hread'
  dsimp only
  rw [runs_bind, runs_assertSome]
  refine ⟨fun heightCm _ => ?_, fun _ => hq.back hp⟩
  dsimp only
  rw [runs_bind]
  refine runs_requireDirectionAllowed.mono ?_
  rintro q'' (e | u) ⟨rfl, _, _⟩
  · exact hq.back hp
  dsimp only
  rw [runs_bind]
  refine runs_requireRunningLocked (fun _ _ _ => ?_) fun e _ => hq.back hp
  dsimp only
  rw [runs_bind, runs_fields]
  dsimp only
  rw [runs_ite]
  refine ⟨fun _ => (runs_refreshHold (hq.fit hp)).mono fun _ _ h => hq.backTrans h, fun _ => ?_⟩
  rw [runs_ite]
  constructor
  · intro _
    rw [runs_bind]
    refine (runs_stopForTransition (hq.fit hp)).mono ?_
    rintro s (e | u) ⟨hback, hexchanged⟩
    · exact hq.backTrans hback
    dsimp only
    obtain ⟨status, h⟩ := hexchanged u rfl
    have hprepared : Prepared s found := h.prepared hback (hq.lock hlock)
      (by rw [hq.job]; exact huser.runner) (by rw [hq.job]; exact huser.start)
    rw [runs_bind]
    refine runs_admitMotion.mono ?_
    rintro s' (e | granted) ⟨hread'', _, _⟩
    · exact hq.backTrans (hback.trans (hread''.back hback.home))
    obtain ⟨snapshot', relay'⟩ := granted
    dsimp only
    have hback' := hback.trans (hread''.back hback.home)
    rw [runs_bind, runs_assertSome]
    refine ⟨fun heightCm' _ => ?_, fun _ => hq.backTrans hback'⟩
    dsimp only
    rw [runs_bind]
    refine runs_requireDirectionAllowed.mono ?_
    rintro s'' (e | u) ⟨rfl, _, _⟩
    · exact hq.backTrans hback'
    dsimp only
    exact (runs_installManual hback'.home fun new hmode =>
      (hread''.prepared hprepared).entitled (by rw [hmode]; simp)).mono fun _ _ h => hq.backTrans (hback'.trans h)
  · intro hstill
    have hnone : found.mode = .none := by
      rw [← hfound, ← hq.mem]
      by_contra hmode
      refine hstill ?_
      simp [hmode]
    refine (runs_installManual (hq.fit hp) fun new hmode => ?_).mono fun _ _ h => hq.backTrans h
    exact hq.entitled ⟨hlock, .inl hcleared, .inl hnone, fun h => by rw [hmode] at h; cases h⟩

/-- The segment of an operation right after it got the intent lock. -/
structure Entered (p : Spot) : Prop where
  vars : p.mem.vars = p.start.vars
  env : p.env = p.given
  began : Starts p ∨ Waits p (.lock .intent none)

theorem runs_hold {direction : Direction} (hp : Home p) (hlock : HasLock p .intent)
    (hentered : Entered p)
    (hjob : p.job = .holdUp ∧ direction = .up ∨ p.job = .holdDown ∧ direction = .down) :
    Runs settings (hold settings direction) p fun p' _ => Back p p' := by
  have huser : OfUser p := by
    rcases hjob with ⟨h, _⟩ | ⟨h, _⟩
    · exact ⟨by rw [h]; simp, by rw [h]; simp⟩
    · exact ⟨by rw [h]; simp, by rw [h]; simp⟩
  unfold hold
  rw [runs_bind]
  refine runs_requireRunningLocked (fun _ _ _ => ?_) fun e _ => .refl hp
  dsimp only
  rw [runs_bind, runs_height]
  dsimp only
  have hnext : Reads p p.next := (Reads.refl p).next
  rw [runs_bind]
  refine (runs_cancelStartupWakePending (hnext.fit hp) (hnext.lock hlock)).mono ?_
  rintro s r ⟨hback₁, rfl, rfl⟩
  have hback := hnext.backTrans hback₁
  dsimp only
  rw [runs_bind, runs_fields]
  dsimp only
  rw [runs_ite]
  constructor
  · intro _
    rw [runs_bind, runs_require]
    exact ⟨fun _ => (runs_refreshHold hback.home).mono fun _ _ h => hback.trans h, fun _ => hback⟩
  · intro hnotAwaiting
    rw [runs_ite]
    constructor
    · intro hnotOnline
      rw [runs_bind]
      refine runs_requireWakeBasis.mono ?_
      rintro q (e | basis) ⟨rfl, _, hgranted⟩
      · exact hback
      obtain ⟨rfl, hbasis⟩ := hgranted basis rfl
      dsimp only
      rw [runs_bind]
      refine runs_admitWake.mono ?_
      rintro q (e | relay) ⟨hread, _, hadmitted⟩
      · exact hback.trans (hread.back hback.home)
      have havailable := (hadmitted relay rfl).2
      dsimp only
      have hback' := hback.trans (hread.back hback.home)
      rw [runs_bind, runs_assertSome]
      refine ⟨fun basisHeightCm hheight => ?_, fun _ => hback'⟩
      dsimp only
      rw [runs_bind]
      refine runs_requireDirectionAllowed.mono ?_
      rintro q' (e | u) ⟨rfl, _, haway⟩
      · exact hback'
      dsimp only
      have hfits : Fits settings .manual none := ⟨by simp, by simp, by rintro x ⟨⟩⟩
      refine (runs_beginWake hback'.home hfits fun _ new hmode hdirection => ?_).mono
        fun _ _ h => hback'.trans h.1
      refine hread.entitled ⟨hlock, .inl rfl, .inr (.inr ?_), fun h => by rw [hmode] at h; cases h⟩
      have henv : p.env = p.given := hentered.env
      refine ⟨congrArg (·.desk.control) hentered.vars, by simpa using hnotAwaiting, ?_,
        .inl ⟨direction, basisHeightCm, hjob, hentered.began, hmode, hdirection, ?_, haway u rfl, ?_⟩⟩
      · show WakeBasis settings (p.given 0).height
        rw [← henv]
        exact hbasis
      · show (p.given 0).height.heightCm = some basisHeightCm
        rw [← henv]
        exact hheight
      · show AvailableRelay settings (p.given 1).relay (p.given 2).now
        rw [← henv]
        exact havailable
    · intro _
      exact (runs_holdOnline hback.home hlock ⟨huser.runner, huser.start⟩ rfl rfl).mono
        fun _ _ h => hback.trans h

end SmartDesk.Desk
