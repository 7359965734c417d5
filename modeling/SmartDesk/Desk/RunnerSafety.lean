import SmartDesk.Desk.Lifecycle

/-!
# The runner keeps the guarantee

* `runs_publishPulse` — **a pulse is sent** only under the guards of its cycle, checked
  again under the relay I/O lock.
* `runs_runCycle` — a cycle, which raises only when the runner is broken.
* `runs_run` — the runner.
-/

namespace SmartDesk.Desk

open Coroutine Code

variable {settings : DeskSettings} {p : Spot}

/-! ## How a cycle ends -/

/-- An exception means that the runner is broken. -/
def Ends (settings : DeskSettings) {α : Type} (p : Spot) (r : Except (Raised Exc) α) : Prop :=
  ∀ e, r = .error e → Broken settings p

/-- An exception other than a rejection means that the runner is broken. -/
def EndsOrRejects (settings : DeskSettings) {α : Type} (p : Spot)
    (r : Except (Raised Exc) α) : Prop :=
  ∀ e, r = .error e → (∃ text, e = .error (.rejected text)) ∨ Broken settings p

theorem Ends.ok {α : Type} {a : α} : Ends settings p (.ok a) := fun _ h => by cases h

theorem EndsOrRejects.ok {α : Type} {a : α} : EndsOrRejects settings p (.ok a) :=
  fun _ h => by cases h

theorem Ends.orRejects {α : Type} {r : Except (Raised Exc) α} (h : Ends settings p r) :
    EndsOrRejects settings p r := fun e he => .inr (h e he)

theorem EndsOrRejects.of_rejection {α β : Type} {r : Except (Raised Exc) α}
    (h : Rejection r) {e : Raised Exc} (he : r = .error e) :
    EndsOrRejects settings p (.error e : Except (Raised Exc) β) := by
  rintro e' ⟨⟩
  exact .inl (h e he)

/-- A STOP that the runner sends. -/
theorem runs_stopMotion_runner {detail : String} {errorDetail : Option String} (hp : Home p)
    (hdetail : detail ≠ runnerErrorDetail) :
    Runs settings (stopMotion detail errorDetail) p fun p' r => Back p p' ∧ Ends settings p' r := by
  refine (runs_stopMotion hp fun _ => .inr hdetail).mono ?_
  rintro p' ((_ | e) | u) ⟨hback, hends⟩
  · exact ⟨hback, fun _ _ => hends⟩
  · exact ⟨hback, fun _ _ => hends.1⟩
  · exact ⟨hback, .ok⟩

theorem reached_ne (target : Ieee) :
    "목표 " ++ fixedOne target ++ "cm에 도달했습니다." ≠ runnerErrorDetail := by
  intro h
  have hhead := congrArg (fun s : String => s.toList.head?) h
  simp [runnerErrorDetail] at hhead

/-! ## Well-formed control states -/

theorem Formed.exists_direction {c : ControlState} (h : Formed settings c)
    (hmode : c.mode = .manual) : ∃ direction, c.direction = some direction := by
  refine Option.ne_none_iff_exists'.mp fun hnone => ?_
  rcases h.direction.mp hnone with hstill | hsettling
  · rw [hmode] at hstill
    cases hstill
  · have htarget := h.phase.mpr ⟨_, hsettling⟩
    rw [hmode] at htarget
    cases htarget

/-- The segment has not changed the control state that its cycle has read. -/
structure Cycle (p : Spot) (control : ControlState) : Prop where
  home : Home p
  now : p.mem.vars.desk.control = control
  start : p.start.vars.desk.control = control

theorem Reads.cycle {q : Spot} {control : ControlState} (h : Reads p q) (hc : Cycle p control) :
    Cycle q control := by
  obtain ⟨n, rfl⟩ := h
  exact ⟨(show Reads p _ from ⟨n, rfl⟩).fit hc.home, hc.now, hc.start⟩

/-- A control state that is not well formed breaks the runner. -/
theorem Cycle.broken {control : ControlState} (h : Cycle p control)
    (hbad : ¬ Formed settings control) : Broken settings p := by
  refine .inr (.inl ?_)
  rw [h.start]
  exact hbad

/-- `assert control.direction is not None` in a manual motion. -/
theorem Cycle.runs_assertDirection {control : ControlState} (h : Cycle p control)
    (hmode : control.mode = .manual) :
    Runs settings (assertSome control.direction) p fun p' r =>
      p' = p ∧ Ends settings p' r ∧ ∀ d, r = .ok d → control.direction = some d := by
  rw [runs_assertSome]
  constructor
  · intro d hd
    refine ⟨rfl, .ok, ?_⟩
    rintro d' ⟨⟩
    exact hd
  · intro hnone
    refine ⟨rfl, fun _ _ => h.broken fun hformed => ?_, fun _ hd => by cases hd⟩
    obtain ⟨d, hd⟩ := hformed.exists_direction hmode
    rw [hnone] at hd
    cases hd

/-- `assert control.target_height_cm is not None` in a target motion. -/
theorem Cycle.runs_assertTarget {control : ControlState} (h : Cycle p control)
    (hmode : Formed settings control → control.mode = .target) :
    Runs settings (assertSome control.targetHeightCm) p fun p' r =>
      p' = p ∧ Ends settings p' r ∧ ∀ x, r = .ok x → control.targetHeightCm = some x := by
  rw [runs_assertSome]
  constructor
  · intro x hx
    refine ⟨rfl, .ok, ?_⟩
    rintro x' ⟨⟩
    exact hx
  · intro hnone
    refine ⟨rfl, fun _ _ => h.broken fun hformed => ?_, fun _ hx => by cases hx⟩
    obtain ⟨x, hx⟩ := hformed.target.mp (hmode hformed)
    rw [hnone] at hx
    cases hx

/-! ## Pulses -/

/-- What a pulse is decided on: the guards of the cycle hold, and the intent has not
changed since the cycle has read it. -/
structure Decided (settings : DeskSettings) (p : Spot) (view : CycleView)
    (direction : Direction) : Prop where
  later : Later view.control p.mem.vars.desk.control
  awaiting : view.control.awaitingFreshHeight = false
  admissible : Admissible settings view direction

theorem Decided.of_after {q : Spot} {view : CycleView} {direction : Direction}
    (h : Decided settings p view direction) (hafter : After p q) :
    Decided settings q view direction :=
  ⟨h.later.trans hafter.control, h.awaiting, h.admissible⟩

theorem admissible_of {control : ControlState} {height : HeightSnapshot} {relay : RelaySnapshot}
    {checkedAt : Instant} {heightCm : Ieee} {direction : Direction}
    (hheight : MeasuredHeight settings height) (hcm : height.heightCm = some heightCm)
    (hrelay : ReadyRelay settings relay checkedAt) (haway : Away settings heightCm direction) :
    Admissible settings ⟨control, height, relay, checkedAt⟩ direction where
  online := hheight.online
  measured := by
    obtain ⟨q, hq, hmin, hmax⟩ := hheight.height
    have hfinite : heightCm = .finite q := Option.some.inj (hcm.symm.trans hq)
    subst hfinite
    refine ⟨q, hq, hmin, hmax, ?_, ?_⟩
    · rintro rfl
      exact not_le.mp fun hle => haway (Ieee.finite_le_finite.mpr hle)
    · rintro rfl
      exact not_le.mp fun hle => haway (Ieee.finite_le_finite.mpr hle)
  observed := by
    obtain ⟨t, ht⟩ := hheight.observed
    intro hnone
    rw [show (CycleView.height ⟨control, height, relay, checkedAt⟩).observedAt = some t from ht]
      at hnone
    cases hnone
  valid := hrelay.valid
  event := hrelay.event
  firmware := hrelay.firmware
  age := hrelay.age
  lease := hrelay.lease

theorem pulseGuard_of {view : CycleView} {direction : Direction}
    (hdecided : Decided settings p view direction)
    (hallowed : pulseAllowed p.mem.vars.desk view.control.generation direction = true) :
    PulseGuard settings p.mem.vars.desk view direction := by
  simp only [pulseAllowed, Bool.and_eq_true, beq_iff_eq, bne_iff_ne, ne_eq,
    Bool.not_eq_true'] at hallowed
  obtain ⟨⟨⟨⟨hgeneration, hmode⟩, hdirection⟩, hclosing⟩, hfree⟩ := hallowed
  refine ⟨hgeneration, hmode, hdirection, hclosing, hfree, ?_, hdecided.admissible⟩
  rcases (hdecided.later.refines hgeneration).awaiting with hsame | ⟨hoff, _⟩
  · exact hsame.trans hdecided.awaiting
  · exact hoff

/-- How `sendPulse` ends. -/
def SendPulseEnds (settings : DeskSettings) (p p' : Spot)
    (r : Except (Raised Exc) PulseOutcome) : Prop :=
  Back p p' ∧ Ends settings p' r

/-- **A pulse is sent.** -/
theorem runs_sendPulse {direction : Direction} {holdMs : ℤ} {view : CycleView} (hp : Home p)
    (hdecided : Decided settings p view direction) :
    Runs settings (sendPulse view.control.generation direction holdMs view) p
      (SendPulseEnds settings p) := by
  have hbody : ∀ q, After p q → Home q → HasLock q .relayIo →
      Runs settings
        (do
          let d ← fields
          if pulseAllowed d view.control.generation direction then
            exceptError
              (do
                note fun d => .pulse d view direction holdMs
                let _ ← Prog.wait (.call (.pulse view.control.generation direction holdMs))
                return .published)
              fun error => return .failed error.text
          else return .skipped) q
        (Unlocks (S := deskSignature) DeskLock.relayIo (SendPulseEnds settings p)) := by
    intro q hafter hhome hio
    have hrelease : ∀ {s}, After p s → After p (s.setMem (s.mem.release .relayIo)) :=
      fun h => h.trans (Still.refl _).release.toAfter
    rw [runs_bind, runs_fields]
    dsimp only
    rw [runs_ite]
    refine ⟨fun hallowed => ?_, fun _ => ⟨hio, ⟨hhome.release, hrelease hafter⟩, .ok⟩⟩
    rw [runs_exceptError, runs_bind, note, runs_modifyNote]
    have hchange : Change settings q
        { q.mem.vars with
          trace := .pulse q.mem.vars.desk view direction holdMs :: q.mem.vars.trace } :=
      .pulse view direction holdMs rfl (pulseGuard_of (hdecided.of_after hafter) hallowed) rfl
    refine ⟨hchange, ?_⟩
    have hhome' := hhome.setTrace (.pulse q.mem.vars.desk view direction holdMs :: q.mem.vars.trace)
    dsimp only
    rw [runs_bind]
    refine safe_wait (S := deskSignature) rfl
      (hhome'.suspends rfl (fun _ _ h => by cases h) (fun _ h => by cases h)
        (fun _ => .inr trivial) fun _ h => by cases h) ?_
    intro p' r hr
    have hwoken := woken_of_resumes hr
    have hio' : HasLock p' .relayIo := hwoken.owner _ hio
    have hafter' : After p p' := hafter.trans ((After.change hchange).trans hwoken.toAfter)
    have hfit : (∀ i, ∃ j, p'.env i = p'.given j) → Home p' := fun henv =>
      hwoken.fit henv (fun _ => hwoken.calm rfl) fun hl => by cases hl
    rcases resumes_call (fun _ _ h => by cases h) hr with
      ⟨htold, henv, rfl⟩ | ⟨henv, ⟨_, rfl⟩ | ⟨text, _, rfl⟩⟩
    · exact ⟨hio', ⟨(hfit fun i => ⟨i, by rw [henv]⟩).release, hrelease hafter'⟩,
        fun _ _ => .inl htold⟩
    · exact ⟨hio', ⟨(hfit fun i => ⟨i + 1, by rw [henv]⟩).release, hrelease hafter'⟩, .ok⟩
    · exact ⟨hio', ⟨(hfit fun i => ⟨i + 1, by rw [henv]⟩).release, hrelease hafter'⟩, .ok⟩
  have hsuspends : Suspends settings p
      (.lock .relayIo (some (.pulse view.control.generation direction holdMs))) :=
    { calm := .inr (hp.calm rfl), shut := hp.shut, manned := hp.manned, unhindered := hp.unhindered
      latched := fun h => by cases h
      wake := fun _ _ _ h => by cases h
      confirms := fun _ _ h => by cases h
      child := fun _ h => by cases h
      runner := fun _ => .inr trivial
      idle := fun _ h => by cases h }
  unfold sendPulse
  refine safe_withLock (S := deskSignature) (fun _ => hsuspends) ?_ ?_ ?_
  · intro _
    exact hbody _ (Still.refl p).take.toAfter hp.take (hasLock_taken p)
  · intro p' hr
    have hwoken := woken_of_resumes hr
    obtain ⟨hio, henv⟩ := locked_of_resumes hr
    exact hbody p' hwoken.toAfter (hwoken.home henv rfl) hio
  · intro p' hr
    have hwoken := woken_of_resumes hr
    obtain ⟨htold, henv⟩ := told_of_resumes_lock hr
    exact ⟨⟨hwoken.home henv rfl, hwoken.toAfter⟩, fun _ _ => .inl htold⟩

/-- The intent aims at a target; if it is well formed, that is its mode. -/
structure Aimed (c : ControlState) : Prop where
  target : ∃ x, c.targetHeightCm = some x
  notManual : c.mode ≠ .manual

theorem Aimed.mode {c : ControlState} (h : Aimed c) (hformed : Formed settings c) :
    c.mode = .target := hformed.target.mpr h.target

theorem Refines.aimed {c c' : ControlState} (h : Refines c c') (ha : Aimed c) : Aimed c' :=
  ⟨by rw [h.target]; exact ha.target, by rw [h.mode]; exact ha.notManual⟩

/-- The same target goes on in a further phase of it. -/
theorem Keeps.phase {c : ControlState} (ha : Aimed c) (phase : TargetPhase)
    (direction : Option Direction) (hdirection : direction = none ↔ phase = .settling)
    {detail : String} {generation : ℕ} {updatedAt : Instant} :
    Keeps settings c
      { c with
        targetPhase := some phase, direction := direction, generation := generation
        detail := detail, updatedAt := updatedAt } where
  formed := fun h => by
    have hmode := ha.mode h
    exact ⟨h.target, h.range, by simp [hmode], by simp [hmode, hdirection], h.observed, h.waking⟩
  shown := fun _ h => ⟨h.resting, h.waking, h.manual, h.moving⟩
  rest := fun _ => rfl

theorem runs_publishPulse {generation : ℕ} {direction : Direction} {holdMs : ℤ}
    {fineObservedAt : Option Instant} {view : CycleView} (hp : Home p)
    (hgeneration : generation = view.control.generation)
    (hdecided : Decided settings p view direction)
    (hfine : fineObservedAt ≠ none →
      Aimed view.control ∧ view.control.targetPhase ≠ some .continuous) :
    Runs settings (publishPulse settings generation direction holdMs fineObservedAt view) p
      fun p' r => Back p p' ∧ Ends settings p' r := by
  subst hgeneration
  unfold publishPulse
  rw [runs_bind, runs_monotonic]
  dsimp only
  have hnext : Reads p p.next := (Reads.refl p).next
  rw [runs_bind]
  refine (runs_sendPulse (hnext.fit hp) (hdecided.of_after hnext.after)).mono ?_
  rintro q (e | outcome) ⟨hback₀, hends⟩
  · exact ⟨hnext.backTrans hback₀, fun _ _ => hends e rfl⟩
  have hback := hnext.backTrans hback₀
  cases outcome with
  | skipped => exact ⟨hback, .ok⟩
  | failed text =>
    dsimp only
    unfold recordPulseFailure
    rw [runs_bind, runs_fields]
    dsimp only
    rw [runs_ite]
    refine ⟨fun _ => ?_, fun _ => ⟨hback, .ok⟩⟩
    exact (runs_stopMotion_runner hback.home (by decide)).mono fun _ _ h =>
      ⟨hback.trans h.1, h.2⟩
  | published =>
    dsimp only
    rw [runs_bind, runs_fields]
    dsimp only
    rw [runs_ite]
    refine ⟨fun _ => ⟨hback, .ok⟩, fun hsame => ?_⟩
    have hgeneration : q.mem.vars.desk.control.generation = view.control.generation := by
      simpa using hsame
    cases fineObservedAt with
    | none =>
      refine (runs_modify_flags hback.home ⟨rfl, rfl, rfl, rfl⟩
        (.fields ⟨rfl, rfl, rfl, rfl⟩ rfl (.inl rfl) rfl)).mono ?_
      rintro p' r ⟨hback', rfl, _⟩
      exact ⟨hback.trans hback', .ok⟩
    | some observedAt =>
      dsimp only
      rw [runs_bind, runs_now]
      dsimp only
      rw [runs_bind, runs_monotonic]
      dsimp only
      have hlater := hdecided.later.trans hback.after.control
      have hrefines := hlater.refines hgeneration
      obtain ⟨hviewAimed, hviewPhase⟩ := hfine (by simp)
      have haimed : Aimed q.mem.vars.desk.control := hrefines.aimed hviewAimed
      have hphase : q.mem.vars.desk.control.targetPhase ≠ some .continuous := by
        rw [Ne, (hrefines.straight hdecided.awaiting).1]
        exact hviewPhase
      refine (runs_modify_flags hback.next.next.home ⟨rfl, rfl, rfl, rfl⟩ ?_).mono ?_
      · refine .refine ⟨rfl, rfl, rfl, rfl⟩ ⟨⟨rfl, rfl, rfl, ?_, .inl rfl, fun _ => ?_⟩, rfl, rfl⟩
          (.phase haimed .settling none (by simp)) (.inl rfl) rfl
        · exact fun hmanual => absurd hmanual haimed.notManual
        · exact ⟨⟨fun h => (by cases h), fun h => absurd h hphase⟩, fun h => absurd h hphase⟩
      · rintro p' r ⟨hback', rfl, _⟩
        exact ⟨hback.next.next.trans hback', .ok⟩

/-! ## A relay that should obey -/

/-- What the evaluation of a relay status leaves: only its own tracking has changed. -/
structure Tracked (p p' : Spot) : Prop where
  back : Back p p'
  control : p'.mem.vars.desk.control = p.mem.vars.desk.control
  start : p'.start = p.start
  env : ∃ n, p'.env = fun i => p.env (i + n)

theorem Tracked.refl (hp : Home p) : Tracked p p := ⟨.refl hp, rfl, rfl, 0, rfl⟩

theorem Tracked.cycle {q : Spot} {control : ControlState} (h : Tracked p q)
    (hc : Cycle p control) : Cycle q control :=
  ⟨h.back.home, h.control.trans hc.now, by rw [h.start]; exact hc.start⟩

/-- A write to the tracking. -/
theorem runs_track {f : DeskController → DeskController} (hp : Home p)
    (hflags : SameFlags p.mem.vars.desk (f p.mem.vars.desk))
    (hcontrol : (f p.mem.vars.desk).control = p.mem.vars.desk.control)
    (hpending : Wanes p.mem.vars.desk (f p.mem.vars.desk)) :
    Runs settings (modify f) p fun p' r => Tracked p p' ∧ r = .ok () := by
  refine (runs_modify_flags hp hflags (.fields hflags hcontrol hpending rfl)).mono ?_
  rintro p' r ⟨hback, rfl, rfl⟩
  exact ⟨⟨hback, hcontrol, rfl, 0, rfl⟩, rfl⟩

theorem runs_evaluateRelayStatus {control : ControlState} {snapshot : RelaySnapshot}
    {current : Ieee} (hp : Home p) :
    Runs settings (evaluateRelayStatus settings control snapshot current) p fun p' r =>
      Tracked p p' ∧ Rejection r := by
  have hnothing : ∀ {u : Unit}, Rejection (.ok u : Except (Raised Exc) Unit) :=
    fun {_} _ h => by cases h
  have hreject : ∀ text, Rejection (.error (.error (.rejected text)) : Except (Raised Exc) Unit) := by
    rintro text e ⟨⟩
    exact ⟨text, rfl⟩
  unfold evaluateRelayStatus
  split
  · next direction receivedAt _ _ =>
    rw [runs_bind, runs_fields]
    dsimp only
    rw [runs_ite]
    constructor
    · intro _
      rw [runs_require]
      exact ⟨fun _ => ⟨.refl hp, hnothing⟩, fun _ => ⟨.refl hp, hreject _⟩⟩
    · intro _
      rw [runs_ite]
      refine ⟨fun _ => ⟨.refl hp, hnothing⟩, fun _ => ?_⟩
      rw [runs_bind]
      refine (runs_track hp ⟨rfl, rfl, rfl, rfl⟩ rfl (.inl rfl)).mono ?_
      rintro q r ⟨hq, rfl⟩
      dsimp only
      rw [runs_ite]
      constructor
      · intro _
        refine (runs_track hq.back.home ⟨rfl, rfl, rfl, rfl⟩ rfl (.inl rfl)).mono ?_
        rintro s r ⟨hs, rfl⟩
        refine ⟨⟨hq.back.trans hs.back, hs.control.trans hq.control, hs.start.trans hq.start, ?_⟩,
          hnothing⟩
        obtain ⟨n, hn⟩ := hq.env
        obtain ⟨m, hm⟩ := hs.env
        refine ⟨m + n, ?_⟩
        rw [hm, hn]
        funext i
        show p.env (i + m + n) = _
        rw [Nat.add_assoc]
      · intro _
        rw [runs_bind, runs_require]
        refine ⟨fun _ => ?_, fun _ => ⟨hq, hreject _⟩⟩
        dsimp only
        rw [runs_bind, runs_require]
        refine ⟨fun _ => ?_, fun _ => ⟨hq, hreject _⟩⟩
        dsimp only
        rw [runs_require]
        exact ⟨fun _ => ⟨hq, hnothing⟩, fun _ => ⟨hq, hreject _⟩⟩
  · exact ⟨.refl hp, hnothing⟩

theorem runs_watchInactiveRelay (hp : Home p) :
    Runs settings (watchInactiveRelay settings) p fun p' r => Back p p' ∧ Ends settings p' r := by
  unfold watchInactiveRelay
  rw [runs_bind, runs_fields]
  dsimp only
  rw [runs_ite]
  refine ⟨fun _ => ⟨.refl hp, .ok⟩, fun _ => ?_⟩
  rw [runs_bind, runs_relay]
  dsimp only
  have hnext : Reads p p.next := (Reads.refl p).next
  split
  · next receivedAt _ _ =>
    rw [runs_ite]
    refine ⟨fun _ => ⟨hnext.back hp, .ok⟩, fun _ => ?_⟩
    rw [runs_bind, runs_exceptRejected, runs_bind]
    refine runs_requireRelayReady.mono ?_
    -- The check is made for its own sake: a rejection is ignored.
    have hrest : ∀ q, Reads p.next q → Runs settings
        (do
          modify fun d => { d with lastUnexpectedRelayAt := some receivedAt }
          stopMotion "제어기 밖에서 발생한 릴레이 이동을 정지했습니다."
            (some "예기치 않은 릴레이 이동 상태") : Code Unit) q fun p' r =>
        Back p p' ∧ Ends settings p' r := by
      intro q hread
      have hq := hnext.trans hread
      rw [runs_bind]
      refine (runs_track (hq.fit hp) ⟨rfl, rfl, rfl, rfl⟩ rfl (.inl rfl)).mono ?_
      rintro s r ⟨hs, rfl⟩
      dsimp only
      exact (runs_stopMotion_runner hs.back.home (by decide)).mono fun _ _ h =>
        ⟨(hq.backTrans hs.back).trans h.1, h.2⟩
    rintro q (e | checked) ⟨hread, hrejection, _⟩
    · obtain ⟨text, rfl⟩ := hrejection e rfl
      exact hrest q hread
    · exact hrest q hread
  · exact ⟨hnext.back hp, .ok⟩

/-! ## After a WAKE -/

theorem runs_activateWake {control : ControlState} (hp : Home p)
    (hmode : p.mem.vars.desk.control.mode ≠ .none) :
    Runs settings (activateWake control) p fun p' r => Back p p' ∧ Ends settings p' r := by
  unfold activateWake
  rw [runs_bind, runs_fields]
  dsimp only
  rw [runs_ite]
  refine ⟨fun _ => ⟨.refl hp, .ok⟩, fun hsame => ?_⟩
  have hgeneration : p.mem.vars.desk.control.generation = control.generation := by
    simpa using hsame
  rw [runs_bind, runs_now]
  dsimp only
  have hnext : Reads p p.next := (Reads.refl p).next
  refine (runs_modify_flags (hnext.fit hp) ⟨rfl, rfl, rfl, rfl⟩ ?_).mono ?_
  · refine .drop ⟨rfl, rfl, rfl, rfl⟩ (.inr hmode) ⟨?_, _, _, _, rfl, rfl⟩ (.inl rfl) rfl
    show p.mem.vars.desk.control.generation < control.generation + 1
    rw [hgeneration]
    exact Nat.lt_succ_self _
  · rintro p' r ⟨hback, rfl, _⟩
    exact ⟨hnext.backTrans hback, .ok⟩

/-- The segment has read the snapshots. -/
def Seen (p : Spot) (height : HeightSnapshot) (relay : RelaySnapshot) : Prop :=
  (∃ i, height = (p.given i).height) ∧ ∃ i, relay = (p.given i).relay

/-- What `_run_wake_cycle` has checked before it activates the motion. -/
structure Answers (control : ControlState) (height : HeightSnapshot) (relay : RelaySnapshot) :
    Prop where
  awaiting : control.awaitingFreshHeight = true
  online : height.status = .online
  newer : ∃ before observedAt, control.wakeObservedAt = some before ∧
    height.observedAt = some observedAt ∧ before < observedAt
  stopped : relay.state = some .stop
  ready : relay.code = some "ready"

/-- A motion goes on after its WAKE. -/
theorem runs_activateMotion {control : ControlState} {change : ControlState → ControlState}
    {height : HeightSnapshot} {relay : RelaySnapshot} {current : Ieee} (hc : Cycle p control)
    (hseen : Seen p height relay)
    (hactivation : ∀ at',
      Activation settings control
        { change control with
          awaitingFreshHeight := false, wakeObservedAt := none, wakeStartedAt := none
          updatedAt := at' } height relay)
    (hrefines : ∀ at',
      Refines control
        { change control with
          awaitingFreshHeight := false, wakeObservedAt := none, wakeStartedAt := none
          updatedAt := at' })
    (hkeeps : ∀ at',
      Keeps settings control
        { change control with
          awaitingFreshHeight := false, wakeObservedAt := none, wakeStartedAt := none
          updatedAt := at' }) :
    Runs settings (activateMotion control change height relay current) p fun p' r =>
      Back p p' ∧ Ends settings p' r := by
  unfold activateMotion
  rw [runs_bind, runs_fields]
  dsimp only
  rw [runs_ite]
  refine ⟨fun _ => ⟨.refl hc.home, .ok⟩, fun _ => ?_⟩
  rw [runs_bind, runs_now]
  dsimp only
  have hnext : Reads p p.next := (Reads.refl p).next
  refine (runs_modifyNote_flags (hnext.fit hc.home) ⟨rfl, rfl, rfl, rfl⟩ ?_).mono ?_
  · obtain ⟨_, hnow, _⟩ := hc
    subst hnow
    exact .activate height relay ⟨rfl, rfl, rfl, rfl⟩ (hrefines _) (hkeeps _) (hactivation _) hseen
      (.inl rfl) rfl
  · rintro p' r ⟨hback, rfl, _⟩
    exact ⟨hnext.backTrans hback, .ok⟩

theorem runs_activateAfterWake {control : ControlState} {height : HeightSnapshot}
    {relay : RelaySnapshot} {current heightCm : Ieee} (hc : Cycle p control)
    (hmode : control.mode ≠ .none) (hheight : height.heightCm = some heightCm)
    (hseen : Seen p height relay) (hanswers : Answers control height relay) :
    Runs settings (activateAfterWake settings control height relay current) p fun p' r =>
      Back p p' ∧ EndsOrRejects settings p' r := by
  unfold activateAfterWake
  rw [runs_bind, runs_assertSome]
  refine ⟨fun cm hcm => ?_, fun hnone => by rw [hheight] at hnone; cases hnone⟩
  obtain rfl : heightCm = cm := Option.some.inj (hheight.symm.trans hcm)
  dsimp only
  cases hcm : control.mode with
  | none => exact absurd hcm hmode
  | wake =>
    refine (runs_activateWake hc.home ?_).mono fun _ _ h => ⟨h.1, h.2.orRejects⟩
    rw [hc.now]
    exact hmode
  | manual =>
    dsimp only
    rw [runs_bind]
    refine (hc.runs_assertDirection hcm).mono ?_
    rintro q (e | direction) ⟨rfl, hends, hdirection⟩
    · exact ⟨.refl hc.home, fun _ _ => .inr (hends e rfl)⟩
    have hd := hdirection direction rfl
    dsimp only
    rw [runs_bind]
    refine runs_requireDirectionAllowed.mono ?_
    rintro s (e | u) ⟨rfl, hrejection, _⟩
    · exact ⟨.refl hc.home, .of_rejection hrejection rfl⟩
    dsimp only
    have hwaiting : control.awaitingFreshHeight = false → False := by
      rw [hanswers.awaiting]
      simp
    refine (runs_activateMotion hc hseen ?_ ?_ ?_).mono fun _ _ h => ⟨h.1, h.2.orRejects⟩
    · intro at'
      refine ⟨hanswers.awaiting, rfl, hanswers.online, hanswers.newer, hanswers.stopped,
        hanswers.ready, fun h => ?_⟩
      rw [hcm] at h
      cases h
    · intro at'
      exact ⟨rfl, rfl, rfl, fun _ => rfl, .inr ⟨rfl, by rw [hcm]; simp⟩,
        fun h => (hwaiting h).elim⟩
    · intro at'
      refine ⟨fun h => ⟨h.target, h.range, h.phase, h.direction, fun h => (by cases h), ?_⟩,
        fun _ _ => ⟨?_, ?_, ?_, ?_⟩, ?_⟩
      · simp [hcm]
      · simp [hcm, DeskState.resting]
      · simp
      · simp [hcm]
      · simp [hcm]
      · exact fun hnone => absurd hnone hmode
  | target =>
    dsimp only
    rw [runs_bind]
    refine (hc.runs_assertTarget fun _ => hcm).mono ?_
    rintro q (e | target) ⟨rfl, hends, htarget⟩
    · exact ⟨.refl hc.home, fun _ _ => .inr (hends e rfl)⟩
    dsimp only
    rw [runs_ite]
    constructor
    · intro _
      exact (runs_stopMotion_runner hc.home (reached_ne target)).mono fun _ _ h =>
        ⟨h.1, h.2.orRejects⟩
    · intro hfar
      rw [runs_bind]
      refine runs_requireDirectionAllowed.mono ?_
      rintro s (e | u) ⟨rfl, hrejection, _⟩
      · exact ⟨.refl hc.home, .of_rejection hrejection rfl⟩
      dsimp only
      refine (runs_activateMotion hc hseen ?_ ?_ ?_).mono fun _ _ h => ⟨h.1, h.2.orRejects⟩
      · intro at'
        exact ⟨hanswers.awaiting, rfl, hanswers.online, hanswers.newer, hanswers.stopped,
          hanswers.ready, fun _ => ⟨rfl, target, heightCm, htarget target rfl, hheight, hfar, rfl⟩⟩
      · intro at'
        refine ⟨rfl, rfl, rfl, fun h => ?_, .inr ⟨rfl, by rw [hcm]; simp⟩, fun h => ?_⟩
        · rw [hcm] at h
          cases h
        · rw [hanswers.awaiting] at h
          cases h
      · intro at'
        refine ⟨fun h => ⟨h.target, h.range, ?_, ?_, fun h => (by cases h), ?_⟩,
          fun _ _ => ⟨?_, ?_, ?_, ?_⟩, ?_⟩
        · simp [hcm]
        · simp [hcm]
        · simp [hcm]
        · simp [hcm, DeskState.resting]
        · simp
        · simp [hcm]
        · simp [hcm]
        · exact fun hnone => absurd hnone hmode

theorem runs_runWakeCycle {control : ControlState} (hc : Cycle p control)
    (hmode : control.mode ≠ .none) (hawaiting : control.awaitingFreshHeight = true) :
    Runs settings (runWakeCycle settings control) p fun p' r =>
      Back p p' ∧ EndsOrRejects settings p' r := by
  unfold runWakeCycle
  rw [runs_bind, runs_monotonic]
  dsimp only
  have hnext : Reads p p.next := (Reads.refl p).next
  have hreject : ∀ {q} text, Back p q → Back p q ∧
      EndsOrRejects settings q (.error (.error (.rejected text)) : Except (Raised Exc) Unit) := by
    intro q text hback
    refine ⟨hback, ?_⟩
    rintro e ⟨⟩
    exact .inl ⟨text, rfl⟩
  rw [runs_bind, runs_require]
  refine ⟨fun _ => ?_, fun _ => hreject _ (hnext.back hc.home)⟩
  dsimp only
  rw [runs_bind, runs_fields]
  dsimp only
  rw [runs_ite]
  constructor
  · intro _
    exact (runs_stopMotion_runner (hnext.fit hc.home) (by decide)).mono fun _ _ h =>
      ⟨hnext.backTrans h.1, h.2.orRejects⟩
  intro _
  rw [runs_bind, runs_height]
  dsimp only
  have hread : Reads p p.next.next := hnext.next
  have hback : Back p p.next.next := hread.back hc.home
  rw [runs_bind, runs_require]
  refine ⟨fun _ => ?_, fun _ => hreject _ hback⟩
  dsimp only
  split
  · next observedAt before honline hobserved hbefore =>
    rw [runs_ite]
    refine ⟨fun _ => ⟨hback, .ok⟩, fun hnewer => ?_⟩
    rw [runs_bind]
    refine runs_requireRelayAvailableForWake.mono ?_
    rintro q (e | ⟨relay, checkedAt⟩) ⟨hread', hrejection, hgranted⟩
    · exact ⟨(hread.trans hread').back hc.home, .of_rejection hrejection rfl⟩
    dsimp only
    have hq := hread.trans hread'
    rw [runs_ite]
    refine ⟨fun hready => ?_, fun _ => ⟨hq.back hc.home, .ok⟩⟩
    rw [runs_bind, runs_assertSome]
    constructor
    · intro heightCm hheight
      dsimp only
      have hseen : Seen q (p.next.env 0).height relay := by
        obtain ⟨i, hi⟩ := (hnext.fit hc.home).env 0
        obtain ⟨j, hj⟩ := (hread.fit hc.home).env 0
        have hrelay : relay = (p.next.next.env 0).relay :=
          congrArg Prod.fst (hgranted (relay, checkedAt) rfl).2
        obtain ⟨n, rfl⟩ := hq
        exact ⟨⟨i, congrArg (·.height) hi⟩, j, hrelay.trans (congrArg (·.relay) hj)⟩
      have hanswers : Answers control (p.next.env 0).height relay :=
        ⟨hawaiting, honline, ⟨before, observedAt, hbefore, hobserved, not_le.mp hnewer⟩, hready.1,
          hready.2⟩
      exact (runs_activateAfterWake (hq.cycle hc) hmode hheight hseen hanswers).mono fun _ _ h =>
        ⟨hq.backTrans h.1, h.2⟩
    · intro hnone
      obtain ⟨j, hj⟩ := hnext.fit hc.home |>.env 0
      refine ⟨hq.back hc.home, fun e _ => .inr (hq.broken ?_)⟩
      refine .inr (.inr (.inr (.inr ⟨j, ?_⟩)))
      show ¬ (p.next.given j).height.coherent
      rw [← hj]
      exact fun h => h ‹_› hnone
  · exact ⟨hback, .ok⟩

/-! ## The startup WAKE -/

/-- While the controller runs, it declines a motion only with a rejection. -/
theorem Admitted.declined {d d' : DeskController} {e : Exc} (h : Admitted d)
    (hdeclined : Declined d' e) (hrunning : d'.running = d.running := by rfl)
    (hclosing : d'.closing = d.closing := by rfl) : ∃ text, e = .rejected text := by
  rcases hdeclined with hrejected | hrefused
  · exact hrejected
  · cases hrefused with
    | stopped text hstopped =>
      rw [hrunning, hclosing, h.running, h.closing] at hstopped
      cases hstopped
    | latched text _ => exact ⟨text, rfl⟩

/-- The segment in which the runner looks after the startup WAKE. -/
structure Starters (p : Spot) : Prop where
  runner : p.job = .runner
  lock : HasLock p .intent
  vars : p.mem.vars = p.start.vars
  began : p.mem.vars.desk.control.mode = .none ∨ (Waits p (.lock .intent none) ∧ p.env = p.given)

theorem runs_startupWakeCycle (hp : Home p) (hs : Starters p) :
    Runs settings (startupWakeCycle settings) p fun p' r => Back p p' ∧ Ends settings p' r := by
  unfold startupWakeCycle
  rw [runs_bind, runs_fields]
  dsimp only
  cases hpending : p.mem.vars.desk.startupWakePending with
  | none => exact ⟨.refl hp, .ok⟩
  | some deadline =>
    have hbefore : p.start.vars.desk.startupWakePending ≠ none := by
      rw [← hs.vars, hpending]
      simp
    -- While the control state is as the segment found it, the desk is at rest.
    have hrest : ∀ q : Spot, q.start = p.start →
        q.mem.vars.desk.control.mode = p.mem.vars.desk.control.mode → AtRest q := by
      intro q hstart hmode
      refine .inr (.inl ⟨.inr (by rw [hstart]; exact hbefore), ?_⟩)
      rw [hmode, hs.vars, hstart]
    have hcancel : Runs settings (modify DeskController.cancelStartupWakePendingLocked) p
        fun p' r => Back p p' ∧ r = .ok () :=
      (runs_modify_flags hp ⟨rfl, rfl, rfl, rfl⟩ (.cancelPending settings p)).mono
        fun _ _ h => ⟨h.1, h.2.1⟩
    dsimp only
    rw [runs_ite]
    constructor
    · intro _
      rw [runs_bind]
      refine hcancel.mono ?_
      rintro q r ⟨hback, rfl⟩
      exact ⟨hback, .ok⟩
    intro hactive
    have hadmitted : Admitted p.mem.vars.desk := by
      simp only [Bool.or_eq_true, Bool.not_eq_true', not_or, Bool.not_eq_false,
        Bool.not_eq_true] at hactive
      exact ⟨hactive.1.1, hactive.1.2, hactive.2⟩
    rw [runs_bind, runs_height]
    dsimp only
    have hnext : Reads p p.next := (Reads.refl p).next
    rw [runs_ite]
    constructor
    · intro _
      rw [runs_bind]
      refine (runs_modify_flags (hnext.fit hp) ⟨rfl, rfl, rfl, rfl⟩ (.cancelPending settings _)).mono ?_
      rintro q r ⟨hback, rfl, _⟩
      exact ⟨hnext.backTrans hback, .ok⟩
    intro hnotOnline
    -- What the sensor needs is shown on a desk at rest.
    have hshow : ∀ q text, Back p q → AtRest q →
        (q.mem.vars.desk.stopInProgress = false ∨ ∃ text, ChildRaised q (.rejected text)) →
        Runs settings
          (do
            setStartupSensorCheckNeeded text
            return true) q fun p' r => Back p p' ∧ Ends settings p' r := by
      intro q text hback hrest hfree
      rw [runs_bind]
      refine (runs_setStartupSensorCheckNeeded hback.home hrest hfree).mono ?_
      rintro q' r ⟨hback', rfl⟩
      exact ⟨hback.trans hback', .ok⟩
    rw [runs_bind, runs_exceptRejected, runs_bind]
    refine runs_requireWakeBasis.mono ?_
    rintro q (e | basis) ⟨rfl, hrejection, hbasis⟩
    · obtain ⟨text, rfl⟩ := hrejection e rfl
      exact hshow p.next text (hnext.back hp) (hrest _ rfl rfl) (.inl hadmitted.stopInProgress)
    obtain ⟨-, hbasis⟩ := hbasis basis rfl
    show Runs settings (monotonic >>= _) p.next _
    rw [runs_bind, runs_monotonic]
    dsimp only
    have hread : Reads p p.next.next := hnext.next
    rw [runs_ite]
    refine ⟨fun _ => hshow _ _ (hread.back hp) (hrest _ rfl rfl) (.inl hadmitted.stopInProgress),
      fun _ => ?_⟩
    rw [runs_bind, runs_exceptRejected, runs_bind]
    refine runs_admitWake.mono ?_
    rintro q (e | relay) ⟨hread', herror, hgranted⟩
    · obtain ⟨x, rfl, hdeclined⟩ := herror e rfl
      obtain ⟨text, rfl⟩ := hadmitted.declined hdeclined
      exact ⟨(hread.trans hread').back hp, .ok⟩
    have havailable := (hgranted relay rfl).2
    have hq := hread.trans hread'
    show Runs settings (assertSome (p.env 0).height.heightCm >>= _) q _
    obtain ⟨height, hheight, -⟩ := hbasis.height
    have hcm : (p.env 0).height.heightCm = some (Ieee.finite height) := hheight
    obtain ⟨observedAt, hobserved⟩ := hbasis.observed
    rw [runs_bind, runs_assertSome]
    refine ⟨fun heightCm _ => ?_, fun hnone => by rw [hcm] at hnone; cases hnone⟩
    dsimp only
    rw [runs_bind, runs_exceptRejected, runs_bind]
    have hbackq : Back p q := hq.back hp
    obtain ⟨n, hn⟩ := id hq
    refine runs_requireDirectionAllowed.mono ?_
    rintro s (e | u) ⟨rfl, hrejection, _⟩
    · obtain ⟨text, rfl⟩ := hrejection e rfl
      refine runs_bind.mp (hshow s text hbackq (hrest s hq.start ?_) (.inl ?_))
      · rw [hq.mem]
      · rw [hq.mem]
        exact hadmitted.stopInProgress
    dsimp only
    rw [runs_bind]
    refine (runs_modify_flags hbackq.home ⟨rfl, rfl, rfl, rfl⟩ (.cancelPending settings _)).mono ?_
    rintro q' r ⟨hcancelled, rfl, hq'⟩
    have hbackq' := hbackq.trans hcancelled
    have hcontrol : q'.mem.vars.desk.control = p.mem.vars.desk.control := by
      rw [hq', ← hq.mem]
      rfl
    have hstart : q'.start = p.start := by
      rw [hq']
      exact hq.start
    have hfits : Fits settings .wake none := ⟨by simp, by simp, by rintro x ⟨⟩⟩
    dsimp only
    refine (runs_beginWake hbackq'.home hfits fun hnotAwaiting new _ _ => ?_).mono ?_
    · refine ⟨hbackq'.after.lock hs.lock, .inl (by rw [hq']; rfl), ?_, fun _ => ?_⟩
      rotate_left
      · refine ⟨hbackq'.after.job.trans hs.runner, by rw [hstart]; exact hbefore, ?_⟩
        rw [hstart, ← hs.vars, hq', ← hq.mem]
        rfl
      rcases hs.began with hmode | ⟨hwaits, henv⟩
      · exact .inl hmode
      · refine .inr (.inr ⟨?_, ?_, ?_, .inr ⟨?_, ?_, ?_, ?_⟩⟩)
        · rw [hstart, hs.vars]
        · rw [← hcontrol]
          exact hnotAwaiting
        · rw [hq', hn]
          show WakeBasis settings (p.given 0).height
          rw [← henv]
          exact hbasis
        · exact hbackq'.after.job.trans hs.runner
        · rw [hq', hn]
          exact hwaits
        · rw [hstart]
          exact hbefore
        · rw [hq', hn]
          show AvailableRelay settings (p.given 2).relay (p.given 3).now
          rw [← henv]
          exact havailable
    · rintro s' ((_ | e) | u) ⟨hback', hends⟩
      · exact ⟨hbackq'.trans hback', fun _ _ => hends⟩
      · -- Before its intent is installed a WAKE is only refused with a rejection.
        have hrefused : ∀ x, WakeRefused q' (p.env 0).height x → ∃ text, x = .rejected text := by
          intro x hx
          cases hx with
          | assertion h =>
            rcases h with h | h
            · rw [hcm] at h
              cases h
            · rw [show (p.env 0).height.observedAt = some observedAt from hobserved] at h
              cases h
          | declined x h =>
            have hdesk : q'.mem.vars.desk = p.mem.vars.desk.cancelStartupWakePendingLocked := by
              rw [hq', ← hq.mem]
              rfl
            rw [hdesk] at h
            exact hadmitted.declined h
        by_cases hrejected : ∃ text, e = .rejected text
        · obtain ⟨text, rfl⟩ := hrejected
          refine runs_bind.mp (hshow s' text (hbackq'.trans hback') ?_ ?_)
          · rcases hends with ⟨rfl, _⟩ | ⟨_, hraised⟩
            · exact hrest _ hstart (congrArg (·.mode) hcontrol)
            · exact .inr (.inr ⟨text, hraised text rfl⟩)
          · rcases hends with ⟨rfl, _⟩ | ⟨_, hraised⟩
            · refine .inl ?_
              rw [hq', ← hadmitted.stopInProgress, ← hq.mem]
              rfl
            · exact .inr ⟨text, hraised text rfl⟩
        · have hbroken : Broken settings s' := by
            rcases hends with ⟨_, hx⟩ | ⟨hbroken, _⟩
            · exact absurd (hrefused e hx) hrejected
            · exact hbroken
          cases e with
          | rejected text => exact absurd ⟨text, rfl⟩ hrejected
          | _ => exact ⟨hbackq'.trans hback', fun _ _ => hbroken⟩
      · exact ⟨hbackq'.trans hback', .ok⟩

/-! ## Under the intent lock -/

theorem hasLock_taken_intent (p : Spot) :
    HasLock (p.setMem (p.mem.take .intent p.task)) .intent :=
  (p.mem.owner_take _ _ _).trans (if_pos rfl)

/-- A body under the intent lock, which starts at once or in a segment of its own. -/
theorem runs_underIntent {α : Type} {body : Code α} {P : Spot → Except (Raised Exc) α → Prop}
    (hp : Home p) (hidle : p.job = .runner → p.mem.vars.desk.control.mode = .none)
    (once : let q := p.setMem (p.mem.take .intent p.task)
      Home q → HasLock q .intent → Runs settings body q fun p' r => Back q p' ∧ P p' r)
    (later : ∀ q, Home q → HasLock q .intent → q.mem.vars = q.start.vars → q.env = q.given →
      Waits q (.lock .intent none) → q.job = p.job →
      Runs settings body q fun p' r => Back q p' ∧ P p' r)
    (told : ∀ q, Told q.start q.task → P q (.error .cancelled))
    (release : ∀ q r, P q r → P (q.setMem (q.mem.release .intent)) r) :
    Runs settings (Prog.withLock .intent none body) p fun p' r =>
      Home p' ∧ p'.job = p.job ∧ P p' r := by
  have hunlock : ∀ q, HasLock q .intent → q.job = p.job → ∀ p' r, Back q p' ∧ P p' r →
      Unlocks (S := deskSignature) DeskLock.intent
        (fun p' r => Home p' ∧ p'.job = p.job ∧ P p' r) p' r := by
    rintro q hlock hjob p' r ⟨hback, hr⟩
    exact ⟨hback.after.lock hlock, hback.home.setMem rfl rfl rfl, hback.after.job.trans hjob,
      release p' r hr⟩
  refine safe_withLock (S := deskSignature) (fun _ => ?_) ?_ ?_ ?_
  · exact hp.suspends rfl (fun _ _ h => by cases h) (fun _ h => by cases h)
      (fun _ => .inr trivial) fun hjob _ => hidle hjob
  · intro _
    have hlock := hasLock_taken_intent p
    exact (once (hp.setMem rfl rfl rfl) hlock).mono (hunlock _ hlock rfl)
  · intro q hr
    have hwoken := woken_of_resumes hr
    obtain ⟨hlock, henv⟩ := locked_of_resumes hr
    exact (later q (hwoken.home henv rfl) hlock hwoken.vars henv hwoken.waited hwoken.job).mono
      (hunlock q hlock hwoken.job)
  · intro q hr
    have hwoken := woken_of_resumes hr
    obtain ⟨htold, henv⟩ := told_of_resumes_lock hr
    exact ⟨hwoken.home henv rfl, hwoken.job, told q htold⟩

/-- How a part of a cycle ends. -/
structure CycleEnds (settings : DeskSettings) {α : Type} (p : Spot)
    (r : Except (Raised Exc) α) : Prop where
  home : Home p
  runner : p.job = .runner
  ends : Ends settings p r

theorem runs_runStartupWakeCycle (hp : Home p) (hjob : p.job = .runner)
    (hvars : p.mem.vars = p.start.vars) (hmode : p.mem.vars.desk.control.mode = .none) :
    Runs settings (runStartupWakeCycle settings) p fun p' r => CycleEnds settings p' r := by
  unfold runStartupWakeCycle
  refine (runs_underIntent (P := fun p' r => Ends settings p' r) hp (fun _ => hmode) ?_ ?_ ?_
    ?_).mono ?_
  · intro q hq hlock
    exact runs_startupWakeCycle hq ⟨hjob, hlock, hvars, .inl hmode⟩
  · intro q hq hlock hqvars henv hwaits hqjob
    exact runs_startupWakeCycle hq ⟨hqjob.trans hjob, hlock, hqvars, .inr ⟨hwaits, henv⟩⟩
  · exact fun q htold _ _ => .inl htold
  · exact fun q r h => h
  · rintro q r ⟨hhome, hqjob, hends⟩
    exact ⟨hhome, hqjob.trans hjob, hends⟩

/-! ## Targets -/

theorem runs_enterSettling {control : ControlState} (hp : Home p)
    (hlater : Later control p.mem.vars.desk.control) (haimed : Aimed control)
    (hactive : control.awaitingFreshHeight = false) :
    Runs settings (enterSettling settings control.generation) p fun p' r =>
      Back p p' ∧ Ends settings p' r := by
  unfold enterSettling
  rw [runs_bind, runs_fields]
  dsimp only
  rw [runs_ite]
  refine ⟨fun _ => ⟨.refl hp, .ok⟩, fun hsame => ?_⟩
  have hgeneration : p.mem.vars.desk.control.generation = control.generation := by
    simpa using hsame
  have haimed' := (hlater.refines hgeneration).aimed haimed
  have hactive' := (hlater.refines hgeneration).active hactive
  rw [runs_bind, runs_now]
  dsimp only
  have hnext : Reads p p.next := (Reads.refl p).next
  rw [runs_bind]
  refine (runs_modify_flags (hnext.fit hp) ⟨rfl, rfl, rfl, rfl⟩ ?_).mono ?_
  · refine .settle ⟨rfl, rfl, rfl, rfl⟩ ?_ rfl haimed'.notManual rfl ⟨hactive', hactive'⟩ ?_
      (.inl rfl) rfl
    · show p.mem.vars.desk.control.generation < control.generation + 1
      rw [hgeneration]
      exact Nat.lt_succ_self _
    · exact .phase haimed' .settling none (by simp)
  rintro q r ⟨hback₁, rfl, _⟩
  have hback := hnext.backTrans hback₁
  dsimp only
  rw [runs_bind]
  refine (runs_sendStopBounded hback.home).mono ?_
  rintro s (⟨_ | e⟩ | stopError) ⟨hstill, hends⟩
  · exact ⟨⟨hends.1, hback.after.trans hstill.toAfter⟩, fun _ _ => .inl hends.2⟩
  · exact absurd hends id
  obtain ⟨hfit, _⟩ := hends
  have hback' : Back p s := ⟨hfit, hback.after.trans hstill.toAfter⟩
  cases stopError with
  | some text =>
    exact (runs_stopMotion_runner hfit (by decide)).mono fun _ _ h => ⟨hback'.trans h.1, h.2⟩
  | none =>
    dsimp only
    rw [runs_bind, runs_monotonic]
    dsimp only
    refine (runs_track hfit.next ⟨rfl, rfl, rfl, rfl⟩ rfl (.inl rfl)).mono ?_
    rintro p' r ⟨htracked, rfl⟩
    exact ⟨hback'.next.trans htracked.back, .ok⟩

/-- What a cycle has seen. -/
structure Sighted (settings : DeskSettings) (view : CycleView) (heightCm : Ieee) : Prop where
  height : MeasuredHeight settings view.height
  measured : view.height.heightCm = some heightCm
  relay : ReadyRelay settings view.relay view.checkedAt
  awaiting : view.control.awaitingFreshHeight = false

theorem Sighted.decided {view : CycleView} {heightCm : Ieee} {direction : Direction}
    (h : Sighted settings view heightCm) (haway : Away settings heightCm direction)
    (hlater : Later view.control p.mem.vars.desk.control) :
    Decided settings p view direction :=
  ⟨hlater, h.awaiting, admissible_of h.height h.measured h.relay haway⟩

theorem runs_pulseTowards {control : ControlState} {delta current : Ieee} {needed : Direction}
    {view : CycleView} (hp : Home p) (hdecided : Decided settings p view needed)
    (hlater : Later control p.mem.vars.desk.control)
    (hgeneration : control.generation = view.control.generation)
    (haimed : Aimed control) (hactive : control.awaitingFreshHeight = false)
    (hview : Aimed view.control)
    (hphase : control.targetPhase = some .fine → view.control.targetPhase ≠ some .continuous) :
    Runs settings (pulseTowards settings control delta needed current view) p fun p' r =>
      Back p p' ∧ Ends settings p' r := by
  unfold pulseTowards
  split
  · next hcontinuous =>
    rw [runs_ite]
    refine ⟨fun _ => runs_enterSettling hp hlater haimed hactive, fun _ => ?_⟩
    rw [runs_bind, runs_fields]
    dsimp only
    rw [runs_ite]
    refine ⟨fun _ => runs_publishPulse hp hgeneration hdecided fun h => absurd rfl h, fun _ => ?_⟩
    exact ⟨.refl hp, .ok⟩
  · next hfine =>
    rw [runs_bind, runs_fields]
    dsimp only
    rw [runs_ite]
    refine ⟨fun _ => ⟨.refl hp, .ok⟩, fun _ => ?_⟩
    exact runs_publishPulse hp hgeneration hdecided fun _ => ⟨hview, hphase hfine⟩
  · exact ⟨.refl hp, .ok⟩

theorem runs_runTargetCycle {control : ControlState} {current heightCm : Ieee}
    {view : CycleView} (hc : Cycle p control) (hmode : control.mode ≠ .manual)
    (htarget : Formed settings control → control.mode = .target)
    (hcontrol : view.control = control) (hsighted : Sighted settings view heightCm) :
    Runs settings (runTargetCycle settings control current view) p fun p' r =>
      Back p p' ∧ EndsOrRejects settings p' r := by
  subst hcontrol
  have hlater : Later view.control p.mem.vars.desk.control := by
    rw [hc.now]
    exact .refl _
  unfold runTargetCycle
  rw [runs_bind]
  refine (hc.runs_assertTarget htarget).mono ?_
  rintro q (e | target) ⟨rfl, hends, hsome⟩
  · exact ⟨.refl hc.home, fun _ _ => .inr (hends e rfl)⟩
  have haimed : Aimed view.control := ⟨⟨target, hsome target rfl⟩, hmode⟩
  dsimp only
  rw [runs_bind, runs_assertSome]
  refine ⟨fun cm hcm => ?_, fun hnone => by rw [hsighted.measured] at hnone; cases hnone⟩
  obtain rfl : heightCm = cm := Option.some.inj (hsighted.measured.symm.trans hcm)
  dsimp only
  rw [runs_ite]
  constructor
  · intro _
    exact (runs_stopMotion_runner hc.home (reached_ne target)).mono fun _ _ h =>
      ⟨h.1, h.2.orRejects⟩
  intro _
  rw [runs_bind]
  refine runs_requireDirectionAllowed.mono ?_
  rintro s (e | u) ⟨rfl, hrejection, haway⟩
  · exact ⟨.refl hc.home, .of_rejection hrejection rfl⟩
  have haway := haway u rfl
  dsimp only
  rw [runs_ite]
  constructor
  · intro hsettling
    have hphase : view.control.targetPhase ≠ some .continuous := by
      rw [hsettling]
      simp
    rw [runs_bind, runs_fields]
    dsimp only
    rw [runs_ite]
    refine ⟨fun _ => ⟨.refl hc.home, .ok⟩, fun _ => ?_⟩
    rw [runs_bind, runs_relay]
    dsimp only
    have hnext : Reads s s.next := (Reads.refl s).next
    rw [runs_bind, runs_require]
    refine ⟨fun _ => ?_, fun _ => ⟨hnext.back hc.home, ?_⟩⟩
    · dsimp only
      rw [runs_bind, runs_fields]
      dsimp only
      rw [runs_ite]
      refine ⟨fun _ => ⟨hnext.back hc.home, .ok⟩, fun _ => ?_⟩
      have haimed' : Aimed s.mem.vars.desk.control := by
        rw [hc.now]
        exact haimed
      rw [runs_bind, runs_now]
      dsimp only
      rw [runs_bind]
      refine (runs_modify_flags (hnext.next.fit hc.home) ⟨rfl, rfl, rfl, rfl⟩ ?_).mono ?_
      · refine .refine ⟨rfl, rfl, rfl, rfl⟩ ⟨⟨rfl, rfl, rfl, ?_, .inl rfl, fun _ => ?_⟩, rfl, rfl⟩
          (.phase haimed' .fine _ (by simp)) (.inl rfl) rfl
        · exact fun hmanual => absurd hmanual haimed'.notManual
        · have hphase' : s.mem.vars.desk.control.targetPhase ≠ some .continuous := by
            rw [hc.now]
            exact hphase
          exact ⟨⟨fun h => (by cases h), fun h => absurd h hphase'⟩, fun h => absurd h hphase'⟩
      · rintro t r ⟨hback₁, rfl, ht⟩
        have hback := hnext.next.backTrans hback₁
        dsimp only
        rw [runs_bind, runs_fields]
        dsimp only
        have hlater' := hlater.trans hback.after.control
        have hnow : t.mem.vars.desk.control.generation = view.control.generation ∧
            Aimed t.mem.vars.desk.control ∧
            t.mem.vars.desk.control.awaitingFreshHeight = false := by
          rw [ht]
          exact ⟨congrArg (·.generation) hc.now, ⟨haimed'.target, haimed'.notManual⟩,
            (congrArg (·.awaitingFreshHeight) hc.now).trans hsighted.awaiting⟩
        exact (runs_pulseTowards hback.home (hsighted.decided haway hlater') (.refl _) hnow.1
          hnow.2.1 hnow.2.2 haimed fun _ => hphase).mono fun _ _ h => ⟨hback.trans h.1, h.2.orRejects⟩
    · rintro e ⟨⟩
      exact .inl ⟨_, rfl⟩
  · intro _
    exact (runs_pulseTowards hc.home (hsighted.decided haway hlater) hlater rfl haimed
      hsighted.awaiting haimed fun hfine => by rw [hfine]; simp).mono fun _ _ h => ⟨h.1, h.2.orRejects⟩

/-! ## The cycle -/

theorem runs_runMotionCycle {control : ControlState} (hc : Cycle p control)
    (hmode : control.mode ≠ .none) (hawaiting : control.awaitingFreshHeight = false) :
    Runs settings (runMotionCycle settings control) p fun p' r =>
      Back p p' ∧ EndsOrRejects settings p' r := by
  unfold runMotionCycle
  rw [runs_bind]
  refine runs_requireHeight.mono ?_
  rintro q (e | height) ⟨hread₁, hrejection, hheight⟩
  · exact ⟨hread₁.back hc.home, .of_rejection hrejection rfl⟩
  obtain ⟨hmeasured, -⟩ := hheight height rfl
  obtain ⟨x, hx, -⟩ := hmeasured.height
  dsimp only
  rw [runs_bind]
  refine runs_requireRelayReady.mono ?_
  rintro q' (e | ⟨snapshot, checkedAt⟩) ⟨hread₂, hrejection, hrelay⟩
  · exact ⟨(hread₁.trans hread₂).back hc.home, .of_rejection hrejection rfl⟩
  obtain ⟨hready, -⟩ := hrelay (snapshot, checkedAt) rfl
  dsimp only at hready ⊢
  rw [runs_bind, runs_assertSome]
  refine ⟨fun heightCm hheightCm => ?_, fun hnone => by rw [hx] at hnone; cases hnone⟩
  dsimp only
  rw [runs_bind, runs_monotonic]
  dsimp only
  have hread : Reads p q'.next := (hread₁.trans hread₂).next
  have hback : Back p q'.next := hread.back hc.home
  rw [runs_bind, runs_fields]
  dsimp only
  rw [runs_bind, runs_require]
  refine ⟨fun _ => ?_, fun _ => ⟨hback, ?_⟩⟩
  swap
  · rintro e ⟨⟩
    exact .inl ⟨_, rfl⟩
  dsimp only
  rw [runs_ite]
  constructor
  · intro _
    exact (runs_stopMotion_runner hback.home (by decide)).mono fun _ _ h =>
      ⟨hback.trans h.1, h.2.orRejects⟩
  intro _
  rw [runs_bind]
  refine (runs_evaluateRelayStatus hback.home).mono ?_
  rintro s (e | u) ⟨htracked, hrejection⟩
  · exact ⟨hback.trans htracked.back, .of_rejection hrejection rfl⟩
  have hback' : Back p s := hback.trans htracked.back
  have hcs : Cycle s control := htracked.cycle (hread.cycle hc)
  have hsighted : Sighted settings ⟨control, height, snapshot, checkedAt⟩ heightCm :=
    ⟨hmeasured, hheightCm, hready, hawaiting⟩
  dsimp only
  rw [runs_ite]
  constructor
  · intro hmanual
    rw [runs_bind]
    refine (hcs.runs_assertDirection hmanual).mono ?_
    rintro t (e | direction) ⟨rfl, hends, _⟩
    · exact ⟨hback', fun _ _ => .inr (hends e rfl)⟩
    dsimp only
    rw [runs_bind]
    refine runs_requireDirectionAllowed.mono ?_
    rintro t' (e | u) ⟨rfl, hrejection, haway⟩
    · exact ⟨hback', .of_rejection hrejection rfl⟩
    dsimp only
    rw [runs_bind, runs_fields]
    dsimp only
    rw [runs_ite]
    refine ⟨fun _ => ?_, fun _ => ⟨hback', .ok⟩⟩
    have hlater : Later control t'.mem.vars.desk.control := by
      rw [hcs.now]
      exact .refl _
    have hdecided := hsighted.decided (haway u rfl) hlater
    exact (runs_publishPulse hcs.home rfl hdecided fun h => absurd rfl h).mono fun _ _ h =>
      ⟨hback'.trans h.1, h.2.orRejects⟩
  · intro hmanual
    refine (runs_runTargetCycle hcs hmanual (fun hformed => ?_) rfl hsighted).mono fun _ _ h =>
      ⟨hback'.trans h.1, h.2⟩
    -- A bare WAKE always waits for its height.
    cases hm : control.mode with
    | none => exact absurd hm hmode
    | manual => exact absurd hm hmanual
    | target => rfl
    | wake =>
      rw [hformed.waking hm] at hawaiting
      cases hawaiting

theorem Back.ends {α : Type} {q : Spot} {r : Except (Raised Exc) α}
    (h : Back p q ∧ Ends settings q r) (hjob : p.job = .runner) : CycleEnds settings q r :=
  ⟨h.1.home, h.1.after.job.trans hjob, h.2⟩

/-- **A cycle** ends with an exception only when the runner is broken. -/
theorem runs_runCycle (hp : Home p) (hjob : p.job = .runner) (hvars : p.mem.vars = p.start.vars) :
    Runs settings (runCycle settings) p fun p' r => CycleEnds settings p' r := by
  unfold runCycle
  rw [runs_bind, runs_fields]
  dsimp only
  rw [runs_ite]
  refine ⟨fun _ => ⟨hp, hjob, .ok⟩, fun _ => ?_⟩
  rw [runs_ite]
  constructor
  · intro hmode
    rw [runs_bind]
    refine (runs_runStartupWakeCycle hp hjob hvars hmode).mono ?_
    rintro q (e | looked) hq
    · exact ⟨hq.home, hq.runner, fun _ _ => hq.ends e rfl⟩
    dsimp only
    rw [runs_ite]
    refine ⟨fun _ => ⟨hq.home, hq.runner, .ok⟩, fun _ => ?_⟩
    exact (runs_watchInactiveRelay hq.home).mono fun _ _ h => Back.ends h hq.runner
  · intro hmode
    have hc : Cycle p p.mem.vars.desk.control := ⟨hp, rfl, by rw [hvars]⟩
    rw [runs_exceptRejected]
    have hbody : Runs settings
        (if p.mem.vars.desk.control.awaitingFreshHeight then
          runWakeCycle settings p.mem.vars.desk.control
        else runMotionCycle settings p.mem.vars.desk.control) p fun p' r =>
        Back p p' ∧ EndsOrRejects settings p' r := by
      rw [runs_ite]
      refine ⟨fun hawaiting => runs_runWakeCycle hc hmode hawaiting, fun hawaiting => ?_⟩
      exact runs_runMotionCycle hc hmode (by simpa using hawaiting)
    refine hbody.mono ?_
    rintro q (⟨_ | e⟩ | u) ⟨hback, hends⟩
    · refine ⟨hback.home, hback.after.job.trans hjob, fun e he => ?_⟩
      rcases hends _ rfl with ⟨text, htext⟩ | hbroken
      · cases htext
      · exact hbroken
    · cases e with
      | rejected text =>
        have hq : q.job = .runner := hback.after.job.trans hjob
        exact (runs_stopMotion_runner hback.home (by decide)).mono fun _ _ h => Back.ends h hq
      | _ =>
        refine ⟨hback.home, hback.after.job.trans hjob, fun e he => ?_⟩
        rcases hends _ rfl with ⟨text, htext⟩ | hbroken
        · cases htext
        · exact hbroken
    · exact ⟨hback.home, hback.after.job.trans hjob, .ok⟩

/-! ## The runner -/

/-- How the runner ends. -/
structure RunnerEnds (settings : DeskSettings) (p : Spot) : Prop where
  rested : Rested p
  runner : p.job = .runner
  why : Broken settings p ∨ p.mem.vars.desk.running = false

/-- The STOP that the runner shields from its cancellation. -/
theorem runs_shieldedStop {job : Job} (hp : Home p) (hjob : p.job = .runner)
    (hbroken : Broken settings p)
    (hpublic : job.isPublic = false)
    (hshielded : ∀ detail errorDetail, job ≠ .stopAndConfirm detail errorDetail) :
    Runs settings
      (do
        let child ← Prog.spawn job .ret
        let _ ← Prog.wait (.shield child)
        Prog.raise .cancelled : Code Unit) p fun p' _ => RunnerEnds settings p' := by
  set child := p.mem.count with hchild
  set q := p.setMem (p.mem.spawn job) with hq
  have hhome : Home q := hp.spawn job
  have htask : q.mem.task child = some ⟨job, .ready, false⟩ := Function.update_self _ _ _
  have hlt : child < q.mem.count := Nat.lt_succ_self _
  rw [runs_bind, runs_spawn]
  refine ⟨hpublic, ?_⟩
  dsimp only
  rw [runs_bind]
  refine safe_wait (S := deskSignature) rfl
    (hhome.suspends rfl (fun _ _ h => by cases h)
      (by rintro u ⟨⟩; exact ⟨rfl, job, htask⟩) (fun _ => .inl hbroken) fun _ h => by cases h) ?_
  intro p' r hr
  have hwoken := woken_of_resumes hr
  obtain ⟨henv, hcases⟩ := resumes_task (.inl rfl) hr
  have hhome' : Home p' := hwoken.home henv rfl
  have hrunner : p'.job = .runner := hwoken.job.trans hjob
  have hbroken' : Broken settings p' := by
    rcases hcases with ⟨htold, _⟩ | ⟨_, houtcome⟩ | ⟨h, _⟩
    · exact .inl htold
    · refine .inr (.inr (.inr (.inl ⟨child, r, hwoken.waited, houtcome, ?_⟩)))
      intro detail errorDetail hchildJob
      rw [hwoken.knows.job child hlt, Mem.job, htask] at hchildJob
      exact absurd (Option.some.inj hchildJob) (hshielded detail errorDetail)
    · cases h
  cases r with
  | ok v => exact ⟨hhome'.rested, hrunner, .inl hbroken'⟩
  | error e => exact ⟨hhome'.rested, hrunner, .inl hbroken'⟩

/-- **A broken runner** stops the desk before it ends. -/
theorem runs_endRun {e : Raised Exc} (hp : Home p) (hjob : p.job = .runner)
    (hbroken : Broken settings p) :
    Runs settings (endRun e) p fun p' _ => RunnerEnds settings p' := by
  have hends : RunnerEnds settings p := ⟨hp.rested, hjob, .inl hbroken⟩
  cases e with
  | cancelled =>
    show Runs settings (fields >>= _) p _
    rw [runs_bind, runs_fields]
    dsimp only
    rw [runs_ite]
    exact ⟨fun _ => runs_shieldedStop hp hjob hbroken rfl (by simp), fun _ => hends⟩
  | error e =>
    show Runs settings (fields >>= _) p _
    rw [runs_bind, runs_fields]
    dsimp only
    rw [runs_ite]
    refine ⟨fun _ => ?_, fun _ => hends⟩
    rw [runs_bind]
    refine (runs_stopMotion hp fun _ => .inl hbroken).mono ?_
    rintro q ((_ | x) | u) ⟨hback, hq⟩
    · exact ⟨hback.home.rested, hback.after.job.trans hjob, .inl hq⟩
    · exact ⟨hback.home.rested, hback.after.job.trans hjob, .inl hq.1⟩
    · exact ⟨hback.home.rested, hback.after.job.trans hjob, .inl (hq.1 rfl)⟩

/-- A cycle that finds a latch does nothing. -/
theorem runs_runCycle_latched (hlatch : p.mem.vars.desk.stopInProgress = true) :
    Runs settings (runCycle settings) p fun p' r => p' = p ∧ r = .ok () := by
  unfold runCycle
  rw [runs_bind, runs_fields]
  dsimp only
  rw [runs_ite]
  refine ⟨fun _ => ⟨rfl, rfl⟩, fun h => absurd ?_ h⟩
  rw [hlatch, Bool.or_true]

/-- The pause after a cycle, in which the runner can be cancelled. -/
theorem runs_pause (hrested : Rested p) (hjob : p.job = .runner) :
    Runs settings (Prog.again (S := deskSignature) endRun) p fun p' _ => RunnerEnds settings p' := by
  refine ⟨⟨hrested, hjob⟩, ?_⟩
  intro p' hinterrupts
  have hwakes := hinterrupts.wakes
  obtain ⟨_, _, htask, hjob', hstatus, henv, _⟩ := hinterrupts
  rw [← htask, ← hjob'] at hstatus
  have htold : Told p'.start p'.task := ⟨_, hstatus, rfl⟩
  have hfresh : Fresh p' := ⟨.inr (Mem.shape_eq_some.mpr ⟨_, hstatus⟩), hwakes.vars, henv⟩
  have hrunner := hjob'.trans hjob
  exact runs_endRun (hfresh.home (by rw [hrunner]; simp) fun _ _ => .inr htold) hrunner
    (.inl htold)

/-- **The runner** ends only if it is broken, or if the controller does not run. -/
theorem runs_run (hf : Fresh p) (hjob : p.job = .runner) :
    Runs settings (run settings) p fun p' _ => RunnerEnds settings p' := by
  unfold run
  refine (safe_attempt (S := deskSignature)).mpr ?_
  show Runs settings (fields >>= _) p _
  rw [runs_bind, runs_fields]
  dsimp only
  rw [runs_ite]
  constructor
  · intro _
    rw [runs_bind]
    by_cases hlatch : p.mem.vars.desk.stopInProgress = true
    · refine (runs_runCycle_latched hlatch).mono ?_
      rintro q r ⟨rfl, rfl⟩
      exact runs_pause hf.rested hjob
    · have hopen : Unhindered p := by
        intro _ _
        rw [← hf.vars]
        exact .inl (by simpa using hlatch)
      refine (runs_runCycle (hf.home (by rw [hjob]; simp) hopen) hjob hf.vars).mono ?_
      rintro q (e | u) hq
      · exact runs_endRun hq.home hq.runner (hq.ends e rfl)
      · exact runs_pause hq.home.rested hq.runner
  · intro hstopped
    exact ⟨hf.rested, hjob, .inr (by simpa using hstopped)⟩

end SmartDesk.Desk
