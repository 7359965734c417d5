import SmartDesk.Desk.Intents

/-!
# `start` and `stop` keep the guarantee

* `runs_startCall` — the controller is marked as running, its runner is created, and the
  STOP of the start is confirmed.
* `runs_stopCall` — the controller is closed, and its runner is cancelled.
-/

namespace SmartDesk.Desk

open Coroutine Code

variable {settings : DeskSettings} {p : Spot}

/-! ## The startup WAKE -/

theorem runs_setStartupSensorCheckNeeded {text : String} (hp : Home p) (hrest : AtRest p)
    (hfree : p.mem.vars.desk.stopInProgress = false ∨ ∃ text, ChildRaised p (.rejected text)) :
    Runs settings (setStartupSensorCheckNeeded text) p fun p' r => Back p p' ∧ r = .ok () := by
  unfold setStartupSensorCheckNeeded
  rw [runs_bind]
  refine (runs_modify_flags hp ⟨rfl, rfl, rfl, rfl⟩ (.cancelPending settings p)).mono ?_
  rintro q r ⟨hback, rfl, rfl⟩
  dsimp only
  rw [runs_bind, runs_fields]
  dsimp only
  rw [runs_ite]
  refine ⟨fun _ => ⟨hback, rfl⟩, fun _ => ?_⟩
  rw [runs_bind, runs_now]
  dsimp only
  refine (runs_modify_flags hback.next.home ⟨rfl, rfl, rfl, rfl⟩ ?_).mono ?_
  · exact .idle ⟨rfl, rfl, rfl, rfl⟩ ⟨_, _, _, _, rfl, rfl⟩ hrest hfree (.inl rfl) rfl
  · rintro p' r ⟨hback', rfl, _⟩
    exact ⟨hback.next.trans hback', rfl⟩

/-- The segment in which `start` ends its exchange, after it has cleared the latch. -/
structure Starting (p : Spot) : Prop where
  job : p.job = .start
  confirming : Confirming p.start p.task
  mode : p.mem.vars.desk.control.mode = p.start.vars.desk.control.mode
  closing : p.mem.vars.desk.closing = p.start.vars.desk.closing
  free : p.mem.vars.desk.stopInProgress = false

theorem Starting.atRest (h : Starting p) : AtRest p := .inr (.inl ⟨.inl h.confirming, h.mode⟩)

theorem Reads.starting {q : Spot} (h : Reads p q) (hs : Starting p) : Starting q := by
  obtain ⟨n, rfl⟩ := h
  exact ⟨hs.job, hs.confirming, hs.mode, hs.closing, hs.free⟩

theorem runs_registerStartupWake (hp : Home p) (hstarting : Starting p) :
    Runs settings (registerStartupWake settings) p fun p' _ => Back p p' := by
  unfold registerStartupWake
  rw [runs_bind, runs_height]
  dsimp only
  have hnext : Reads p p.next := (Reads.refl p).next
  rw [runs_ite]
  refine ⟨fun _ => hnext.back hp, fun _ => ?_⟩
  rw [runs_bind, runs_exceptRejected, runs_bind]
  refine runs_requireWakeBasis.mono ?_
  rintro q (e | basis) ⟨rfl, hrejection, _⟩
  · obtain ⟨text, rfl⟩ := hrejection e rfl
    exact (runs_setStartupSensorCheckNeeded (hnext.fit hp) (hnext.starting hstarting).atRest
      (.inl hstarting.free)).mono fun _ _ h => hnext.backTrans h.1
  dsimp only
  rw [runs_bind, runs_assertSome]
  refine ⟨fun basisHeightCm _ => ?_, fun _ => hnext.back hp⟩
  dsimp only
  rw [runs_bind]
  refine runs_requireDirectionAllowed.mono ?_
  rintro q (e | u) ⟨rfl, hrejection, _⟩
  · obtain ⟨text, rfl⟩ := hrejection e rfl
    exact (runs_setStartupSensorCheckNeeded (hnext.fit hp) (hnext.starting hstarting).atRest
      (.inl hstarting.free)).mono fun _ _ h => hnext.backTrans h.1
  show Runs settings (fields >>= _) p.next _
  rw [runs_bind, runs_fields]
  dsimp only
  rw [runs_ite]
  refine ⟨fun _ => hnext.back hp, fun hactive => ?_⟩
  have hadmitted : Admitted p.mem.vars.desk := by
    simp only [Bool.or_eq_true, Bool.not_eq_true', not_or, Bool.not_eq_false,
      Bool.not_eq_true] at hactive
    exact ⟨hactive.1.1, hactive.1.2, hactive.2⟩
  rw [runs_bind, runs_monotonic]
  dsimp only
  rw [runs_bind, runs_now]
  dsimp only
  have hread : Reads p p.next.next.next := hnext.next.next
  refine (runs_modifyNote_flags (hread.fit hp) ⟨rfl, rfl, rfl, rfl⟩ ?_).mono ?_
  · exact .register ⟨rfl, rfl, rfl, rfl⟩ ⟨_, _, _, _, rfl, rfl⟩ hstarting.atRest hstarting.job
      hstarting.confirming hadmitted.running hadmitted.closing hadmitted.stopInProgress
      (hstarting.closing.symm.trans hadmitted.closing) rfl
  · rintro p' r ⟨hback, _⟩
    exact hread.backTrans hback

/-! ## `start` -/

theorem runs_confirmStart (hp : Fit true p) (hjob : p.job = .start) :
    Runs settings (confirmStart settings) p fun p' _ => Back p p' := by
  unfold confirmStart
  rw [runs_bind, runs_relay]
  dsimp only
  have hnext : Reads p p.next := (Reads.refl p).next
  rw [runs_bind]
  refine (runs_publishAndConfirm (hnext.fit hp)).mono ?_
  rintro q (⟨_ | e⟩ | stopError) ⟨hstill, hends⟩
  · exact ⟨hends.1, hnext.after.trans hstill.toAfter⟩
  · exact absurd hends id
  dsimp only
  rw [runs_bind, runs_now]
  dsimp only
  have hafter : After p q.next := (hnext.after.trans hstill.toAfter).next
  have hfit : Fit true q.next := hends.fit.next
  have hconfirmed : Confirmed q.next := hends.confirmed
  -- The latch is cleared, and the state of the start is shown.
  have hunlatch : ∀ (publicState : DeskState) (detail : String) (lastError : Option String),
      publicState.resting = true →
      let v : Vars :=
        { q.mem.vars with
          desk :=
            { q.mem.vars.desk with
              stopInProgress := false
              control :=
                { q.mem.vars.desk.control with
                  publicState := publicState, detail := detail, lastError := lastError
                  updatedAt := (q.env 0).now } } }
      Change settings q.next v ∧ Back p (q.next.setVars v) := by
    intro publicState detail lastError hresting v
    have hchange : Change settings q.next v :=
      .unlatch hconfirmed rfl rfl rfl ⟨_, _, _, _, hresting, rfl⟩ (.inl rfl) rfl
    exact ⟨hchange, hfit.unlatch hconfirmed rfl rfl rfl rfl, hafter.trans (.change hchange)⟩
  cases stopError.text? with
  | none =>
    dsimp only
    rw [runs_bind, runs_modify]
    obtain ⟨hchange, hback⟩ := hunlatch .idle "책상 제어기가 안전 정지 상태로 시작되었습니다."
      q.mem.vars.desk.control.lastError rfl
    refine ⟨hchange, (runs_registerStartupWake hback.home ?_).mono fun _ _ h => hback.trans h⟩
    refine ⟨?_, hconfirmed.1, congrArg (·.control.mode) hends.desk,
      congrArg (·.closing) hends.desk, rfl⟩
    exact hafter.job.trans hjob
  | some text =>
    dsimp only
    rw [runs_modify]
    exact hunlatch .error "시작 안전 정지 명령을 발행하지 못했습니다." (some text) rfl

theorem runs_alive {t : Option ℕ} {Q : Spot → Except (Raised Exc) Bool → Prop}
    (h : ∀ b, Q p (.ok b)) : Runs settings (alive t) p Q := by
  cases t with
  | none => exact h false
  | some t => exact h _

/-- The runner is created, or nothing has changed. -/
theorem runs_createRunner (hjob : p.job = .start) :
    Runs settings createRunner p fun p' r =>
      (∃ e, r = .error (.error e) ∧ Reads p p') ∨
        r = .ok () ∧ ∃ q, Reads p q ∧
          p' = (q.setMem (q.mem.spawn .runner)).setVars
            { p.mem.vars with
              desk := { p.mem.vars.desk with runnerTask := some p.mem.count }
              registered := some p.mem.count } := by
  unfold createRunner
  rw [runs_bind, runs_vars]
  dsimp only
  rw [runs_bind]
  refine runs_alive fun duplicate => ?_
  dsimp only
  rw [runs_bind, runs_require]
  refine ⟨fun _ => ?_, fun _ => .inl ⟨_, rfl, .refl p⟩⟩
  dsimp only
  show Runs settings (require _ _ >>= _) p.next _
  rw [runs_bind, runs_require]
  have hread : Reads p p.next := (Reads.refl p).next
  refine ⟨fun _ => ?_, fun _ => .inl ⟨_, rfl, hread⟩⟩
  dsimp only
  rw [runs_bind, runs_spawn]
  refine ⟨rfl, ?_⟩
  dsimp only
  rw [runs_setVars]
  exact ⟨.runner rfl rfl rfl rfl (.inr hjob) (.inl rfl) rfl, .inr ⟨rfl, p.next, hread, rfl⟩⟩

theorem runs_startCall (hp : Home p) (hjob : p.job = .start) (hstarts : Starts p)
    (hvars : p.mem.vars = p.start.vars) :
    Runs settings (startCall settings) p fun p' _ => Back p p' := by
  unfold startCall
  rw [runs_bind, runs_fields]
  dsimp only
  rw [runs_bind]
  refine runs_alive fun runnerAlive => ?_
  dsimp only
  rw [runs_bind, runs_require]
  refine ⟨fun hidle => ?_, fun _ => .refl hp⟩
  dsimp only
  rw [runs_bind, runs_now]
  dsimp only
  rw [runs_bind, runs_modify]
  simp only [Bool.not_eq_true', Bool.or_eq_false_iff] at hidle
  have hlaunched : p.start.vars.desk.running = false := by
    rw [← hvars]
    exact hidle.1
  have hread : Reads p p.next := (Reads.refl p).next
  have hbegin : Change settings p.next
      { p.mem.vars with
        desk :=
          { p.mem.vars.desk.resetMotionFields with
            running := true, closing := false, stopInProgress := true
            control := .still .idle "책상 제어기를 시작하고 있습니다." (p.env 0).now
              (p.mem.vars.desk.control.generation + 1) } } :=
    .startBegin hjob hstarts hlaunched rfl rfl rfl ⟨Nat.lt_succ_self _, _, _, _, rfl, rfl⟩
      (.inl rfl) rfl
  refine ⟨hbegin, ?_⟩
  dsimp only
  have hafter := hread.after.trans (.change hbegin)
  rw [runs_bind, runs_exceptError]
  refine (runs_createRunner (p := p.next.setVars _) hjob).mono ?_
  rintro q r (⟨e, rfl, hread'⟩ | ⟨rfl, s, hread', rfl⟩)
  · -- The task manager has refused the runner.
    obtain ⟨n, rfl⟩ := hread'
    refine runs_bind.mpr ?_
    rw [runs_modify]
    refine ⟨.startFail hjob hstarts rfl rfl rfl rfl rfl (.inl rfl) rfl, ?_⟩
    show Back p _
    refine ⟨⟨fun _ h => (by cases h), fun h => (by cases h), fun h => ?_,
      fun h => (by cases h), fun h => ?_, fun _ => .inr (.inr (.inl ⟨hjob, hstarts⟩)),
      fun i => hp.env _⟩, ?_⟩
    · cases hjob.symm.trans h
    · cases hjob.symm.trans h
    · exact ⟨hafter.task, hafter.job, hafter.lock, hafter.control, hafter.grows⟩
  · obtain ⟨n, rfl⟩ := hread'
    refine (runs_confirmStart (p := _) ?_ ?_).mono ?_
    · refine ⟨fun h => (by cases h), fun _ => ⟨.inr ⟨rfl, fun _ => ?_⟩, fun h => absurd hjob h⟩,
        fun h => ?_, fun _ _ => .inr (.inl ⟨_, Nat.lt_succ_self _, rfl, ?_⟩), fun h => ?_,
        fun _ => .inl rfl, fun i => hp.env _⟩
      · exact .inr (.inl ⟨hjob, hstarts⟩)
      · cases hjob.symm.trans h
      · exact Function.update_self _ _ _
      · cases hjob.symm.trans h
    · exact hjob
    · intro p' r hback
      refine ⟨hback.home, After.trans ?_ hback.after⟩
      exact ⟨hafter.task, hafter.job, hafter.lock, hafter.control, hafter.grows⟩

/-! ## `stop` -/

/-- A later segment of `stop`. -/
structure Stopping (p : Spot) : Prop where
  job : p.job = .stop
  waits : ∃ w, Waits p w
  closing : p.mem.vars.desk.closing = p.start.vars.desk.closing

/-- While `stop` ends the runner, the flags stay as they are. -/
theorem Stopping.home {v : Vars} (h : Stopping p) (hp : Home p)
    (hclosing : v.desk.closing = p.mem.vars.desk.closing)
    (hlatch : v.desk.stopInProgress = p.mem.vars.desk.stopInProgress) : Home (p.setVars v) where
  calm := fun hl hset hopen =>
    hp.calm hl (hlatch.symm.trans hset) (hclosing.symm.trans hopen)
  latch := fun hl => by cases hl
  shut := fun _ => .inr ⟨h.waits, hclosing.trans h.closing⟩
  manned := fun _ _ => .inr (.inr ⟨h.job, h.waits⟩)
  unhindered := hp.unhindered
  held := fun _ => .inr (.inr (.inr h.job))
  env := hp.env

theorem runs_endRunner (hp : Home p) (hstopping : Stopping p) :
    Runs settings endRunner p fun p' r =>
      Back p p' ∧ ∀ u, r = .ok u → Stopping p' := by
  unfold endRunner
  rw [runs_bind, runs_fields]
  dsimp only
  rw [runs_bind, runs_modify]
  have hchange : Change settings p
      { p.mem.vars with desk := { p.mem.vars.desk with runnerTask := none } } :=
    .runner rfl rfl rfl rfl (.inl rfl) (.inl rfl) rfl
  refine ⟨hchange, ?_⟩
  dsimp only
  have hhome := hstopping.home
    (v := { p.mem.vars with desk := { p.mem.vars.desk with runnerTask := none } })
    hp rfl rfl
  have hafter : After p _ := .change hchange
  cases p.mem.vars.desk.runnerTask with
  | none => exact ⟨⟨hhome, hafter⟩, fun _ _ => ⟨hstopping.job, hstopping.waits, hstopping.closing⟩⟩
  | some task =>
    dsimp only
    rw [runs_bind]
    refine runs_alive fun b => ?_
    -- The wait for the runner, from a memory in which it may have been cancelled.
    have hwait : ∀ m : Memory, m.vars = { p.mem.vars with
          desk := { p.mem.vars.desk with runnerTask := none } } →
        (∀ l, m.owner l = p.mem.owner l) →
        Runs settings
          (do
            let _ ← Prog.wait (.gather task)
            return () : Code Unit) (p.setMem m) fun p' r =>
          Back p p' ∧ ∀ u, r = .ok u → Stopping p' := by
      rintro ⟨vars, lock, tasks, count⟩ rfl howner
      have hhome' : Home (p.setMem ⟨{ p.mem.vars with
          desk := { p.mem.vars.desk with runnerTask := none } }, lock, tasks, count⟩) :=
        ⟨hhome.calm, hhome.latch, hhome.shut, fun _ _ => .inr (.inr ⟨hstopping.job, hstopping.waits⟩),
          hhome.unhindered, hhome.held, hhome.env⟩
      rw [runs_bind]
      refine safe_wait (S := deskSignature) rfl (hhome'.suspends rfl (fun _ _ h => by cases h)
        (fun _ h => by cases h) (fun h => by cases hstopping.job.symm.trans h)
        fun _ h => by cases h) ?_
      intro p' r hr
      have hwoken := woken_of_resumes hr
      obtain ⟨henv, _⟩ := resumes_task (.inr rfl) hr
      have hback : Back p p' := by
        refine ⟨hwoken.home henv rfl, After.trans ?_ hwoken.toAfter⟩
        exact ⟨rfl, rfl, fun hl => (howner _).trans hl, hafter.control, hafter.grows⟩
      cases r with
      | ok v =>
        refine ⟨hback, fun _ _ => ⟨hwoken.job.trans hstopping.job, ⟨_, hwoken.waited⟩, ?_⟩⟩
        exact congrArg (·.desk.closing) hwoken.vars
      | error e => exact ⟨hback, fun _ h => by cases h⟩
    dsimp only
    rw [runs_ite]
    constructor
    · intro _
      refine ⟨⟨hstopping.job, hstopping.waits⟩, ?_⟩
      have hsame := sameButCancelled_cancel (S := deskSignature)
        { p.mem with vars := { p.mem.vars with
          desk := { p.mem.vars.desk with runnerTask := none } } } task
      exact hwait _ hsame.vars hsame.owner
    · intro _
      exact hwait _ rfl fun _ => rfl

theorem runs_stopCall (hp : Fresh p) (hjob : p.job = .stop) :
    Runs settings stopCall p fun p' _ => Rested p' ∧ p'.job = .stop := by
  unfold stopCall
  rw [runs_bind, runs_fields]
  dsimp only
  rw [runs_ite]
  refine ⟨fun _ => ⟨⟨hp.calm, manned_of_vars hp.vars⟩, hjob⟩, fun hactive => ?_⟩
  rw [runs_bind, runs_now]
  dsimp only
  rw [runs_bind, runs_modifyNote]
  have hactive' : p.mem.vars.desk.running = true ∨
      ∃ t, p.mem.vars.desk.runnerTask = some t := by
    by_contra hnot
    rw [not_or] at hnot
    refine hactive ?_
    simp only [Bool.and_eq_true, Bool.not_eq_true', Option.isNone_iff_eq_none]
    refine ⟨by simpa using hnot.1, ?_⟩
    by_contra htask
    exact hnot.2 (Option.ne_none_iff_exists'.mp htask)
  have hread : Reads p p.next := (Reads.refl p).next
  have hbegin : Change settings p.next
      { p.mem.vars with
        desk :=
          { p.mem.vars.desk.invalidateMotionLocked "애플리케이션 종료" (p.env 0).now with
            closing := true, stopInProgress := true }
        trace := .closed :: p.mem.vars.trace } :=
    .stopBegin hjob rfl rfl hactive' rfl ⟨Nat.lt_succ_self _, _, _, _, rfl, rfl⟩ rfl rfl
  refine ⟨hbegin, ?_⟩
  dsimp only
  have hafter := hread.after.trans (.change hbegin)
  rw [runs_bind]
  refine (runs_sendStopBounded (show Home _ from ?_)).mono ?_
  · exact ⟨fun _ _ h => (by cases h), fun h => (by cases h), fun _ => .inl rfl,
      fun _ h => (by cases h), fun h => (by cases hjob.symm.trans h), fun _ => .inl rfl,
      fun i => ⟨i + 1, congrFun hp.env _⟩⟩
  rintro q (⟨_ | e⟩ | stopError) ⟨hstill, hends⟩
  · exact ⟨hends.1.rested, (hafter.trans hstill.toAfter).job.trans hjob⟩
  · exact absurd hends id
  obtain ⟨hfit, hsent⟩ := hends
  have hback : Back p q := ⟨hfit, hafter.trans hstill.toAfter⟩
  have hstopping : Stopping q :=
    ⟨hback.after.job.trans hjob, ⟨_, hsent.waits⟩, congrArg (·.desk.closing) hsent.vars⟩
  dsimp only
  rw [runs_bind]
  refine (runs_endRunner hfit hstopping).mono ?_
  rintro s (e | u) ⟨hback', hok⟩
  · exact ⟨hback'.home.rested, (hback.trans hback').after.job.trans hjob⟩
  have hstopping' := hok u rfl
  dsimp only
  rw [runs_bind, runs_now]
  dsimp only
  rw [runs_bind, runs_modify]
  have hend : ∀ (publicState : DeskState) (detail : String), publicState.resting = true →
      let v : Vars :=
        { s.mem.vars with
          desk :=
            { s.mem.vars.desk with
              running := false
              stopInProgress := false
              control :=
                { s.mem.vars.desk.control with
                  publicState := publicState
                  detail := detail
                  lastError := stopError, updatedAt := (s.env 0).now } } }
      Change settings s.next v ∧ Back p (s.next.setVars v) := by
    intro publicState detail hresting v
    have hchange : Change settings s.next v :=
      .stopEnd hstopping'.job hstopping'.waits hstopping'.closing rfl rfl rfl
        ⟨_, _, _, _, hresting, rfl⟩ (.inl rfl) rfl
    refine ⟨hchange, ⟨fun _ h => (by cases h), fun h => (by cases h), fun _ => ?_,
      fun h => (by cases h), fun h => (by cases hstopping'.job.symm.trans h),
      fun _ => .inr (.inr (.inr hstopping'.job)), fun i => hback'.home.env _⟩, ?_⟩
    · exact .inr ⟨hstopping'.waits, hstopping'.closing⟩
    · exact ((hback.trans hback').after.next).trans (.change hchange)
  have hstep := hend (if stopError.isNone then .stopped else .error)
    (if stopError.isNone then "책상 제어기가 종료되었습니다."
      else "종료 중 안전 정지 명령을 발행하지 못했습니다.") (by split_ifs <;> rfl)
  refine ⟨hstep.1, ?_⟩
  cases stopError with
  | none => exact ⟨hstep.2.home.rested, hstep.2.after.job.trans hjob⟩
  | some text => exact ⟨hstep.2.home.rested, hstep.2.after.job.trans hjob⟩

end SmartDesk.Desk
