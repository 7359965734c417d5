import SmartDesk.Desk.RunnerSafety

/-!
# Every task keeps the guarantee

The rules of the operations, put together: `verified` says that every program of the
controller keeps `deskGuarantee`, whatever the other tasks do.  The claims about runs
start from it.

* `runs_call` — a public operation under the intent lock.
* `verified` — **all programs of the controller are safe**.
-/

namespace SmartDesk.Desk

open Coroutine Code

variable {settings : DeskSettings} {p : Spot}

/-- A public operation under the intent lock. -/
theorem runs_call {body : Code Unit} (hf : Fresh p) (hjob : p.job ≠ .stop)
    (hrunner : p.job ≠ .runner) {P : Spot → Except (Raised Exc) Unit → Prop}
    (told : ∀ q, Told q.start q.task → P q (.error .cancelled))
    (release : ∀ q r, P q r → P (q.setMem (q.mem.release .intent)) r)
    (hbody : ∀ q, Home q → HasLock q .intent → Entered q → q.job = p.job →
      Runs settings body q fun p' r => Back q p' ∧ P p' r) :
    Runs settings (Prog.withLock .intent none body) p fun p' r =>
      Home p' ∧ p'.job = p.job ∧ P p' r := by
  refine runs_underIntent (hf.home hjob fun h => absurd h hrunner) (fun h => absurd h hrunner)
    ?_ ?_ told release
  · intro q hq hlock
    exact hbody q hq hlock ⟨hf.vars, hf.env, .inl hf.starts⟩ rfl
  · intro q hq hlock hvars henv hwaits hqjob
    exact hbody q hq hlock ⟨hvars, henv, .inr hwaits⟩ hqjob

/-- The end of a task that is neither the runner nor a STOP child. -/
theorem Rested.finishes {r : Reply deskSignature} (h : Rested p) (hrunner : p.job ≠ .runner)
    (hchild : ∀ detail errorDetail, p.job ≠ .stopAndConfirm detail errorDetail)
    (hstopped : ∀ reason v, p.job = .stopMotion reason → r = .ok v → ChildReturned p) :
    Finishes settings p r where
  toRested := h
  runner := fun hjob => absurd hjob hrunner
  child := fun detail errorDetail hjob => absurd hjob (hchild detail errorDetail)
  stopped := hstopped

/-- A coroutine that returns `None`, as a task of its own. -/
theorem runs_returnsNone {c : Code Unit} {P : Spot → Except (Raised Exc) Unit → Prop}
    (h : Runs settings c p P)
    (hfinishes : ∀ p' r, P p' r → Finishes settings p' (r.map fun _ => Value.none)) :
    Runs settings (returnsNone c) p (Finishes settings) := by
  unfold returnsNone
  rw [runs_bind]
  refine h.mono ?_
  rintro p' (e | u) hp'
  · exact hfinishes p' (.error e) hp'
  · exact hfinishes p' (.ok u) hp'

/-- The same for a public operation under the intent lock, but for `stop_motion`. -/
theorem runs_publicCall {body : Code Unit} (hf : Fresh p) (hjob : p.job.isPublic = true)
    (hstop : p.job ≠ .stop) (hmotion : ∀ reason, p.job ≠ .stopMotion reason)
    (hbody : ∀ q, Home q → HasLock q .intent → Entered q → q.job = p.job →
      Runs settings body q fun p' _ => Back q p') :
    Runs settings (returnsNone (Prog.withLock .intent none body)) p (Finishes settings) := by
  have hrunner : p.job ≠ .runner := by
    intro h
    rw [h] at hjob
    cases hjob
  refine runs_returnsNone (runs_call hf hstop hrunner (P := fun _ _ => True) (fun _ _ => trivial)
    (fun _ _ _ => trivial) fun q hq hlock hentered hqjob =>
      (hbody q hq hlock hentered hqjob).mono fun _ _ h => ⟨h, trivial⟩) ?_
  rintro p' r ⟨hhome, hjob', _⟩
  refine hhome.rested.finishes ?_ ?_ ?_
  · rw [hjob']
    exact hrunner
  · intro detail errorDetail h
    rw [← hjob', h] at hjob
    cases hjob
  · intro reason v h
    exact absurd (hjob'.symm.trans h) (hmotion reason)

/-- `stop_motion()` under the intent lock. -/
theorem runs_stopMotionCall {reason : String} (hf : Fresh p) (hjob : p.job = .stopMotion reason) :
    Runs settings (returnsNone (stopMotionCall reason)) p (Finishes settings) := by
  refine runs_returnsNone (runs_call hf (by rw [hjob]; simp) (by rw [hjob]; simp)
    (P := fun p' r => ∀ u, r = .ok u → ChildReturned p') (fun _ _ _ h => by cases h)
    (fun _ _ h => h) ?_) ?_
  · intro q hq _ _ hqjob
    refine (runs_stopMotion hq fun h => absurd (hqjob.symm.trans h) (by rw [hjob]; simp)).mono ?_
    rintro p' (e | u) ⟨hback, hends⟩
    · exact ⟨hback, fun _ h => by cases h⟩
    · exact ⟨hback, fun _ _ => hends.2 rfl⟩
  · rintro p' r ⟨hhome, hjob', hreturned⟩
    refine hhome.rested.finishes (by rw [hjob', hjob]; simp) (by rw [hjob', hjob]; simp) ?_
    intro _ v _ hr
    cases r with
    | error e => cases hr
    | ok u => exact hreturned u rfl

/-- How a STOP child ends, from how `_stop_and_confirm` ends. -/
theorem concluded_of_ends {p' : Spot} {r : Reply deskSignature} (hf : Fresh p)
    (htask : p'.task = p.task) (h : StopEnds settings false p p' r) : Concluded settings p' r := by
  have hdesk : p.mem.vars.desk = p.start.vars.desk := congrArg (·.desk) hf.vars
  rcases r with (_ | e) | value
  · exact .cancelled h
  · obtain ⟨rfl, hstopped⟩ := h
    obtain ⟨⟨text, rfl⟩, hrunning, hclosing⟩ := hstopped rfl
    rw [hdesk] at hrunning hclosing
    exact .stopped hrunning hclosing text
  · rcases h with hexchanged | ⟨_, rfl, hlatch, rfl⟩
    · obtain ⟨w, hwaits, hconfirming, hfailed⟩ := hexchanged.waits
      refine .exchanged value w hwaits hconfirming hexchanged.mode hexchanged.shown ?_ ?_
      · intro text htext
        exact ⟨hfailed text htext, hexchanged.failed text htext⟩
      · rw [htask]
        exact hexchanged.recorded
    · rw [hdesk] at hlatch
      exact .joined hlatch hf.vars hf.starts

theorem fresh_of_begins (h : Begins p) : Fresh p := by
  have hwakes := h.wakes
  obtain ⟨hstatus, henv, _⟩ := h
  refine ⟨?_, hwakes.vars, henv⟩
  exact hstatus.imp (fun h => Mem.shape_eq_some.mpr ⟨_, h⟩)
    fun h => Mem.shape_eq_some.mpr ⟨_, h⟩

/-- Every program keeps the guarantee from its start. -/
theorem runs_body (hf : Fresh p) : Runs settings (body settings p.job) p (Finishes settings) := by
  cases hjob : p.job with
  | start =>
    have hhome : Home p := hf.home (by rw [hjob]; simp) fun h => by rw [hjob] at h; cases h
    refine runs_returnsNone (P := fun p' _ => Home p' ∧ p'.job = .start)
      ((runs_startCall hhome hjob hf.starts hf.vars).mono fun p' _ h =>
        ⟨h.home, h.after.job.trans hjob⟩) ?_
    rintro p' r ⟨hhome', hjob'⟩
    exact hhome'.rested.finishes (by rw [hjob']; simp) (by rw [hjob']; simp) (by rw [hjob']; simp)
  | stop =>
    refine runs_returnsNone (runs_stopCall hf hjob) ?_
    rintro p' r ⟨hrested, hjob'⟩
    exact hrested.finishes (by rw [hjob']; simp) (by rw [hjob']; simp) (by rw [hjob']; simp)
  | stopMotion reason =>
    exact runs_stopMotionCall hf hjob
  | setTarget heightCm =>
    refine runs_publicCall hf (by rw [hjob]; rfl) (by rw [hjob]; simp) (by rw [hjob]; simp) ?_
    intro q hq hlock _ hqjob
    exact runs_setTarget hq hlock ⟨by rw [hqjob, hjob]; simp, by rw [hqjob, hjob]; simp⟩
  | increaseTarget amountCm =>
    refine runs_publicCall hf (by rw [hjob]; rfl) (by rw [hjob]; simp) (by rw [hjob]; simp) ?_
    intro q hq hlock _ hqjob
    exact runs_adjustTarget hq hlock ⟨by rw [hqjob, hjob]; simp, by rw [hqjob, hjob]; simp⟩
  | decreaseTarget amountCm =>
    refine runs_publicCall hf (by rw [hjob]; rfl) (by rw [hjob]; simp) (by rw [hjob]; simp) ?_
    intro q hq hlock _ hqjob
    exact runs_adjustTarget hq hlock ⟨by rw [hqjob, hjob]; simp, by rw [hqjob, hjob]; simp⟩
  | holdUp =>
    refine runs_publicCall hf (by rw [hjob]; rfl) (by rw [hjob]; simp) (by rw [hjob]; simp) ?_
    intro q hq hlock hentered hqjob
    exact runs_hold hq hlock hentered (.inl ⟨hqjob.trans hjob, rfl⟩)
  | holdDown =>
    refine runs_publicCall hf (by rw [hjob]; rfl) (by rw [hjob]; simp) (by rw [hjob]; simp) ?_
    intro q hq hlock hentered hqjob
    exact runs_hold hq hlock hentered (.inr ⟨hqjob.trans hjob, rfl⟩)
  | runner =>
    refine runs_returnsNone (runs_run hf hjob) fun p' r h => ?_
    exact
      { h.rested with
        runner := fun _ => h.why
        child := fun _ _ hchild => by rw [h.runner] at hchild; cases hchild
        stopped := fun _ _ hmotion => by rw [h.runner] at hmotion; cases hmotion }
  | stopAndConfirm detail errorDetail =>
    have hhome : Home p := hf.home (by rw [hjob]; simp) fun h => by rw [hjob] at h; cases h
    refine (runs_stopAndConfirm hhome).mono ?_
    rintro p' r ⟨hback, hends⟩
    exact
      { hback.home.rested with
        runner := fun hrunner => by rw [hback.after.job, hjob] at hrunner; cases hrunner
        child := fun _ _ _ => concluded_of_ends hf hback.after.task hends
        stopped := fun _ _ hmotion => by rw [hback.after.job, hjob] at hmotion; cases hmotion }
  | shieldedStop detail errorDetail =>
    have hhome : Home p := hf.home (by rw [hjob]; simp) fun h => by rw [hjob] at h; cases h
    refine runs_returnsNone (P := fun p' _ => Back p p')
      (runs_stopMotion_user hhome (by rw [hjob]; simp)) fun p' r h => ?_
    exact h.home.rested.finishes (by rw [h.after.job, hjob]; simp)
      (by rw [h.after.job, hjob]; simp) (by rw [h.after.job, hjob]; simp)

/-- **All programs of the controller are safe.** -/
theorem verified (settings : DeskSettings) :
    Verified (deskSystem settings) (deskGuarantee settings) DeskRely where
  trans := DeskRely.trans
  frame := .of_frame
  write := rely_of_change
  body := fun _ hbegins => runs_body (fresh_of_begins hbegins)

end SmartDesk.Desk
