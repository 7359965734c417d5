import SmartDesk.Desk.Coherence

/-!
# The runner survives

The runner ends a failed cycle with a STOP, as a task of its own, and goes on.  But
`_stop_motion` raises a `RuntimeError` for an unconfirmed STOP that has no error detail,
and the cycle catches rejections only: a relay that stops answering when a target is
reached or a hold runs out ends the runner.

* `runner_terminated` — the runner ends although nobody has cancelled it.
* `Surviving` — the invariant of a run: the runner of an open controller can go on.
* `runner_survives` — **the runner goes on, and each STOP for which it waits ends with a
  desk at rest**, if the STOPs without an error detail are confirmed.
-/

namespace SmartDesk.Desk

open Coroutine

variable {settings : DeskSettings}

/-! ## What is promised -/

/-- The controller runs and is not closing. -/
def Open (d : DeskController) : Prop := d.running = true ∧ d.closing = false

/-- The runner waits for the STOP child `c`. -/
def Awaits (m : Memory) (u c : ℕ) : Prop := m.shape u = some (.runner, .waiting (.shield c))

/-- The runner of an open controller has not ended. -/
def RunnerLives (m : Memory) : Prop :=
  Open m.vars.desk → ∃ u status, m.vars.desk.runnerTask = some u ∧
    m.shape u = some (.runner, status) ∧ ∀ r, status ≠ .finished r

/-- The end of a motion is shown. -/
def ShowsEnd (c : ControlState) : Prop := c.publicState = .stopped ∨ c.publicState = .error

/-- A STOP has ended with a desk at rest, and a failure is shown. -/
structure StopShown (m : Memory) (r : Reply deskSignature) : Prop where
  mode : m.vars.desk.control.mode = .none
  shown : ShowsEnd m.vars.desk.control
  failed : ∀ text, r = .ok (.error text) → m.vars.desk.control.lastError ≠ none

/-- If the step ends the STOP child for which the runner of an open controller waits, it
ends it with a desk at rest. -/
def EndsCycle (pool pool' : DeskPool) (l : DeskLabel) : Prop :=
  ∀ u c env r, l = .run c env → Open pool.mem.vars.desk →
    pool.mem.vars.desk.runnerTask = some u → Awaits pool.mem u c →
    pool'.mem.outcome c = some r → StopShown pool'.mem r

/-- Nobody has cancelled the runner of an open controller, nor the STOP child for which it
waits. -/
def Spared (m : Memory) : Prop :=
  Open m.vars.desk → ∀ u, m.vars.desk.runnerTask = some u →
    ¬ Told m u ∧ ∀ c, Awaits m u c → ¬ Told m c

/-- An ONLINE height has a value. -/
def coherentHeights : DeskLabel → Prop
  | .run _ env => ∀ i, (env i).height.coherent
  | _ => True

/-- What the runner can expect of its surroundings: heights with their values, no
cancellation, and a `start()` that begins when everything of an earlier run has ended. -/
def expected (pool : DeskPool) (l : DeskLabel) : Prop :=
  coherentHeights l ∧ startsClean pool l ∧ Spared pool.mem

/-- A STOP child without an error detail for which the runner waits is confirmed. -/
def stopsAnswered (settings : DeskSettings) (pool : DeskPool) : DeskLabel → Prop
  | .run c env => ∀ u detail w, Open pool.mem.vars.desk → pool.mem.vars.desk.runnerTask = some u →
      Awaits pool.mem u c → pool.mem.shape c = some (.stopAndConfirm detail none, .waiting w) →
      unconfirmed settings env w = false
  | _ => True

/-- The condition of `runner_survives`. -/
def survivable (settings : DeskSettings) (pool : DeskPool) (l : DeskLabel) : Prop :=
  expected pool l ∧ stopsAnswered settings pool l

/-! ## A runner that ends -/

/-- The task does not wait. -/
def restful : Task deskSignature → Bool
  | ⟨_, .waiting _, _⟩ => false
  | _ => true

/-- The part of `expected` about the tasks, computed. -/
def checkExpected (pool : DeskPool) (l : DeskLabel) : Bool :=
  pool.mem.all (fun k => !k.cancelled) &&
    match l with
    | .run t _ =>
        match pool.mem.task t with
        | some ⟨.start, .ready, _⟩ => pool.mem.all restful
        | _ => true
    | _ => true

theorem expected_of_checked {pool : DeskPool} {l : DeskLabel} (hk : DeskKept settings pool)
    (hchecked : checkExpected pool l = true) : startsClean pool l ∧ Spared pool.mem := by
  unfold checkExpected at hchecked
  obtain ⟨huncancelled, hstart⟩ := (Bool.and_eq_true _ _).mp hchecked
  have hspared : ∀ t, ¬ Told pool.mem t := by
    rintro t ⟨k, hk', htold⟩
    have ht := Mem.of_all huncancelled hk.absent hk'
    rw [htold] at ht
    cases ht
  refine ⟨?_, fun _ u _ => ⟨hspared u, fun c _ => hspared c⟩⟩
  cases l with
  | call _ => trivial
  | cancel _ => trivial
  | run t env =>
    intro hready
    obtain ⟨cancelled, htask⟩ := Mem.shape_eq_some.mp hready
    simp only [htask] at hstart
    have hrests : ∀ u job w, pool.mem.shape u ≠ some (job, .waiting w) := by
      intro u job w hwaits
      obtain ⟨c, hu⟩ := Mem.shape_eq_some.mp hwaits
      have hcheck := Mem.of_all hstart hk.absent hu
      cases hcheck
    exact ⟨fun u ⟨job, w, hshape, _⟩ => hrests u job w hshape, fun u w => hrests u _ w⟩

/-- A relay that does not take the STOP. -/
def silentAt (seconds : ℤ) : Reading :=
  { readingAt seconds with result := some (.error "timeout") }

/-- A hold runs out, and the relay does not take the STOP. -/
def silentRun : List DeskLabel :=
  bootRun ++
    [.call .holdUp, .run 2 fun _ => readingAt 2, .run 1 fun _ => readingAt 4,
      .run 3 fun _ => readingAt 4, .run 3 fun _ => silentAt 5, .run 1 fun _ => readingAt 5,
      .run 4 fun _ => readingAt 5, .run 4 fun _ => readingAt 6, .run 1 fun _ => readingAt 6]

/-- The runner task has ended. -/
def runnerEnded (m : Memory) : Bool :=
  match m.vars.desk.runnerTask.bind m.task with
  | some ⟨_, .finished _, _⟩ => true
  | _ => false

/-- **The runner of an open controller can end**, although nobody has cancelled it: it
raises the `RuntimeError` of an unconfirmed STOP. -/
theorem runner_terminated : ¬ ∀ settings started ls pool,
    DeskRun settings expected started ls pool → RunnerLives pool.mem := by
  intro hall
  have hexec : (Transition.exec (step (deskSystem .default)) (deskStart .default 0)
      silentRun).map (fun pool => (pool.mem.vars.desk.running, pool.mem.vars.desk.closing,
        runnerEnded pool.mem)) = some (true, false, true) := by
    decide +kernel
  have hchecked : Transition.Meets (step (deskSystem .default))
      (fun pool l => checkExpected pool l = true) (deskStart .default 0) silentRun := by
    decide +kernel
  have hheights : ∀ l ∈ silentRun, coherentHeights l := by
    simp only [silentRun, bootRun, List.cons_append, List.nil_append, List.forall_mem_cons,
      List.not_mem_nil, false_imp_iff, implies_true, and_true]
    refine ⟨trivial, ?_, ?_, trivial, ?_, ?_, ?_, ?_, ?_, ?_, ?_, ?_⟩ <;> intro i _ h <;> cases h
  obtain ⟨pool, hpool, hstate⟩ := Option.map_eq_some_iff.mp hexec
  simp only [Prod.mk.injEq] at hstate
  obtain ⟨hrunning, hopen, hended⟩ := hstate
  have hrun : DeskRun .default expected 0 silentRun pool :=
    .of_kept (hchecked.and_labels hheights)
      (fun pool l hk hl => ⟨hl.1, expected_of_checked hk hl.2⟩) hpool
  obtain ⟨u, status, hu, hshape, hunfinished⟩ := hall _ _ _ _ hrun ⟨hrunning, hopen⟩
  obtain ⟨cancelled, htask⟩ := Mem.shape_eq_some.mp hshape
  simp only [runnerEnded, hu, Option.bind_some, htask] at hended
  split at hended
  · next heq =>
    cases heq
    exact hunfinished _ rfl
  · cases hended

/-! ## The invariant -/

/-- The STOP child has not ended in a way that `_stop_motion` raises on. -/
def ChildFine (m : Memory) (c : ℕ) : Prop :=
  ∃ detail errorDetail status, m.shape c = some (.stopAndConfirm detail errorDetail, status) ∧
    detail ≠ runnerErrorDetail ∧ ∀ r, status = .finished r → ¬ BadOutcome errorDetail r

/-- The runner can go on. -/
inductive Alive (m : Memory) (u : ℕ) : Prop where
  | ready (shape : m.shape u = some (.runner, .ready))
  | pausing (shape : m.shape u = some (.runner, .pausing))
  | waiting (w : Wait deskSignature) (shape : m.shape u = some (.runner, .waiting w))
      (gather : ∀ c, w ≠ .gather c) (child : ∀ c, w = .shield c → ChildFine m c)

/-- The runner waits for nothing. -/
def RunnerRests (m : Memory) : Prop :=
  ∀ u w, m.vars.desk.runnerTask = some u → m.shape u ≠ some (.runner, .waiting w)

/-- What a run keeps, in addition to `Coherent`. -/
structure Surviving (m : Memory) : Prop where
  alive : Open m.vars.desk → ∃ u, m.vars.desk.runnerTask = some u ∧ Alive m u
  latched : m.vars.desk.stopInProgress = true → Open m.vars.desk →
    ShowsEnd m.vars.desk.control ∨ RunnerRests m

/-- What holds in the middle of a segment of `task` about a latch that is set. -/
def LatchShown (start : Memory) (task : ℕ) (job : Job) (v : Vars) : Prop :=
  v.desk.stopInProgress = true → v.desk.closing = false →
    ShowsEnd v.desk.control ∨
      (start.vars.desk.stopInProgress = true ∧ (Open start.vars.desk → RunnerRests start)) ∨
      (job = .start ∧ start.shape task = some (.start, .ready) ∧ start.vars.desk.running = false)

theorem Alive.lives {m : Memory} {u : ℕ} (h : Alive m u) :
    ∃ status, m.shape u = some (.runner, status) ∧ ∀ r, status ≠ .finished r := by
  cases h with
  | ready shape => exact ⟨_, shape, by simp⟩
  | pausing shape => exact ⟨_, shape, by simp⟩
  | waiting w shape _ _ => exact ⟨_, shape, by simp⟩

/-! ## Changes -/

/-- Under the latch a change leaves what is shown, or shows the end of a motion, unless it
begins a `start`. -/
theorem Change.latchShown {q : Spot} {v : Vars} (h : Change settings q v)
    (hbefore : Coherent settings q.start) (hsound : Sound settings q.mem.vars.desk)
    (hshown : LatchShown q.start q.task q.job q.mem.vars) :
    LatchShown q.start q.task q.job v := by
  intro hlatch hopen
  -- A change that keeps the latch and, on a desk at rest, what is shown.
  have hkeeps : v.desk.stopInProgress = q.mem.vars.desk.stopInProgress →
      v.desk.closing = q.mem.vars.desk.closing →
      (q.mem.vars.desk.control.mode = .none →
        v.desk.control.publicState = q.mem.vars.desk.control.publicState) →
      ShowsEnd v.desk.control ∨
        (q.start.vars.desk.stopInProgress = true ∧
          (Open q.start.vars.desk → RunnerRests q.start)) ∨
        (q.job = .start ∧ q.start.shape q.task = some (.start, .ready) ∧
          q.start.vars.desk.running = false) := by
    intro hsameLatch hsameClosing hsameShown
    have hset := hsameLatch.symm.trans hlatch
    have hmode : q.mem.vars.desk.control.mode = .none := by
      by_contra hmoving
      rw [(hsound.active hmoving).2.2] at hset
      cases hset
    refine (hshown hset (hsameClosing.symm.trans hopen)).imp_left fun hend => ?_
    rw [ShowsEnd, hsameShown hmode]
    exact hend
  have hdesk : v.desk = q.mem.vars.desk → _ := fun hsame =>
    hkeeps (by rw [hsame]) (by rw [hsame]) fun _ => by rw [hsame]
  cases h with
  | refine flags _ keeps _ _ => exact hkeeps flags.stopInProgress flags.closing keeps.rest
  | activate _ _ flags _ keeps _ _ _ _ =>
    exact hkeeps flags.stopInProgress flags.closing keeps.rest
  | command flags control _ _ _ =>
    exact hkeeps flags.stopInProgress flags.closing fun _ => by rw [control]
  | runner _ closing latch control _ _ _ => exact hkeeps latch closing fun _ => by rw [control]
  | settle flags _ _ _ _ _ keeps _ _ => exact hkeeps flags.stopInProgress flags.closing keeps.rest
  | drop flags free _ _ _ =>
    rw [flags.stopInProgress] at hlatch
    rcases free with hfree | hmoving
    · rw [hfree] at hlatch
      cases hlatch
    · rw [(hsound.active hmoving).2.2] at hlatch
      cases hlatch
  | idle flags _ _ free _ _ =>
    rw [flags.stopInProgress] at hlatch
    rcases free with hfree | ⟨text, u, detail, errorDetail, _, houtcome, hjob⟩
    · rw [hfree] at hlatch
      cases hlatch
    · exact absurd rfl
        (hbefore.children u detail errorDetail _ (Mem.shape_of_outcome houtcome hjob) text)
  | register flags _ _ _ _ _ _ free _ _ =>
    rw [flags.stopInProgress, free] at hlatch
    cases hlatch
  | install _ _ _ _ free flags _ _ _ _ _ _ _ _ _ =>
    rw [flags.stopInProgress, free] at hlatch
    cases hlatch
  | beginExchange _ _ _ _ _ _ _ shown _ _ _ => exact .inl (.inl shown)
  | confirm _ _ desk _ _ _ _ _ => exact hdesk desk
  | unlatch _ _ _ latch _ _ _ =>
    rw [latch] at hlatch
    cases hlatch
  | startBegin job first notRunning _ _ _ _ _ _ =>
    exact .inr (.inr ⟨job, hbefore.ready_of_starts job first, notRunning⟩)
  | startFail _ _ _ _ latch _ _ _ _ =>
    rw [latch] at hlatch
    cases hlatch
  | stopBegin _ closing _ _ _ _ _ _ =>
    rw [closing] at hopen
    cases hopen
  | stopEnd _ _ _ _ _ latch _ _ _ =>
    rw [latch] at hlatch
    cases hlatch
  | pulse _ _ _ desk _ _ => exact hdesk desk
  | wake _ _ _ desk _ _ _ => exact hdesk desk
  | sendStop desk _ => exact hdesk desk

/-! ## Segments -/

theorem manned_of_stopped {q : Spot} {status : Status deskSignature}
    (h : Stopped (deskGuarantee settings) q status) : Manned q := by
  cases h with
  | waiting w hsuspends => exact hsuspends.manned
  | pausing hpauses => exact hpauses.1.manned
  | finished r hfinishes => exact hfinishes.manned

/-- What the runner waits for does not break it. -/
theorem not_broken {q : Spot} (halive : Alive q.start q.task)
    (hformed : Formed settings q.start.vars.desk.control) (hspared : ¬ Told q.start q.task)
    (hcoherent : ∀ i, (q.given i).height.coherent) (hjob : q.job = .runner) :
    ¬ Broken settings q := by
  -- The runner waits for what `Alive` says.
  have hwaits : ∀ w, Waits q w → (∀ c, w ≠ .gather c) ∧ ∀ c, w = .shield c → ChildFine q.start c := by
    intro w hw
    rw [Waits, hjob] at hw
    cases halive with
    | ready shape =>
      rw [hw] at shape
      cases shape
    | pausing shape =>
      rw [hw] at shape
      cases shape
    | waiting w' shape gather child =>
      rw [hw] at shape
      cases shape
      exact ⟨gather, child⟩
  rintro (htold | hill | ⟨c, hw⟩ | ⟨c, r, hw, houtcome, hbad⟩ | ⟨i, hi⟩)
  · exact hspared htold
  · exact hill hformed
  · exact (hwaits _ hw).1 c rfl
  · obtain ⟨detail, errorDetail, status, hshape, hdetail, hfine⟩ := (hwaits _ hw).2 c rfl
    have hjob' := Mem.job_of_shape hshape
    have hfinished := Mem.shape_of_outcome houtcome hjob'
    rw [hshape] at hfinished
    cases hfinished
    exact hfine r rfl (hbad detail errorDetail hjob' hdetail)
  · exact hi (hcoherent i)

section Segment

variable {m m' : Memory} {p q : Spot} (hsegment : DeskSegment settings m m' p q)
  (habsent : ∀ u, m.count ≤ u → m.task u = none)
include hsegment habsent

/-- The runner of an open controller after a segment: the one before it, or one that has
not started. -/
theorem runner_cases (hmid : Midway settings p.start p.task p.job q.mem.vars)
    (hopen : Open q.mem.vars.desk) :
    (Open m.vars.desk ∧ q.mem.vars.desk.runnerTask = m.vars.desk.runnerTask) ∨
      ∃ u, q.mem.vars.desk.runnerTask = some u ∧ m'.shape u = some (.runner, .ready) := by
  have hsame := hsegment.reach.sameSegment
  obtain ⟨status, _, hstopped⟩ := hsegment.shape_self habsent
  rcases manned_of_stopped hstopped hopen.1 hopen.2 with ⟨hrunning, hclosing, htask⟩ | ⟨u, _, htask, hnew⟩ |
    ⟨hstop, w, hw⟩
  · rw [hsame.start, hsegment.start] at hrunning hclosing htask
    exact .inl ⟨⟨hrunning, hclosing⟩, htask⟩
  · exact .inr ⟨u, htask, hsegment.shape_ready habsent hnew⟩
  · -- A `stop()` that has waited has closed the controller.
    rw [hsame.job] at hstop
    rw [Waits, hsame.start, hsame.task, hsame.job] at hw
    have hclosed := hmid.before.closing_of_waits (p := p) hstop ⟨w, hw⟩
    rcases hmid.opened hclosed with hstill | hready
    · rw [hopen.2] at hstill
      cases hstill
    · rw [hw, hstop] at hready
      cases hready

/-- The STOP child for which the runner waits does not end in a way that `_stop_motion`
raises on. -/
theorem childFine_of_segment {u c : ℕ} (hrunner : m.vars.desk.runnerTask = some u)
    (hopen : Open m.vars.desk) (hawaits : Awaits m u c) (hspared : Spared m)
    (hanswered : ∀ detail w, c = p.task → m.shape c = some (.stopAndConfirm detail none, .waiting w) →
      unconfirmed settings p.given w = false)
    (hfine : ChildFine m c) : ChildFine m' c := by
  have hsame := hsegment.reach.sameSegment
  have hstart : q.start = m := hsame.start.trans hsegment.start
  obtain ⟨detail, errorDetail, status, hshape, hdetail, hended⟩ := hfine
  by_cases hc : c = p.task
  · subst hc
    obtain ⟨status', hshape', hstopped⟩ := hsegment.shape_self habsent
    have hjob : p.job = .stopAndConfirm detail errorDetail :=
      hsegment.job_self (Mem.job_of_shape hshape)
    rw [hjob] at hshape'
    refine ⟨detail, errorDetail, status', hshape', hdetail, ?_⟩
    rintro r rfl
    cases hstopped with
    | finished r hfinishes =>
      have hconcluded := hfinishes.child detail errorDetail (hsame.job.trans hjob)
      rintro (⟨e, hraised⟩ | ⟨hnone, text, hfailed⟩)
      · cases hconcluded with
        | joined _ _ => cases hraised
        | exchanged _ _ _ _ _ _ _ => cases hraised
        | cancelled told =>
          rw [hstart, hsame.task] at told
          exact (hspared hopen u hrunner).2 _ hawaits told
        | stopped running _ _ =>
          rw [hstart, hopen.1] at running
          cases running
      · cases hconcluded with
        | joined _ _ => cases hfailed
        | exchanged value w waits _ _ _ failed =>
          cases hfailed
          have hgiveUp := (failed text rfl).1
          rw [Waits, hstart, hsame.task, hsame.job, hjob, hnone] at waits
          rw [hsame.given, hanswered detail w rfl waits] at hgiveUp
          cases hgiveUp
        | cancelled _ => cases hfailed
        | stopped _ _ _ => cases hfailed
  · refine ⟨detail, errorDetail, status, ?_, hdetail, hended⟩
    rw [hsegment.elsewhere.shape c hc (lt_count_of_shape habsent hshape)]
    exact hshape

/-- **The runner can go on** after a segment. -/
theorem alive_of_segment {u : ℕ} (hrunner : m.vars.desk.runnerTask = some u)
    (hopen : Open m.vars.desk) (hrunning : q.mem.vars.desk.running = true)
    (hbefore : Coherent settings m) (hspared : Spared m)
    (hcoherent : ∀ i, (p.given i).height.coherent)
    (hanswered : ∀ c detail w, Awaits m u c → c = p.task →
      m.shape c = some (.stopAndConfirm detail none, .waiting w) →
      unconfirmed settings p.given w = false)
    (halive : Alive m u) : Alive m' u := by
  have hsame := hsegment.reach.sameSegment
  have hstart : q.start = m := hsame.start.trans hsegment.start
  obtain ⟨status, hshape, _⟩ := halive.lives
  by_cases hu : u = p.task
  · subst hu
    obtain ⟨status', hshape', hstopped⟩ := hsegment.shape_self habsent
    have hjob : p.job = .runner := hsegment.job_self (Mem.job_of_shape hshape)
    have hqjob : q.job = .runner := hsame.job.trans hjob
    have hunbroken : ¬ Broken settings q := by
      refine not_broken ?_ ?_ ?_ ?_ hqjob
      · rw [hstart, hsame.task]
        exact halive
      · rw [hstart]
        exact hbefore.sound.formed
      · rw [hstart, hsame.task]
        exact (hspared hopen _ hrunner).1
      · rw [hsame.given]
        exact hcoherent
    rw [hjob] at hshape'
    cases hstopped with
    | waiting w hsuspends =>
      have hwait := (hsuspends.runner hqjob).resolve_left hunbroken
      refine .waiting w hshape' ?_ ?_
      · rintro c rfl
        exact hwait
      · rintro c rfl
        obtain ⟨detail, errorDetail, hchild, hdetail⟩ := hwait
        exact ⟨detail, errorDetail, .ready, hsegment.shape_ready habsent hchild, hdetail,
          fun r h => by cases h⟩
    | pausing _ => exact .pausing hshape'
    | finished r hfinishes =>
      rcases hfinishes.runner hqjob with hbroken | hstopped
      · exact absurd hbroken hunbroken
      · rw [hrunning] at hstopped
        cases hstopped
  · have hkept := hsegment.elsewhere.shape u hu (lt_count_of_shape habsent hshape)
    cases halive with
    | ready shape => exact .ready (hkept.trans shape)
    | pausing shape => exact .pausing (hkept.trans shape)
    | waiting w shape gather child =>
      refine .waiting w (hkept.trans shape) gather ?_
      rintro c rfl
      exact childFine_of_segment hsegment habsent hrunner hopen shape hspared
        (fun detail w => hanswered c detail w shape) (child c rfl)

/-- A runner that waits for nothing finds a latch that stays set, and goes on so. -/
theorem rests_of_segment {u : ℕ} (hrunner : m.vars.desk.runnerTask = some u)
    (hopen : Open m.vars.desk) (hspared : Spared m) (halive : Alive m u)
    (hlatch : m.vars.desk.stopInProgress = true) (hrests : RunnerRests m) :
    ∀ w, m'.shape u ≠ some (.runner, .waiting w) := by
  have hsame := hsegment.reach.sameSegment
  have hstart : q.start = m := hsame.start.trans hsegment.start
  intro w hwaiting
  rcases hsegment.shape_cases habsent hwaiting with ⟨rfl, hjob, hstopped⟩ | ⟨_, hold | ⟨_, hready⟩⟩
  · cases hstopped with
    | waiting w hsuspends =>
      have hstarts : Starts q := by
        rw [Starts, hstart, hsame.task, hsame.job, ← hjob]
        cases halive with
        | ready shape => exact .inl shape
        | pausing shape => exact .inr shape
        | waiting w' shape _ _ => exact absurd shape (hrests _ w' hrunner)
      rcases hsuspends.unhindered (hsame.job.trans hjob.symm) hstarts with hfree | htold
      · rw [hstart, hlatch] at hfree
        cases hfree
      · rw [hstart, hsame.task] at htold
        exact (hspared hopen _ hrunner).1 htold
  · exact hrests u w hrunner hold
  · cases hready

/-- **A segment keeps what a run keeps.** -/
theorem Surviving.of_segment {pool : DeskPool} (hpool : pool.mem = m)
    (hok : survivable settings pool (.run p.task p.given))
    (hbefore : Coherent settings m) (h : Surviving m)
    (hmid : Midway settings p.start p.task p.job q.mem.vars)
    (hshown : LatchShown p.start p.task p.job q.mem.vars) (hvars : m'.vars = q.mem.vars) :
    Surviving m' := by
  subst hpool
  obtain ⟨⟨hcoherent, _, hspared⟩, hanswered⟩ := hok
  constructor
  · intro hopen
    rw [hvars] at hopen ⊢
    rcases runner_cases hsegment habsent hmid hopen with ⟨hopen', htask⟩ | ⟨u, htask, hready⟩
    · obtain ⟨u, hu, halive⟩ := h.alive hopen'
      refine ⟨u, htask.trans hu, ?_⟩
      refine alive_of_segment hsegment habsent hu hopen' hopen.1 hbefore hspared hcoherent ?_ halive
      rintro c detail w hawaits rfl hwaits
      exact hanswered u detail w hopen' hu hawaits hwaits
    · exact ⟨u, htask, .ready hready⟩
  · intro hlatch hopen
    rw [hvars] at hlatch hopen ⊢
    rcases hshown hlatch hopen.2 with hend | hcase
    · exact .inl hend
    refine .inr fun u w hu => ?_
    rw [hvars] at hu
    rcases runner_cases hsegment habsent hmid hopen with ⟨hopen', htask⟩ | ⟨v, htask, hready⟩
    · rcases hcase with ⟨hset, hrests⟩ | ⟨_, _, hidle⟩
      · rw [hsegment.start] at hset hrests
        obtain ⟨v, hv, halive⟩ := h.alive hopen'
        obtain rfl : v = u := Option.some.inj (hv.symm.trans (htask.symm.trans hu))
        exact rests_of_segment hsegment habsent hv hopen' hspared halive hset (hrests hopen') w
      · rw [hsegment.start, hopen'.1] at hidle
        cases hidle
    · obtain rfl : v = u := Option.some.inj (htask.symm.trans hu)
      rw [hready]
      rintro ⟨⟩

end Segment

/-! ## Runs -/

theorem Alive.frame {m m' : Memory} {u : ℕ} (h : Alive m u)
    (hshape : ∀ t job status, m.shape t = some (job, status) → m'.shape t = some (job, status)) :
    Alive m' u := by
  cases h with
  | ready shape => exact .ready (hshape _ _ _ shape)
  | pausing shape => exact .pausing (hshape _ _ _ shape)
  | waiting w shape gather child =>
    refine .waiting w (hshape _ _ _ shape) gather fun c hc => ?_
    obtain ⟨detail, errorDetail, status, hchild, hrest⟩ := child c hc
    exact ⟨detail, errorDetail, status, hshape _ _ _ hchild, hrest⟩

theorem Surviving.quiet {m m' : Memory} (h : Surviving m) (hquiet : Quiet m m')
    (halive : Open m.vars.desk → ∀ u, m.vars.desk.runnerTask = some u → Alive m u → Alive m' u) :
    Surviving m' := by
  constructor
  · intro hopen
    rw [hquiet.vars] at hopen ⊢
    obtain ⟨u, hu, hlives⟩ := h.alive hopen
    exact ⟨u, hu, halive hopen u hu hlives⟩
  · intro hlatch hopen
    rw [hquiet.vars] at hlatch hopen ⊢
    refine (h.latched hlatch hopen).imp_right fun hrests u w hu hw => ?_
    rw [hquiet.vars] at hu
    exact hrests u w hu (hquiet.waits hw)

/-- A dropped task is neither the runner nor the STOP child for which it waits. -/
theorem Alive.drop {m : Memory} {u t : ℕ} {job : Job} (h : Alive m u)
    (htask : m.task t = some ⟨job, .ready, true⟩) (hrunner : ¬ Told m u)
    (hchild : ∀ c, Awaits m u c → ¬ Told m c) : Alive (m.finish t (.error .cancelled)) u := by
  have hready : m.shape t = some (job, .ready) := Mem.shape_eq_some.mpr ⟨_, htask⟩
  have htold : Told m t := ⟨_, htask, rfl⟩
  have hkept : ∀ v, v ≠ t → (m.finish t (.error .cancelled)).shape v = m.shape v := fun v hv => by
    rw [Mem.shape_finish hready, if_neg hv]
  have hu : u ≠ t := fun heq => hrunner (heq ▸ htold)
  cases h with
  | ready shape => exact .ready ((hkept u hu).trans shape)
  | pausing shape => exact .pausing ((hkept u hu).trans shape)
  | waiting w shape gather child =>
    refine .waiting w ((hkept u hu).trans shape) gather ?_
    rintro c rfl
    obtain ⟨detail, errorDetail, status, hshape, hrest⟩ := child c rfl
    have hc : c ≠ t := fun heq => hchild c shape (heq ▸ htold)
    exact ⟨detail, errorDetail, status, (hkept c hc).trans hshape, hrest⟩

theorem DeskRun.surviving {started : Instant} {ls : List DeskLabel} {pool : DeskPool}
    (h : DeskRun settings (survivable settings) started ls pool) :
    Coherent settings pool.mem ∧ Surviving pool.mem := by
  refine h.keeps (I := fun m => Coherent settings m ∧ Surviving m)
    (V := fun p v => Midway settings p.start p.task p.job v ∧ LatchShown p.start p.task p.job v)
    ⟨coherent_start settings started, ⟨fun hopen => (by cases hopen.1), fun h => by cases h⟩⟩
    ?_ ?_ ?_ ?_ ?_ ?_
  · rintro pool job hk _ _ ⟨hc, hs⟩
    have hquiet := quiet_spawn (hk.absent _ le_rfl) job
    refine ⟨hc.quiet hquiet, hs.quiet hquiet fun _ u _ halive => halive.frame ?_⟩
    intro t job' status ht
    rw [Mem.shape_spawn, if_neg (lt_count_of_shape hk.absent ht).ne]
    exact ht
  · rintro m m' hsame ⟨hc, hs⟩
    have hquiet := quiet_of_sameButCancelled hsame
    refine ⟨hc.quiet hquiet, hs.quiet hquiet fun _ u _ halive => halive.frame ?_⟩
    intro t job' status ht
    exact (hsame.shape t).trans ht
  · rintro pool t env job ⟨⟨_, _, hspared⟩, _⟩ htask ⟨hc, hs⟩
    have hquiet := quiet_drop htask
    refine ⟨hc.quiet hquiet, hs.quiet hquiet fun hopen u hu halive => ?_⟩
    exact halive.drop htask (hspared hopen u hu).1 (hspared hopen u hu).2
  · rintro pool pool' p ⟨⟨_, hclean, _⟩, _⟩ ⟨hc, hs⟩ hstart _ hwakes
    have hc' : Coherent settings p.start := hstart ▸ hc
    have hs' : Surviving p.start := hstart ▸ hs
    refine ⟨hc'.midway hwakes (hstart ▸ hclean), fun hlatch hclosing => ?_⟩
    by_cases hopen : Open p.start.vars.desk
    · exact (hs'.latched hlatch hopen).imp_right fun hrests => .inl ⟨hlatch, fun _ => hrests⟩
    · exact .inr (.inl ⟨hlatch, fun h => absurd h hopen⟩)
  · rintro p q v hsame ⟨hmid, hshown⟩ hchange
    rw [← hsame.start, ← hsame.task, ← hsame.job] at hmid hshown ⊢
    exact ⟨hmid.change hchange, hchange.latchShown hmid.before hmid.sound hshown⟩
  · rintro pool pool' p q hk hok ⟨hc, hs⟩ _ _ ⟨hmid, hshown⟩ hvars hsegment
    exact ⟨.of_segment hsegment hk.absent hmid hvars,
      .of_segment hsegment hk.absent rfl hok hc hs hmid hshown hvars⟩

/-- The STOP child for which the runner waits ends with a desk at rest. -/
theorem endsCycle_of_step {pool pool' : DeskPool} {l : DeskLabel} (hk : DeskKept settings pool)
    (hc : Coherent settings pool.mem) (hs : Surviving pool.mem) (hok : survivable settings pool l)
    (hstep : step (deskSystem settings) pool l = some pool') : EndsCycle pool pool' l := by
  rintro u c env r rfl hopen hu hawaits houtcome
  obtain ⟨⟨_, _, hspared⟩, _⟩ := hok
  have hunspoilt := (hspared hopen u hu).2 c hawaits
  -- The runner waits for a STOP child.
  obtain ⟨u', hu', halive⟩ := hs.alive hopen
  obtain rfl : u' = u := Option.some.inj (hu'.symm.trans hu)
  obtain ⟨detail, errorDetail, status, hshape, _⟩ : ChildFine pool.mem c := by
    cases halive with
    | ready shape =>
      rw [hawaits] at shape
      cases shape
    | pausing shape =>
      rw [hawaits] at shape
      cases shape
    | waiting w shape gather child =>
      rw [hawaits] at shape
      cases shape
      exact child c rfl
  have hstepped := (stepped_of_step (verified settings) hk hstep).2
  generalize pool'.mem = m' at hstepped houtcome
  cases hstepped with
  | drop htask => exact absurd ⟨_, htask, rfl⟩ hunspoilt
  | @run _ _ _ p q hsegment =>
    obtain rfl := hsegment.task
    have hsame := hsegment.reach.sameSegment
    have hstart : q.start = pool.mem := hsame.start.trans hsegment.start
    have hjob : p.job = .stopAndConfirm detail errorDetail :=
      hsegment.job_self (Mem.job_of_shape hshape)
    obtain ⟨status', hshape', hstopped⟩ := hsegment.shape_self hk.absent
    have hfinished := Mem.shape_of_outcome houtcome (Mem.job_of_shape hshape')
    rw [hshape'] at hfinished
    cases hfinished
    have hvars := hsegment.closes.vars
    cases hstopped with
    | finished r hfinishes =>
      have hconcluded := hfinishes.child detail errorDetail (hsame.job.trans hjob)
      cases hconcluded with
      | joined latch vars =>
        -- Another exchange is in progress.
        rw [hstart] at latch vars
        have hdesk : m'.vars = pool.mem.vars := hvars.trans vars
        have hmode : pool.mem.vars.desk.control.mode = .none := by
          by_contra hmoving
          rw [(hc.sound.active hmoving).2.2] at latch
          cases latch
        refine ⟨by rw [hdesk]; exact hmode, ?_, fun text h => by cases h⟩
        rw [hdesk]
        rcases hs.latched latch hopen with hend | hrests
        · exact hend
        · exact absurd hawaits (hrests u' _ hu)
      | exchanged value w waits confirming mode shown failed =>
        have hconfirming : Confirming pool.mem q.task := by
          rw [Waits, hstart] at waits
          exact ⟨_, w, waits, confirming⟩
        rw [hstart] at mode
        refine ⟨by rw [hvars, mode]; exact hc.mode_of_confirming hconfirming, ?_, ?_⟩
        · rw [hvars]
          exact shown
        · intro text htext
          rw [hvars]
          exact (failed text (Except.ok.inj htext)).2
      | cancelled told =>
        rw [hstart, hsame.task] at told
        exact absurd told hunspoilt
      | stopped running _ _ =>
        rw [hstart, hopen.1] at running
        cases running

/-- **The runner goes on**, in every run in which the STOPs without an error detail for
which it waits are confirmed, and each STOP for which it waits ends with a desk at rest. -/
theorem runner_survives {started : Instant} {ls : List DeskLabel} {pool : DeskPool}
    (h : DeskRun settings (survivable settings) started ls pool) :
    RunnerLives pool.mem ∧ ∀ l pool', survivable settings pool l →
      step (deskSystem settings) pool l = some pool' → EndsCycle pool pool' l := by
  obtain ⟨hc, hs⟩ := h.surviving
  refine ⟨fun hopen => ?_, fun l pool' hok hstep => endsCycle_of_step h.kept hc hs hok hstep⟩
  obtain ⟨u, hu, halive⟩ := hs.alive hopen
  obtain ⟨status, hshape, hunfinished⟩ := halive.lives
  exact ⟨u, status, hu, hshape, hunfinished⟩

/-- A height sensor that fails, and a relay that does not take the STOP. -/
def failingRun : List DeskLabel :=
  bootRun ++
    [.call .holdUp, .run 2 fun _ => readingAt 2,
      .run 1 fun _ => { readingAt 2 with height := ⟨none, none, .error⟩ },
      .run 3 fun _ => readingAt 3, .run 3 fun _ => silentAt 4, .run 1 fun _ => readingAt 4]

/-- The condition of `runner_survives` about the STOP children, computed. -/
def checkAnswered (settings : DeskSettings) (pool : DeskPool) : DeskLabel → Bool
  | .run c env =>
      match pool.mem.task c with
      | some ⟨.stopAndConfirm _ none, .waiting w, _⟩ => !unconfirmed settings env w
      | _ => true
  | _ => true

theorem stopsAnswered_of_checked {pool : DeskPool} {l : DeskLabel}
    (hchecked : checkAnswered settings pool l = true) : stopsAnswered settings pool l := by
  cases l with
  | call _ => trivial
  | cancel _ => trivial
  | run c env =>
    intro u detail w _ _ _ hshape
    obtain ⟨cancelled, htask⟩ := Mem.shape_eq_some.mp hshape
    rw [checkAnswered, htask] at hchecked
    simpa using hchecked

/-- The runner survives an unconfirmed STOP after a rejection. -/
theorem runner_survives_failing : ∃ pool,
    DeskRun .default (survivable .default) 0 failingRun pool ∧
      pool.mem.vars.desk.control.publicState = .error ∧ RunnerLives pool.mem := by
  have hexec : (Transition.exec (step (deskSystem .default)) (deskStart .default 0)
      failingRun).map (·.mem.vars.desk.control.publicState) = some .error := by
    decide +kernel
  have hchecked : Transition.Meets (step (deskSystem .default))
      (fun pool l => (checkExpected pool l && checkAnswered .default pool l) = true)
      (deskStart .default 0) failingRun := by
    decide +kernel
  have hheights : ∀ l ∈ failingRun, coherentHeights l := by
    simp only [failingRun, bootRun, List.cons_append, List.nil_append, List.forall_mem_cons,
      List.not_mem_nil, false_imp_iff, implies_true, and_true]
    refine ⟨trivial, ?_, ?_, trivial, ?_, ?_, ?_, ?_, ?_⟩ <;> intro i h h' <;> cases h <;> cases h'
  obtain ⟨pool, hpool, hshown⟩ := Option.map_eq_some_iff.mp hexec
  have hrun : DeskRun .default (survivable .default) 0 failingRun pool := by
    refine .of_kept (hchecked.and_labels hheights) (fun pool l hk hl => ?_) hpool
    have hboth := (Bool.and_eq_true _ _).mp hl.2
    exact ⟨⟨hl.1, expected_of_checked hk hboth.1⟩, stopsAnswered_of_checked hboth.2⟩
  exact ⟨pool, hrun, hshown, (runner_survives hrun).1⟩

end SmartDesk.Desk
