import SmartDesk.Desk.Runs

/-!
# What a STOP that returns has done

`stop_motion` runs its exchange in a task of its own.  A task that finds another
exchange in progress returns at once, and `stop_motion` returns with it.

* `StoppedSince` — an exchange that was not over at an earlier moment has published a STOP
  and confirmed it.
* `stop_returned_early` — `stop_motion` returns before any STOP is confirmed.
* `stop_confirmed` — **a `stop_motion` that returns has its own confirmed exchange**, if
  its exchange does not meet another one.
-/

namespace SmartDesk.Desk

open Coroutine

variable {settings : DeskSettings}

/-- An exchange that was not confirmed in the earlier memory is over without an error: it
published a STOP, and a STOP status newer than its baseline was received. -/
def StoppedSince (earlier now : Memory) : Prop :=
  ∃ u baseline status, .exchangeConfirmed u baseline status ∈ now.vars.trace ∧
    .exchangeBegun u baseline ∈ now.vars.trace ∧ .sendStop u ∈ now.vars.trace ∧
    isFreshStop baseline status = true ∧
    (∀ baseline' status', .exchangeConfirmed u baseline' status' ∉ earlier.vars.trace) ∧
    now.outcome u = some (.ok (.stop status))

/-- Since the call of `stop_motion`, which got the number of tasks as its own number,
the desk was stopped if the call has returned. -/
def ReturnsStopped (called now : Memory) : Prop :=
  ∀ v, now.outcome called.count = some (.ok v) → StoppedSince called now

/-! ## A STOP that returns early -/

/-- A relay that moves by itself. -/
def movingAt (seconds : ℤ) : Reading :=
  { readingAt seconds with
    relay := { (readingAt seconds).relay with event := some .moving, state := some .up } }

/-- The runner sees the relay move and begins an exchange. -/
def meetingBefore : List DeskLabel :=
  bootRun ++ [.run 1 fun _ => movingAt 2, .run 2 fun _ => movingAt 2]

/-- A user stops the desk before that exchange is over: the STOP task ends at once. -/
def meetingAfter : List DeskLabel :=
  [.run 3 fun _ => movingAt 3, .run 4 fun _ => movingAt 3, .run 3 fun _ => movingAt 3]

def userStop : DeskLabel := .call (.stopMotion "사용자 정지")

/-- The record has no confirmation. -/
def Event.unconfirmed : Event → Bool
  | .exchangeConfirmed _ _ _ => false
  | _ => true

/-- **`stop_motion` can return before any STOP is confirmed.** -/
theorem stop_returned_early : ¬ ∀ settings started before after reason called pool,
    Transition.exec (step (deskSystem settings)) (deskStart settings started) before =
      some called →
    Transition.exec (step (deskSystem settings)) (deskStart settings started)
      (before ++ .call (.stopMotion reason) :: after) = some pool →
    ReturnsStopped called.mem pool.mem := by
  intro hall
  have hcalled : (Transition.exec (step (deskSystem .default)) (deskStart .default 0)
      meetingBefore).map (·.mem.count) = some 3 := by
    decide +kernel
  have hexec : (Transition.exec (step (deskSystem .default)) (deskStart .default 0)
      (meetingBefore ++ userStop :: meetingAfter)).map (fun pool =>
        (decide (pool.mem.outcome 3 = some (.ok Value.none)),
          pool.mem.vars.trace.all Event.unconfirmed)) = some (true, true) := by
    decide +kernel
  obtain ⟨called, hbefore, hcount⟩ := Option.map_eq_some_iff.mp hcalled
  obtain ⟨pool, hpool, hstate⟩ := Option.map_eq_some_iff.mp hexec
  simp only [Prod.mk.injEq] at hstate
  obtain ⟨houtcome, hquiet⟩ := hstate
  have hstopped := hall .default 0 meetingBefore meetingAfter _ called pool hbefore hpool
  obtain ⟨u, baseline, status, hconfirmed, _⟩ :=
    hstopped .none (by rw [hcount]; exact of_decide_eq_true houtcome)
  exact nomatch List.all_eq_true.mp hquiet _ hconfirmed

/-! ## The condition -/

/-- The STOP task that a `stop_motion` waits for finds no exchange in progress when it
starts. -/
def startsOwn (pool : DeskPool) : DeskLabel → Prop
  | .run u _ => ∀ t reason job,
      pool.mem.shape t = some (.stopMotion reason, .waiting (.shield u)) →
      pool.mem.shape u = some (job, .ready) → pool.mem.vars.desk.stopInProgress = false
  | _ => True

/-- Every confirmation in the record is that of an exchange that has begun and published a
STOP, by a status newer than its baseline. -/
def Founded (trace : List Event) : Prop :=
  ∀ u baseline status, .exchangeConfirmed u baseline status ∈ trace →
    .exchangeBegun u baseline ∈ trace ∧ .sendStop u ∈ trace ∧ isFreshStop baseline status = true

/-- The confirmations after a change: those before it, and one of the task itself. -/
theorem Change.confirmed {p : Spot} {v : Vars} (h : Change settings p v) {u : ℕ}
    {baseline : Option Instant} {status : RelaySnapshot}
    (hmem : .exchangeConfirmed u baseline status ∈ v.trace) :
    .exchangeConfirmed u baseline status ∈ p.mem.vars.trace ∨
      (u = p.task ∧ .exchangeBegun u baseline ∈ p.mem.vars.trace ∧
        .sendStop u ∈ p.mem.vars.trace ∧ isFreshStop baseline status = true) := by
  rcases h.records with hsame | ⟨e, htrace, he⟩
  · rw [hsame] at hmem
    exact .inl hmem
  rw [htrace] at hmem
  rcases List.mem_cons.mp hmem with heq | hold
  · subst heq
    cases he with
    | exchangeConfirmed _ _ fresh begun =>
      obtain ⟨new, older, hbegun, hsent⟩ := begun
      have hremembered : .sendStop p.task ∈ p.mem.vars.trace := by
        rw [hbegun]
        exact List.mem_append_left _ hsent
      exact .inr ⟨rfl, by rw [hbegun]; simp, hremembered, fresh⟩
  · exact .inl hold

/-- A change forgets nothing. -/
theorem Change.remembers {p : Spot} {v : Vars} (h : Change settings p v) {e : Event}
    (he : e ∈ p.mem.vars.trace) : e ∈ v.trace := by
  obtain ⟨_, new, htrace, _⟩ := h.grows
  rw [htrace]
  exact List.mem_append_right _ he

theorem Change.founded {p : Spot} {v : Vars} (h : Change settings p v)
    (hfounded : Founded p.mem.vars.trace) : Founded v.trace := by
  intro u baseline status hmem
  rcases h.confirmed hmem with hold | ⟨_, hbegun, hsent, hfresh⟩
  · obtain ⟨hbegun, hsent, hfresh⟩ := hfounded u baseline status hold
    exact ⟨h.remembers hbegun, h.remembers hsent, hfresh⟩
  · exact ⟨h.remembers hbegun, h.remembers hsent, hfresh⟩

/-! ## What is kept -/

/-- The exchanges of the STOP tasks, and what a `stop_motion` knows of its own one. -/
structure Answering (m : Memory) : Prop where
  founded : Founded m.vars.trace
  pausing : ∀ t job, m.shape t = some (job, .pausing) → job = .runner
  started : ∀ u baseline status, .exchangeConfirmed u baseline status ∈ m.vars.trace →
    ∃ job at', m.shape u = some (job, at') ∧ at' ≠ .ready
  newer : ∀ t reason u, m.shape t = some (.stopMotion reason, .waiting (.shield u)) → t < u
  child : ∀ t reason u, m.shape t = some (.stopMotion reason, .waiting (.shield u)) →
    ∀ detail errorDetail v,
      m.shape u = some (.stopAndConfirm detail errorDetail, .finished (.ok v)) →
      v.text? = none → ConfirmedBy m.vars.trace u v
  returned : ∀ t reason v, m.shape t = some (.stopMotion reason, .finished (.ok v)) →
    ∃ u job baseline status, t < u ∧ m.shape u = some (job, .finished (.ok (.stop status))) ∧
      .exchangeConfirmed u baseline status ∈ m.vars.trace

theorem Answering.start (started : Instant) : Answering (deskStart settings started).mem where
  founded := fun _ _ _ h => by cases h
  pausing := fun _ _ h => by cases h
  started := fun _ _ _ h => by cases h
  newer := fun _ _ _ h => by cases h
  child := fun _ _ _ h => by cases h
  returned := fun _ _ _ h => by cases h

theorem Answering.quiet {m m' : Memory} (h : Answering m) (hquiet : Quiet m m') :
    Answering m' := by
  have hfinished : ∀ {u job v}, m'.shape u = some (job, .finished (.ok v)) →
      m.shape u = some (job, .finished (.ok v)) := by
    intro u job v hu
    rcases hquiet.shape u job _ hu with hold | hready | hcancelled
    · exact hold
    · cases hready
    · cases hcancelled
  constructor
  · rw [hquiet.vars]
    exact h.founded
  · intro t job ht
    exact h.pausing t job (hquiet.pauses ht)
  · rw [hquiet.vars]
    intro u baseline status hmem
    obtain ⟨job, at', hshape, hat⟩ := h.started u baseline status hmem
    exact ⟨job, at', hquiet.stays u job at' hshape hat, hat⟩
  · intro t reason u ht
    exact h.newer t reason u (hquiet.waits ht)
  · rw [hquiet.vars]
    intro t reason u ht detail errorDetail v hu
    exact h.child t reason u (hquiet.waits ht) detail errorDetail v (hfinished hu)
  · rw [hquiet.vars]
    intro t reason v ht
    obtain ⟨u, job, baseline, status, hlt, hu, hmem⟩ := h.returned t reason v (hfinished ht)
    exact ⟨u, job, baseline, status, hlt, hquiet.stays u job _ hu (by simp), hmem⟩

/-- The record in the middle of a segment. -/
structure Recording (p : Spot) (v : Vars) : Prop where
  founded : Founded v.trace
  remembers : ∀ e ∈ p.start.vars.trace, e ∈ v.trace
  own : ∀ u baseline status, .exchangeConfirmed u baseline status ∈ v.trace →
    .exchangeConfirmed u baseline status ∈ p.start.vars.trace ∨ u = p.task
  alone : ∀ t reason job, p.start.shape t = some (.stopMotion reason, .waiting (.shield p.task)) →
    p.start.shape p.task = some (job, .ready) → p.start.vars.desk.stopInProgress = false

theorem Recording.change {p q : Spot} {v : Vars} (h : Recording p q.mem.vars)
    (hsame : SameSegment p q) (hchange : Change settings q v) : Recording p v where
  founded := hchange.founded h.founded
  remembers := fun e he => hchange.remembers (h.remembers e he)
  own := by
    intro u baseline status hmem
    rcases hchange.confirmed hmem with hold | ⟨hu, _⟩
    · exact h.own u baseline status hold
    · exact .inr (hu.trans hsame.task)
  alone := h.alone

section Segment

variable {m m' : Memory} {p q : Spot} (h : Answering m)
  (hsegment : DeskSegment settings m m' p q)
  (habsent : ∀ u, m.count ≤ u → m.task u = none) (hrecording : Recording p q.mem.vars)
  (hvars : m'.vars = q.mem.vars)
include h hsegment habsent hrecording hvars

omit habsent in
/-- A STOP task that ends without an error, for which a `stop_motion` waits, has its own
confirmed exchange. -/
theorem confirmed_of_finishes {t : ℕ} {reason detail : String} {errorDetail : Option String}
    {v : Value} (hwaits : m.shape t = some (.stopMotion reason, .waiting (.shield p.task)))
    (hjob : p.job = .stopAndConfirm detail errorDetail) (htext : v.text? = none)
    (hfinishes : Finishes settings q (.ok v)) : ConfirmedBy m'.vars.trace p.task v := by
  have hsame := hsegment.reach.sameSegment
  rw [hvars]
  cases hfinishes.child detail errorDetail (hsame.job.trans hjob) with
  | joined latch _ first =>
    rw [hsame.start] at latch
    rw [Starts, hsame.start, hsame.task, hsame.job] at first
    rw [← hsegment.start] at hwaits
    rcases first with hready | hpausing
    · rw [hrecording.alone t reason p.job hwaits hready] at latch
      cases latch
    · rw [hsegment.start] at hpausing
      have hrunner := h.pausing p.task p.job hpausing
      rw [hjob] at hrunner
      cases hrunner
  | exchanged _ _ _ _ _ _ _ recorded =>
    rw [← hsame.task]
    exact recorded htext

/-- **After a segment** each `stop_motion` knows of its exchange what it should. -/
theorem answering_of_segment : Answering m' := by
  have hsame := hsegment.reach.sameSegment
  have hstart : q.start = m := hsame.start.trans hsegment.start
  have hremembers : ∀ e ∈ m.vars.trace, e ∈ m'.vars.trace := by
    intro e he
    rw [← hsegment.start] at he
    rw [hvars]
    exact hrecording.remembers e he
  constructor
  · rw [hvars]
    exact hrecording.founded
  · exact pausing_of_segment hsegment habsent h.pausing
  · intro u baseline status hmem
    rw [hvars] at hmem
    by_cases hu : u = p.task
    · obtain ⟨at', hshape, hstopped⟩ := hsegment.shape_self habsent
      rw [hu]
      exact ⟨p.job, at', hshape, by cases hstopped <;> simp⟩
    · have hold := (hrecording.own u baseline status hmem).resolve_right hu
      rw [hsegment.start] at hold
      obtain ⟨job, at', hshape, hat⟩ := h.started u baseline status hold
      exact ⟨job, at', stays_of_segment hsegment habsent hshape (.inl hu), hat⟩
  · intro t reason u ht
    rcases hsegment.shape_cases habsent ht with ⟨rfl, hjob, hstopped⟩ | ⟨_, hold | ⟨_, hready⟩⟩
    · cases hstopped with
      | waiting w hsuspends =>
        -- The child is the last task that was created, and has not started.
        obtain ⟨hcount, job, hnew⟩ := hsuspends.child u rfl
        have hlt : p.task < q.mem.count := by
          have hrunning := hsegment.shape_running habsent
          rw [← hsame.task]
          exact lt_count_of_shape (hsegment.reach.elsewhere.absent
            (hsegment.wakes.elsewhere.absent (hsegment.start ▸ habsent))) hrunning
        have hne : p.task ≠ u := by
          rintro rfl
          have hready := hsegment.shape_ready habsent hnew
          rw [ht] at hready
          cases hready
        omega
    · exact h.newer t reason u hold
    · cases hready
  · intro t reason u ht detail errorDetail v hu htext
    rcases hsegment.shape_cases habsent ht with ⟨rfl, _, hstopped⟩ | ⟨_, hold | ⟨_, hready⟩⟩
    · cases hstopped with
      | waiting w hsuspends =>
        obtain ⟨_, job, hnew⟩ := hsuspends.child u rfl
        have hready := hsegment.shape_ready habsent hnew
        rw [hu] at hready
        cases hready
    · rcases hsegment.shape_cases habsent hu with ⟨rfl, hjob, hended⟩ | ⟨_, hkept | ⟨_, hready⟩⟩
      · cases hended with
        | finished r hfinishes =>
          exact confirmed_of_finishes h hsegment hrecording hvars hold hjob.symm htext
            hfinishes
      · obtain ⟨baseline, status, hv, hmem⟩ :=
          h.child t reason u hold detail errorDetail v hkept htext
        exact ⟨baseline, status, hv, hremembers _ hmem⟩
      · cases hready
    · cases hready
  · intro t reason v ht
    rcases hsegment.shape_cases habsent ht with ⟨rfl, hjob, hstopped⟩ | ⟨_, hold | ⟨_, hready⟩⟩
    · cases hstopped with
      | finished r hfinishes =>
        have hqjob : q.job = .stopMotion reason := hsame.job.trans hjob.symm
        obtain ⟨u, detail, errorDetail, v', hwaits, hchild, houtcome, htext⟩ :=
          hfinishes.stopped reason v hqjob rfl
        rw [Waits, hstart, hsame.task, hqjob] at hwaits
        rw [hstart] at hchild houtcome
        have hshape := Mem.shape_of_outcome houtcome hchild
        obtain ⟨baseline, status, rfl, hmem⟩ :=
          h.child p.task reason u hwaits detail errorDetail v' hshape htext
        exact ⟨u, _, baseline, status, h.newer p.task reason u hwaits,
          stays_of_segment hsegment habsent hshape (.inr ⟨_, rfl⟩), hremembers _ hmem⟩
    · obtain ⟨u, job, baseline, status, hlt, hu, hmem⟩ := h.returned t reason v hold
      exact ⟨u, job, baseline, status, hlt,
        stays_of_segment hsegment habsent hu (.inr ⟨_, rfl⟩), hremembers _ hmem⟩
    · cases hready

end Segment

/-- **In every run** in which the STOP tasks of `stop_motion` find no exchange in
progress. -/
theorem answering_of_run {started : Instant} {ls : List DeskLabel} {pool : DeskPool}
    (h : DeskRun settings startsOwn started ls pool) : Answering pool.mem := by
  refine h.keeps_quiet (V := Recording) (.start started) (fun _ _ hquiet hi => hi.quiet hquiet)
    ?_ ?_ ?_
  · intro pool pool' p hok hi hstart _ _
    rw [hstart]
    refine ⟨hi.founded, ?_, ?_, ?_⟩
    · rw [hstart]
      exact fun e he => he
    · rw [hstart]
      exact fun u baseline status hmem => .inl hmem
    · rw [hstart]
      exact hok
  · intro p q v hsame hrecording hchange
    exact hrecording.change hsame.toSameSegment hchange
  · intro pool pool' p q hk _ hi _ _ hrecording hvars hsegment
    exact answering_of_segment hi hsegment hk.absent hrecording hvars

/-- The tasks of a pool are there after each run from it, with the same programs. -/
theorem knows_of_exec {pool pool' : DeskPool} {ls : List DeskLabel}
    (hk : DeskKept settings pool)
    (h : Transition.exec (step (deskSystem settings)) pool ls = some pool') :
    Knows pool.mem pool'.mem := by
  refine Transition.relation_of_steps (I := DeskKept settings)
    (R := fun a b : DeskPool => Knows a.mem b.mem) (fun a => .refl a.mem) (fun _ _ _ => .trans)
    (fun _ _ _ hk hs => (stepped_of_step (verified settings) hk hs).1) ?_ hk h
  intro a l b ha hs
  have hstepped := (stepped_of_step (verified settings) ha hs).2
  generalize b.mem = m at hstepped
  cases hstepped with
  | call _ => exact (Elsewhere.spawn a.mem 0 _).toKnows
  | cancel t =>
    exact (Elsewhere.of_sameButCancelled (t := 0) (sameButCancelled_cancel a.mem t)).toKnows
  | @drop t _ _ _ =>
    exact (Elsewhere.alter a.mem t (fun k => { k with status := .finished (.error .cancelled) })
      fun _ => rfl).toKnows
  | run hsegment => exact hsegment.elsewhere.toKnows

/-- A call is the task with the number of tasks before it. -/
theorem job_of_called {called pool : DeskPool} {job : Job} {after : List DeskLabel}
    (hk : DeskKept settings called)
    (h : Transition.exec (step (deskSystem settings)) called (.call job :: after) = some pool) :
    pool.mem.job called.mem.count = some job := by
  obtain ⟨next, hnext, hafter⟩ := Transition.exec_cons_eq_some.mp h
  have hkept := (stepped_of_step (verified settings) hk hnext).1
  have hspawned : next.mem = called.mem.spawn job := by
    simp only [step] at hnext
    split at hnext
    · cases hnext
      rfl
    · cases hnext
  have hknows := (knows_of_exec hkept hafter).job called.mem.count (by
    rw [hspawned]
    exact Nat.lt_succ_self _)
  rw [hknows, hspawned, Mem.job_eq_fst_shape, Mem.shape_spawn, if_pos rfl]
  rfl

/-- The exchange of a `stop_motion` that has returned is newer than the call. -/
theorem Answering.returnsStopped {called m : Memory} {reason : String} (h : Answering m)
    (hcalled : Answering called) (habsent : ∀ u, called.count ≤ u → called.task u = none)
    (hjob : m.job called.count = some (.stopMotion reason)) : ReturnsStopped called m := by
  intro v houtcome
  obtain ⟨u, job, baseline, status, hlt, hshape, hmem⟩ :=
    h.returned _ reason v (Mem.shape_of_outcome houtcome hjob)
  obtain ⟨hbegun, hsent, hfresh⟩ := h.founded u baseline status hmem
  refine ⟨u, baseline, status, hmem, hbegun, hsent, hfresh, ?_, ?_⟩
  · intro baseline' status' hold
    obtain ⟨job', at', hthere, _⟩ := hcalled.started u baseline' status' hold
    exact absurd (lt_count_of_shape habsent hthere) (by omega)
  · obtain ⟨cancelled, htask⟩ := Mem.shape_eq_some.mp hshape
    rw [Mem.outcome, htask]

/-- **A `stop_motion` that returns has stopped the desk**: in every run in which its STOP
task finds no other exchange in progress. -/
theorem stop_confirmed {started : Instant} {before after : List DeskLabel} {reason : String}
    {called pool : DeskPool}
    (hcalled : Transition.exec (step (deskSystem settings)) (deskStart settings started) before =
      some called)
    (h : DeskRun settings startsOwn started (before ++ .call (.stopMotion reason) :: after) pool) :
    ReturnsStopped called.mem pool.mem := by
  have hbefore : DeskRun settings startsOwn started before called :=
    ⟨(Transition.meets_append h.meets).1, hcalled⟩
  obtain ⟨called', hcalled', hrest⟩ := Transition.exec_append.mp h.exec
  rw [hcalled] at hcalled'
  cases hcalled'
  exact (answering_of_run h).returnsStopped (answering_of_run hbefore) hbefore.kept.absent
    (job_of_called hbefore.kept hrest)

/-- The condition of `stop_confirmed`, computed. -/
def checkStartsOwn (pool : DeskPool) : DeskLabel → Bool
  | .run u _ =>
      match pool.mem.task u with
      | some ⟨_, .ready, _⟩ => !pool.mem.vars.desk.stopInProgress
      | _ => true
  | _ => true

theorem startsOwn_of_checked (pool : DeskPool) (l : DeskLabel) (_ : DeskKept settings pool)
    (hchecked : checkStartsOwn pool l = true) : startsOwn pool l := by
  cases l with
  | call _ => trivial
  | cancel _ => trivial
  | run u env =>
    intro t reason job _ hready
    obtain ⟨cancelled, htask⟩ := Mem.shape_eq_some.mp hready
    rw [checkStartsOwn, htask] at hchecked
    simpa using hchecked

/-- A STOP of a desk at rest, which is confirmed after a second. -/
def plainStop : List DeskLabel :=
  [.run 2 fun _ => readingAt 2, .run 3 fun _ => readingAt 2, .run 3 fun _ => readingAt 3,
    .run 2 fun _ => readingAt 3]

/-- A STOP of a desk at rest returns with its confirmation. -/
theorem stop_confirmed_boot : ∃ called pool : DeskPool,
    DeskRun .default startsOwn 0 (bootRun ++ userStop :: plainStop) pool ∧
      (∃ v, pool.mem.outcome called.mem.count = some (.ok v)) ∧
      StoppedSince called.mem pool.mem := by
  have hcalled : (Transition.exec (step (deskSystem .default)) (deskStart .default 0)
      bootRun).map (·.mem.count) = some 2 := by
    decide +kernel
  have hexec : (Transition.exec (step (deskSystem .default)) (deskStart .default 0)
      (bootRun ++ userStop :: plainStop)).map (fun pool =>
        decide (pool.mem.outcome 2 = some (.ok Value.none))) = some true := by
    decide +kernel
  have hmeets : Transition.Meets (step (deskSystem .default))
      (fun pool l => checkStartsOwn pool l = true) (deskStart .default 0)
      (bootRun ++ userStop :: plainStop) := by
    decide +kernel
  obtain ⟨called, hbefore, hcount⟩ := Option.map_eq_some_iff.mp hcalled
  obtain ⟨pool, hpool, hstate⟩ := Option.map_eq_some_iff.mp hexec
  have hrun : DeskRun .default startsOwn 0 (bootRun ++ userStop :: plainStop) pool :=
    .of_checked checkStartsOwn startsOwn_of_checked hmeets hpool
  have houtcome : pool.mem.outcome called.mem.count = some (.ok Value.none) := by
    rw [hcount]
    exact of_decide_eq_true hstate
  exact ⟨called, pool, hrun, ⟨_, houtcome⟩, stop_confirmed hbefore hrun _ houtcome⟩

end SmartDesk.Desk
