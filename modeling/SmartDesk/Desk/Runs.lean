import SmartDesk.Desk.Tasks

/-!
# Runs of the controller

What the guarantee of all tasks says about whole runs: an invariant has to be checked
once for each change of the fields, and once where a segment stops.

* `DeskRun` — a run of the controller, whose steps meet a condition.
* `DeskRun.keeps` — **the induction over the segments of a run**; `DeskRun.keeps_quiet`
  for an invariant that tasks which are created or dropped do not touch.
* `later_of_step` — across a step the intent is refined or gets a later generation.
-/

namespace SmartDesk.Desk

open Coroutine

abbrev DeskPool := Pool deskSignature

abbrev DeskLabel := Label deskSignature

/-- The steps `ls` lead from the constructed controller to `pool`, and all of them
meet `ok`. -/
structure DeskRun (settings : DeskSettings) (ok : DeskPool → DeskLabel → Prop) (started : Instant)
    (ls : List DeskLabel) (pool : DeskPool) : Prop where
  meets : Transition.Meets (step (deskSystem settings)) ok (deskStart settings started) ls
  exec : Transition.exec (step (deskSystem settings)) (deskStart settings started) ls = some pool

variable {settings : DeskSettings} {ok : DeskPool → DeskLabel → Prop} {started : Instant}
  {ls : List DeskLabel} {pool : DeskPool}

abbrev DeskSegment (settings : DeskSettings) (m m' : Memory) (p q : Spot) : Prop :=
  Segment (deskGuarantee settings) m m' p.task p.given p q

abbrev DeskKept (settings : DeskSettings) (pool : DeskPool) : Prop :=
  Kept (deskSystem settings) (deskGuarantee settings) DeskRely pool

theorem kept_of_exec
    (hexec : Transition.exec (step (deskSystem settings)) (deskStart settings started) ls =
      some pool) : DeskKept settings pool :=
  Transition.invariant (fun _ _ _ hk hs => (stepped_of_step (verified settings) hk hs).1)
    (kept_start _) hexec

theorem DeskRun.kept (h : DeskRun settings ok started ls pool) : DeskKept settings pool :=
  kept_of_exec h.exec

/-- Along a run of safe tasks a condition can be replaced by a weaker one. -/
theorem DeskRun.of_kept {ok' : DeskPool → DeskLabel → Prop}
    (hmeets : Transition.Meets (step (deskSystem settings)) ok' (deskStart settings started) ls)
    (hok : ∀ pool l, DeskKept settings pool → ok' pool l → ok pool l)
    (hexec : Transition.exec (step (deskSystem settings)) (deskStart settings started) ls =
      some pool) : DeskRun settings ok started ls pool where
  meets := Transition.Meets.mono (I := DeskKept settings)
    (fun _ _ _ hk _ hs => (stepped_of_step (verified settings) hk hs).1) hok (kept_start _) hmeets
  exec := hexec

/-- A run along which a condition was checked. -/
theorem DeskRun.of_checked (checked : DeskPool → DeskLabel → Bool)
    (hok : ∀ pool l, DeskKept settings pool → checked pool l = true → ok pool l)
    (hmeets : Transition.Meets (step (deskSystem settings)) (fun pool l => checked pool l = true)
      (deskStart settings started) ls)
    (hexec : Transition.exec (step (deskSystem settings)) (deskStart settings started) ls =
      some pool) : DeskRun settings ok started ls pool :=
  .of_kept hmeets hok hexec

/-- A point of the segment that begins at `p`; the task has changed no other task and
taken no lock from it. -/
structure Within (p q : Spot) : Prop extends SameSegment p q where
  elsewhere : Elsewhere p.task p.start q.mem

/-- The induction over the segments of a run from any point on.  Within a segment that
begins at `p` the statement `V p` about the fields is kept from one change to the next. -/
theorem keeps_from {I : Memory → Prop} {V : Spot → Vars → Prop} {begin : DeskPool}
    (hk : DeskKept settings begin)
    (hmeets : Transition.Meets (step (deskSystem settings)) ok begin ls)
    (hexec : Transition.exec (step (deskSystem settings)) begin ls = some pool)
    (begun : I begin.mem)
    (called : ∀ pool job, DeskKept settings pool → ok pool (.call job) → job.isPublic = true →
      I pool.mem → I (pool.mem.spawn job))
    (cancelled : ∀ m m' : Memory, SameButCancelled m m' → I m → I m')
    (dropped : ∀ (pool : DeskPool) t env job, ok pool (.run t env) →
      pool.mem.task t = some ⟨job, .ready, true⟩ → I pool.mem →
      I (pool.mem.finish t (.error .cancelled)))
    (starts : ∀ pool pool' p, ok pool (.run p.task p.given) → I pool.mem → p.start = pool.mem →
      step (deskSystem settings) pool (.run p.task p.given) = some pool' → Wakes p →
      V p p.start.vars)
    (changes : ∀ p q v, Within p q → V p q.mem.vars → Change settings q v → V p v)
    (ends : ∀ (pool pool' : DeskPool) p q, DeskKept settings pool → ok pool (.run p.task p.given) →
      I pool.mem → p.start = pool.mem →
      step (deskSystem settings) pool (.run p.task p.given) = some pool' →
      V p q.mem.vars → pool'.mem.vars = q.mem.vars →
      DeskSegment settings pool.mem pool'.mem p q → I pool'.mem) :
    I pool.mem := by
  refine runs_keep (W := fun p q => Elsewhere p.task p.start q.mem ∧ V p q.mem.vars)
    (verified settings) called
    (fun m t hm => cancelled _ _ (sameButCancelled_cancel m t) hm) dropped ?_ ?_
    (fun _ _ h => h) ?_ hk begun hmeets hexec
  · intro pool pool' p hok hi hstart hstep hwakes
    refine ⟨hwakes.elsewhere, ?_⟩
    rw [hwakes.vars]
    exact starts pool pool' p hok hi hstart hstep hwakes
  · rintro p q m hsame ⟨helse, hv⟩ hm
    have hmicro := hm.elsewhere
    rw [hsame.task] at hmicro
    refine ⟨helse.trans hmicro, ?_⟩
    cases hm with
    | write v hchange => exact changes p q v ⟨hsame, helse⟩ hv hchange
    | spawn job _ => exact hv
    | cancel u _ =>
      show V p (q.mem.cancel u).vars
      rw [(sameButCancelled_cancel q.mem u).vars]
      exact hv
    | take l _ => exact hv
    | release l _ => exact hv
  · rintro pool pool' p q hk hok hi hstart hstep ⟨_, hv⟩ hsegment
    exact ends pool pool' p q hk hok hi hstart hstep hv hsegment.closes.vars hsegment

/-- **The induction over the segments of a run.** -/
theorem DeskRun.keeps {I : Memory → Prop} {V : Spot → Vars → Prop}
    (h : DeskRun settings ok started ls pool)
    (begun : I (deskStart settings started).mem)
    (called : ∀ pool job, DeskKept settings pool → ok pool (.call job) → job.isPublic = true →
      I pool.mem → I (pool.mem.spawn job))
    (cancelled : ∀ m m' : Memory, SameButCancelled m m' → I m → I m')
    (dropped : ∀ (pool : DeskPool) t env job, ok pool (.run t env) →
      pool.mem.task t = some ⟨job, .ready, true⟩ → I pool.mem →
      I (pool.mem.finish t (.error .cancelled)))
    (starts : ∀ pool pool' p, ok pool (.run p.task p.given) → I pool.mem → p.start = pool.mem →
      step (deskSystem settings) pool (.run p.task p.given) = some pool' → Wakes p →
      V p p.start.vars)
    (changes : ∀ p q v, Within p q → V p q.mem.vars → Change settings q v → V p v)
    (ends : ∀ (pool pool' : DeskPool) p q, DeskKept settings pool → ok pool (.run p.task p.given) →
      I pool.mem → p.start = pool.mem →
      step (deskSystem settings) pool (.run p.task p.given) = some pool' →
      V p q.mem.vars → pool'.mem.vars = q.mem.vars →
      DeskSegment settings pool.mem pool'.mem p q → I pool'.mem) :
    I pool.mem :=
  keeps_from (kept_start _) h.meets h.exec begun called cancelled dropped starts changes ends

/-- Nothing happens but that tasks are created, told of a cancellation, or dropped
before their start. -/
structure Quiet (m m' : Memory) : Prop where
  vars : m'.vars = m.vars
  owner : ∀ l, m'.owner l = m.owner l
  shape : ∀ u job status, m'.shape u = some (job, status) →
    m.shape u = some (job, status) ∨ status = .ready ∨ status = .finished (.error .cancelled)
  stays : ∀ u job status, m.shape u = some (job, status) → status ≠ .ready →
    m'.shape u = some (job, status)
  told : ∀ u, Told m u → Told m' u

theorem Quiet.waiting {m m' : Memory} (h : Quiet m m') (u : ℕ) (job : Job)
    (w : Wait deskSignature) (hu : m.shape u = some (job, .waiting w)) :
    m'.shape u = some (job, .waiting w) := h.stays u job _ hu (by simp)

theorem Quiet.waits {m m' : Memory} (h : Quiet m m') {u : ℕ} {job : Job} {w : Wait deskSignature}
    (hu : m'.shape u = some (job, .waiting w)) : m.shape u = some (job, .waiting w) := by
  rcases h.shape u job _ hu with hold | hready | hfinished
  · exact hold
  · cases hready
  · cases hfinished

theorem Quiet.pauses {m m' : Memory} (h : Quiet m m') {u : ℕ} {job : Job}
    (hu : m'.shape u = some (job, .pausing)) : m.shape u = some (job, .pausing) := by
  rcases h.shape u job _ hu with hold | hready | hfinished
  · exact hold
  · cases hready
  · cases hfinished

theorem quiet_spawn {m : Memory} (habsent : m.task m.count = none) (job : Job) :
    Quiet m (m.spawn job) where
  vars := rfl
  owner := fun _ => rfl
  shape := by
    intro u job' status hu
    rw [Mem.shape_spawn] at hu
    split_ifs at hu
    · cases hu
      exact .inr (.inl rfl)
    · exact .inl hu
  stays := by
    intro u job' status hu _
    rw [Mem.shape_spawn, if_neg ?_]
    · exact hu
    · rintro rfl
      rw [Mem.shape, habsent] at hu
      cases hu
  told := by
    rintro u ⟨k, hk, htold⟩
    have hne : u ≠ m.count := by
      rintro rfl
      rw [habsent] at hk
      cases hk
    exact ⟨k, by simpa [Mem.spawn, Mem.setTask, Function.update_of_ne hne] using hk, htold⟩

theorem quiet_of_sameButCancelled {m m' : Memory} (h : SameButCancelled m m') : Quiet m m' where
  vars := h.vars
  owner := h.owner
  shape := fun u _ _ hu => .inl (by rw [← h.shape u]; exact hu)
  stays := fun u _ _ hu _ => (h.shape u).trans hu
  told := h.flagged

theorem quiet_drop {m : Memory} {t : ℕ} {job : Job} {cancelled : Bool}
    (h : m.task t = some ⟨job, .ready, cancelled⟩) : Quiet m (m.finish t (.error .cancelled)) := by
  have hready : m.shape t = some (job, .ready) := Mem.shape_eq_some.mpr ⟨_, h⟩
  refine ⟨Mem.vars_alter _ _ _, Mem.owner_alter _ _ _, fun u job' status hu => ?_,
    fun u job' status hu hstatus => ?_, ?_⟩
  · rw [Mem.shape_finish hready] at hu
    split_ifs at hu
    · cases hu
      exact .inr (.inr rfl)
    · exact .inl hu
  · rw [Mem.shape_finish hready, if_neg ?_]
    · exact hu
    · rintro rfl
      rw [hready] at hu
      cases hu
      exact hstatus rfl
  · rintro u ⟨k, hk, htold⟩
    by_cases hu : u = t
    · subst hu
      exact ⟨_, Mem.task_alter_self hk _, htold⟩
    · exact ⟨k, (Mem.task_alter_ne m hu _).trans hk, htold⟩

/-- The induction over the segments of a run, for an invariant of the fields and of
where the tasks wait. -/
theorem DeskRun.keeps_quiet {I : Memory → Prop} {V : Spot → Vars → Prop}
    (h : DeskRun settings ok started ls pool)
    (begun : I (deskStart settings started).mem)
    (quiet : ∀ m m' : Memory, Quiet m m' → I m → I m')
    (starts : ∀ pool pool' p, ok pool (.run p.task p.given) → I pool.mem → p.start = pool.mem →
      step (deskSystem settings) pool (.run p.task p.given) = some pool' → Wakes p →
      V p p.start.vars)
    (changes : ∀ p q v, Within p q → V p q.mem.vars → Change settings q v → V p v)
    (ends : ∀ (pool pool' : DeskPool) p q, DeskKept settings pool → ok pool (.run p.task p.given) →
      I pool.mem → p.start = pool.mem →
      step (deskSystem settings) pool (.run p.task p.given) = some pool' →
      V p q.mem.vars → pool'.mem.vars = q.mem.vars →
      DeskSegment settings pool.mem pool'.mem p q → I pool'.mem) :
    I pool.mem := by
  refine h.keeps begun ?_ ?_ ?_ starts changes ends
  · intro pool job hk _ _ hi
    exact quiet _ _ (quiet_spawn (hk.absent _ le_rfl) job) hi
  · intro m m' hsame hi
    exact quiet _ _ (quiet_of_sameButCancelled hsame) hi
  · intro pool t env job _ htask hi
    exact quiet _ _ (quiet_drop htask) hi

theorem lt_count_of_shape {m : Memory} (habsent : ∀ u, m.count ≤ u → m.task u = none) {t : ℕ}
    {job : Job} {status : Status deskSignature} (h : m.shape t = some (job, status)) :
    t < m.count := by
  by_contra hle
  rw [Mem.shape, habsent t (not_lt.mp hle)] at h
  cases h

section Segment

variable {m m' : Memory} {p q : Spot} (hsegment : DeskSegment settings m m' p q)
  (habsent : ∀ u, m.count ≤ u → m.task u = none)
include hsegment habsent

/-- The other tasks stay where they are, and so does a task that has ended. -/
theorem stays_of_segment {u : ℕ} {job : Job} {status : Status deskSignature}
    (hu : m.shape u = some (job, status))
    (hstatus : u ≠ p.task ∨ ∃ r, status = .finished r) : m'.shape u = some (job, status) := by
  have hne : u ≠ p.task := by
    rcases hstatus with hne | ⟨r, rfl⟩
    · exact hne
    · rintro rfl
      rw [← hsegment.start] at hu
      rcases hsegment.wakes.enabled with h | h | ⟨w, h⟩
      · exact nomatch hu.symm.trans h
      · exact nomatch hu.symm.trans h
      · exact nomatch hu.symm.trans h
  rw [hsegment.elsewhere.shape u hne (lt_count_of_shape habsent hu)]
  exact hu

/-- No task takes back the cancellation of another one. -/
theorem told_of_segment {u : ℕ} {job : Job} {status : Status deskSignature}
    (hu : m.shape u = some (job, status)) (hne : u ≠ p.task) (htold : Told m u) : Told m' u :=
  hsegment.elsewhere.flagged u hne (lt_count_of_shape habsent hu) htold

/-- Only the runner pauses. -/
theorem pausing_of_segment (hbefore : ∀ t job, m.shape t = some (job, .pausing) → job = .runner) :
    ∀ t job, m'.shape t = some (job, .pausing) → job = .runner := by
  intro t job hshape
  rcases hsegment.shape_cases habsent hshape with ⟨_, hrunner, hstopped⟩ | ⟨_, hold | ⟨_, hready⟩⟩
  · cases hstopped with
    | pausing hpauses => exact hrunner.trans (hsegment.reach.sameSegment.job.symm.trans hpauses.2)
  · exact hbefore t job hold
  · cases hready

/-- A `stop()` that waits has closed the controller, which stays closed. -/
theorem stopping_of_segment (hvars : m'.vars = q.mem.vars)
    (hbefore : ∀ t w, m.shape t = some (.stop, .waiting w) → m.vars.desk.closing = true)
    (hstill : ∀ t w, m.shape t = some (.stop, .waiting w) → q.mem.vars.desk.closing = true) :
    ∀ t w, m'.shape t = some (.stop, .waiting w) → m'.vars.desk.closing = true := by
  have hsame := hsegment.reach.sameSegment
  intro t w hshape
  rw [hvars]
  rcases hsegment.shape_cases habsent hshape with ⟨_, hstop, hstopped⟩ | ⟨_, hold | ⟨_, hready⟩⟩
  · cases hstopped with
    | waiting w hsuspends =>
      have hstop' : q.job = .stop := hsame.job.trans hstop.symm
      rcases hsuspends.shut hstop' with hclosed | ⟨⟨w', hwaits⟩, hclosing⟩
      · exact hclosed
      · rw [Waits, hstop', hsame.start.trans hsegment.start] at hwaits
        rw [hclosing, hsame.start.trans hsegment.start]
        exact hbefore q.task w' hwaits
  · exact hstill t w hold
  · cases hready

end Segment

/-- What the changes of a segment record has a property, and so has what the step
records. -/
theorem events_of_step {E : Event → Prop} {pool' : DeskPool} {t : ℕ} {env : ℕ → Reading}
    (hk : DeskKept settings pool)
    (h : step (deskSystem settings) pool (.run t env) = some pool')
    (hchange : ∀ p q v, p.start = pool.mem → p.task = t → p.given = env → SameSegment p q →
      Change settings q v → ∃ new, v.trace = new ++ q.mem.vars.trace ∧ ∀ e ∈ new, E e) :
    ∃ new, pool'.mem.vars.trace = new ++ pool.mem.vars.trace ∧ ∀ e ∈ new, E e := by
  have hstepped := (stepped_of_step (verified settings) hk h).2
  generalize pool'.mem = m' at hstepped
  cases hstepped with
  | drop _ =>
    refine ⟨[], ?_, by simp⟩
    rw [show (pool.mem.finish t (.error .cancelled)).vars = pool.mem.vars from Mem.vars_alter _ _ _]
    rfl
  | @run _ _ _ p q hsegment =>
    have hall : ∀ q, Reach (deskGuarantee settings) p q →
        ∃ new, q.mem.vars.trace = new ++ pool.mem.vars.trace ∧ ∀ e ∈ new, E e := by
      intro q hreach
      induction hreach with
      | refl => exact ⟨[], by rw [hsegment.wakes.vars, hsegment.start]; rfl, by simp⟩
      | read _ ih => exact ih
      | @micro q m hreach hm ih =>
        cases hm with
        | write v hv =>
          obtain ⟨old, hold, hbefore⟩ := ih
          obtain ⟨new, hnew, hafter⟩ :=
            hchange p q v hsegment.start hsegment.task hsegment.given hreach.sameSegment hv
          refine ⟨new ++ old, ?_, List.forall_mem_append.mpr ⟨hafter, hbefore⟩⟩
          exact hnew.trans (by rw [hold, List.append_assoc])
        | spawn job _ => exact ih
        | cancel u _ =>
          rw [Point.setMem, (sameButCancelled_cancel q.mem u).vars]
          exact ih
        | take l _ => exact ih
        | release l _ => exact ih
    rw [hsegment.closes.vars]
    exact hall q hsegment.reach

/-- A step of the controller develops the intent or leads to a later generation. -/
theorem later_of_step {pool' : DeskPool} {l : DeskLabel} (hk : DeskKept settings pool)
    (h : step (deskSystem settings) pool l = some pool') :
    Later pool.mem.vars.desk.control pool'.mem.vars.desk.control := by
  have hstepped := (stepped_of_step (verified settings) hk h).2
  generalize pool'.mem = m' at hstepped
  cases hstepped with
  | call _ => exact .refl _
  | cancel t =>
    rw [(sameButCancelled_cancel pool.mem t).vars]
    exact .refl _
  | drop _ =>
    rw [show (pool.mem.finish _ (.error .cancelled)).vars = pool.mem.vars from Mem.vars_alter _ _ _]
    exact .refl _
  | @run t _ _ _ _ hsegment =>
    exact (rely_of_segment (verified settings) hsegment (u := t + 1) (by simp)).control

/-! ## A sample run -/

/-- A height of 90 cm, a relay at rest and clocks at `seconds`. -/
def readingAt (seconds : ℤ) : Reading where
  height := ⟨some (.finite 90), some (seconds * 1000000), .online⟩
  relay :=
    { event := some .heartbeat, state := some .stop, firmware := some "smartdesk-fin-relay-1.0.0"
      code := some "ready", detail := none, receivedAt := some (seconds * 1000000)
      lastError := none }
  now := seconds * 1000000
  monotonic := .finite seconds
  result := some (.ok ())
  managerClosing := false

/-- A height of 90 cm that was seen a second ago and is stale. -/
def staleAt (seconds : ℤ) : Reading :=
  { readingAt seconds with
    height := ⟨some (.finite 90), some ((seconds - 1) * 1000000), .stale⟩ }

/-- `start()` publishes its STOP, which is answered; the runner is task 1. -/
def bootRun : List DeskLabel :=
  [.call .start, .run 0 fun _ => readingAt 0, .run 0 fun _ => readingAt 1]

end SmartDesk.Desk
