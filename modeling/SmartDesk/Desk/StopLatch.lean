import SmartDesk.Desk.Runs

/-!
# The STOP latch

`_stop_in_progress` is set in one section of a STOP exchange and cleared in another one.
`_stop_motion` shields the task of the exchange from a cancellation, unless it is
cancelled once more while it waits for that task; `_stop_for_transition` does not
shield it at all.

* `latch_left_set` — a cancelled `hold_down()` leaves the latch set.
* `latch_cleared` — **a latch that is set has a task that will clear it**, if no task is
  told of a cancellation in its exchange.
-/

namespace SmartDesk.Desk

open Coroutine

variable {settings : DeskSettings}

/-- The latch of a running controller that is not closing is not set unless a task
publishes or confirms a STOP. -/
def LatchCleared (m : Memory) : Prop :=
  m.vars.desk.running = true → m.vars.desk.closing = false → (∀ t, ¬ Confirming m t) →
    m.vars.desk.stopInProgress = false

/-! ## A latch that is left set -/

/-- `hold_down()` takes the place of `hold_up()` and is cancelled while it waits for the
confirmation of its STOP. -/
def cancelledHoldRun : List DeskLabel :=
  bootRun ++
    [.call .holdUp, .run 2 fun _ => readingAt 2, .call .holdDown, .run 3 fun _ => readingAt 3,
      .cancel 3, .run 3 fun _ => readingAt 4]

/-- The task is not in an exchange. -/
def noExchange : Task deskSignature → Bool
  | ⟨_, .waiting w, _⟩ => !isConfirming w
  | _ => true

theorem unconfirming_of_all {m : Memory} (habsent : ∀ u, m.count ≤ u → m.task u = none)
    (h : m.all noExchange = true) (t : ℕ) : ¬ Confirming m t := by
  rintro ⟨job, w, hshape, hw⟩
  obtain ⟨cancelled, htask⟩ := Mem.shape_eq_some.mp hshape
  have ht := Mem.of_all h habsent htask
  simp [noExchange, hw] at ht

/-- **A cancelled operation can leave the latch set**: the controller runs, and no task
will clear it. -/
theorem latch_left_set : ¬ ∀ settings started ls pool,
    DeskRun settings (fun _ _ => True) started ls pool → LatchCleared pool.mem := by
  intro hall
  have hexec : (Transition.exec (step (deskSystem .default)) (deskStart .default 0)
      cancelledHoldRun).map (fun pool => (pool.mem.vars.desk.running,
        pool.mem.vars.desk.closing, pool.mem.vars.desk.stopInProgress,
        pool.mem.all noExchange)) = some (true, false, true, true) := by
    decide +kernel
  obtain ⟨pool, hpool, hstate⟩ := Option.map_eq_some_iff.mp hexec
  simp only [Prod.mk.injEq] at hstate
  obtain ⟨hrunning, hopen, hlatch, hquiet⟩ := hstate
  have hrun : DeskRun .default (fun _ _ => True) 0 cancelledHoldRun pool :=
    ⟨Transition.meets_true _ _, hpool⟩
  have hcleared :=
    hall _ _ _ _ hrun hrunning hopen (unconfirming_of_all hrun.kept.absent hquiet)
  rw [hlatch] at hcleared
  cases hcleared

/-! ## The condition -/

/-- No task is told of a cancellation while it publishes or confirms a STOP. -/
def spareExchanges (pool : DeskPool) : DeskLabel → Prop
  | .run t _ => Confirming pool.mem t → ¬ Told pool.mem t
  | _ => True

/-- The latch of an open controller has a task that clears it. -/
def Latching (m : Memory) : Prop :=
  m.vars.desk.stopInProgress = true → m.vars.desk.closing = false → ∃ t, Confirming m t

/-- A task that stops calmly leaves the latch to the task that had it. -/
theorem Latching.of_calm {m m' : Memory} {p q : Spot} (h : Latching m)
    (hsegment : DeskSegment settings m m' p q)
    (hspared : Confirming m p.task → ¬ Told m p.task)
    (habsent : ∀ u, m.count ≤ u → m.task u = none) (hcalm : Calm q)
    (hlatch : q.mem.vars.desk.stopInProgress = true)
    (hopen : q.mem.vars.desk.closing = false) : ∃ t, Confirming m' t := by
  have hsame := hsegment.reach.sameSegment
  have hstart : q.start = m := hsame.start.trans hsegment.start
  have htask : q.task = p.task := hsame.task
  rcases hcalm hlatch hopen with ⟨hbefore, hbeforeOpen, hidle⟩ | ⟨hconfirming, htold⟩
  · rw [hstart] at hbefore hbeforeOpen hidle
    obtain ⟨u, job, w, hshape, hw⟩ := h hbefore hbeforeOpen
    refine ⟨u, job, w, ?_, hw⟩
    -- The exchange is that of another task, which still waits.
    have hu : u ≠ p.task := by
      rintro rfl
      rw [htask] at hidle
      exact hidle ⟨job, w, hshape, hw⟩
    have hlt : u < m.count := by
      by_contra hle
      rw [Mem.shape, habsent u (not_lt.mp hle)] at hshape
      cases hshape
    rw [hsegment.elsewhere.shape u hu hlt]
    exact hshape
  · rw [hstart, htask] at hconfirming htold
    exact absurd htold (hspared hconfirming)

theorem Latching.of_segment {m m' : Memory} {p q : Spot} (h : Latching m)
    (hsegment : DeskSegment settings m m' p q)
    (hspared : Confirming m p.task → ¬ Told m p.task)
    (habsent : ∀ u, m.count ≤ u → m.task u = none) (hvars : m'.vars = q.mem.vars) :
    Latching m' := by
  intro hlatch hopen
  rw [hvars] at hlatch hopen
  have hcalm : Calm q → ∃ t, Confirming m' t := fun hcalm =>
    h.of_calm hsegment hspared habsent hcalm hlatch hopen
  obtain ⟨status, hshape, hstopped⟩ := hsegment.shape_self habsent
  cases hstopped with
  | waiting w hsuspends =>
    rcases hsuspends.calm with hw | hcalmed
    · exact ⟨p.task, p.job, w, hshape, hw⟩
    · exact hcalm hcalmed
  | pausing hpauses => exact hcalm hpauses.1.calm
  | finished r hfinishes => exact hcalm hfinishes.calm

theorem Latching.quiet {m m' : Memory} (h : Latching m) (hquiet : Quiet m m') : Latching m' := by
  intro hlatch hopen
  rw [hquiet.vars] at hlatch hopen
  obtain ⟨t, job, w, hshape, hw⟩ := h hlatch hopen
  exact ⟨t, job, w, hquiet.waiting t job w hshape, hw⟩

theorem DeskRun.latching {started : Instant} {ls : List DeskLabel} {pool : DeskPool}
    (h : DeskRun settings spareExchanges started ls pool) : Latching pool.mem := by
  refine h.keeps_quiet (V := fun _ _ => True) (fun hlatch _ => by cases hlatch)
    (fun m m' hquiet hi => hi.quiet hquiet) (fun _ _ _ _ _ _ _ _ => trivial)
    (fun _ _ _ _ _ _ => trivial) ?_
  intro pool pool' p q hk hok hi _ _ _ hvars hsegment
  exact hi.of_segment hsegment hok hk.absent hvars

/-- **The latch is not left set**, in every run in which no task is told of a
cancellation while it publishes or confirms a STOP. -/
theorem latch_cleared {started : Instant} {ls : List DeskLabel} {pool : DeskPool}
    (h : DeskRun settings spareExchanges started ls pool) : LatchCleared pool.mem := by
  intro _ hopen hquiet
  rw [← Bool.not_eq_true]
  intro hlatch
  obtain ⟨t, ht⟩ := h.latching hlatch hopen
  exact hquiet t ht

/-- The condition of `latch_cleared`, computed. -/
def checkSpareExchanges (pool : DeskPool) : DeskLabel → Bool
  | .run t _ =>
      match pool.mem.task t with
      | some ⟨job, status, cancelled⟩ => !cancelled || noExchange ⟨job, status, cancelled⟩
      | none => true
  | _ => true

theorem spareExchanges_of_checked (pool : DeskPool) (l : DeskLabel)
    (_ : DeskKept settings pool) (hchecked : checkSpareExchanges pool l = true) :
    spareExchanges pool l := by
  cases l with
  | call _ => trivial
  | cancel _ => trivial
  | run t env =>
    rintro ⟨job, w, hshape, hw⟩ ⟨k, htask, htold⟩
    obtain ⟨cancelled, hk⟩ := Mem.shape_eq_some.mp hshape
    rw [htask] at hk
    cases hk
    rw [checkSpareExchanges, htask] at hchecked
    simp only at htold
    simp [noExchange, hw, htold] at hchecked

/-- `stop_motion()` is cancelled while it waits for the task of its exchange, which goes
on. -/
def cancelledStopRun : List DeskLabel :=
  bootRun ++
    [.call .holdUp, .run 2 fun _ => readingAt 2, .call (.stopMotion ""),
      .run 3 fun _ => readingAt 3, .run 4 fun _ => readingAt 3, .cancel 3,
      .run 3 fun _ => readingAt 3, .run 4 fun _ => readingAt 4, .run 3 fun _ => readingAt 4]

/-- A cancelled `stop_motion()` clears the latch. -/
theorem latch_cleared_stopMotion : ∃ pool,
    DeskRun .default spareExchanges 0 cancelledStopRun pool ∧
      pool.mem.vars.desk.running = true ∧ pool.mem.vars.desk.closing = false ∧
      LatchCleared pool.mem := by
  have hexec : (Transition.exec (step (deskSystem .default)) (deskStart .default 0)
      cancelledStopRun).map (fun pool => (pool.mem.vars.desk.running,
        pool.mem.vars.desk.closing)) = some (true, false) := by
    decide +kernel
  have hmeets : Transition.Meets (step (deskSystem .default))
      (fun pool l => checkSpareExchanges pool l = true) (deskStart .default 0)
      cancelledStopRun := by
    decide +kernel
  obtain ⟨pool, hpool, hstate⟩ := Option.map_eq_some_iff.mp hexec
  simp only [Prod.mk.injEq] at hstate
  have hrun : DeskRun .default spareExchanges 0 cancelledStopRun pool :=
    .of_checked checkSpareExchanges spareExchanges_of_checked hmeets hpool
  exact ⟨pool, hrun, hstate.1, hstate.2, latch_cleared hrun⟩

end SmartDesk.Desk
