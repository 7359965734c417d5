import SmartDesk.Desk.Runs

/-!
# No command for a superseded intent

`_publish_pulse` looks at the generation once more when it has the relay I/O lock;
`_begin_wake` does not.

* `CommandsCurrent` — pulses and WAKEs were sent in the generation of their intent.
* `wake_superseded` — a WAKE that waited for the lock is sent after a `stop()`.
* `commands_current` — **commands are sent for the current intent**: pulses, and all that
  a task sends which did not wait with a WAKE, in every run; all commands, if nobody
  changes the generation while a WAKE waits.
-/

namespace SmartDesk.Desk

open Coroutine

variable {settings : DeskSettings}

/-- The event is not a command for an intent of another generation. -/
def Event.isCurrent : Event → Bool
  | .pulse d view _ _ => d.control.generation == view.control.generation
  | .wake d generation _ _ => d.control.generation == generation
  | _ => true

/-- Every pulse and every WAKE was sent in the generation on whose behalf it was
issued. -/
def CommandsCurrent (trace : List Event) : Prop := ∀ e ∈ trace, e.isCurrent = true

/-! ## A WAKE that is superseded -/

/-- While the runner waits for a pulse, a hold with a STALE height waits for the relay
I/O lock with its WAKE, and so does `stop()` with its STOP; the pulse ends. -/
def supersededRun : List DeskLabel :=
  bootRun ++
    [.call .holdUp, .run 2 fun _ => readingAt 2, .run 1 fun _ => readingAt 2,
      .call .holdDown, .run 3 fun _ => staleAt 3, .call .stop, .run 4 fun _ => readingAt 3,
      .run 1 fun _ => readingAt 3, .run 3 fun _ => readingAt 4]

/-- **A WAKE can be sent for a superseded intent.** -/
theorem wake_superseded : ¬ ∀ settings started ls pool,
    DeskRun settings (fun _ _ => True) started ls pool →
      CommandsCurrent pool.mem.vars.trace := by
  intro hall
  have hexec : (Transition.exec (step (deskSystem .default)) (deskStart .default 0)
      supersededRun).map (·.mem.vars.trace.all Event.isCurrent) = some false := by
    decide +kernel
  obtain ⟨pool, hpool, hstale⟩ := Option.map_eq_some_iff.mp hexec
  have hcurrent := hall .default 0 supersededRun pool ⟨Transition.meets_true _ _, hpool⟩
  rw [List.all_eq_true.mpr hcurrent] at hstale
  cases hstale

/-! ## The condition -/

/-- The task waits for the relay I/O lock with a WAKE of the generation, and is not told
of a cancellation. -/
def WaitsWithWake (m : Memory) (u generation : ℕ) : Prop :=
  (∃ job direction basis, m.shape u =
    some (job, .waiting (.lock .relayIo (some (.wake generation direction basis))))) ∧
  ¬ Told m u

/-- While a task waits for the relay I/O lock with its WAKE, no step of another task
changes the generation. -/
def wakesUndisturbed (settings : DeskSettings) (pool : DeskPool) : DeskLabel → Prop
  | .run t env => ∀ u generation pool', u ≠ t → WaitsWithWake pool.mem u generation →
      step (deskSystem settings) pool (.run t env) = some pool' →
      pool'.mem.vars.desk.control.generation = pool.mem.vars.desk.control.generation
  | _ => True

/-- A WAKE that waits is one of the current generation. -/
def WaitingCurrent (m : Memory) : Prop :=
  ∀ u generation, WaitsWithWake m u generation → m.vars.desk.control.generation = generation

theorem WaitsWithWake.quiet {m m' : Memory} (h : Quiet m m') {u generation : ℕ}
    (hu : WaitsWithWake m' u generation) : WaitsWithWake m u generation := by
  obtain ⟨⟨job, direction, basis, hshape⟩, htold⟩ := hu
  exact ⟨⟨job, direction, basis, h.waits hshape⟩, fun ht => htold (h.told u ht)⟩

/-- A task begins to wait with the WAKE of an intent that it has just installed; the
other ones went on waiting. -/
theorem waitsWithWake_of_segment {m m' : Memory} {p q : Spot}
    (h : DeskSegment settings m m' p q) (habsent : ∀ u, m.count ≤ u → m.task u = none)
    (hvars : m'.vars = q.mem.vars) {u generation : ℕ} (hu : WaitsWithWake m' u generation) :
    m'.vars.desk.control.generation = generation ∨
      u ≠ p.task ∧ WaitsWithWake m u generation := by
  obtain ⟨⟨job, direction, basis, hshape⟩, htold⟩ := hu
  rcases h.shape_cases habsent hshape with ⟨_, _, hstopped⟩ | ⟨hne, hold | ⟨_, hready⟩⟩
  · cases hstopped with
    | waiting w hsuspends =>
      obtain ⟨_, _, _, hgeneration, _⟩ := (hsuspends.wake _ _ _ rfl).installed
      exact .inl (by rw [hvars]; exact hgeneration)
  · exact .inr ⟨hne, ⟨job, direction, basis, hold⟩,
      fun ht => htold (told_of_segment h habsent hold hne ht)⟩
  · cases hready

/-! ## Changes -/

def Event.isPulse : Event → Bool
  | .pulse _ _ _ _ => true
  | _ => false

/-- The task waited with a WAKE whose generation was past when the segment began. -/
def WaitedPast (p : Spot) : Prop :=
  ∃ generation, WaitsWithWake p.start p.task generation ∧
    p.start.vars.desk.control.generation ≠ generation

/-- **A change sends commands for the current intent**, but for a WAKE that waited while
its generation passed. -/
theorem Change.commands {q : Spot} {v : Vars} (h : Change settings q v) :
    ∃ new, v.trace = new ++ q.mem.vars.trace ∧
      ∀ e ∈ new, e.isCurrent = true ∨ e.isPulse = false ∧ WaitedPast q := by
  rcases h.records with hsame | ⟨e, htrace, he⟩
  · exact ⟨[], hsame, by simp⟩
  refine ⟨[e], htrace, fun e' he' => ?_⟩
  rw [List.mem_singleton.mp he']
  cases he with
  | pulse view direction holdMs allowed =>
    exact .inl (by simpa [Event.isCurrent] using allowed.generation)
  | wake generation direction basis current =>
    -- Either nothing was awaited since the intent was installed, or the lock was.
    rcases current with ⟨_, _, _, hgeneration, _⟩ | ⟨hlock, htold, hvars⟩
    · exact .inl (by simpa [Event.isCurrent] using hgeneration)
    · by_cases hcurrent : q.mem.vars.desk.control.generation = generation
      · exact .inl (by simpa [Event.isCurrent] using hcurrent)
      · refine .inr ⟨rfl, generation, ⟨⟨q.job, direction, basis, hlock⟩, htold⟩, ?_⟩
        rw [← hvars]
        exact hcurrent
  | _ => exact .inl rfl

/-- A change in a segment whose task did not wait with a WAKE of a past generation sends
commands for the current intent. -/
theorem Change.commandsCurrent {p q : Spot} {v : Vars} (h : Change settings q v)
    (hsame : SameSegment p q) (hpast : ¬ WaitedPast p) :
    ∃ new, v.trace = new ++ q.mem.vars.trace ∧ CommandsCurrent new := by
  obtain ⟨new, htrace, hnew⟩ := h.commands
  refine ⟨new, htrace, fun e he => (hnew e he).resolve_right ?_⟩
  rintro ⟨_, generation, hwaits, hother⟩
  rw [hsame.start, hsame.task] at hwaits
  rw [hsame.start] at hother
  exact hpast ⟨generation, hwaits, hother⟩

/-! ## Runs -/

variable {started : Instant} {ls : List DeskLabel} {pool : DeskPool}

/-- **Every pulse is sent for the current intent**, in every run. -/
theorem DeskRun.pulses_current {ok : DeskPool → DeskLabel → Prop}
    (h : DeskRun settings ok started ls pool) :
    ∀ e ∈ pool.mem.vars.trace, e.isPulse = true → e.isCurrent = true := by
  refine h.keeps_quiet
    (I := fun m => ∀ e ∈ m.vars.trace, e.isPulse = true → e.isCurrent = true)
    (V := fun _ v => ∀ e ∈ v.trace, e.isPulse = true → e.isCurrent = true) ?_ ?_ ?_ ?_ ?_
  · intro e he
    cases he
  · intro m m' hquiet hi
    rw [hquiet.vars]
    exact hi
  · intro pool pool' p _ hi hstart _ _
    rw [hstart]
    exact hi
  · intro p q v _ hi hchange e he hpulse
    obtain ⟨new, htrace, hnew⟩ := hchange.commands
    rw [htrace] at he
    rcases List.mem_append.mp he with hmem | hmem
    · refine (hnew e hmem).resolve_right ?_
      rintro ⟨hno, _⟩
      rw [hpulse] at hno
      cases hno
    · exact hi e hmem hpulse
  · intro pool pool' p q _ _ _ _ _ hi hvars _
    rw [hvars]
    exact hi

/-- A step of a task that does not wait with a WAKE of a past generation sends commands
for the current intent only. -/
theorem step_commandsCurrent {pool' : DeskPool} {t : ℕ} {env : ℕ → Reading}
    (hk : DeskKept settings pool)
    (hcurrent : ∀ generation, WaitsWithWake pool.mem t generation →
      pool.mem.vars.desk.control.generation = generation)
    (hstep : step (deskSystem settings) pool (.run t env) = some pool') :
    ∃ new, pool'.mem.vars.trace = new ++ pool.mem.vars.trace ∧ CommandsCurrent new := by
  refine events_of_step hk hstep fun p q v hstart htask _ hsame hchange => ?_
  refine hchange.commandsCurrent hsame ?_
  rintro ⟨generation, hwaits, hother⟩
  rw [hstart, htask] at hwaits
  rw [hstart] at hother
  exact hother (hcurrent generation hwaits)

/-- Where nobody changes the generation while a WAKE waits, the WAKEs that wait and the
commands that were sent are current. -/
theorem DeskRun.undisturbed (h : DeskRun settings (wakesUndisturbed settings) started ls pool) :
    WaitingCurrent pool.mem ∧ CommandsCurrent pool.mem.vars.trace := by
  refine h.keeps_quiet (I := fun m => WaitingCurrent m ∧ CommandsCurrent m.vars.trace)
    (V := fun p v => WaitingCurrent p.start ∧ CommandsCurrent v.trace) ?_ ?_ ?_ ?_ ?_
  · refine ⟨?_, fun e he => by cases he⟩
    rintro u generation ⟨⟨_, _, _, hshape⟩, _⟩
    cases hshape
  · rintro m m' hquiet ⟨hwaiting, hcurrent⟩
    rw [WaitingCurrent, hquiet.vars]
    exact ⟨fun u generation hu => hwaiting u generation (hu.quiet hquiet), hcurrent⟩
  · intro pool pool' p _ hi hstart _ _
    rw [hstart]
    exact hi
  · rintro p q v hsame ⟨hwaiting, hcurrent⟩ hchange
    refine ⟨hwaiting, ?_⟩
    obtain ⟨new, htrace, hnew⟩ := hchange.commandsCurrent hsame.toSameSegment fun hpast => by
      obtain ⟨generation, hwaits, hother⟩ := hpast
      exact hother (hwaiting _ _ hwaits)
    rw [htrace]
    exact List.forall_mem_append.mpr ⟨hnew, hcurrent⟩
  · rintro pool pool' p q hk hok ⟨hwaiting, _⟩ _ hstep ⟨_, hcurrent⟩ hvars hsegment
    refine ⟨fun u generation hu => ?_, by rw [hvars]; exact hcurrent⟩
    rcases waitsWithWake_of_segment hsegment hk.absent hvars hu with hnew | ⟨hne, hold⟩
    · exact hnew
    · rw [hok u generation pool' hne hold hstep]
      exact hwaiting u generation hold

/-- **No command is sent for a superseded intent** but by a WAKE that waited for the relay
I/O lock while its generation passed: every pulse is current in every run; so is all
that a task sends which did not wait with a WAKE; and so are all commands of a run in
which no other task changes the generation while a WAKE waits. -/
theorem commands_current (h : DeskRun settings (fun _ _ => True) started ls pool) :
    (∀ e ∈ pool.mem.vars.trace, e.isPulse = true → e.isCurrent = true) ∧
    (∀ t env pool', (∀ generation, ¬ WaitsWithWake pool.mem t generation) →
      step (deskSystem settings) pool (.run t env) = some pool' →
      ∃ new, pool'.mem.vars.trace = new ++ pool.mem.vars.trace ∧ CommandsCurrent new) ∧
    (Transition.Meets (step (deskSystem settings)) (wakesUndisturbed settings)
        (deskStart settings started) ls →
      CommandsCurrent pool.mem.vars.trace) := by
  refine ⟨h.pulses_current, fun t env pool' hno hstep => ?_, fun hmeets => ?_⟩
  · exact step_commandsCurrent h.kept (fun generation hwaits => absurd hwaits (hno generation)) hstep
  · exact (DeskRun.undisturbed ⟨hmeets, h.exec⟩).2

/-- The task does not wait with a WAKE. -/
def noWake : Task deskSignature → Bool
  | ⟨_, .waiting (.lock .relayIo (some (.wake _ _ _))), false⟩ => false
  | _ => true

/-- The condition of `commands_current`, computed. -/
def checkWakesUndisturbed (pool : DeskPool) : DeskLabel → Bool
  | .run t env =>
      ((List.range pool.mem.count).all fun u => u == t || (pool.mem.task u).all noWake) ||
        (step (deskSystem .default) pool (.run t env)).all fun pool' =>
          pool'.mem.vars.desk.control.generation == pool.mem.vars.desk.control.generation
  | _ => true

theorem wakesUndisturbed_of_checked (pool : DeskPool) (l : DeskLabel)
    (hkept : DeskKept .default pool) (hchecked : checkWakesUndisturbed pool l = true) :
    wakesUndisturbed .default pool l := by
  cases l with
  | call _ => trivial
  | cancel _ => trivial
  | run t env =>
    rintro u generation pool' hne ⟨⟨job, direction, basis, hshape⟩, htold⟩ hstep
    rw [checkWakesUndisturbed, hstep] at hchecked
    rcases Bool.or_eq_true_iff.mp hchecked with hnone | hsame
    · have hu := List.all_eq_true.mp hnone u
        (List.mem_range.mpr (lt_count_of_shape hkept.absent hshape))
      obtain ⟨cancelled, htask⟩ := Mem.shape_eq_some.mp hshape
      cases cancelled with
      | true => exact absurd ⟨_, htask, rfl⟩ htold
      | false =>
        rw [htask] at hu
        simp [noWake, hne] at hu
    · simpa using hsame

/-- While the runner waits for a pulse, a hold with a STALE height waits for the relay
I/O lock with its WAKE, which it sends when the pulse has ended. -/
def patientWakeRun : List DeskLabel :=
  bootRun ++
    [.call .holdUp, .run 2 fun _ => readingAt 2, .run 1 fun _ => readingAt 2,
      .call .holdDown, .run 3 fun _ => staleAt 3, .run 1 fun _ => readingAt 3,
      .run 3 fun _ => readingAt 4]

/-- A WAKE that waited for the lock is sent for its own intent. -/
theorem commands_current_hold : ∃ pool,
    DeskRun .default (wakesUndisturbed .default) 0 patientWakeRun pool ∧
      pool.mem.vars.trace.countP Event.isMotion = 2 ∧
      CommandsCurrent pool.mem.vars.trace := by
  have hexec : (Transition.exec (step (deskSystem .default)) (deskStart .default 0)
      patientWakeRun).map (·.mem.vars.trace.countP Event.isMotion) = some 2 := by
    decide +kernel
  have hmeets : Transition.Meets (step (deskSystem .default))
      (fun pool l => checkWakesUndisturbed pool l = true) (deskStart .default 0)
      patientWakeRun := by
    decide +kernel
  obtain ⟨pool, hpool, hsent⟩ := Option.map_eq_some_iff.mp hexec
  have hrun : DeskRun .default (wakesUndisturbed .default) 0 patientWakeRun pool :=
    .of_checked checkWakesUndisturbed wakesUndisturbed_of_checked hmeets hpool
  have hcurrent := (commands_current ⟨Transition.meets_true _ _, hpool⟩).2.2 hrun.meets
  exact ⟨pool, hrun, hsent, hcurrent⟩

end SmartDesk.Desk
