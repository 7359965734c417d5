import SmartDesk.Desk.Coherence

/-!
# Pulses are admitted

What holds of the controller at each call of `RelayClient.pulse`.  The guard of
`_publish_pulse` does not look at `_running`: it relies on the lifecycle, which ends a
`stop()` before it starts the controller again.

* `Steady` — the invariant of a run: only a running controller that is not closing has
  a motion.
* `pulse_not_admitted` — a `stop()` that is left over from before a restart.
* `pulses_admitted` — **every pulse is decided on what it needs**, in every run, and the
  controller runs, if no `start()` begins while a `stop()` is unfinished.
-/

namespace SmartDesk.Desk

open Coroutine

variable {settings : DeskSettings}

/-- A pulse of a target or of a manual motion, decided on what it needs. -/
structure PulseDecided (settings : DeskSettings) (d : DeskController) (view : CycleView)
    (direction : Direction) : Prop extends PulseGuard settings d view direction where
  moves : d.control.mode = .target ∨ d.control.mode = .manual

/-- A pulse that the controller may send. -/
structure PulseAdmitted (settings : DeskSettings) (d : DeskController) (view : CycleView)
    (direction : Direction) : Prop extends PulseDecided settings d view direction where
  running : d.running = true

/-- Every pulse of the record is one of which `P` holds. -/
def AllPulses (P : DeskController → CycleView → Direction → Prop) (trace : List Event) : Prop :=
  ∀ d view direction holdMs, .pulse d view direction holdMs ∈ trace → P d view direction

/-- All pulses of the record were admitted. -/
def PulsesAdmitted (settings : DeskSettings) (trace : List Event) : Prop :=
  AllPulses (PulseAdmitted settings) trace

/-! ## A `stop()` that is left over -/

/-- Two calls of `stop()`, of which the second ends first; the controller is started
again and holds UP, and the first `stop()` ends while the runner waits with its pulse. -/
def leftoverStopRun : List DeskLabel :=
  bootRun ++
    [.call .stop, .call .stop, .run 2 fun _ => readingAt 2, .run 3 fun _ => readingAt 2,
      .run 2 fun _ => readingAt 2, .run 3 fun _ => readingAt 2, .run 3 fun _ => readingAt 2,
      .run 1 fun _ => readingAt 2, .call .start, .run 4 fun _ => readingAt 3,
      .run 4 fun _ => readingAt 4, .call .holdUp, .run 6 fun _ => staleAt 6,
      .run 5 fun _ => readingAt 6, .run 5 fun _ => readingAt 6, .run 2 fun _ => readingAt 6,
      .run 6 fun _ => readingAt 6, .run 5 fun _ => readingAt 6]

/-- A pulse of a controller that does not run. -/
def Event.isOrphanPulse : Event → Bool
  | .pulse d _ _ _ => !d.running
  | _ => false

/-- **A pulse can be sent by a controller that does not run.** -/
theorem pulse_not_admitted : ¬ ∀ settings started ls pool,
    DeskRun settings (fun _ _ => True) started ls pool →
      PulsesAdmitted settings pool.mem.vars.trace := by
  intro hall
  have hrun : (Transition.exec (step (deskSystem .default)) (deskStart .default 0)
      leftoverStopRun).map (·.mem.vars.trace.any Event.isOrphanPulse) = some true := by
    decide +kernel
  obtain ⟨pool, hpool, hany⟩ := Option.map_eq_some_iff.mp hrun
  obtain ⟨event, hmem, horphan⟩ := List.any_eq_true.mp hany
  have hadmitted := hall .default 0 leftoverStopRun pool ⟨Transition.meets_true _ _, hpool⟩
  cases event with
  | pulse d view direction holdMs =>
    have hrunning := (hadmitted d view direction holdMs hmem).running
    simp [Event.isOrphanPulse, hrunning] at horphan
  | _ => cases horphan

/-! ## The invariant -/

/-- No `start()` begins while a `stop()` is unfinished. -/
def startsAfterStops (pool : DeskPool) : DeskLabel → Prop
  | .run t _ => pool.mem.shape t = some (.start, .ready) →
      ∀ u w, pool.mem.shape u ≠ some (.stop, .waiting w)
  | _ => True

/-- Only a controller that runs and is not closing has a motion; it is closing as long as
a `stop()` waits. -/
structure Steady (settings : DeskSettings) (m : Memory) : Prop where
  formed : Formed settings m.vars.desk.control
  moving : m.vars.desk.control.mode ≠ .none →
    m.vars.desk.running = true ∧ m.vars.desk.closing = false
  stopping : ∀ t w, m.shape t = some (.stop, .waiting w) → m.vars.desk.closing = true
  pausing : ∀ t job, m.shape t = some (job, .pausing) → job = .runner
  pulses : AllPulses (fun d _ _ => d.running = true) m.vars.trace

/-- What holds in the middle of a segment that begins in a steady state. -/
structure Unsteady (settings : DeskSettings) (start : Memory) (task : ℕ) (job : Job) (v : Vars) :
    Prop where
  before : Steady settings start
  first : start.shape task = some (.start, .ready) →
    ∀ u w, start.shape u ≠ some (.stop, .waiting w)
  formed : Formed settings v.desk.control
  moving : v.desk.control.mode ≠ .none → v.desk.running = true ∧ v.desk.closing = false
  closed : ∀ u w, start.shape u = some (.stop, .waiting w) → v.desk.closing = true
  pulses : AllPulses (fun d _ _ => d.running = true) v.trace

/-- An event that is not a pulse leaves the pulses of the record as they are. -/
theorem AllPulses.cons {P : DeskController → CycleView → Direction → Prop} {trace : List Event}
    (hpulses : AllPulses P trace) {e : Event}
    (he : ∀ d view direction holdMs, e = .pulse d view direction holdMs → P d view direction) :
    AllPulses P (e :: trace) := by
  intro d view direction holdMs hmem
  rcases List.mem_cons.mp hmem with heq | hold
  · exact he d view direction holdMs heq.symm
  · exact hpulses d view direction holdMs hold

section Changes

variable {q : Spot} {v : Vars} (h : Change settings q v)
include h

/-- **Every change keeps the control state well formed.** -/
theorem Change.formed (hformed : Formed settings q.mem.vars.desk.control) :
    Formed settings v.desk.control := by
  cases h with
  | refine _ _ keeps _ _ => exact keeps.formed hformed
  | activate _ _ _ _ keeps _ _ _ _ => exact keeps.formed hformed
  | command _ control _ _ _ => rw [control]; exact hformed
  | runner _ _ _ control _ _ _ => rw [control]; exact hformed
  | settle _ _ _ _ _ _ keeps _ _ => exact keeps.formed hformed
  | drop _ _ control _ _ => exact control.formed
  | idle _ rests _ _ _ _ => exact rests.formed hformed
  | register _ rests _ _ _ _ _ _ _ _ => exact rests.formed hformed
  | install _ _ _ _ _ _ _ _ formed _ _ _ _ _ _ => exact formed
  | beginExchange _ _ _ _ _ _ control _ _ _ _ => exact control.formed
  | confirm _ _ desk _ _ _ _ _ => rw [desk]; exact hformed
  | unlatch _ _ _ _ rests _ _ => exact rests.formed hformed
  | startBegin _ _ _ _ _ _ control _ _ => exact control.formed
  | startFail _ _ _ _ _ control _ _ _ => rw [control]; exact hformed
  | stopBegin _ _ _ _ _ control _ _ => exact control.formed
  | stopEnd _ _ _ _ _ _ rests _ _ => exact rests.formed hformed
  | pulse _ _ _ desk _ _ => rw [desk]; exact hformed
  | wake _ _ _ desk _ _ _ => rw [desk]; exact hformed
  | sendStop desk _ => rw [desk]; exact hformed

/-- **A pulse is sent where its guard holds.** -/
theorem Change.pulses {P : DeskController → CycleView → Direction → Prop}
    (hguard : ∀ view direction, PulseGuard settings q.mem.vars.desk view direction →
      P q.mem.vars.desk view direction)
    (hpulses : AllPulses P q.mem.vars.trace) : AllPulses P v.trace := by
  rcases h.records with hsame | ⟨e, htrace, he⟩
  · rw [hsame]
    exact hpulses
  rw [htrace]
  refine hpulses.cons fun d view direction holdMs heq => ?_
  subst heq
  cases he with
  | pulse _ _ _ allowed => exact hguard view direction allowed

end Changes

/-- The mode of a well-formed control state at a pulse. -/
theorem PulseGuard.decided {d : DeskController} {view : CycleView} {direction : Direction}
    (h : PulseGuard settings d view direction) (hformed : Formed settings d.control) :
    PulseDecided settings d view direction := by
  refine ⟨h, ?_⟩
  have hwake : d.control.mode ≠ .wake := by
    intro hwake
    have hawaiting := hformed.waking hwake
    rw [h.awaiting] at hawaiting
    cases hawaiting
  cases hmode : d.control.mode with
  | none => exact absurd hmode h.mode
  | wake => exact absurd hmode hwake
  | target => exact .inl rfl
  | manual => exact .inr rfl

/-- A `start` that begins has not run before. -/
theorem Steady.ready_of_starts {q : Spot} (hbefore : Steady settings q.start)
    (hjob : q.job = .start) (hstarts : Starts q) :
    q.start.shape q.task = some (.start, .ready) := by
  rcases hstarts with hready | hpausing
  · rw [← hjob]
    exact hready
  · have hrunner := hbefore.pausing _ _ hpausing
    rw [hjob] at hrunner
    cases hrunner

/-- A `stop()` that has waited finds nothing that moves. -/
theorem Unsteady.still_of_waits {q : Spot} {v : Vars}
    (h : Unsteady settings q.start q.task q.job v) (hjob : q.job = .stop)
    (hwaits : ∃ w, Waits q w) : v.desk.control.mode = .none := by
  obtain ⟨w, hw⟩ := hwaits
  have hclosed := h.closed q.task w (by rw [← hjob]; exact hw)
  by_contra hmode
  rw [(h.moving hmode).2] at hclosed
  cases hclosed

/-- Where nothing moves, the flags do not matter. -/
theorem moving_of_still {d : DeskController} (hmode : d.control.mode = .none) :
    d.control.mode ≠ .none → d.running = true ∧ d.closing = false :=
  fun hmoving => absurd hmode hmoving

/-- **A change keeps what holds in the middle of a segment.** -/
theorem Unsteady.change {q : Spot} {v : Vars}
    (h : Unsteady settings q.start q.task q.job q.mem.vars) (hchange : Change settings q v) :
    Unsteady settings q.start q.task q.job v := by
  have hformed := hchange.formed h.formed
  have hpulses := hchange.pulses (fun _ _ hguard => (h.moving hguard.mode).1) h.pulses
  -- The motion and the two flags stay.
  have hsame : v.desk.control.mode = q.mem.vars.desk.control.mode →
      v.desk.running = q.mem.vars.desk.running → v.desk.closing = q.mem.vars.desk.closing →
      Unsteady settings q.start q.task q.job v := by
    intro hmode hrunning hclosing
    refine ⟨h.before, h.first, hformed, ?_, ?_, hpulses⟩
    · rw [hmode, hrunning, hclosing]
      exact h.moving
    · intro u w hwaits
      exact hclosing.trans (h.closed u w hwaits)
  -- The motion is over, and the controller stays closed.
  have hover : v.desk.control.mode = .none →
      (∀ u w, q.start.shape u = some (.stop, .waiting w) → v.desk.closing = true) →
      Unsteady settings q.start q.task q.job v := by
    intro hmode hclosed
    exact ⟨h.before, h.first, hformed, moving_of_still hmode, hclosed, hpulses⟩
  cases hchange with
  | refine flags control _ _ _ => exact hsame control.mode flags.running flags.closing
  | activate _ _ flags control _ _ _ _ _ => exact hsame control.mode flags.running flags.closing
  | command flags control _ _ _ => exact hsame (by rw [control]) flags.running flags.closing
  | runner running closing _ control _ _ _ => exact hsame (by rw [control]) running closing
  | settle flags _ mode _ _ _ _ _ _ => exact hsame mode flags.running flags.closing
  | drop flags _ control _ _ =>
    exact hover control.mode fun u w hw => flags.closing.trans (h.closed u w hw)
  | idle flags rests _ _ _ _ => exact hsame rests.refines.mode flags.running flags.closing
  | register flags rests _ _ _ _ _ _ _ _ =>
    exact hsame rests.refines.mode flags.running flags.closing
  | install _ _ running closing _ flags _ _ _ _ _ _ _ _ _ =>
    refine ⟨h.before, h.first, hformed, fun _ => ?_, fun u w hw => ?_, hpulses⟩
    · exact ⟨flags.running.trans running, flags.closing.trans closing⟩
    · exact flags.closing.trans (h.closed u w hw)
  | beginExchange _ _ _ _ closing _ control _ _ _ _ =>
    exact hover control.mode fun u w hw => closing.trans (h.closed u w hw)
  | confirm _ _ desk _ _ _ _ _ => exact hsame (by rw [desk]) (by rw [desk]) (by rw [desk])
  | unlatch _ running closing _ rests _ _ => exact hsame rests.refines.mode running closing
  | startBegin job first _ _ _ _ control _ _ =>
    refine hover control.mode fun u w hw => ?_
    exact absurd hw (h.first (h.before.ready_of_starts job first) u w)
  | startFail _ _ _ closing _ control still _ _ =>
    refine hover (by rw [control]; exact still) fun u w hw => closing.trans (h.closed u w hw)
  | stopBegin _ closing _ _ _ control _ _ => exact hover control.mode fun _ _ _ => closing
  | stopEnd job before _ _ closing _ rests _ _ =>
    refine hover (rests.refines.mode.trans (h.still_of_waits job before)) fun u w hw => ?_
    exact closing.trans (h.closed u w hw)
  | pulse _ _ _ desk _ _ => exact hsame (by rw [desk]) (by rw [desk]) (by rw [desk])
  | wake _ _ _ desk _ _ _ => exact hsame (by rw [desk]) (by rw [desk]) (by rw [desk])
  | sendStop desk _ => exact hsame (by rw [desk]) (by rw [desk]) (by rw [desk])

/-! ## Runs -/

theorem Steady.quiet {m m' : Memory} (h : Steady settings m) (hquiet : Quiet m m') :
    Steady settings m' := by
  have hvars := hquiet.vars
  refine ⟨hvars ▸ h.formed, hvars ▸ h.moving, ?_, ?_, hvars ▸ h.pulses⟩
  · intro t w ht
    rw [hvars]
    exact h.stopping t w (hquiet.waits ht)
  · intro t job ht
    exact h.pausing t job (hquiet.pauses ht)

theorem Steady.of_segment {m m' : Memory} {p q : Spot} (hsegment : DeskSegment settings m m' p q)
    (habsent : ∀ u, m.count ≤ u → m.task u = none)
    (h : Unsteady settings p.start p.task p.job q.mem.vars) (hvars : m'.vars = q.mem.vars) :
    Steady settings m' := by
  have hstart := hsegment.start
  refine ⟨hvars ▸ h.formed, hvars ▸ h.moving, stopping_of_segment hsegment habsent hvars ?_ ?_,
    pausing_of_segment hsegment habsent ?_, hvars ▸ h.pulses⟩
  · rw [← hstart]
    exact h.before.stopping
  · rw [← hstart]
    exact h.closed
  · rw [← hstart]
    exact h.before.pausing

theorem steady_start (settings : DeskSettings) (started : Instant) :
    Steady settings (deskStart settings started).mem := by
  have hshape : ∀ t, (deskStart settings started).mem.shape t = none := fun _ => rfl
  refine ⟨formed_still _ _ _ _, moving_of_still rfl, ?_, ?_, fun _ _ _ _ hmem => ?_⟩
  · intro t w ht
    rw [hshape] at ht
    cases ht
  · intro t job ht
    rw [hshape] at ht
    cases ht
  · cases hmem

theorem DeskRun.steady {started : Instant} {ls : List DeskLabel} {pool : DeskPool}
    (h : DeskRun settings startsAfterStops started ls pool) : Steady settings pool.mem := by
  refine h.keeps_quiet (V := fun p v => Unsteady settings p.start p.task p.job v)
    (steady_start settings started) (fun m m' hquiet hc => hc.quiet hquiet) ?_ ?_ ?_
  · intro pool pool' p hok hc hstart _ _
    rw [← hstart] at hc
    refine ⟨hc, ?_, hc.formed, hc.moving, hc.stopping, hc.pulses⟩
    rw [hstart]
    exact hok
  · intro p q v hsame hmid hchange
    rw [← hsame.start, ← hsame.task, ← hsame.job] at hmid ⊢
    exact hmid.change hchange
  · intro pool pool' p q hk _ _ _ _ hmid hvars hsegment
    exact Steady.of_segment hsegment hk.absent hmid hvars

/-- In every run the control state is well formed, and pulses are decided on what they
need. -/
theorem DeskRun.decided {ok : DeskPool → DeskLabel → Prop} {started : Instant}
    {ls : List DeskLabel} {pool : DeskPool} (h : DeskRun settings ok started ls pool) :
    Formed settings pool.mem.vars.desk.control ∧
      AllPulses (PulseDecided settings) pool.mem.vars.trace := by
  refine h.keeps_quiet
    (I := fun m => Formed settings m.vars.desk.control ∧
      AllPulses (PulseDecided settings) m.vars.trace)
    (V := fun _ v => Formed settings v.desk.control ∧ AllPulses (PulseDecided settings) v.trace)
    ⟨formed_still _ _ _ _, fun _ _ _ _ hmem => by cases hmem⟩ ?_ ?_ ?_ ?_
  · intro m m' hquiet hi
    rw [hquiet.vars]
    exact hi
  · intro pool pool' p _ hi hstart _ _
    rw [hstart]
    exact hi
  · rintro p q v _ ⟨hformed, hpulses⟩ hchange
    exact ⟨hchange.formed hformed,
      hchange.pulses (fun _ _ hguard => hguard.decided hformed) hpulses⟩
  · intro pool pool' p q _ _ _ _ _ hi hvars _
    rw [hvars]
    exact hi

/-- **Every pulse is decided on what it needs**, in every run; the controller runs as well, if
no `start()` begins while a `stop()` is unfinished. -/
theorem pulses_admitted {started : Instant} {ls : List DeskLabel} {pool : DeskPool}
    (h : DeskRun settings (fun _ _ => True) started ls pool) :
    AllPulses (PulseDecided settings) pool.mem.vars.trace ∧
      (Transition.Meets (step (deskSystem settings)) startsAfterStops
          (deskStart settings started) ls →
        PulsesAdmitted settings pool.mem.vars.trace) := by
  refine ⟨h.decided.2, fun hmeets d view direction holdMs hmem => ?_⟩
  have hsteady : Steady settings pool.mem := DeskRun.steady ⟨hmeets, h.exec⟩
  exact ⟨h.decided.2 d view direction holdMs hmem, hsteady.pulses d view direction holdMs hmem⟩

/-- The task does not wait in a `stop()`. -/
def noStop : Task deskSignature → Bool
  | ⟨.stop, .waiting _, _⟩ => false
  | _ => true

/-- The condition of `pulses_admitted`, computed. -/
def checkStartsAfterStops (pool : DeskPool) : DeskLabel → Bool
  | .run t _ =>
      match pool.mem.task t with
      | some ⟨.start, .ready, _⟩ => pool.mem.all noStop
      | _ => true
  | _ => true

theorem startsAfterStops_of_checked (pool : DeskPool) (l : DeskLabel)
    (hkept : DeskKept settings pool) (hchecked : checkStartsAfterStops pool l = true) :
    startsAfterStops pool l := by
  cases l with
  | call _ => trivial
  | cancel _ => trivial
  | run t env =>
    intro hready
    obtain ⟨cancelled, htask⟩ := Mem.shape_eq_some.mp hready
    rw [checkStartsAfterStops, htask] at hchecked
    intro u w hstop
    obtain ⟨cancelled, htask⟩ := Mem.shape_eq_some.mp hstop
    have hu := Mem.of_all hchecked hkept.absent htask
    cases hu

/-- A hold and its first pulse. -/
def firstPulseRun : List DeskLabel :=
  bootRun ++ [.call .holdUp, .run 2 fun _ => readingAt 2, .run 1 fun _ => readingAt 2,
    .run 1 fun _ => readingAt 2]

/-- The hold of a started controller sends an admitted pulse. -/
theorem pulses_admitted_hold : ∃ pool,
    DeskRun .default startsAfterStops 0 firstPulseRun pool ∧
      pool.mem.vars.trace.any Event.isMotion = true ∧
      PulsesAdmitted .default pool.mem.vars.trace := by
  have hexec : (Transition.exec (step (deskSystem .default)) (deskStart .default 0)
      firstPulseRun).map (·.mem.vars.trace.any Event.isMotion) = some true := by
    decide +kernel
  have hmeets : Transition.Meets (step (deskSystem .default))
      (fun pool l => checkStartsAfterStops pool l = true) (deskStart .default 0)
      firstPulseRun := by
    decide +kernel
  obtain ⟨pool, hpool, hmoves⟩ := Option.map_eq_some_iff.mp hexec
  have hrun : DeskRun .default startsAfterStops 0 firstPulseRun pool :=
    .of_checked checkStartsAfterStops startsAfterStops_of_checked hmeets hpool
  exact ⟨pool, hrun, hmoves,
    (pulses_admitted ⟨Transition.meets_true _ _, hpool⟩).2 hrun.meets⟩

end SmartDesk.Desk
