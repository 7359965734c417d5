import SmartDesk.Desk.Guarantee

/-!
# Rules for the programs of the controller

The rules of the rely-guarantee library at the controller's actions, and what a task
carries from one point of its code to the next.

* `Runs` — a program of the controller keeps the guarantee; the `runs_` lemmas are
  its rules.
* `Fit`, `Home` — what holds wherever a task runs.
* `After`, `Still` — what a later point of the same task has in common with an
  earlier one.
* `Back` — both together: the postcondition that all operations share.
-/

namespace SmartDesk.Desk

open Coroutine Code

variable {settings : DeskSettings}

/-- The program is safe at `p` and ends in `Q`. -/
abbrev Runs (settings : DeskSettings) {α : Type} (c : Code α) (p : Spot)
    (Q : Spot → Except (Raised Exc) α → Prop) : Prop :=
  Safe (deskSystem settings) (deskGuarantee settings) DeskRely c p Q

section Actions

variable {α β : Type} {p : Spot}

theorem runs_bind {c : Code α} {f : α → Code β} {Q : Spot → Except (Raised Exc) β → Prop} :
    Runs settings (c >>= f) p Q ↔
      Runs settings c p fun p' r =>
        match r with
        | .ok a => Runs settings (f a) p' Q
        | .error e => Q p' (.error e) := by
  constructor
  · intro h
    refine ((safe_bind (S := deskSignature)).mp h).mono ?_
    rintro p' (e | a) hr <;> exact hr
  · intro h
    refine (safe_bind (S := deskSignature)).mpr (Safe.mono h ?_)
    rintro p' (e | a) hr <;> exact hr

theorem runs_pure {a : α} {Q : Spot → Except (Raised Exc) α → Prop} :
    Runs settings (pure a) p Q ↔ Q p (.ok a) := Iff.rfl

theorem runs_ret {a : α} {Q : Spot → Except (Raised Exc) α → Prop} :
    Runs settings (.ret a) p Q ↔ Q p (.ok a) := Iff.rfl

theorem runs_throw {e : Exc} {Q : Spot → Except (Raised Exc) α → Prop} :
    Runs settings (throw e) p Q ↔ Q p (.error (.error e)) := Iff.rfl

theorem runs_fields {Q : Spot → Except (Raised Exc) DeskController → Prop} :
    Runs settings fields p Q ↔ Q p (.ok p.mem.vars.desk) := Iff.rfl

theorem runs_vars {Q : Spot → Except (Raised Exc) Vars → Prop} :
    Runs settings vars p Q ↔ Q p (.ok p.mem.vars) := Iff.rfl

theorem runs_self {Q : Spot → Except (Raised Exc) ℕ → Prop} :
    Runs settings (Prog.self Prog.ret) p Q ↔ Q p (.ok p.task) := Iff.rfl

theorem runs_spawn {j : Job} {Q : Spot → Except (Raised Exc) ℕ → Prop} :
    Runs settings (Prog.spawn j Prog.ret) p Q ↔
      j.isPublic = false ∧ Q (p.setMem (p.mem.spawn j)) (.ok p.mem.count) := Iff.rfl

theorem runs_height {Q : Spot → Except (Raised Exc) HeightSnapshot → Prop} :
    Runs settings height p Q ↔ Q p.next (.ok (p.env 0).height) := Iff.rfl

theorem runs_relay {Q : Spot → Except (Raised Exc) RelaySnapshot → Prop} :
    Runs settings relay p Q ↔ Q p.next (.ok (p.env 0).relay) := Iff.rfl

theorem runs_now {Q : Spot → Except (Raised Exc) Instant → Prop} :
    Runs settings now p Q ↔ Q p.next (.ok (p.env 0).now) := Iff.rfl

theorem runs_monotonic {Q : Spot → Except (Raised Exc) Ieee → Prop} :
    Runs settings monotonic p Q ↔ Q p.next (.ok (p.env 0).monotonic) := Iff.rfl

theorem runs_require {condition : Bool} {e : Exc} {Q : Spot → Except (Raised Exc) Unit → Prop} :
    Runs settings (require condition e) p Q ↔
      (condition = true → Q p (.ok ())) ∧ (condition = false → Q p (.error (.error e))) := by
  cases condition <;> simp [require, runs_throw, runs_ret]

theorem runs_assertSome {a : Option α} {Q : Spot → Except (Raised Exc) α → Prop} :
    Runs settings (assertSome a) p Q ↔
      (∀ x, a = some x → Q p (.ok x)) ∧ (a = none → Q p (.error (.error .assertionError))) := by
  cases a <;> simp [assertSome, runs_throw, runs_ret]

theorem runs_ite {condition : Prop} [Decidable condition] {c c' : Code α}
    {Q : Spot → Except (Raised Exc) α → Prop} :
    Runs settings (if condition then c else c') p Q ↔
      (condition → Runs settings c p Q) ∧ (¬ condition → Runs settings c' p Q) := by
  by_cases h : condition <;> simp [h]

theorem runs_setVars {f : Vars → Vars} {Q : Spot → Except (Raised Exc) Unit → Prop} :
    Runs settings (setVars f) p Q ↔
      Change settings p (f p.mem.vars) ∧ Q (p.setVars (f p.mem.vars)) (.ok ()) := Iff.rfl

theorem runs_modify {f : DeskController → DeskController}
    {Q : Spot → Except (Raised Exc) Unit → Prop} :
    Runs settings (modify f) p Q ↔
      Change settings p { p.mem.vars with desk := f p.mem.vars.desk } ∧
        Q (p.setVars { p.mem.vars with desk := f p.mem.vars.desk }) (.ok ()) := Iff.rfl

theorem runs_modifyNote {f : DeskController → DeskController} {event : DeskController → Event}
    {Q : Spot → Except (Raised Exc) Unit → Prop} :
    Runs settings (modifyNote f event) p Q ↔
      Change settings p
          { p.mem.vars with
            desk := f p.mem.vars.desk, trace := event p.mem.vars.desk :: p.mem.vars.trace } ∧
        Q (p.setVars
          { p.mem.vars with
            desk := f p.mem.vars.desk, trace := event p.mem.vars.desk :: p.mem.vars.trace })
          (.ok ()) := Iff.rfl

/-- The postcondition of a program whose exceptions `handler` takes. -/
def Caught (settings : DeskSettings) (handler : Exc → Code α)
    (Q : Spot → Except (Raised Exc) α → Prop) (p : Spot) : Except (Raised Exc) α → Prop
  | .ok a => Q p (.ok a)
  | .error .cancelled => Q p (.error .cancelled)
  | .error (.error e) => Runs settings (handler e) p Q

theorem runs_exceptError {c : Code α} {handler : Exc → Code α}
    {Q : Spot → Except (Raised Exc) α → Prop} :
    Runs settings (exceptError c handler) p Q ↔ Runs settings c p (Caught settings handler Q) := by
  constructor
  · intro h
    refine ((safe_attempt (S := deskSignature)).mp h).mono ?_
    rintro p' (⟨_ | e⟩ | a) hr <;> exact hr
  · intro h
    refine (safe_attempt (S := deskSignature)).mpr (Safe.mono h ?_)
    rintro p' (⟨_ | e⟩ | a) hr <;> exact hr

/-- The postcondition of a program whose rejections `handler` takes. -/
def CaughtRejected (settings : DeskSettings) (handler : String → Code α)
    (Q : Spot → Except (Raised Exc) α → Prop) (p : Spot) : Except (Raised Exc) α → Prop
  | .error (.error (.rejected text)) => Runs settings (handler text) p Q
  | r => Q p r

theorem runs_exceptRejected {c : Code α} {handler : String → Code α}
    {Q : Spot → Except (Raised Exc) α → Prop} :
    Runs settings (exceptRejected c handler) p Q ↔
      Runs settings c p (CaughtRejected settings handler Q) := by
  rw [exceptRejected, runs_exceptError]
  constructor
  · intro h
    refine Safe.mono h ?_
    rintro p' (⟨_ | e⟩ | a) hr
    · exact hr
    · cases e <;> exact hr
    · exact hr
  · intro h
    refine Safe.mono h ?_
    rintro p' (⟨_ | e⟩ | a) hr
    · exact hr
    · cases e <;> exact hr
    · exact hr

end Actions

/-! ## Points of one task -/

/-- What holds wherever a task runs; the holder of the latch has yet to clear it. -/
structure Fit (latched : Bool) (p : Spot) : Prop where
  calm : latched = false → Calm p
  latch : latched = true → Latched p ∧ (p.job ≠ .start → Cleared p)
  shut : Shut p
  manned : Manned p
  unhindered : Unhindered p
  held : Held p
  env : ∀ i, ∃ j, p.env i = p.given j

/-- What holds wherever a task runs that does not hold the latch. -/
abbrev Home : Spot → Prop := Fit false

/-- A later point of the same task. -/
structure After (p p' : Spot) : Prop where
  task : p'.task = p.task
  job : p'.job = p.job
  lock : HasLock p .intent → HasLock p' .intent
  control : Later p.mem.vars.desk.control p'.mem.vars.desk.control
  grows : ∃ new, p'.mem.vars.trace = new ++ p.mem.vars.trace

/-- A later point of the same task, with a desk at rest in between, if the task has the
intent lock. -/
structure Still (p p' : Spot) : Prop extends After p p' where
  quiet : HasLock p .intent → p.mem.vars.desk.control.mode = .none →
    p'.mem.vars.desk.control.mode = .none ∧
      ∀ new, p'.mem.vars.trace = new ++ p.mem.vars.trace → ∀ e ∈ new, e.isMotion = false

theorem After.refl (p : Spot) : After p p := ⟨rfl, rfl, id, .refl _, [], rfl⟩

theorem After.trans {p q s : Spot} (h : After p q) (h' : After q s) : After p s where
  task := h'.task.trans h.task
  job := h'.job.trans h.job
  lock := fun hl => h'.lock (h.lock hl)
  control := h.control.trans h'.control
  grows := by
    obtain ⟨new, hnew⟩ := h.grows
    obtain ⟨new', hnew'⟩ := h'.grows
    exact ⟨new' ++ new, by rw [hnew', hnew, List.append_assoc]⟩

theorem After.next {p q : Spot} (h : After p q) : After p q.next :=
  ⟨h.task, h.job, h.lock, h.control, h.grows⟩

theorem Still.refl (p : Spot) : Still p p where
  toAfter := .refl p
  quiet := by
    intro _ hmode
    refine ⟨hmode, fun new hnew e he => ?_⟩
    rw [List.self_eq_append_left.mp hnew] at he
    cases he

theorem Still.trans {p q s : Spot} (h : Still p q) (h' : Still q s) : Still p s where
  toAfter := h.toAfter.trans h'.toAfter
  quiet := by
    intro hlock hmode
    obtain ⟨hmid, hquiet⟩ := h.quiet hlock hmode
    obtain ⟨hend, hquiet'⟩ := h'.quiet (h.lock hlock) hmid
    refine ⟨hend, fun new hnew e he => ?_⟩
    obtain ⟨a, ha⟩ := h.grows
    obtain ⟨b, hb⟩ := h'.grows
    have hab : new = b ++ a := by
      rw [hb, ha, ← List.append_assoc] at hnew
      exact (List.append_cancel_right hnew).symm
    rw [hab] at he
    rcases List.mem_append.mp he with he | he
    · exact hquiet' b hb e he
    · exact hquiet a ha e he

/-- A write of the task itself leads to a later point. -/
theorem After.change {p : Spot} {v : Vars} (h : Change settings p v) : After p (p.setVars v) := by
  obtain ⟨hlater, new, htrace, _⟩ := h.grows
  exact ⟨rfl, rfl, id, hlater, new, htrace⟩

/-- So does a write that leaves the record without motions. -/
theorem Still.change {p : Spot} {v : Vars} (h : Change settings p v)
    (hquiet : p.mem.vars.desk.control.mode = .none → v.desk.control.mode = .none ∧
      ∀ new, v.trace = new ++ p.mem.vars.trace → ∀ e ∈ new, e.isMotion = false) :
    Still p (p.setVars v) :=
  { After.change h with quiet := fun _ hmode => hquiet hmode }

/-- A wait leads to a later point, with the fields as the segment finds them. -/
structure Woken (p p' : Spot) (w : Wait deskSignature) : Prop extends Still p p' where
  vars : p'.mem.vars = p'.start.vars
  waited : Waits p' w
  owner : ∀ l, HasLock p l → HasLock p' l
  shut : Shut p'
  knows : Knows p.mem p'.start

theorem woken_of_resumes {p p' : Spot} {w : Wait deskSignature} {r : Reply deskSignature}
    (h : Resumes (deskSystem settings) DeskRely p.task p.job w (p.mem.suspend p.task w) p' r) :
    Woken p p' w := by
  have hwakes := h.wakes
  obtain ⟨hrely, hknows, htask, hjob, c, hstatus, hresume⟩ := id h
  have hsuspend : DeskRely p.task p.mem (p.mem.suspend p.task w) :=
    .of_frame (vars_suspend _ _ _) fun l hl => (owner_suspend _ _ _ l).trans hl
  have hstart : DeskRely p.task p.mem p'.start := hsuspend.trans hrely
  have howner : ∀ l, HasLock p l → HasLock p' l := by
    intro l hl
    show p'.mem.owner l = some p'.task
    rw [htask]
    exact (resume_owner hresume l).1 (hstart.owner l hl)
  have hwaited : Waits p' w := by
    show p'.start.shape p'.task = some (p'.job, .waiting w)
    rw [htask, hjob]
    exact Mem.shape_eq_some.mpr ⟨_, hstatus⟩
  obtain ⟨new, htrace, hquiet⟩ := hstart.grows
  refine
    { task := htask, job := hjob, lock := howner _, control := ?_, grows := ?_, quiet := ?_
      vars := hwakes.vars, waited := hwaited, owner := howner, shut := ?_
      knows := (Elsewhere.suspend p.mem p.task w).toKnows.trans hknows }
  · rw [hwakes.vars]
    exact hstart.control
  · rw [hwakes.vars]
    exact ⟨new, htrace⟩
  · intro hlock hmode
    obtain ⟨hend, hnew⟩ := hquiet hlock hmode
    rw [hwakes.vars]
    refine ⟨hend, fun new' htrace' e he => ?_⟩
    rw [htrace] at htrace'
    rw [← List.append_cancel_right htrace'] at he
    exact hnew e he
  · intro _
    exact .inr ⟨⟨w, hwaited⟩, congrArg (·.desk.closing) hwakes.vars⟩

/-- After a wait that publishes or confirms no STOP the task is calm. -/
theorem Woken.calm {p p' : Spot} {w : Wait deskSignature} (h : Woken p p' w)
    (hw : isConfirming w = false) : Calm p' := by
  intro hlatch hclosing
  rw [h.vars] at hlatch hclosing
  refine .inl ⟨hlatch, hclosing, ?_⟩
  rintro ⟨job, w', hshape, hconfirming⟩
  rw [h.waited] at hshape
  cases hshape
  rw [hw] at hconfirming
  cases hconfirming

/-- A cancelled wait leaves the task calm in any case. -/
theorem Woken.calm_of_told {p p' : Spot} {w : Wait deskSignature} (h : Woken p p' w)
    (ht : Told p'.start p'.task) : Calm p' := by
  by_cases hw : isConfirming w = true
  · exact fun _ _ => .inr ⟨⟨_, w, h.waited, hw⟩, ht⟩
  · exact h.calm (Bool.eq_false_of_not_eq_true hw)

/-- A segment that has not written to the fields is manned as it was. -/
theorem manned_of_vars {p : Spot} (h : p.mem.vars = p.start.vars) : Manned p := by
  intro hrunning hclosing
  rw [h] at hrunning hclosing
  exact .inl ⟨hrunning, hclosing, by rw [h]⟩

/-- A task that has waited does not start. -/
theorem not_starts_of_waits {p : Spot} {w : Wait deskSignature} (h : Waits p w) : ¬ Starts p := by
  rintro (hready | hpausing)
  · rw [h] at hready
    cases hready
  · rw [h] at hpausing
    cases hpausing

theorem held_of_vars {p : Spot} (h : p.mem.vars = p.start.vars) : Held p := by
  intro hlatch
  rw [h]
  exact .inl hlatch

theorem Held.of_same {p : Spot} {v : Vars} (h : Held p)
    (hlatch : v.desk.stopInProgress = p.mem.vars.desk.stopInProgress) : Held (p.setVars v) :=
  fun hstart => (h hstart).imp_left hlatch.trans

theorem Manned.of_same {p : Spot} {v : Vars} (h : Manned p)
    (hrunning : v.desk.running = p.mem.vars.desk.running)
    (hclosing : v.desk.closing = p.mem.vars.desk.closing)
    (hrunner : v.desk.runnerTask = p.mem.vars.desk.runnerTask) : Manned (p.setVars v) := by
  intro hrun hopen
  rcases h (hrunning.symm.trans hrun) (hclosing.symm.trans hopen) with
    ⟨hbefore, hnot, hsame⟩ | ⟨u, hu, hsome, htask⟩ | hstop
  · exact .inl ⟨hbefore, hnot, hrunner.trans hsame⟩
  · exact .inr (.inl ⟨u, hu, hrunner.trans hsome, htask⟩)
  · exact .inr (.inr hstop)

theorem Woken.confirming {p p' : Spot} {w : Wait deskSignature} (h : Woken p p' w)
    (hw : isConfirming w = true) : Confirming p'.start p'.task := ⟨_, w, h.waited, hw⟩

/-- After a wait the task is fit; the holder of the latch waited in its exchange. -/
theorem Woken.fit {latched : Bool} {p p' : Spot} {w : Wait deskSignature} (h : Woken p p' w)
    (henv : ∀ i, ∃ j, p'.env i = p'.given j) (hcalm : latched = false → Calm p')
    (hw : latched = true → isConfirming w = true) : Fit latched p' where
  calm := hcalm
  latch := by
    intro hl
    have hconfirming := h.confirming (hw hl)
    refine ⟨.inl ⟨hconfirming, congrArg (·.desk) h.vars⟩, fun hjob => ?_⟩
    exact .inr ⟨hconfirming, hjob, congrArg (·.desk.startupWakePending) h.vars⟩
  shut := h.shut
  manned := manned_of_vars h.vars
  unhindered := fun _ hstarts => absurd hstarts (not_starts_of_waits h.waited)
  held := held_of_vars h.vars
  env := henv

theorem Fit.rested {p : Spot} (h : Home p) : Rested p := ⟨h.calm rfl, h.manned⟩

/-- A segment that starts the program of its task. -/
structure Fresh (p : Spot) : Prop where
  starts : Starts p
  vars : p.mem.vars = p.start.vars
  env : p.env = p.given

theorem Fresh.calm {p : Spot} (h : Fresh p) : Calm p := by
  intro hlatch hclosing
  rw [h.vars] at hlatch hclosing
  refine .inl ⟨hlatch, hclosing, ?_⟩
  rintro ⟨job, w, hshape, _⟩
  rcases h.starts with hready | hpausing
  · rw [hready] at hshape
    cases hshape
  · rw [hpausing] at hshape
    cases hshape

theorem Fresh.rested {p : Spot} (h : Fresh p) : Rested p := ⟨h.calm, manned_of_vars h.vars⟩

theorem Fresh.home {p : Spot} (h : Fresh p) (hjob : p.job ≠ .stop) (hopen : Unhindered p) :
    Home p where
  calm := fun _ => h.calm
  latch := fun hl => by cases hl
  shut := fun hstop => absurd hstop hjob
  manned := manned_of_vars h.vars
  unhindered := hopen
  held := held_of_vars h.vars
  env := fun i => ⟨i, by rw [h.env]⟩

/-- The postcondition that all operations share. -/
structure Back (p p' : Spot) : Prop where
  home : Home p'
  after : After p p'

theorem Back.refl {p : Spot} (h : Home p) : Back p p := ⟨h, .refl p⟩

theorem Back.trans {p q s : Spot} (h : Back p q) (h' : Back q s) : Back p s :=
  ⟨h'.home, h.after.trans h'.after⟩

theorem Fit.next {latched : Bool} {p : Spot} (h : Fit latched p) : Fit latched p.next where
  calm := h.calm
  latch := h.latch
  shut := h.shut
  manned := h.manned
  unhindered := h.unhindered
  held := h.held
  env := fun i => h.env (i + 1)

theorem Back.next {p q : Spot} (h : Back p q) : Back p q.next :=
  ⟨h.home.next, h.after.next⟩

/-- A write that keeps the flags keeps what the task knows. -/
theorem Fit.setVars {p : Spot} {v : Vars} (h : Home p)
    (hflags : SameFlags p.mem.vars.desk v.desk) : Home (p.setVars v) where
  calm := by
    intro hl hlatch hclosing
    exact h.calm hl (hflags.stopInProgress ▸ hlatch) (hflags.closing ▸ hclosing)
  latch := fun hl => by cases hl
  shut := by
    intro hjob
    rcases h.shut hjob with hclosing | ⟨hwait, hsame⟩
    · exact .inl (hflags.closing.trans hclosing)
    · exact .inr ⟨hwait, hflags.closing.trans hsame⟩
  manned := h.manned.of_same hflags.running hflags.closing hflags.runnerTask
  unhindered := h.unhindered
  held := h.held.of_same hflags.stopInProgress
  env := h.env

/-- So does a record that leaves the fields alone. -/
theorem Fit.setTrace {latched : Bool} {p : Spot} (h : Fit latched p) (trace : List Event) :
    Fit latched (p.setVars { p.mem.vars with trace := trace }) where
  calm := h.calm
  latch := h.latch
  shut := h.shut
  manned := h.manned
  unhindered := h.unhindered
  held := h.held
  env := h.env

/-- The tasks and the fields are the same. -/
theorem Fit.setMem {latched : Bool} {p : Spot} (h : Fit latched p) {m : Memory}
    (hvars : m.vars = p.mem.vars) (htask : m.task = p.mem.task) (hcount : m.count = p.mem.count) :
    Fit latched (p.setMem m) := by
  obtain ⟨vars, lock, task, count⟩ := m
  cases hvars
  cases htask
  cases hcount
  exact ⟨h.calm, h.latch, h.shut, h.manned, h.unhindered, h.held, h.env⟩

end SmartDesk.Desk
