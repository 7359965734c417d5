import SmartDesk.Lib.Contract

/-!
# Where a waiting task goes on

The pool keeps, for each task that waits, the rest of its program.  Other tasks do not touch
it, so a task that was seen to wait with some rest goes on with just that rest.

* `Prog.Awaits` — every await of a program passes a check.
* `cont_of_once` — **a task that waits for what its program awaits first** has all the rest of
  its program before it.
* `parked_of_step` — a task that does not run stays where it is.
* `GivingUp.step` — **a task that awaits another one and then raises** does nothing else.
-/

set_option linter.unusedSectionVars false

namespace Coroutine

variable {S : Signature} [DecidableEq S.Lock] {α β : Type}

/-- Every await of the program, in whatever branch, passes the check. -/
def Prog.Awaits (ok : Wait S → Prop) : Prog S α → Prop
  | .ret _ => True
  | .raise _ => True
  | .get k => ∀ s, (k s).Awaits ok
  | .set _ k => k.Awaits ok
  | .read k => ∀ r, (k r).Awaits ok
  | .self k => ∀ t, (k t).Awaits ok
  | .spawn _ k => ∀ u, (k u).Awaits ok
  | .cancel _ k => k.Awaits ok
  | .isDone _ k => ∀ b, (k b).Awaits ok
  | .release _ k => k.Awaits ok
  | .await w k => ok w ∧ ∀ r, (k r).Awaits ok
  | .again h => ∀ e, (h e).Awaits ok

namespace Prog

variable {ok : Wait S → Prop}

theorem awaits_bind {c : Prog S α} {f : α → Prog S β} (h : c.Awaits ok)
    (h' : ∀ a, (f a).Awaits ok) : (c.bind f).Awaits ok := by
  induction c with
  | ret a => exact h' a
  | raise e => exact trivial
  | get k ih => exact fun s => ih s (h s)
  | set s k ih => exact ih h
  | read k ih => exact fun r => ih r (h r)
  | self k ih => exact fun t => ih t (h t)
  | spawn j k ih => exact fun u => ih u (h u)
  | cancel u k ih => exact ih h
  | isDone u k ih => exact fun b => ih b (h b)
  | release l k ih => exact ih h
  | await w k ih => exact ⟨h.1, fun r => ih r (h.2 r)⟩
  | again k ih => exact fun e => ih e (h e)

theorem awaits_attempt {c : Prog S α} {handler : Raised S.Err → Prog S α} (h : c.Awaits ok)
    (h' : ∀ e, (handler e).Awaits ok) : (c.attempt handler).Awaits ok := by
  induction c with
  | ret a => exact trivial
  | raise e => exact h' e
  | get k ih => exact fun s => ih s (h s)
  | set s k ih => exact ih h
  | read k ih => exact fun r => ih r (h r)
  | self k ih => exact fun t => ih t (h t)
  | spawn j k ih => exact fun u => ih u (h u)
  | cancel u k ih => exact ih h
  | isDone u k ih => exact fun b => ih b (h b)
  | release l k ih => exact ih h
  | await w k ih => exact ⟨h.1, fun r => ih r (h.2 r)⟩
  | again k ih => exact fun e => ih e (h e)

theorem awaits_wait {w : Wait S} (h : ok w) : (wait w).Awaits ok := by
  refine ⟨h, fun r => ?_⟩
  cases r <;> exact trivial

theorem awaits_withLock {l : S.Lock} {next : Option S.Call} {body : Prog S α}
    (hl : ok (.lock l next)) (h : body.Awaits ok) : (withLock l next body).Awaits ok :=
  awaits_bind (awaits_wait hl) fun _ => awaits_bind (awaits_attempt h fun _ => trivial)
    fun _ => trivial

theorem Reads.awaits {c : Prog S α} (h : c.Reads) : c.Awaits ok := by
  induction c with
  | ret a => exact trivial
  | raise e => exact trivial
  | get k ih => exact fun s => ih s (h s)
  | read k ih => exact fun r => ih r (h r)
  | self k ih => exact fun t => ih t (h t)
  | isDone u k ih => exact fun b => ih b (h b)
  | set s k ih => exact h.elim
  | spawn j k ih => exact h.elim
  | cancel u k ih => exact h.elim
  | release l k ih => exact h.elim
  | await w k ih => exact h.elim
  | again k ih => exact h.elim

end Prog

/-- What the check says of a program that has stopped. -/
def Halt.Awaits (ok : Wait S → Prop) : Halt S α → Prop
  | .done _ => True
  | .waiting w k => ok w ∧ ∀ r, (k r).Awaits ok
  | .pausing h => ∀ e, (h e).Awaits ok

theorem advance_awaits {ok : Wait S → Prop} {nothing : S.Value} {t : ℕ} {c : Prog S α}
    (h : c.Awaits ok) (env : ℕ → S.Reading) (m : Mem S) :
    (c.advance nothing t env m).1.Awaits ok := by
  induction c generalizing env m with
  | ret a => exact trivial
  | raise e => exact trivial
  | get k ih => exact ih _ (h _) _ _
  | set s k ih => exact ih h _ _
  | read k ih => exact ih _ (h _) _ _
  | self k ih => exact ih _ (h _) _ _
  | spawn j k ih => exact ih _ (h _) _ _
  | cancel u k ih => exact ih h _ _
  | isDone u k ih => exact ih _ (h _) _ _
  | release l k ih => exact ih h _ _
  | await w k ih =>
    rw [Prog.advance]
    split
    · exact ih _ (h.2 _) _ _
    · exact h
  | again k ih => exact h

/-! ## A task that does not run -/

section Steps

variable {sys : System S} {G : Guarantee S} {R : ℕ → Mem S → Mem S → Prop}
  {pool pool' : Pool S} {l : Label S}

/-- The rest of its program stays. -/
theorem cont_of_step {u : ℕ} (hne : ∀ env, l ≠ .run u env) (h : step sys pool l = some pool') :
    pool'.cont u = pool.cont u := by
  have hsettle : ∀ t, u ≠ t → ∀ halt : Halt S S.Value × Mem S,
      (pool.settle t halt).cont u = pool.cont u := by
    rintro t ht ⟨_ | ⟨w, k⟩ | k, m⟩
    · rfl
    · exact Function.update_of_ne ht _ _
    · exact Function.update_of_ne ht _ _
  cases l with
  | call j =>
    simp only [step] at h
    split at h
    · cases h
      rfl
    · cases h
  | cancel t =>
    cases h
    rfl
  | run t env =>
    have ht : u ≠ t := fun heq => hne env (heq ▸ rfl)
    simp only [step] at h
    split at h
    · cases h
    · split at h
      · split at h
        · cases h
          rfl
        · cases h
          exact hsettle t ht _
      · split at h
        · cases h
          exact hsettle t ht _
        · cases h
          exact hsettle t ht _
      · split at h
        · cases h
          exact hsettle t ht _
        · cases h
      · cases h
      · cases h

/-- **A task that does not run** stays where it is, or is new. -/
theorem shape_of_step (hv : Verified sys G R) (hk : Kept sys G R pool)
    (h : step sys pool l = some pool') {u : ℕ} (hne : ∀ env, l ≠ .run u env) :
    pool'.mem.shape u = pool.mem.shape u ∨
      (pool.mem.shape u = none ∧ ∃ j, pool'.mem.shape u = some (j, .ready)) := by
  have hstepped := (stepped_of_step hv hk h).2
  generalize pool'.mem = m' at hstepped
  cases hstepped with
  | call _ =>
    rw [Mem.shape_spawn]
    split_ifs with hu
    · exact .inr ⟨by rw [Mem.shape, hk.absent u hu.ge]; rfl, _, rfl⟩
    · exact .inl rfl
  | cancel t => exact .inl ((sameButCancelled_cancel pool.mem t).shape u)
  | @drop t env job htask =>
    have hu : u ≠ t := fun heq => hne env (heq ▸ rfl)
    rw [Mem.shape_finish (Mem.shape_eq_some.mpr ⟨_, htask⟩), if_neg hu]
    exact .inl rfl
  | @run t env _ p q hsegment =>
    have hu : u ≠ t := fun heq => hne env (heq ▸ rfl)
    by_cases hlt : u < pool.mem.count
    · exact .inl (hsegment.elsewhere.shape u hu hlt)
    · have hnone := hk.absent u (not_lt.mp hlt)
      by_cases hlt' : u < m'.count
      · obtain ⟨j, hj⟩ := hsegment.elsewhere.fresh u hu (not_lt.mp hlt) hlt'
        exact .inr ⟨by rw [Mem.shape, hnone]; rfl, j, hj⟩
      · refine .inl ?_
        rw [Mem.shape, hsegment.elsewhere.absent hk.absent u (not_lt.mp hlt'), Mem.shape, hnone]

theorem parked_of_step (hv : Verified sys G R) (hk : Kept sys G R pool)
    (h : step sys pool l = some pool') {u : ℕ} (hne : ∀ env, l ≠ .run u env) {j : S.Job}
    {status : Status S} (hu : pool.mem.shape u = some (j, status)) :
    pool'.mem.shape u = some (j, status) ∧ pool'.cont u = pool.cont u := by
  refine ⟨?_, cont_of_step hne h⟩
  rcases shape_of_step hv hk h hne with hsame | ⟨hnone, _⟩
  · exact hsame.trans hu
  · rw [hnone] at hu
    cases hu

/-- A task keeps its name. -/
theorem job_of_step (hv : Verified sys G R) (hk : Kept sys G R pool)
    (h : step sys pool l = some pool') {u : ℕ} {j : S.Job} (hu : pool.mem.job u = some j) :
    pool'.mem.job u = some j := by
  have hlt : u < pool.mem.count := by
    by_contra hle
    rw [Mem.job, hk.absent u (not_lt.mp hle)] at hu
    cases hu
  have hstepped := (stepped_of_step hv hk h).2
  generalize pool'.mem = m' at hstepped
  cases hstepped with
  | call _ => exact ((Elsewhere.spawn _ 0 _).job u hlt).trans hu
  | cancel t =>
    exact (Elsewhere.job_eq_of_shape ((sameButCancelled_cancel pool.mem t).shape u)).trans hu
  | @drop t env job _ =>
    exact ((Elsewhere.alter pool.mem t (fun k => { k with status := .finished (.error .cancelled) })
      fun _ => rfl).job u hlt).trans hu
  | @run t env _ p q hsegment => exact (hsegment.elsewhere.job u hlt).trans hu

end Steps

/-! ## The first await of a program -/

section Once

variable {sys : System S} {G : Guarantee S} {R : ℕ → Mem S → Mem S → Prop} {j : S.Job}
  {w₀ : Wait S} {k₀ : Reply S → Prog S S.Value} {pool pool' : Pool S} {l : Label S}

/-- A task with the name `j` that waits for the first await of its program has the rest of it
before it; otherwise it will not wait for it again. -/
structure Once (j : S.Job) (w₀ : Wait S) (k₀ : Reply S → Prog S S.Value) (pool : Pool S)
    (t : ℕ) : Prop where
  waiting : ∀ w, pool.mem.shape t = some (j, .waiting w) →
    (w = w₀ ∧ pool.cont t = k₀) ∨ (w ≠ w₀ ∧ ∀ r, (pool.cont t r).Awaits (· ≠ w₀))
  pausing : pool.mem.shape t = some (j, .pausing) → ∀ r, (pool.cont t r).Awaits (· ≠ w₀)

theorem status_of_alter {m : Mem S} {t : ℕ} {f : Task S → Task S} {job : S.Job}
    {status status' : Status S} (hf : ∀ k, (f k).status = status)
    (h : (m.alter t f).shape t = some (job, status')) : status' = status := by
  cases hk : m.task t with
  | none =>
    rw [Mem.shape, Mem.alter, hk] at h
    simp [hk] at h
  | some k =>
    rw [Mem.shape, Mem.task_alter_self hk] at h
    cases h
    exact hf k

theorem status_finish {m : Mem S} {t : ℕ} {r : Reply S} {job : S.Job} {status : Status S}
    (h : (m.finish t r).shape t = some (job, status)) : status = .finished r :=
  status_of_alter (f := fun k => { k with status := .finished r }) (fun _ => rfl) h

theorem status_pause {m : Mem S} {t : ℕ} {job : S.Job} {status : Status S}
    (h : (m.pause t).shape t = some (job, status)) : status = .pausing :=
  status_of_alter (f := fun k => { k with status := .pausing }) (fun _ => rfl) h

theorem status_suspend {m : Mem S} {t : ℕ} {w : Wait S} {job : S.Job} {status : Status S}
    (h : (m.suspend t w).shape t = some (job, status)) : status = .waiting w := by
  have halter : (m.alter t fun k => { k with status := .waiting w }).shape t = some (job, status) := by
    cases w <;> exact h
  exact status_of_alter (f := fun k => { k with status := .waiting w }) (fun _ => rfl) halter

/-- The task after it has run up to the first await or with awaits of the rest. -/
theorem once_settle {t : ℕ} {halt : Halt S S.Value} {m : Mem S}
    (h : halt = .waiting w₀ k₀ ∨ halt.Awaits (· ≠ w₀)) : Once j w₀ k₀ (pool.settle t (halt, m)) t := by
  constructor
  · intro w hshape
    cases halt with
    | done r => cases status_finish hshape
    | pausing k => cases status_pause hshape
    | waiting w' k =>
      cases status_suspend hshape
      have hcont : (pool.settle t (.waiting w k, m)).cont t = k := Function.update_self _ _ _
      rw [hcont]
      rcases h with heq | hawaits
      · cases heq
        exact .inl ⟨rfl, rfl⟩
      · exact .inr hawaits
  · intro hshape
    cases halt with
    | done r => cases status_finish hshape
    | waiting w k => cases status_suspend hshape
    | pausing k =>
      have hawaits : ∀ e, (k e).Awaits (· ≠ w₀) := h.resolve_left (fun heq => by cases heq)
      intro r
      simp only [Pool.settle, Function.update_self]
      cases r with
      | ok v => exact trivial
      | error e => exact hawaits e

theorem once_of_step (hv : Verified sys G R) (hk : Kept sys G R pool)
    (hbody : sys.body j = .await w₀ k₀) (hrest : ∀ r, (k₀ r).Awaits (· ≠ w₀))
    (hall : ∀ t, Once j w₀ k₀ pool t) (h : step sys pool l = some pool') (t : ℕ) :
    Once j w₀ k₀ pool' t := by
  by_cases hrun : ∃ env, l = .run t env
  · obtain ⟨env, rfl⟩ := hrun
    -- A task with another name is none of the ones that the statement is about.
    by_cases hjob : pool.mem.job t = some j
    · have hbegin : ∀ m, Once j w₀ k₀ (pool.go sys t (sys.body j) env m) t := by
        intro m
        refine once_settle ?_
        rw [hbody, Prog.advance]
        split
        · exact .inr (advance_awaits (hrest _) _ _)
        · exact .inl rfl
      simp only [step] at h
      cases htask : pool.mem.task t with
      | none =>
        rw [htask] at h
        cases h
      | some k =>
        obtain ⟨job, status, cancelled⟩ := k
        obtain rfl : job = j := by
          rw [Mem.job, htask] at hjob
          exact Option.some.inj hjob
        rw [htask] at h
        cases status with
        | ready =>
          dsimp only at h
          split at h
          · cases h
            have hdone : (Halt.done (.error .cancelled) : Halt S S.Value).Awaits (· ≠ w₀) := trivial
            exact once_settle (.inr hdone)
          · cases h
            exact hbegin _
        | pausing =>
          have hshape : pool.mem.shape t = some (job, .pausing) := Mem.shape_eq_some.mpr ⟨_, htask⟩
          dsimp only at h
          split at h
          · cases h
            exact once_settle (.inr (advance_awaits ((hall t).pausing hshape _) _ _))
          · cases h
            exact hbegin _
        | waiting w =>
          have hshape : pool.mem.shape t = some (job, .waiting w) :=
            Mem.shape_eq_some.mpr ⟨_, htask⟩
          have hcont : ∀ r, (pool.cont t r).Awaits (· ≠ w₀) := by
            rcases (hall t).waiting w hshape with ⟨_, hcont⟩ | ⟨_, hcont⟩
            · rw [hcont]
              exact hrest
            · exact hcont
          dsimp only at h
          split at h
          · cases h
            exact once_settle (.inr (advance_awaits (hcont _) _ _))
          · cases h
        | running => cases h
        | finished r => cases h
    · have hother : ∀ status, pool'.mem.shape t ≠ some (j, status) := by
        intro status hshape
        cases hold : pool.mem.job t with
        | none =>
          simp only [step] at h
          cases htask : pool.mem.task t with
          | none =>
            rw [htask] at h
            cases h
          | some k =>
            rw [Mem.job, htask] at hold
            cases hold
        | some j' =>
          have hsame := job_of_step hv hk h hold
          rw [Mem.job_of_shape hshape] at hsame
          exact hjob (hold.trans hsame.symm)
      exact ⟨fun w hshape => absurd hshape (hother _), fun hshape => absurd hshape (hother _)⟩
  · have hne : ∀ env, l ≠ .run t env := fun env heq => hrun ⟨env, heq⟩
    have hcont := cont_of_step hne h
    rcases shape_of_step hv hk h hne with hsame | ⟨_, j', hready⟩
    · constructor
      · rw [hsame, hcont]
        exact (hall t).waiting
      · rw [hsame, hcont]
        exact (hall t).pausing
    · constructor
      · intro w hshape
        rw [hready] at hshape
        cases hshape
      · intro hshape
        rw [hready] at hshape
        cases hshape

/-- **In every run** a task that waits for what its program awaits first has all the rest of
its program before it. -/
theorem cont_of_once (hv : Verified sys G R) (vars : S.Vars) (hbody : sys.body j = .await w₀ k₀)
    (hrest : ∀ r, (k₀ r).Awaits (· ≠ w₀)) {ls : List (Label S)}
    (h : Transition.exec (step sys) (Pool.start sys vars) ls = some pool) {t : ℕ}
    (ht : pool.mem.shape t = some (j, .waiting w₀)) : pool.cont t = k₀ := by
  have hboth : Kept sys G R pool ∧ ∀ t, Once j w₀ k₀ pool t := by
    refine Transition.invariant (I := fun pool => Kept sys G R pool ∧ ∀ t, Once j w₀ k₀ pool t)
      ?_ ⟨kept_start vars, fun t => ⟨fun w hw => (by cases hw), fun hw => (by cases hw)⟩⟩ h
    rintro pool l pool' ⟨hk, hall⟩ hs
    exact ⟨(stepped_of_step hv hk hs).1, once_of_step hv hk hbody hrest hall hs⟩
  rcases (hboth.2 t).waiting w₀ ht with ⟨_, hcont⟩ | ⟨hne, _⟩
  · exact hcont
  · exact absurd rfl hne

end Once

/-! ## Programs that only raise -/

/-- The program can only gather `u`, release locks and raise exceptions that pass the check. -/
def Prog.GivesUp (u : ℕ) (ok : Raised S.Err → Prop) : Prog S α → Prop
  | .raise e => ok e
  | .get k => ∀ s, (k s).GivesUp u ok
  | .release _ k => k.GivesUp u ok
  | .await w k =>
      w = .gather u ∧ (∀ v, (k (.ok v)).GivesUp u ok) ∧ (k (.error .cancelled)).GivesUp u ok
  | .ret _ => False
  | .set _ _ => False
  | .read _ => False
  | .self _ => False
  | .spawn _ _ => False
  | .cancel _ _ => False
  | .isDone _ _ => False
  | .again _ => False

section GivesUp

variable {u : ℕ} {ok ok' : Raised S.Err → Prop}

theorem Prog.GivesUp.bind {c : Prog S α} (h : c.GivesUp u ok) (f : α → Prog S β) :
    (c.bind f).GivesUp u ok := by
  induction c with
  | raise e => exact h
  | get k ih => exact fun s => ih s (h s)
  | release l k ih => exact ih h
  | await w k ih => exact ⟨h.1, fun v => ih _ (h.2.1 v), ih _ h.2.2⟩
  | ret a => exact h.elim
  | set s k ih => exact h.elim
  | read k ih => exact h.elim
  | self k ih => exact h.elim
  | spawn j k ih => exact h.elim
  | cancel v k ih => exact h.elim
  | isDone v k ih => exact h.elim
  | again k ih => exact h.elim

theorem Prog.GivesUp.attempt {c : Prog S α} (h : c.GivesUp u ok)
    {handler : Raised S.Err → Prog S α} (h' : ∀ e, ok e → (handler e).GivesUp u ok') :
    (c.attempt handler).GivesUp u ok' := by
  induction c with
  | raise e => exact h' e h
  | get k ih => exact fun s => ih s (h s)
  | release l k ih => exact ih h
  | await w k ih => exact ⟨h.1, fun v => ih _ (h.2.1 v), ih _ h.2.2⟩
  | ret a => exact h.elim
  | set s k ih => exact h.elim
  | read k ih => exact h.elim
  | self k ih => exact h.elim
  | spawn j k ih => exact h.elim
  | cancel v k ih => exact h.elim
  | isDone v k ih => exact h.elim
  | again k ih => exact h.elim

theorem Prog.GivesUp.mono {c : Prog S α} (h : c.GivesUp u ok) (h' : ∀ e, ok e → ok' e) :
    c.GivesUp u ok' := by
  induction c with
  | raise e => exact h' e h
  | get k ih => exact fun s => ih s (h s)
  | release l k ih => exact ih h
  | await w k ih => exact ⟨h.1, fun v => ih _ (h.2.1 v), ih _ h.2.2⟩
  | ret a => exact h.elim
  | set s k ih => exact h.elim
  | read k ih => exact h.elim
  | self k ih => exact h.elim
  | spawn j k ih => exact h.elim
  | cancel v k ih => exact h.elim
  | isDone v k ih => exact h.elim
  | again k ih => exact h.elim

/-- Where such a program has stopped. -/
inductive Halt.GivenUp (u : ℕ) (ok : Raised S.Err → Prop) : Halt S α → Prop where
  | raised {e : Raised S.Err} (h : ok e) : GivenUp u ok (.done (.error e))
  | gathering {k : Reply S → Prog S α} (h : ∀ v, (k (.ok v)).GivesUp u ok)
      (told : (k (.error .cancelled)).GivesUp u ok) : GivenUp u ok (.waiting (.gather u) k)

/-- It changes no variable. -/
theorem advance_givesUp (nothing : S.Value) (t : ℕ) {c : Prog S α} (h : c.GivesUp u ok)
    (env : ℕ → S.Reading) (m : Mem S) :
    (c.advance nothing t env m).1.GivenUp u ok ∧ (c.advance nothing t env m).2.vars = m.vars := by
  induction c generalizing env m with
  | raise e => exact ⟨.raised h, rfl⟩
  | get k ih => exact ih _ (h _) _ _
  | release l k ih => exact ih h _ _
  | await w k ih =>
    obtain ⟨rfl, hk⟩ := h
    exact ⟨.gathering hk.1 hk.2, rfl⟩
  | ret a => exact h.elim
  | set s k ih => exact h.elim
  | read k ih => exact h.elim
  | self k ih => exact h.elim
  | spawn j k ih => exact h.elim
  | cancel v k ih => exact h.elim
  | isDone v k ih => exact h.elim
  | again k ih => exact h.elim

end GivesUp

/-! ## A task that awaits another one and then raises -/

section Giving

variable {sys : System S} {G : Guarantee S} {R : ℕ → Mem S → Mem S → Prop} {pool pool' : Pool S}
  {l : Label S} {t u : ℕ}

/-- The task `u` has ended, and was not cancelled. -/
def Answered (u : ℕ) (m : Mem S) : Prop :=
  ∃ j r, m.shape u = some (j, .finished r) ∧ r ≠ .error .cancelled

/-- The task awaits `u`, shielded, and raises; told of a cancellation it gathers `u` and raises
the cancellation.  If it has raised something else, `u` has ended. -/
inductive GivingUp (t u : ℕ) (j : S.Job) (pool : Pool S) : Prop where
  | shielded (shape : pool.mem.shape t = some (j, .waiting (.shield u)))
      (rest : ∀ r, (pool.cont t r).GivesUp u fun e => e = .cancelled ∨ r ≠ .error .cancelled)
  | gathering (shape : pool.mem.shape t = some (j, .waiting (.gather u)))
      (rest : ∀ v, (pool.cont t (.ok v)).GivesUp u fun e => e ≠ .cancelled → Answered u pool.mem)
      (told : (pool.cont t (.error .cancelled)).GivesUp u fun e =>
        e ≠ .cancelled → Answered u pool.mem)
  | ended (e : Raised S.Err) (shape : pool.mem.shape t = some (j, .finished (.error e)))
      (answered : e ≠ .cancelled → Answered u pool.mem)

theorem shape_of_outcome {m : Mem S} {r : Reply S} (h : m.outcome u = some r) :
    ∃ j, m.shape u = some (j, .finished r) := by
  cases htask : m.task u with
  | none =>
    rw [Mem.outcome, htask] at h
    cases h
  | some k => exact ⟨k.job, Mem.shape_of_outcome h (by rw [Mem.job, htask]; rfl)⟩

/-- A task that has ended stays so. -/
theorem finished_of_step (hv : Verified sys G R) (hk : Kept sys G R pool)
    (h : step sys pool l = some pool') {j : S.Job} {r : Reply S}
    (hu : pool.mem.shape u = some (j, .finished r)) :
    (∀ env, l ≠ .run u env) ∧ pool'.mem.shape u = some (j, .finished r) := by
  have hne : ∀ env, l ≠ .run u env := by
    rintro env rfl
    obtain ⟨c, htask⟩ := Mem.shape_eq_some.mp hu
    simp only [step, htask] at h
    cases h
  exact ⟨hne, (parked_of_step hv hk h hne hu).1⟩

theorem Answered.step (hv : Verified sys G R) (hk : Kept sys G R pool)
    (h : step sys pool l = some pool') (hu : Answered u pool.mem) : Answered u pool'.mem := by
  obtain ⟨j, r, hshape, hr⟩ := hu
  exact ⟨j, r, (finished_of_step hv hk h hshape).2, hr⟩

/-- The task where its program has stopped. -/
theorem givingUp_settle {j : S.Job} {m : Mem S} {halt : Halt S S.Value}
    (hjob : (pool.settle t (halt, m)).mem.job t = some j)
    (h : halt.GivenUp u fun e => e ≠ .cancelled → Answered u (pool.settle t (halt, m)).mem) :
    GivingUp t u j (pool.settle t (halt, m)) := by
  obtain ⟨status, hshape⟩ : ∃ status,
      (pool.settle t (halt, m)).mem.shape t = some (j, status) := by
    rw [Mem.job_eq_fst_shape] at hjob
    obtain ⟨⟨job, status⟩, hshape, rfl⟩ := Option.map_eq_some_iff.mp hjob
    exact ⟨status, hshape⟩
  cases h with
  | @raised e he =>
    cases status_finish hshape
    exact .ended e hshape he
  | @gathering k hk htold =>
    cases status_suspend hshape
    have hcont : (pool.settle t (.waiting (.gather u) k, m)).cont t = k := Function.update_self _ _ _
    refine .gathering hshape ?_ ?_
    · rw [hcont]
      exact hk
    · rw [hcont]
      exact htold

/-- **A task that awaits another one and then raises** does nothing else. -/
theorem GivingUp.step {j : S.Job} (hv : Verified sys G R) (hk : Kept sys G R pool)
    (h : GivingUp t u j pool) (hstep : step sys pool l = some pool') :
    GivingUp t u j pool' ∧ ∀ env, l = .run t env → pool'.mem.vars = pool.mem.vars := by
  by_cases hrun : ∃ env, l = .run t env
  · obtain ⟨env, rfl⟩ := hrun
    have hjob : pool'.mem.job t = some j := by
      refine job_of_step hv hk hstep ?_
      cases h with
      | shielded shape _ => exact Mem.job_of_shape shape
      | gathering shape _ _ => exact Mem.job_of_shape shape
      | ended e shape _ => exact Mem.job_of_shape shape
    have hgo : ∀ (c : Prog S S.Value) env' m, m.vars = pool.mem.vars →
        pool' = pool.go sys t c env' m →
        (c.GivesUp u fun e => e ≠ .cancelled → Answered u pool'.mem) →
        GivingUp t u j pool' ∧ ∀ env', Label.run t env = .run t env' →
          pool'.mem.vars = pool.mem.vars := by
      rintro c env' m hvars rfl hc
      obtain ⟨hhalt, hsame⟩ := advance_givesUp sys.nothing t hc env' m
      refine ⟨givingUp_settle hjob hhalt, fun _ _ => ?_⟩
      rw [← hvars, ← hsame, Pool.go]
      generalize c.advance sys.nothing t env' m = stopped
      obtain ⟨_ | ⟨w, k⟩ | k, m'⟩ := stopped
      · exact Mem.vars_alter _ _ _
      · exact vars_suspend _ _ _
      · exact Mem.vars_alter _ _ _
    have hwake : (pool.mem.wake t).vars = pool.mem.vars := Mem.vars_alter _ _ _
    cases h with
    | shielded shape rest =>
      obtain ⟨cancelled, htask⟩ := Mem.shape_eq_some.mp shape
      have hs := hstep
      simp only [Coroutine.step, htask, System.resume] at hs
      cases cancelled with
      | true =>
        cases hs
        exact hgo _ _ _ hwake rfl ((rest _).mono fun e he hne => absurd (he.resolve_right (by simp)) hne)
      | false =>
        cases hout : pool.mem.outcome u with
        | none =>
          rw [hout] at hs
          cases hs
        | some r =>
          rw [hout] at hs
          cases hs
          refine hgo _ _ _ hwake rfl ((rest _).mono fun e he hne => ?_)
          have hr : r ≠ .error .cancelled := he.resolve_left hne
          obtain ⟨j', hu⟩ := shape_of_outcome hout
          exact ⟨j', r, (finished_of_step hv hk hstep hu).2, hr⟩
    | gathering shape rest told =>
      obtain ⟨cancelled, htask⟩ := Mem.shape_eq_some.mp shape
      have hs := hstep
      simp only [Coroutine.step, htask, System.resume] at hs
      have hmono : ∀ e : Raised S.Err, (e ≠ .cancelled → Answered u pool.mem) →
          e ≠ .cancelled → Answered u pool'.mem := fun e he hne => (he hne).step hv hk hstep
      by_cases hdone : (pool.mem.outcome u).isSome = true
      · rw [if_pos hdone, if_pos hdone] at hs
        cases cancelled with
        | true =>
          cases hs
          exact hgo _ _ _ hwake rfl (told.mono hmono)
        | false =>
          cases hs
          exact hgo _ _ _ hwake rfl ((rest _).mono hmono)
      · rw [if_neg hdone, if_neg hdone] at hs
        cases cancelled <;> cases hs
    | ended e shape _ => exact absurd rfl ((finished_of_step hv hk hstep shape).1 env)
  · have hne : ∀ env, l ≠ .run t env := fun env heq => hrun ⟨env, heq⟩
    refine ⟨?_, fun env heq => absurd heq (hne env)⟩
    cases h with
    | shielded shape rest =>
      obtain ⟨hshape, hcont⟩ := parked_of_step hv hk hstep hne shape
      exact .shielded hshape (by rw [hcont]; exact rest)
    | gathering shape rest told =>
      obtain ⟨hshape, hcont⟩ := parked_of_step hv hk hstep hne shape
      refine .gathering hshape ?_ ?_
      · rw [hcont]
        exact fun v => (rest v).mono fun e he hne => (he hne).step hv hk hstep
      · rw [hcont]
        exact told.mono fun e he hne => (he hne).step hv hk hstep
    | ended e shape answered =>
      exact .ended e (parked_of_step hv hk hstep hne shape).1
        fun he => (answered he).step hv hk hstep

/-- **A task that has raised** something else than a cancellation has an answer. -/
theorem GivingUp.raised {j : S.Job} {r : Reply S} (h : GivingUp t u j pool)
    (hr : pool.mem.outcome t = some r) :
    ∃ e, r = .error e ∧ (e ≠ .cancelled → Answered u pool.mem) := by
  obtain ⟨j', hshape⟩ := shape_of_outcome hr
  cases h with
  | shielded shape _ =>
    rw [shape] at hshape
    cases hshape
  | gathering shape _ _ =>
    rw [shape] at hshape
    cases hshape
  | ended e shape answered =>
    rw [shape] at hshape
    cases hshape
    exact ⟨e, rfl, answered⟩

end Giving

/-! ## Programs that begin so -/

/-- The program creates a task with the name `j`, awaits it shielded and then raises. -/
def Prog.Parks (j : S.Job) (c : Prog S α) : Prop :=
  ∃ k : ℕ → Reply S → Prog S α, c = .spawn j (fun u => .await (.shield u) (k u)) ∧
    ∀ u r, (k u r).GivesUp u fun e => e = .cancelled ∨ r ≠ .error .cancelled

theorem Prog.Parks.bind {j : S.Job} {c : Prog S α} (h : c.Parks j) (f : α → Prog S β) :
    (c.bind f).Parks j := by
  obtain ⟨k, rfl, hk⟩ := h
  exact ⟨fun u r => (k u r).bind f, rfl, fun u r => (hk u r).bind f⟩

theorem Prog.Parks.attempt {j : S.Job} {c : Prog S α} (h : c.Parks j)
    {handler : Raised S.Err → Prog S α}
    (h' : ∀ u (ok : Raised S.Err → Prop) e, ok e → (handler e).GivesUp u ok) :
    (c.attempt handler).Parks j := by
  obtain ⟨k, rfl, hk⟩ := h
  exact ⟨fun u r => (k u r).attempt handler, rfl, fun u r => (hk u r).attempt (h' u _)⟩

theorem advance_parks {j : S.Job} {c : Prog S α} (h : c.Parks j) (nothing : S.Value) (t : ℕ)
    (env : ℕ → S.Reading) (m : Mem S) :
    ∃ k : Reply S → Prog S α,
      c.advance nothing t env m = (.waiting (.shield m.count) k, m.spawn j) ∧
        ∀ r, (k r).GivesUp m.count fun e => e = .cancelled ∨ r ≠ .error .cancelled := by
  obtain ⟨k, rfl, hk⟩ := h
  exact ⟨k m.count, rfl, hk _⟩

/-- With the variables `v` the program comes to a point where the rest of it passes the check,
and has left the variables `v'` there. -/
inductive Prog.Comes (P : Prog S α → Prop) : Prog S α → S.Vars → S.Vars → Prop where
  | here {c : Prog S α} {v : S.Vars} (h : P c) : Comes P c v v
  | get {k : S.Vars → Prog S α} {v v' : S.Vars} (h : Comes P (k v) v v') : Comes P (.get k) v v'
  | set {k : Prog S α} {s v v' : S.Vars} (h : Comes P k s v') : Comes P (.set s k) v v'

theorem Prog.Comes.bind {P : Prog S α → Prop} {P' : Prog S β → Prop} {c : Prog S α}
    {v v' : S.Vars} (h : c.Comes P v v') {f : α → Prog S β} (hP : ∀ c, P c → P' (c.bind f)) :
    (c.bind f).Comes P' v v' := by
  induction h with
  | here h => exact .here (hP _ h)
  | get h ih => exact .get ih
  | set h ih => exact .set ih

theorem Prog.Comes.attempt {P P' : Prog S α → Prop} {c : Prog S α} {v v' : S.Vars}
    (h : c.Comes P v v') {handler : Raised S.Err → Prog S α}
    (hP : ∀ c, P c → P' (c.attempt handler)) : (c.attempt handler).Comes P' v v' := by
  induction h with
  | here h => exact .here (hP _ h)
  | get h ih => exact .get ih
  | set h ih => exact .set ih

theorem advance_comes {P : Prog S α → Prop} {c : Prog S α} {v v' : S.Vars} (h : c.Comes P v v')
    (nothing : S.Value) (t : ℕ) (env : ℕ → S.Reading) {m : Mem S} (hm : m.vars = v) :
    ∃ c', P c' ∧ c.advance nothing t env m = c'.advance nothing t env { m with vars := v' } := by
  induction h generalizing m with
  | here h =>
    subst hm
    exact ⟨_, h, rfl⟩
  | get h ih =>
    subst hm
    exact ih rfl
  | @set k s v v' h ih => exact ih (m := { m with vars := s }) rfl

end Coroutine
