import SmartDesk.Lib.RelyGuarantee

/-!
# Contracts on top of a guarantee

A guarantee says what all tasks promise one another.  What else is to be known of single
programs can be added to it afterwards: a contract is a guarantee that a program meets
whatever the other tasks do, so nothing has to be relied on.

* `Does` — a program meets a contract; the `does_` lemmas are its rules.
* `Guarantee.and` — two guarantees in one.
* `Verified.and` — **a contract that all programs meet can be added to what was verified.**
-/

set_option linter.unusedSectionVars false

namespace Coroutine

variable {S : Signature} [DecidableEq S.Lock]

/-- Nothing is promised. -/
def Guarantee.free : Guarantee S where
  write := fun _ _ => True
  spawn := fun _ _ => True
  cancel := fun _ _ => True
  suspend := fun _ _ => True
  pause := fun _ => True
  finish := fun _ _ => True

def Guarantee.and (G G' : Guarantee S) : Guarantee S where
  write := fun p s => G.write p s ∧ G'.write p s
  spawn := fun p j => G.spawn p j ∧ G'.spawn p j
  cancel := fun p t => G.cancel p t ∧ G'.cancel p t
  suspend := fun p w => G.suspend p w ∧ G'.suspend p w
  pause := fun p => G.pause p ∧ G'.pause p
  finish := fun p r => G.finish p r ∧ G'.finish p r

/-- The contract asks nothing of the programs with this name. -/
structure Guarantee.Frees (G : Guarantee S) (j : S.Job) : Prop where
  write : ∀ p s, p.job = j → G.write p s
  spawn : ∀ p j', p.job = j → G.spawn p j'
  cancel : ∀ p t, p.job = j → G.cancel p t
  suspend : ∀ p w, p.job = j → G.suspend p w
  pause : ∀ p, p.job = j → G.pause p
  finish : ∀ p r, p.job = j → G.finish p r

/-- Nothing is relied on. -/
def noRely (_ : ℕ) (_ _ : Mem S) : Prop := True

variable (sys : System S) (G : Guarantee S)

/-- **The program meets the contract** at `p` and ends in `Q`, whatever the other tasks do. -/
def Does {α : Type} : Prog S α → Point S → (Point S → Except (Raised S.Err) α → Prop) → Prop
  | .ret a, p, Q => Q p (.ok a)
  | .raise e, p, Q => Q p (.error e)
  | .get k, p, Q => Does (k p.mem.vars) p Q
  | .set s k, p, Q => G.write p s ∧ Does k (p.setVars s) Q
  | .read k, p, Q => Does (k (p.env 0)) p.next Q
  | .self k, p, Q => Does (k p.task) p Q
  | .spawn j k, p, Q => G.spawn p j ∧ Does (k p.mem.count) (p.setMem (p.mem.spawn j)) Q
  | .cancel u k, p, Q => G.cancel p u ∧ Does k (p.setMem (p.mem.cancel u)) Q
  | .isDone u k, p, Q => Does (k (p.mem.outcome u).isSome) p Q
  | .release l k, p, Q => Does k (p.setMem (p.mem.release l)) Q
  | .await w k, p, Q =>
      (∀ m, p.mem.atOnce p.task w = some m → Does (k (.ok sys.nothing)) (p.setMem m) Q) ∧
      (p.mem.atOnce p.task w = none → G.suspend p w ∧
        ∀ p' r, Resumes sys noRely p.task p.job w (p.mem.suspend p.task w) p' r → Does (k r) p' Q)
  | .again h, p, Q => G.pause p ∧
      ∀ p', Interrupts noRely p.task p.job (p.mem.pause p.task) p' → Does (h .cancelled) p' Q

variable {sys G} {α β : Type}

theorem Does.mono {c : Prog S α} {p : Point S} {Q Q' : Point S → Except (Raised S.Err) α → Prop}
    (h : Does sys G c p Q) (hQ : ∀ p r, Q p r → Q' p r) : Does sys G c p Q' := by
  induction c generalizing p with
  | ret a => exact hQ _ _ h
  | raise e => exact hQ _ _ h
  | get k ih => exact ih _ h
  | set s k ih => exact ⟨h.1, ih h.2⟩
  | read k ih => exact ih _ h
  | self k ih => exact ih _ h
  | spawn j k ih => exact ⟨h.1, ih _ h.2⟩
  | cancel u k ih => exact ⟨h.1, ih h.2⟩
  | isDone u k ih => exact ih _ h
  | release l k ih => exact ih h
  | await w k ih =>
    exact ⟨fun m hm => ih _ (h.1 m hm),
      fun hm => ⟨(h.2 hm).1, fun p' r hr => ih r ((h.2 hm).2 p' r hr)⟩⟩
  | again k ih => exact ⟨h.1, fun p' hp' => ih _ (h.2 p' hp')⟩

theorem does_bind {c : Prog S α} {f : α → Prog S β} {p : Point S}
    {Q : Point S → Except (Raised S.Err) β → Prop} :
    Does sys G (c.bind f) p Q ↔
      Does sys G c p fun p' r =>
        match r with
        | .ok a => Does sys G (f a) p' Q
        | .error e => Q p' (.error e) := by
  induction c generalizing p with
  | ret a => exact Iff.rfl
  | raise e => exact Iff.rfl
  | get k ih => exact ih _
  | set s k ih => exact and_congr Iff.rfl ih
  | read k ih => exact ih _
  | self k ih => exact ih _
  | spawn j k ih => exact and_congr Iff.rfl (ih _)
  | cancel u k ih => exact and_congr Iff.rfl ih
  | isDone u k ih => exact ih _
  | release l k ih => exact ih
  | await w k ih =>
    refine and_congr (forall₂_congr fun m _ => ih _) (imp_congr_right fun _ => ?_)
    exact and_congr Iff.rfl (forall₃_congr fun p' r _ => ih r)
  | again k ih => exact and_congr Iff.rfl (forall₂_congr fun p' _ => ih _)

theorem does_attempt {c : Prog S α} {handler : Raised S.Err → Prog S α} {p : Point S}
    {Q : Point S → Except (Raised S.Err) α → Prop} :
    Does sys G (c.attempt handler) p Q ↔
      Does sys G c p fun p' r =>
        match r with
        | .ok a => Q p' (.ok a)
        | .error e => Does sys G (handler e) p' Q := by
  induction c generalizing p with
  | ret a => exact Iff.rfl
  | raise e => exact Iff.rfl
  | get k ih => exact ih _
  | set s k ih => exact and_congr Iff.rfl ih
  | read k ih => exact ih _
  | self k ih => exact ih _
  | spawn j k ih => exact and_congr Iff.rfl (ih _)
  | cancel u k ih => exact and_congr Iff.rfl ih
  | isDone u k ih => exact ih _
  | release l k ih => exact ih
  | await w k ih =>
    refine and_congr (forall₂_congr fun m _ => ih _) (imp_congr_right fun _ => ?_)
    exact and_congr Iff.rfl (forall₃_congr fun p' r _ => ih r)
  | again k ih => exact and_congr Iff.rfl (forall₂_congr fun p' _ => ih _)

/-- The contract asks nothing at points that `P` describes, and a program that is at such a
point stays at such points. -/
structure Guarantee.Allows (sys : System S) (G : Guarantee S) (P : Point S → Prop) : Prop where
  write : ∀ p s, P p → G.write p s
  spawn : ∀ p j, P p → G.spawn p j
  cancel : ∀ p t, P p → G.cancel p t
  suspend : ∀ p w, P p → G.suspend p w
  pause : ∀ p, P p → G.pause p
  same : ∀ p q, SameSegment p q → P p → P q
  resumes : ∀ p w m p' r, P p → Resumes sys noRely p.task p.job w m p' r → P p'
  interrupts : ∀ p m p', P p → Interrupts noRely p.task p.job m p' → P p'

/-- A program of which nothing is asked. -/
theorem does_of_allows {P : Point S → Prop} (h : G.Allows sys P) {c : Prog S α} {p : Point S}
    (hp : P p) {Q : Point S → Except (Raised S.Err) α → Prop} (hQ : ∀ p r, P p → Q p r) :
    Does sys G c p Q := by
  have hsame : ∀ {p} m, P p → P (p.setMem m) :=
    fun {p} m hp => h.same p (p.setMem m) ⟨rfl, rfl, rfl, rfl⟩ hp
  induction c generalizing p with
  | ret a => exact hQ p _ hp
  | raise e => exact hQ p _ hp
  | get k ih => exact ih _ hp
  | set s k ih => exact ⟨h.write p s hp, ih (h.same p (p.setVars s) ⟨rfl, rfl, rfl, rfl⟩ hp)⟩
  | read k ih => exact ih _ (h.same p p.next ⟨rfl, rfl, rfl, rfl⟩ hp)
  | self k ih => exact ih _ hp
  | spawn j' k ih => exact ⟨h.spawn p j' hp, ih _ (hsame _ hp)⟩
  | cancel u k ih => exact ⟨h.cancel p u hp, ih (hsame _ hp)⟩
  | isDone u k ih => exact ih _ hp
  | release l k ih => exact ih (hsame _ hp)
  | await w k ih =>
    exact ⟨fun m _ => ih _ (hsame m hp),
      fun _ => ⟨h.suspend p w hp, fun p' r hr => ih r (h.resumes p w _ p' r hp hr)⟩⟩
  | again k ih => exact ⟨h.pause p hp, fun p' hp' => ih _ (h.interrupts p _ p' hp hp')⟩

theorem Guarantee.Frees.allows {j : S.Job} (h : G.Frees j) : G.Allows sys fun p => p.job = j where
  write := h.write
  spawn := h.spawn
  cancel := h.cancel
  suspend := h.suspend
  pause := h.pause
  same := fun _ _ hsame hp => hsame.job.trans hp
  resumes := fun _ _ _ _ _ hp hr => hr.2.2.2.1.trans hp
  interrupts := fun _ _ _ hp hr => hr.2.2.2.1.trans hp

/-- The segment is not the first one of its task. -/
def Point.Resumed (p : Point S) : Prop := p.start.shape p.task ≠ some (p.job, .ready)

theorem Resumes.resumed {R : ℕ → Mem S → Mem S → Prop} {t : ℕ} {j : S.Job} {w : Wait S}
    {m : Mem S} {p : Point S} {r : Reply S} (h : Resumes sys R t j w m p r) : p.Resumed := by
  obtain ⟨_, _, rfl, rfl, cancelled, hstatus, _⟩ := h
  intro hready
  rw [Mem.shape_eq_some.mpr ⟨cancelled, hstatus⟩] at hready
  cases hready

theorem Interrupts.resumed {R : ℕ → Mem S → Mem S → Prop} {t : ℕ} {j : S.Job} {m : Mem S}
    {p : Point S} (h : Interrupts R t j m p) : p.Resumed := by
  obtain ⟨_, _, rfl, rfl, hstatus, _⟩ := h
  intro hready
  rw [Mem.shape_eq_some.mpr ⟨true, hstatus⟩] at hready
  cases hready

section Awaits

variable {p : Point S}

/-- An await that may suspend. -/
theorem does_wait {w : Wait S} {Q : Point S → Reply S → Prop}
    (hw : p.mem.atOnce p.task w = none) (hg : G.suspend p w)
    (h : ∀ p' r, Resumes sys noRely p.task p.job w (p.mem.suspend p.task w) p' r → Q p' r) :
    Does sys G (Prog.wait w) p Q := by
  refine ⟨fun m hm => ?_, fun _ => ⟨hg, ?_⟩⟩
  · rw [hw] at hm
    cases hm
  · intro p' r hr
    have hq := h p' r hr
    cases r with
    | ok v => exact hq
    | error e => exact hq

/-- A body under a lock: it starts when the lock is free or handed over, unless the wait for
it is cancelled. -/
theorem does_withLock {l : S.Lock} {next : Option S.Call} {body : Prog S α}
    {Q : Point S → Except (Raised S.Err) α → Prop}
    (hg : p.mem.atOnce p.task (.lock l next) = none → G.suspend p (.lock l next))
    (once : Does sys G body (p.setMem (p.mem.take l p.task))
      fun p' r => Q (p'.setMem (p'.mem.release l)) r)
    (later : ∀ p', Resumes sys noRely p.task p.job (.lock l next)
      (p.mem.suspend p.task (.lock l next)) p' (.ok sys.nothing) →
      Does sys G body p' fun p' r => Q (p'.setMem (p'.mem.release l)) r)
    (cancelled : ∀ p', Resumes sys noRely p.task p.job (.lock l next)
      (p.mem.suspend p.task (.lock l next)) p' (.error .cancelled) → Q p' (.error .cancelled)) :
    Does sys G (Prog.withLock l next body) p Q := by
  have hbody : ∀ p', (Does sys G body p' fun p' r => Q (p'.setMem (p'.mem.release l)) r) →
      Does sys G ((body.attempt fun e => .release l (.raise e)).bind
        fun a => .release l (.ret a)) p' Q := by
    intro p' h
    refine does_bind.mpr (does_attempt.mpr (h.mono ?_))
    intro p'' r hr
    cases r with
    | ok a => exact hr
    | error e => exact hr
  refine does_bind.mpr ⟨?_, ?_⟩
  · intro m hm
    simp only [Mem.atOnce] at hm
    by_cases hfree : p.mem.free l = true
    · rw [if_pos hfree] at hm
      cases hm
      exact hbody _ once
    · rw [if_neg hfree] at hm
      cases hm
  · intro hm
    refine ⟨hg hm, ?_⟩
    intro p' r hr
    obtain ⟨_, _, _, _, c, _, hresume⟩ := id hr
    obtain ⟨_, ⟨_, rfl⟩ | ⟨_, rfl⟩⟩ := resume_lock hresume
    · exact cancelled p' hr
    · exact hbody p' (later p' hr)

end Awaits

/-! ## Programs that only read -/

/-- The program only reads, in whatever branch. -/
def Prog.Reads : Prog S α → Prop
  | .ret _ => True
  | .raise _ => True
  | .get k => ∀ s, (k s).Reads
  | .set _ _ => False
  | .read k => ∀ r, (k r).Reads
  | .self k => ∀ t, (k t).Reads
  | .spawn _ _ => False
  | .cancel _ _ => False
  | .isDone _ k => ∀ b, (k b).Reads
  | .release _ _ => False
  | .await _ _ => False
  | .again _ => False

theorem Prog.reads_bind {c : Prog S α} {f : α → Prog S β} (h : c.Reads)
    (h' : ∀ a, (f a).Reads) : (c.bind f).Reads := by
  induction c with
  | ret a => exact h' a
  | raise e => exact trivial
  | get k ih => exact fun s => ih s (h s)
  | read k ih => exact fun r => ih r (h r)
  | self k ih => exact fun t => ih t (h t)
  | isDone u k ih => exact fun b => ih b (h b)
  | set s k ih => exact h
  | spawn j k ih => exact h
  | cancel u k ih => exact h
  | release l k ih => exact h
  | await w k ih => exact h
  | again k ih => exact h

theorem Prog.reads_attempt {c : Prog S α} {handler : Raised S.Err → Prog S α} (h : c.Reads)
    (h' : ∀ e, (handler e).Reads) : (c.attempt handler).Reads := by
  induction c with
  | ret a => exact trivial
  | raise e => exact h' e
  | get k ih => exact fun s => ih s (h s)
  | read k ih => exact fun r => ih r (h r)
  | self k ih => exact fun t => ih t (h t)
  | isDone u k ih => exact fun b => ih b (h b)
  | set s k ih => exact h
  | spawn j k ih => exact h
  | cancel u k ih => exact h
  | release l k ih => exact h
  | await w k ih => exact h
  | again k ih => exact h

/-- A program that only reads meets every contract and leaves everything as it is. -/
theorem does_of_reads {c : Prog S α} (h : c.Reads) {p : Point S}
    {Q : Point S → Except (Raised S.Err) α → Prop} (hQ : ∀ env r, Q { p with env := env } r) :
    Does sys G c p Q := by
  induction c generalizing p with
  | ret a => exact hQ p.env _
  | raise e => exact hQ p.env _
  | get k ih => exact ih _ (h _) hQ
  | read k ih => exact ih _ (h _) (p := p.next) hQ
  | self k ih => exact ih _ (h _) hQ
  | isDone u k ih => exact ih _ (h _) hQ
  | set s k ih => exact h.elim
  | spawn j k ih => exact h.elim
  | cancel u k ih => exact h.elim
  | release l k ih => exact h.elim
  | await w k ih => exact h.elim
  | again k ih => exact h.elim

/-! ## What a program can spawn -/

/-- Every task that the program creates, in whatever branch, passes the check. -/
def Prog.Spawns (ok : S.Job → Prop) : Prog S α → Prop
  | .ret _ => True
  | .raise _ => True
  | .get k => ∀ s, (k s).Spawns ok
  | .set _ k => k.Spawns ok
  | .read k => ∀ r, (k r).Spawns ok
  | .self k => ∀ t, (k t).Spawns ok
  | .spawn j k => ok j ∧ ∀ u, (k u).Spawns ok
  | .cancel _ k => k.Spawns ok
  | .isDone _ k => ∀ b, (k b).Spawns ok
  | .release _ k => k.Spawns ok
  | .await _ k => ∀ r, (k r).Spawns ok
  | .again h => ∀ e, (h e).Spawns ok

namespace Prog

variable {ok : S.Job → Prop}

theorem spawns_bind {c : Prog S α} {f : α → Prog S β} (h : c.Spawns ok)
    (h' : ∀ a, (f a).Spawns ok) : (c.bind f).Spawns ok := by
  induction c with
  | ret a => exact h' a
  | raise e => exact trivial
  | get k ih => exact fun s => ih s (h s)
  | set s k ih => exact ih h
  | read k ih => exact fun r => ih r (h r)
  | self k ih => exact fun t => ih t (h t)
  | spawn j k ih => exact ⟨h.1, fun u => ih u (h.2 u)⟩
  | cancel u k ih => exact ih h
  | isDone u k ih => exact fun b => ih b (h b)
  | release l k ih => exact ih h
  | await w k ih => exact fun r => ih r (h r)
  | again k ih => exact fun e => ih e (h e)

theorem spawns_attempt {c : Prog S α} {handler : Raised S.Err → Prog S α} (h : c.Spawns ok)
    (h' : ∀ e, (handler e).Spawns ok) : (c.attempt handler).Spawns ok := by
  induction c with
  | ret a => exact trivial
  | raise e => exact h' e
  | get k ih => exact fun s => ih s (h s)
  | set s k ih => exact ih h
  | read k ih => exact fun r => ih r (h r)
  | self k ih => exact fun t => ih t (h t)
  | spawn j k ih => exact ⟨h.1, fun u => ih u (h.2 u)⟩
  | cancel u k ih => exact ih h
  | isDone u k ih => exact fun b => ih b (h b)
  | release l k ih => exact ih h
  | await w k ih => exact fun r => ih r (h r)
  | again k ih => exact fun e => ih e (h e)

theorem spawns_wait (w : Wait S) : (wait w).Spawns ok := by
  intro r
  cases r <;> exact trivial

theorem spawns_withLock {l : S.Lock} {next : Option S.Call} {body : Prog S α}
    (h : body.Spawns ok) : (withLock l next body).Spawns ok :=
  spawns_bind (spawns_wait _) fun _ =>
    spawns_bind (spawns_attempt h fun _ => trivial) fun _ => trivial

end Prog

theorem Prog.Reads.spawns {ok : S.Job → Prop} {c : Prog S α} (h : c.Reads) : c.Spawns ok := by
  induction c with
  | ret a => exact trivial
  | raise e => exact trivial
  | get k ih => exact fun s => ih s (h s)
  | read k ih => exact fun r => ih r (h r)
  | self k ih => exact fun t => ih t (h t)
  | isDone u k ih => exact fun b => ih b (h b)
  | set s k ih => exact h.elim
  | spawn j k ih => exact h.elim
  | cancel u k ih => exact h.elim
  | release l k ih => exact h.elim
  | await w k ih => exact h.elim
  | again k ih => exact h.elim

/-- Every value that the program returns passes the check. -/
def Prog.Returns (ok : α → Prop) : Prog S α → Prop
  | .ret a => ok a
  | .raise _ => True
  | .get k => ∀ s, (k s).Returns ok
  | .set _ k => k.Returns ok
  | .read k => ∀ r, (k r).Returns ok
  | .self k => ∀ t, (k t).Returns ok
  | .spawn _ k => ∀ u, (k u).Returns ok
  | .cancel _ k => k.Returns ok
  | .isDone _ k => ∀ b, (k b).Returns ok
  | .release _ k => k.Returns ok
  | .await _ k => ∀ r, (k r).Returns ok
  | .again h => ∀ e, (h e).Returns ok

theorem Prog.returns_bind {ok : β → Prop} {f : α → Prog S β} (h : ∀ a, (f a).Returns ok)
    (c : Prog S α) : (c.bind f).Returns ok := by
  induction c with
  | ret a => exact h a
  | raise e => exact trivial
  | get k ih => exact ih
  | set s k ih => exact ih
  | read k ih => exact ih
  | self k ih => exact ih
  | spawn j k ih => exact ih
  | cancel u k ih => exact ih
  | isDone u k ih => exact ih
  | release l k ih => exact ih
  | await w k ih => exact ih
  | again k ih => exact ih

/-- Every value passes. -/
theorem Prog.returns_true (c : Prog S α) : c.Returns fun _ => True := by
  induction c with
  | ret a => exact trivial
  | raise e => exact trivial
  | get k ih => exact ih
  | set s k ih => exact ih
  | read k ih => exact ih
  | self k ih => exact ih
  | spawn j k ih => exact ih
  | cancel u k ih => exact ih
  | isDone u k ih => exact ih
  | release l k ih => exact ih
  | await w k ih => exact ih
  | again k ih => exact ih

/-- The tasks that were created since the segment began pass the check. -/
def Point.Created (ok : S.Job → Prop) (p : Point S) : Prop :=
  ∀ u j, p.start.count ≤ u → u < p.mem.count → p.mem.job u = some j → ok j

section Created

variable {ok : S.Job → Prop} {p : Point S}

/-- Nothing has been created yet. -/
theorem Point.created_of_count (h : p.mem.count = p.start.count) : p.Created ok :=
  fun _ _ hle hlt _ => absurd (h ▸ hlt) (not_lt.mpr hle)

theorem Point.Created.spawn (h : p.Created ok) {j : S.Job} (hj : ok j) :
    (p.setMem (p.mem.spawn j)).Created ok := by
  intro u j' hle hlt hjob
  have hlt' : u < p.mem.count + 1 := hlt
  by_cases hu : u = p.mem.count
  · subst hu
    have hself : (p.mem.spawn j).job p.mem.count = some j := by
      simp [Mem.spawn, Mem.setTask, Mem.job]
    obtain rfl : j = j' := Option.some.inj (hself.symm.trans hjob)
    exact hj
  · refine h u j' hle (by omega) ?_
    rw [← hjob]
    simp [Point.setMem, Mem.spawn, Mem.setTask, Mem.job, hu]

theorem Point.Created.cancel (h : p.Created ok) (t : ℕ) :
    (p.setMem (p.mem.cancel t)).Created ok := by
  have hsame := sameButCancelled_cancel p.mem t
  intro u j hle hlt hjob
  refine h u j hle (hsame.count ▸ hlt) ?_
  rw [← hjob, Mem.job_eq_fst_shape, ← hsame.shape u, ← Mem.job_eq_fst_shape]
  rfl

theorem count_resume {m m' : Mem S} {t : ℕ} {w : Wait S} {cancelled : Bool}
    {env env' : ℕ → S.Reading} {r : Reply S}
    (h : sys.resume m t w cancelled env = some (r, env', m')) : m'.count = m.count := by
  have hwake : (m.wake t).count = m.count := Mem.count_alter _ _ _
  unfold System.resume at h
  split at h
  · split at h
    · cases h
      exact hwake
    · split at h
      · cases h
        exact hwake
      · cases h
    · cases h
      exact hwake
  · split at h
    · split at h
      · cases h
        exact hwake
      · cases h
    · obtain ⟨a, _, ha⟩ := Option.map_eq_some_iff.mp h
      cases ha
      exact hwake
    · obtain ⟨a, _, ha⟩ := Option.map_eq_some_iff.mp h
      cases ha
      exact hwake
    · split at h
      · cases h
        exact hwake
      · cases h

theorem Resumes.created {R : ℕ → Mem S → Mem S → Prop} {t : ℕ} {j : S.Job} {w : Wait S}
    {m : Mem S} {r : Reply S} (h : Resumes sys R t j w m p r) : p.Created ok := by
  obtain ⟨_, _, _, _, _, _, hresume⟩ := h
  exact Point.created_of_count (count_resume hresume)

theorem Interrupts.created {R : ℕ → Mem S → Mem S → Prop} {t : ℕ} {j : S.Job} {m : Mem S}
    (h : Interrupts R t j m p) : p.Created ok := by
  obtain ⟨_, _, _, _, _, _, hmem⟩ := h
  exact Point.created_of_count (by rw [hmem]; exact Mem.count_alter _ _ _)

theorem Begins.created (h : Begins p) : p.Created ok :=
  Point.created_of_count (by rw [h.2.2]; exact Mem.count_alter _ _ _)

end Created

/-- A contract that asks nothing of a program as long as the tasks it has created pass the
check. -/
structure Guarantee.AsksSpawns (G : Guarantee S) (j : S.Job) (ok : S.Job → Prop) : Prop where
  write : ∀ p s, p.job = j → p.Created ok → G.write p s
  spawn : ∀ p j', p.job = j → p.Created ok → ok j' → G.spawn p j'
  cancel : ∀ p t, p.job = j → p.Created ok → G.cancel p t
  suspend : ∀ p w, p.job = j → p.Created ok → G.suspend p w
  pause : ∀ p, p.job = j → p.Created ok → G.pause p

theorem does_of_spawns {j : S.Job} {ok : S.Job → Prop} (h : G.AsksSpawns j ok) {c : Prog S α}
    (hc : c.Spawns ok) {P : α → Prop} (hr : c.Returns P) {p : Point S} (hp : p.job = j)
    (hcreated : p.Created ok) :
    Does sys G c p fun p' r => p'.job = j ∧ p'.Created ok ∧ ∀ a, r = .ok a → P a := by
  induction c generalizing p with
  | ret a =>
    refine ⟨hp, hcreated, fun a' ha => ?_⟩
    cases ha
    exact hr
  | raise e => exact ⟨hp, hcreated, fun _ ha => by cases ha⟩
  | get k ih => exact ih _ (hc _) (hr _) hp hcreated
  | set s k ih => exact ⟨h.write p s hp hcreated, ih hc hr (p := p.setVars s) hp hcreated⟩
  | read k ih => exact ih _ (hc _) (hr _) (p := p.next) hp hcreated
  | self k ih => exact ih _ (hc _) (hr _) hp hcreated
  | spawn j' k ih =>
    exact ⟨h.spawn p j' hp hcreated hc.1,
      ih _ (hc.2 _) (hr _) (p := p.setMem (p.mem.spawn j')) hp (hcreated.spawn hc.1)⟩
  | cancel u k ih =>
    exact ⟨h.cancel p u hp hcreated,
      ih hc hr (p := p.setMem (p.mem.cancel u)) hp (hcreated.cancel u)⟩
  | isDone u k ih => exact ih _ (hc _) (hr _) hp hcreated
  | release l k ih => exact ih hc hr (p := p.setMem (p.mem.release l)) hp hcreated
  | await w k ih =>
    refine ⟨fun m hm => ?_, fun _ => ⟨h.suspend p w hp hcreated, fun p' r hresumes => ?_⟩⟩
    · have hmem : p.Created ok → (p.setMem m).Created ok := by
        intro hold
        cases w with
        | lock l next =>
          simp only [Mem.atOnce] at hm
          split at hm
          · cases hm
            exact hold
          · cases hm
        | call c => cases hm
        | shield u => cases hm
        | gather u => cases hm
      exact ih _ (hc _) (hr _) (p := p.setMem m) hp (hmem hcreated)
    · exact ih r (hc r) (hr r) (hresumes.2.2.2.1.trans hp) hresumes.created
  | again k ih =>
    exact ⟨h.pause p hp hcreated,
      fun p' hp' => ih _ (hc _) (hr _) (hp'.2.2.2.1.trans hp) hp'.created⟩

/-! ## With what was verified -/

variable {R : ℕ → Mem S → Mem S → Prop} {G' : Guarantee S}

/-- A safe program that meets a contract is safe with the contract. -/
theorem safe_and {c : Prog S α} {p : Point S}
    {Q Q' : Point S → Except (Raised S.Err) α → Prop} (h : Safe sys G R c p Q)
    (h' : Does sys G' c p Q') :
    Safe sys (G.and G') R c p fun p r => Q p r ∧ Q' p r := by
  induction c generalizing p with
  | ret a => exact ⟨h, h'⟩
  | raise e => exact ⟨h, h'⟩
  | get k ih => exact ih _ h h'
  | set s k ih => exact ⟨⟨h.1, h'.1⟩, ih h.2 h'.2⟩
  | read k ih => exact ih _ h h'
  | self k ih => exact ih _ h h'
  | spawn j k ih => exact ⟨⟨h.1, h'.1⟩, ih _ h.2 h'.2⟩
  | cancel u k ih => exact ⟨⟨h.1, h'.1⟩, ih h.2 h'.2⟩
  | isDone u k ih => exact ih _ h h'
  | release l k ih => exact ⟨h.1, ih h.2 h'⟩
  | await w k ih =>
    refine ⟨fun m hm => ih _ (h.1 m hm) (h'.1 m hm), fun hm => ⟨⟨(h.2 hm).1, (h'.2 hm).1⟩, ?_⟩⟩
    intro p' r hr
    exact ih r ((h.2 hm).2 p' r hr) ((h'.2 hm).2 p' r ⟨trivial, hr.2⟩)
  | again k ih =>
    refine ⟨⟨h.1, h'.1⟩, fun p' hp' => ih _ (h.2 p' hp') (h'.2 p' ⟨trivial, hp'.2⟩)⟩

/-- **A contract can be added to a verified system** if all programs meet it. -/
theorem Verified.and (h : Verified sys G R)
    (hbody : ∀ p, Begins p → Does sys G' (sys.body p.job) p fun p r => G'.finish p r) :
    Verified sys (G.and G') R where
  trans := h.trans
  frame := h.frame
  write := fun ht hw => h.write ht hw.1
  body := fun p hp => safe_and (h.body p hp) (hbody p hp)

end Coroutine
