import Mathlib.Order.Nat
import Mathlib.Data.Nat.Basic
import SmartDesk.Lib.Coroutine

/-!
# Rely and guarantee for cooperative tasks

What a program does is stated once, by a `Guarantee`: a condition on each of its
writes and on each point where it stops.  At an await a program relies on a
relation `R t` that no other task's writes break.

* `Point` — where a task stands in the segment between two awaits.
* `Safe` — every segment of a program keeps the guarantee, whatever the other
  tasks do at its awaits; `safe_bind`, `safe_attempt` are its rules.
* `Verified` — all programs of a system are safe.
* `segment_of_step` — **each step of the event loop is a segment that keeps the
  guarantee**.
* `runs_keep` — **the induction over runs**: what segments keep, runs keep.
-/

set_option linter.unusedSectionVars false

namespace Coroutine

variable {S : Signature} [DecidableEq S.Lock]

/-- A task in the middle of a segment: the memory and the readings with which the
segment began, the readings that are left, and the memory now. -/
structure Point (S : Signature) where
  task : ℕ
  job : S.Job
  start : Mem S
  given : ℕ → S.Reading
  env : ℕ → S.Reading
  mem : Mem S

def Point.setMem (p : Point S) (m : Mem S) : Point S := { p with mem := m }

def Point.setVars (p : Point S) (s : S.Vars) : Point S :=
  { p with mem := { p.mem with vars := s } }

def Point.next (p : Point S) : Point S := { p with env := fun i => p.env (i + 1) }

/-- What is promised of every segment. -/
structure Guarantee (S : Signature) where
  write : Point S → S.Vars → Prop
  spawn : Point S → S.Job → Prop
  cancel : Point S → ℕ → Prop
  suspend : Point S → Wait S → Prop
  pause : Point S → Prop
  finish : Point S → Reply S → Prop

variable (sys : System S) (G : Guarantee S) (R : ℕ → Mem S → Mem S → Prop)

/-- The tasks of `m` are there in `m'`, with the same programs. -/
structure Knows (m m' : Mem S) : Prop where
  count : m.count ≤ m'.count
  job : ∀ u, u < m.count → m'.job u = m.job u

/-- From the memory `m` the task waits for `w`; `p` and `r` are how it can go on. -/
def Resumes (t : ℕ) (job : S.Job) (w : Wait S) (m : Mem S) (p : Point S) (r : Reply S) : Prop :=
  R t m p.start ∧ Knows m p.start ∧ p.task = t ∧ p.job = job ∧
    ∃ cancelled, p.start.task t = some ⟨job, .waiting w, cancelled⟩ ∧
      sys.resume p.start t w cancelled p.given = some (r, p.env, p.mem)

/-- From the memory `m` the task pauses; `p` is how it is told of a cancellation. -/
def Interrupts (t : ℕ) (job : S.Job) (m : Mem S) (p : Point S) : Prop :=
  R t m p.start ∧ Knows m p.start ∧ p.task = t ∧ p.job = job ∧
    p.start.task t = some ⟨job, .pausing, true⟩ ∧ p.env = p.given ∧ p.mem = p.start.wake t

/-- The task starts its program, for the first time or after a pause. -/
def Begins (p : Point S) : Prop :=
  (p.start.task p.task = some ⟨p.job, .ready, false⟩ ∨
    p.start.task p.task = some ⟨p.job, .pausing, false⟩) ∧
  p.env = p.given ∧ p.mem = p.start.wake p.task

/-- **The program is safe** at `p` and ends in `Q`. -/
def Safe {α : Type} : Prog S α → Point S → (Point S → Except (Raised S.Err) α → Prop) → Prop
  | .ret a, p, Q => Q p (.ok a)
  | .raise e, p, Q => Q p (.error e)
  | .get k, p, Q => Safe (k p.mem.vars) p Q
  | .set s k, p, Q => G.write p s ∧ Safe k (p.setVars s) Q
  | .read k, p, Q => Safe (k (p.env 0)) p.next Q
  | .self k, p, Q => Safe (k p.task) p Q
  | .spawn j k, p, Q => G.spawn p j ∧ Safe (k p.mem.count) (p.setMem (p.mem.spawn j)) Q
  | .cancel u k, p, Q => G.cancel p u ∧ Safe k (p.setMem (p.mem.cancel u)) Q
  | .isDone u k, p, Q => Safe (k (p.mem.outcome u).isSome) p Q
  | .release l k, p, Q =>
      p.mem.owner l = some p.task ∧ Safe k (p.setMem (p.mem.release l)) Q
  | .await w k, p, Q =>
      (∀ m, p.mem.atOnce p.task w = some m → Safe (k (.ok sys.nothing)) (p.setMem m) Q) ∧
      (p.mem.atOnce p.task w = none → G.suspend p w ∧
        ∀ p' r, Resumes sys R p.task p.job w (p.mem.suspend p.task w) p' r → Safe (k r) p' Q)
  | .again h, p, Q => G.pause p ∧
      ∀ p', Interrupts R p.task p.job (p.mem.pause p.task) p' → Safe (h .cancelled) p' Q

/-! ## Rules -/

section Rules

variable {sys G R} {α β : Type}

theorem Safe.mono {c : Prog S α} {p : Point S} {Q Q' : Point S → Except (Raised S.Err) α → Prop}
    (h : Safe sys G R c p Q) (hQ : ∀ p r, Q p r → Q' p r) : Safe sys G R c p Q' := by
  induction c generalizing p with
  | ret a => exact hQ _ _ h
  | raise e => exact hQ _ _ h
  | get k ih => exact ih _ h
  | set s k ih => exact ⟨h.1, ih h.2⟩
  | read k ih => exact ih _ h
  | self k ih => exact ih _ h
  | spawn j k ih => exact ⟨h.1, ih _ h.2⟩
  | cancel u k ih => exact ⟨h.1, ih h.2⟩
  | isDone u k ih => exact ih _ h
  | release l k ih => exact ⟨h.1, ih h.2⟩
  | await w k ih =>
    refine ⟨fun m hm => ih _ (h.1 m hm), fun hm => ⟨(h.2 hm).1, ?_⟩⟩
    intro p' r hr
    exact ih r ((h.2 hm).2 p' r hr)
  | again k ih => exact ⟨h.1, fun p' hp' => ih _ (h.2 p' hp')⟩

/-- What the first program gives is what the second one starts with. -/
theorem safe_bind {c : Prog S α} {f : α → Prog S β} {p : Point S}
    {Q : Point S → Except (Raised S.Err) β → Prop} :
    Safe sys G R (c.bind f) p Q ↔
      Safe sys G R c p fun p' r =>
        match r with
        | .ok a => Safe sys G R (f a) p' Q
        | .error e => Q p' (.error e) := by
  induction c generalizing p with
  | ret a => exact Iff.rfl
  | raise e => exact Iff.rfl
  | get k ih => exact ih _
  | set s k ih => exact and_congr Iff.rfl ih
  | read k ih => exact ih _
  | self k ih => exact ih _
  | spawn j k ih => exact and_congr Iff.rfl (ih _)
  | cancel u k ih => exact and_congr Iff.rfl ih
  | isDone u k ih => exact ih _
  | release l k ih => exact and_congr Iff.rfl ih
  | await w k ih =>
    refine and_congr (forall₂_congr fun m _ => ih _) (imp_congr_right fun _ => ?_)
    exact and_congr Iff.rfl (forall₃_congr fun p' r _ => ih r)
  | again k ih => exact and_congr Iff.rfl (forall₂_congr fun p' _ => ih _)

/-- The handler starts where the program raised. -/
theorem safe_attempt {c : Prog S α} {handler : Raised S.Err → Prog S α} {p : Point S}
    {Q : Point S → Except (Raised S.Err) α → Prop} :
    Safe sys G R (c.attempt handler) p Q ↔
      Safe sys G R c p fun p' r =>
        match r with
        | .ok a => Q p' (.ok a)
        | .error e => Safe sys G R (handler e) p' Q := by
  induction c generalizing p with
  | ret a => exact Iff.rfl
  | raise e => exact Iff.rfl
  | get k ih => exact ih _
  | set s k ih => exact and_congr Iff.rfl ih
  | read k ih => exact ih _
  | self k ih => exact ih _
  | spawn j k ih => exact and_congr Iff.rfl (ih _)
  | cancel u k ih => exact and_congr Iff.rfl ih
  | isDone u k ih => exact ih _
  | release l k ih => exact and_congr Iff.rfl ih
  | await w k ih =>
    refine and_congr (forall₂_congr fun m _ => ih _) (imp_congr_right fun _ => ?_)
    exact and_congr Iff.rfl (forall₃_congr fun p' r _ => ih r)
  | again k ih => exact and_congr Iff.rfl (forall₂_congr fun p' _ => ih _)

/-- A program that only reads. -/
theorem safe_peek {c : Prog S α} {a : α} {rest : ℕ → S.Reading} {p : Point S}
    {Q : Point S → Except (Raised S.Err) α → Prop} (h : c.peek p.env = some (a, rest)) :
    Safe sys G R c p Q ↔ Q { p with env := rest } (.ok a) := by
  induction c generalizing p with
  | ret b =>
    cases h
    exact Iff.rfl
  | read k ih => exact ih _ (p := p.next) h
  | raise e => cases h
  | get k ih => cases h
  | set s k ih => cases h
  | self k ih => cases h
  | spawn j k ih => cases h
  | cancel u k ih => cases h
  | isDone u k ih => cases h
  | release l k ih => cases h
  | await w k ih => cases h
  | again k ih => cases h

end Rules

/-! ## What a task leaves alone -/

theorem Knows.refl (m : Mem S) : Knows m m := ⟨le_rfl, fun _ _ => rfl⟩

theorem Knows.trans {m m' m'' : Mem S} (h : Knows m m') (h' : Knows m' m'') : Knows m m'' :=
  ⟨h.count.trans h'.count,
    fun u hu => (h'.job u (lt_of_lt_of_le hu h.count)).trans (h.job u hu)⟩

/-- A step of task `t`: it takes no lock from another task, changes no other task but
by cancelling it, and creates tasks that have not started. -/
structure Elsewhere (t : ℕ) (m m' : Mem S) : Prop extends Knows m m' where
  owner : ∀ l u, u ≠ t → m.owner l = some u → m'.owner l = some u
  shape : ∀ u, u ≠ t → u < m.count → m'.shape u = m.shape u
  fresh : ∀ u, u ≠ t → m.count ≤ u → u < m'.count → ∃ j, m'.shape u = some (j, .ready)
  absent : (∀ u, m.count ≤ u → m.task u = none) → ∀ u, m'.count ≤ u → m'.task u = none
  flagged : ∀ u, u ≠ t → u < m.count → m.Flagged u → m'.Flagged u

namespace Elsewhere

variable {t : ℕ} {m m' m'' : Mem S}

theorem refl (t : ℕ) (m : Mem S) : Elsewhere t m m where
  toKnows := .refl m
  owner := fun _ _ _ h => h
  shape := fun _ _ _ => rfl
  fresh := fun _ _ hu hu' => absurd hu' (not_lt.mpr hu)
  absent := fun h => h
  flagged := fun _ _ _ h => h

theorem trans (h : Elsewhere t m m') (h' : Elsewhere t m' m'') : Elsewhere t m m'' where
  toKnows := h.toKnows.trans h'.toKnows
  owner := fun l u hu hl => h'.owner l u hu (h.owner l u hu hl)
  shape := fun u hu hlt => (h'.shape u hu (lt_of_lt_of_le hlt h.count)).trans (h.shape u hu hlt)
  fresh := by
    intro u hu hle hlt
    by_cases hmid : u < m'.count
    · obtain ⟨j, hj⟩ := h.fresh u hu hle hmid
      exact ⟨j, (h'.shape u hu hmid).trans hj⟩
    · exact h'.fresh u hu (not_lt.mp hmid) hlt
  absent := fun ha => h'.absent (h.absent ha)
  flagged := fun u hu hlt hflag =>
    h'.flagged u hu (lt_of_lt_of_le hlt h.count) (h.flagged u hu hlt hflag)

/-- The tasks and their number are the same, up to cancellations. -/
theorem of_shape (howner : ∀ l u, u ≠ t → m.owner l = some u → m'.owner l = some u)
    (hcount : m'.count = m.count) (hjob : ∀ u, m'.job u = m.job u)
    (hshape : ∀ u, u ≠ t → m'.shape u = m.shape u)
    (habsent : ∀ u, m.task u = none → m'.task u = none)
    (hflagged : ∀ u, u ≠ t → m.Flagged u → m'.Flagged u) : Elsewhere t m m' where
  count := hcount.ge
  job := fun u _ => hjob u
  owner := howner
  shape := fun u hu _ => hshape u hu
  fresh := fun u _ hle hlt => absurd hlt (by rw [hcount]; exact not_lt.mpr hle)
  absent := fun h u hu => habsent u (h u (hcount.symm.le.trans hu))
  flagged := fun u hu _ => hflagged u hu

omit [DecidableEq S.Lock] in
theorem job_eq_of_shape {u : ℕ} (h : m'.shape u = m.shape u) : m'.job u = m.job u := by
  have hfst := congrArg (Option.map Prod.fst) h
  simpa [Mem.shape, Mem.job, Function.comp_def] using hfst

theorem of_sameButCancelled (h : SameButCancelled m m') : Elsewhere t m m' := by
  refine of_shape (fun l u _ hl => (h.owner l).trans hl) h.count
    (fun u => job_eq_of_shape (h.shape u)) (fun u _ => h.shape u) ?_ (fun u _ => h.flagged u)
  intro u hu
  have hshape := h.shape u
  unfold Mem.shape at hshape
  rw [hu] at hshape
  exact Option.map_eq_none_iff.mp hshape

omit [DecidableEq S.Lock] in
theorem job_alter (m : Mem S) (t : ℕ) {f : Task S → Task S} (hf : ∀ k, (f k).job = k.job)
    (u : ℕ) : (m.alter t f).job u = m.job u := by
  by_cases h : u = t
  · subst h
    cases hk : m.task u with
    | none => simp [Mem.job, Mem.alter, hk]
    | some k => simp [Mem.job, Mem.task_alter_self hk, hk, hf k]
  · rw [Mem.job, Mem.task_alter_ne m h, Mem.job]

theorem alter (m : Mem S) (t : ℕ) (f : Task S → Task S) (hf : ∀ k, (f k).job = k.job) :
    Elsewhere t m (m.alter t f) := by
  refine of_shape (fun l u _ hl => by simpa using hl) (by simp) (job_alter m t hf) ?_ ?_ ?_
  · intro u hu
    rw [Mem.shape, Mem.task_alter_ne m hu, Mem.shape]
  · intro u hu
    by_cases h : u = t
    · subst h
      rw [Mem.alter]
      split
      · next heq => rw [hu] at heq; cases heq
      · exact hu
    · rw [Mem.task_alter_ne m h, hu]
  · rintro u hu ⟨k, hk, hflag⟩
    exact ⟨k, (Mem.task_alter_ne m hu f).trans hk, hflag⟩

/-- A lock changes hands between nobody and the task. -/
theorem setLock (m : Mem S) (t : ℕ) (l : S.Lock) (state : LockState)
    (h : ∀ u, u ≠ t → m.owner l = some u → state.owner = some u) :
    Elsewhere t m (m.setLock l state) := by
  refine of_shape ?_ rfl (fun _ => rfl) (fun _ _ => rfl) (fun _ hu => hu) (fun _ _ hu => hu)
  intro l' u hu hl
  rw [Mem.owner_setLock]
  split_ifs with heq
  · subst heq
    exact h u hu hl
  · exact hl

theorem setVars (m : Mem S) (t : ℕ) (s : S.Vars) : Elsewhere t m { m with vars := s } :=
  of_shape (fun _ _ _ h => h) rfl (fun _ => rfl) (fun _ _ => rfl) (fun _ hu => hu)
    (fun _ _ hu => hu)

theorem spawn (m : Mem S) (t : ℕ) (j : S.Job) : Elsewhere t m (m.spawn j) where
  count := Nat.le_succ _
  job := by
    intro u hlt
    simp [Mem.spawn, Mem.setTask, Mem.job, Function.update_of_ne hlt.ne]
  owner := fun _ _ _ h => h
  shape := by
    intro u _ hlt
    simp [Mem.spawn, Mem.setTask, Mem.shape, Function.update_of_ne hlt.ne]
  fresh := by
    intro u _ hle hlt
    have hu : u = m.count := le_antisymm (Nat.lt_succ_iff.mp hlt) hle
    subst hu
    exact ⟨j, by simp [Mem.spawn, Mem.setTask, Mem.shape]⟩
  absent := by
    intro h u hu
    have hne : u ≠ m.count := fun heq => absurd (heq ▸ hu) (Nat.not_succ_le_self _)
    have hle : m.count ≤ u := (Nat.le_succ _).trans hu
    simp [Mem.spawn, Mem.setTask, Function.update_of_ne hne, h u hle]
  flagged := by
    rintro u _ hlt ⟨k, hk, hflag⟩
    exact ⟨k, by simpa [Mem.spawn, Mem.setTask, Function.update_of_ne hlt.ne] using hk, hflag⟩

theorem take {l : S.Lock} (h : m.owner l = none) (t : ℕ) : Elsewhere t m (m.take l t) :=
  setLock m t l _ fun u _ hu => by rw [h] at hu; cases hu

theorem release {l : S.Lock} (h : m.owner l = some t) : Elsewhere t m (m.release l) := by
  refine setLock m t l _ fun u hne hu => absurd ?_ hne
  rw [h] at hu
  exact (Option.some.inj hu).symm

theorem enqueue (m : Mem S) (l : S.Lock) (t : ℕ) : Elsewhere t m (m.enqueue l t) :=
  setLock m t l _ fun _ _ hu => hu

theorem dequeue (m : Mem S) (l : S.Lock) (t : ℕ) : Elsewhere t m (m.dequeue l t) :=
  setLock m t l _ fun _ _ hu => hu

theorem suspend (m : Mem S) (t : ℕ) (w : Wait S) : Elsewhere t m (m.suspend t w) := by
  have halter := alter m t (fun k => { k with status := .waiting w }) fun _ => rfl
  cases w with
  | lock l next => exact halter.trans (enqueue _ l t)
  | call c => exact halter
  | shield u => exact halter
  | gather u => exact halter

end Elsewhere

/-- The locks that the task has itself are kept as well. -/
theorem owner_suspend (m : Mem S) (t : ℕ) (w : Wait S) (l : S.Lock) :
    (m.suspend t w).owner l = m.owner l := by
  cases w with
  | lock l' next =>
    exact (Mem.owner_setQueue _ l' l _).trans (Mem.owner_alter _ _ _ _)
  | call c => exact Mem.owner_alter _ _ _ _
  | shield u => exact Mem.owner_alter _ _ _ _
  | gather u => exact Mem.owner_alter _ _ _ _

@[simp] theorem vars_suspend (m : Mem S) (t : ℕ) (w : Wait S) :
    (m.suspend t w).vars = m.vars := by
  cases w with
  | lock l next => exact Mem.vars_alter _ _ _
  | call c => exact Mem.vars_alter _ _ _
  | shield u => exact Mem.vars_alter _ _ _
  | gather u => exact Mem.vars_alter _ _ _

/-! ## Segments -/

/-- One action of a task in the middle of a segment: the memory after it. -/
inductive Micro (G : Guarantee S) (p : Point S) : Mem S → Prop where
  | write (s : S.Vars) (h : G.write p s) : Micro G p { p.mem with vars := s }
  | spawn (j : S.Job) (h : G.spawn p j) : Micro G p (p.mem.spawn j)
  | cancel (u : ℕ) (h : G.cancel p u) : Micro G p (p.mem.cancel u)
  | take (l : S.Lock) (h : p.mem.owner l = none) : Micro G p (p.mem.take l p.task)
  | release (l : S.Lock) (h : p.mem.owner l = some p.task) : Micro G p (p.mem.release l)

/-- Points of one segment, one reached from the other. -/
inductive Reach (G : Guarantee S) (p : Point S) : Point S → Prop where
  | refl : Reach G p p
  | read {q : Point S} (h : Reach G p q) : Reach G p q.next
  | micro {q : Point S} {m : Mem S} (h : Reach G p q) (hm : Micro G q m) :
      Reach G p (q.setMem m)

variable {sys G R}

theorem Micro.elsewhere {p : Point S} {m : Mem S} (h : Micro G p m) :
    Elsewhere p.task p.mem m := by
  cases h with
  | write s h => exact Elsewhere.setVars _ _ s
  | spawn j h => exact Elsewhere.spawn _ _ j
  | cancel u h => exact Elsewhere.of_sameButCancelled (sameButCancelled_cancel _ _)
  | take l h => exact Elsewhere.take h _
  | release l h => exact Elsewhere.release h

/-- The task itself stays where it is. -/
theorem Micro.shape_self {p : Point S} {m : Mem S} (h : Micro G p m)
    (hlt : p.task < p.mem.count) : m.shape p.task = p.mem.shape p.task := by
  cases h with
  | write s h => rfl
  | spawn j h => simp [Mem.spawn, Mem.setTask, Mem.shape, Function.update_of_ne hlt.ne]
  | cancel u h => exact (sameButCancelled_cancel _ _).shape _
  | take l h => rfl
  | release l h => rfl

/-- What does not change within a segment. -/
structure SameSegment (p q : Point S) : Prop where
  task : q.task = p.task
  job : q.job = p.job
  start : q.start = p.start
  given : q.given = p.given

theorem Reach.sameSegment {p q : Point S} (h : Reach G p q) : SameSegment p q := by
  induction h with
  | refl => exact ⟨rfl, rfl, rfl, rfl⟩
  | read h ih => exact ⟨ih.task, ih.job, ih.start, ih.given⟩
  | micro h hm ih => exact ⟨ih.task, ih.job, ih.start, ih.given⟩

theorem Reach.elsewhere {p q : Point S} (h : Reach G p q) : Elsewhere p.task p.mem q.mem := by
  induction h with
  | refl => exact .refl _ _
  | read h ih => exact ih
  | micro h hm ih =>
    refine ih.trans ?_
    rw [← h.sameSegment.task]
    exact hm.elsewhere

theorem Reach.shape_self {p q : Point S} (h : Reach G p q) (hlt : p.task < p.mem.count) :
    q.mem.shape p.task = p.mem.shape p.task := by
  induction h with
  | refl => rfl
  | read h ih => exact ih
  | @micro q m h hm ih =>
    have htask := h.sameSegment.task
    have hq : q.task < q.mem.count := by
      rw [htask]
      exact lt_of_lt_of_le hlt h.elsewhere.count
    rw [← ih, ← htask]
    exact hm.shape_self hq

/-- A point where a program of the segment stops, with what its guarantee says. -/
def Stops (sys : System S) (G : Guarantee S) (R : ℕ → Mem S → Mem S → Prop) {α : Type}
    (Q : Point S → Except (Raised S.Err) α → Prop) (q : Point S) : Halt S α → Prop
  | .done r => Q q r
  | .waiting w k => G.suspend q w ∧
      ∀ p r, Resumes sys R q.task q.job w (q.mem.suspend q.task w) p r → Safe sys G R (k r) p Q
  | .pausing h => G.pause q ∧
      ∀ p, Interrupts R q.task q.job (q.mem.pause q.task) p → Safe sys G R (h .cancelled) p Q

/-- The lock of an await that does not suspend had no owner. -/
theorem micro_of_atOnce {p : Point S} {w : Wait S} {m : Mem S}
    (h : p.mem.atOnce p.task w = some m) : Micro G p m := by
  cases w with
  | lock l next =>
    simp only [Mem.atOnce] at h
    by_cases hfree : p.mem.free l = true
    · rw [if_pos hfree] at h
      cases h
      simp only [Mem.free, Bool.and_eq_true, Option.isNone_iff_eq_none] at hfree
      exact .take l hfree.1
    · rw [if_neg hfree] at h
      cases h
  | call c => cases h
  | shield u => cases h
  | gather u => cases h

/-- **Running a safe program** leads to a point of its segment where it stops. -/
theorem advance_safe {α : Type} {Q : Point S → Except (Raised S.Err) α → Prop} {p₀ : Point S}
    (c : Prog S α) : ∀ {p : Point S}, Safe sys G R c p Q → Reach G p₀ p →
      ∃ q, Reach G p₀ q ∧ (c.advance sys.nothing p.task p.env p.mem).2 = q.mem ∧
        Stops sys G R Q q (c.advance sys.nothing p.task p.env p.mem).1 := by
  induction c with
  | ret a => exact fun {p} h hr => ⟨p, hr, rfl, h⟩
  | raise e => exact fun {p} h hr => ⟨p, hr, rfl, h⟩
  | get k ih => exact fun {p} h hr => ih _ h hr
  | set s k ih => exact fun {p} h hr => ih h.2 (hr.micro (.write s h.1))
  | read k ih => exact fun {p} h hr => ih _ h hr.read
  | self k ih => exact fun {p} h hr => ih _ h hr
  | spawn j k ih => exact fun {p} h hr => ih _ h.2 (hr.micro (.spawn j h.1))
  | cancel u k ih => exact fun {p} h hr => ih h.2 (hr.micro (.cancel u h.1))
  | isDone u k ih => exact fun {p} h hr => ih _ h hr
  | release l k ih => exact fun {p} h hr => ih h.2 (hr.micro (.release l h.1))
  | await w k ih =>
    intro p h hr
    rw [Prog.advance]
    cases hw : p.mem.atOnce p.task w with
    | some m => exact ih _ (h.1 m hw) (hr.micro (micro_of_atOnce hw))
    | none => exact ⟨p, hr, rfl, h.2 hw⟩
  | again k ih => exact fun {p} h hr => ⟨p, hr, rfl, h⟩

/-! ## Rules for awaits -/

/-- What a lock leaves to read, and when its await is cancelled. -/
theorem resume_lock {m m' : Mem S} {t : ℕ} {l : S.Lock} {next : Option S.Call} {cancelled : Bool}
    {env env' : ℕ → S.Reading} {r : Reply S}
    (h : sys.resume m t (.lock l next) cancelled env = some (r, env', m')) :
    env' = env ∧ ((cancelled = true ∧ r = .error .cancelled) ∨
      (cancelled = false ∧ r = .ok sys.nothing)) := by
  unfold System.resume at h
  cases cancelled with
  | true =>
    rw [if_pos rfl] at h
    cases h
    exact ⟨rfl, .inl ⟨rfl, rfl⟩⟩
  | false =>
    rw [if_neg (by simp)] at h
    dsimp only at h
    split at h
    · cases h
      exact ⟨rfl, .inr ⟨rfl, rfl⟩⟩
    · cases h

/-- A call gives its answer, or its await is cancelled. -/
theorem resume_call {m m' : Mem S} {t : ℕ} {c : S.Call} {cancelled : Bool}
    {env env' : ℕ → S.Reading} {r : Reply S}
    (h : sys.resume m t (.call c) cancelled env = some (r, env', m')) :
    (cancelled = true ∧ r = .error .cancelled ∧ env' = env) ∨
      (cancelled = false ∧ ∃ a, sys.answer c env = some (a, env') ∧ r = a.mapError .error) := by
  unfold System.resume at h
  cases cancelled with
  | true =>
    rw [if_pos rfl] at h
    cases h
    exact .inl ⟨rfl, rfl, rfl⟩
  | false =>
    rw [if_neg (by simp)] at h
    obtain ⟨a, ha, heq⟩ := Option.map_eq_some_iff.mp h
    cases heq
    exact .inr ⟨rfl, a.1, ha, rfl⟩

section Awaits

variable {α : Type} {p : Point S}

/-- An await that suspends. -/
theorem safe_wait {w : Wait S} {Q : Point S → Reply S → Prop}
    (hw : p.mem.atOnce p.task w = none) (hg : G.suspend p w)
    (h : ∀ p' r, Resumes sys R p.task p.job w (p.mem.suspend p.task w) p' r → Q p' r) :
    Safe sys G R (Prog.wait w) p Q := by
  refine ⟨fun m hm => ?_, fun _ => ⟨hg, ?_⟩⟩
  · rw [hw] at hm
    cases hm
  · intro p' r hr
    have hq := h p' r hr
    cases r with
    | ok v => exact hq
    | error e => exact hq

/-- After the body the lock is still there, and what follows its release holds. -/
def Unlocks (l : S.Lock) (Q : Point S → Except (Raised S.Err) α → Prop) (p : Point S)
    (r : Except (Raised S.Err) α) : Prop :=
  p.mem.owner l = some p.task ∧ Q (p.setMem (p.mem.release l)) r

/-- A body under a lock: it starts when the lock is free or handed over, unless the
wait for it is cancelled. -/
theorem safe_withLock {l : S.Lock} {next : Option S.Call} {body : Prog S α}
    {Q : Point S → Except (Raised S.Err) α → Prop}
    (hg : p.mem.atOnce p.task (.lock l next) = none → G.suspend p (.lock l next))
    (once : p.mem.owner l = none →
      Safe sys G R body (p.setMem (p.mem.take l p.task)) (Unlocks l Q))
    (later : ∀ p', Resumes sys R p.task p.job (.lock l next)
      (p.mem.suspend p.task (.lock l next)) p' (.ok sys.nothing) →
      Safe sys G R body p' (Unlocks l Q))
    (cancelled : ∀ p', Resumes sys R p.task p.job (.lock l next)
      (p.mem.suspend p.task (.lock l next)) p' (.error .cancelled) → Q p' (.error .cancelled)) :
    Safe sys G R (Prog.withLock l next body) p Q := by
  have hbody : ∀ p', Safe sys G R body p' (Unlocks l Q) →
      Safe sys G R ((body.attempt fun e => .release l (.raise e)).bind
        fun a => .release l (.ret a)) p' Q := by
    intro p' h
    refine safe_bind.mpr (safe_attempt.mpr (h.mono ?_))
    intro p'' r hr
    cases r with
    | ok a => exact hr
    | error e => exact hr
  refine safe_bind.mpr ⟨?_, ?_⟩
  · intro m hm
    simp only [Mem.atOnce] at hm
    by_cases hfree : p.mem.free l = true
    · rw [if_pos hfree] at hm
      cases hm
      simp only [Mem.free, Bool.and_eq_true, Option.isNone_iff_eq_none] at hfree
      exact hbody _ (once hfree.1)
    · rw [if_neg hfree] at hm
      cases hm
  · intro hm
    refine ⟨hg hm, ?_⟩
    intro p' r hr
    obtain ⟨_, _, _, _, c, _, hresume⟩ := id hr
    obtain ⟨_, ⟨_, rfl⟩ | ⟨_, rfl⟩⟩ := resume_lock hresume
    · exact cancelled p' hr
    · exact hbody p' (later p' hr)

end Awaits

/-! ## All tasks together -/

/-- The end of a task's own program. -/
def Ended (G : Guarantee S) (p : Point S) (r : Reply S) : Prop := G.finish p r

/-- **All programs of the system are safe**, and no write of one task breaks what the
others rely on. -/
structure Verified (sys : System S) (G : Guarantee S) (R : ℕ → Mem S → Mem S → Prop) : Prop where
  trans : ∀ {t m m' m''}, R t m m' → R t m' m'' → R t m m''
  frame : ∀ {t m m'}, m'.vars = m.vars →
    (∀ l, m.owner l = some t → m'.owner l = some t) → R t m m'
  write : ∀ {t p s}, t ≠ p.task → G.write p s → R t p.mem { p.mem with vars := s }
  body : ∀ p, Begins p → Safe sys G R (sys.body p.job) p (Ended G)

/-- What the event loop keeps: the tasks that wait or pause go on safely. -/
structure Kept (sys : System S) (G : Guarantee S) (R : ℕ → Mem S → Mem S → Prop)
    (pool : Pool S) : Prop where
  absent : ∀ t, pool.mem.count ≤ t → pool.mem.task t = none
  waiting : ∀ t job w, pool.mem.shape t = some (job, .waiting w) → ∀ p r,
    Resumes sys R t job w pool.mem p r → Safe sys G R (pool.cont t r) p (Ended G)
  pausing : ∀ t job, pool.mem.shape t = some (job, .pausing) → ∀ p,
    Interrupts R t job pool.mem p → Safe sys G R (pool.cont t (.error .cancelled)) p (Ended G)

/-- The task of a point goes on from the memory with which the segment began. -/
structure Wakes (p : Point S) : Prop where
  vars : p.mem.vars = p.start.vars
  jobs : ∀ u, p.mem.job u = p.start.job u
  elsewhere : Elsewhere p.task p.start p.mem
  shape : p.mem.shape p.task = some (p.job, .running)
  enabled : p.start.shape p.task = some (p.job, .ready) ∨
    p.start.shape p.task = some (p.job, .pausing) ∨
    ∃ w, p.start.shape p.task = some (p.job, .waiting w)

theorem shape_wake {m : Mem S} {t : ℕ} {job : S.Job} {status : Status S}
    (h : m.shape t = some (job, status)) : (m.wake t).shape t = some (job, .running) := by
  obtain ⟨c, hc⟩ := Mem.shape_eq_some.mp h
  exact Mem.shape_eq_some.mpr ⟨false, Mem.task_alter_self hc _⟩

/-- The memory after a wait: the task runs, and may have got a lock. -/
theorem resume_memory {m m' : Mem S} {t : ℕ} {w : Wait S} {cancelled : Bool}
    {env env' : ℕ → S.Reading} {r : Reply S} {job : S.Job}
    (hshape : m.shape t = some (job, .waiting w))
    (h : sys.resume m t w cancelled env = some (r, env', m')) :
    m'.vars = m.vars ∧ (∀ u, m'.job u = m.job u) ∧ Elsewhere t m m' ∧
      m'.shape t = some (job, .running) := by
  have hwake : (m.wake t).vars = m.vars ∧ (∀ u, (m.wake t).job u = m.job u) ∧
      Elsewhere t m (m.wake t) ∧ (m.wake t).shape t = some (job, .running) :=
    ⟨Mem.vars_alter _ _ _, Elsewhere.job_alter _ _ (fun _ => rfl),
      Elsewhere.alter _ _ _ (fun _ => rfl), shape_wake hshape⟩
  unfold System.resume at h
  split at h
  · split at h
    · cases h
      exact ⟨hwake.1, hwake.2.1, hwake.2.2.1.trans (Elsewhere.dequeue _ _ _), hwake.2.2.2⟩
    · split at h
      · cases h
        exact hwake
      · cases h
    · cases h
      exact hwake
  · split at h
    · next l next =>
      split at h
      · next hturn =>
        cases h
        have hfree : ((m.wake t).dequeue l t).owner l = none := by
          simp only [Mem.turn, Bool.and_eq_true, Option.isNone_iff_eq_none] at hturn
          rw [← hturn.1]
          exact (Mem.owner_setQueue _ l l _).trans (Mem.owner_alter _ _ _ _)
        exact ⟨hwake.1, hwake.2.1,
          (hwake.2.2.1.trans (Elsewhere.dequeue _ _ _)).trans (Elsewhere.take hfree _),
          hwake.2.2.2⟩
      · cases h
    · obtain ⟨a, _, ha⟩ := Option.map_eq_some_iff.mp h
      cases ha
      exact hwake
    · obtain ⟨a, _, ha⟩ := Option.map_eq_some_iff.mp h
      cases ha
      exact hwake
    · split at h
      · cases h
        exact hwake
      · cases h

/-- A task keeps its own locks while it waits, and gets the one it waits for. -/
theorem resume_owner {m m' : Mem S} {t : ℕ} {w : Wait S} {cancelled : Bool}
    {env env' : ℕ → S.Reading} {r : Reply S} (h : sys.resume m t w cancelled env = some (r, env', m'))
    (l : S.Lock) : (m.owner l = some t → m'.owner l = some t) ∧
      (∀ next v, w = .lock l next → r = .ok v → m'.owner l = some t) := by
  have hwake : (m.wake t).owner l = m.owner l := Mem.owner_alter _ _ _ _
  have hqueue : ∀ l', ((m.wake t).dequeue l' t).owner l = m.owner l :=
    fun l' => (Mem.owner_setQueue _ l' l _).trans hwake
  unfold System.resume at h
  split at h
  · split at h
    · cases h
      exact ⟨fun hl => (hqueue _).trans hl, fun _ _ _ hr => by cases hr⟩
    · split at h
      · cases h
        exact ⟨fun hl => hwake.trans hl, fun _ _ hw => by cases hw⟩
      · cases h
    · cases h
      exact ⟨fun hl => hwake.trans hl, fun _ _ _ hr => by cases hr⟩
  · split at h
    · next l' next =>
      split at h
      · cases h
        have htake : l = l' → ((((m.wake t).dequeue l' t).take l' t).owner l = some t) := by
          intro hl
          rw [hl, Mem.take, Mem.owner_setLock, if_pos rfl]
        constructor
        · intro hl
          by_cases heq : l = l'
          · exact htake heq
          · rw [Mem.take, Mem.owner_setLock, if_neg heq]
            exact (hqueue _).trans hl
        · intro next' v hw _
          cases hw
          exact htake rfl
      · cases h
    · obtain ⟨a, _, ha⟩ := Option.map_eq_some_iff.mp h
      cases ha
      exact ⟨fun hl => hwake.trans hl, fun _ _ hw => by cases hw⟩
    · obtain ⟨a, _, ha⟩ := Option.map_eq_some_iff.mp h
      cases ha
      exact ⟨fun hl => hwake.trans hl, fun _ _ hw => by cases hw⟩
    · split at h
      · cases h
        exact ⟨fun hl => hwake.trans hl, fun _ _ hw => by cases hw⟩
      · cases h

/-- The task runs its own program. -/
theorem Wakes.job {p : Point S} (h : Wakes p) : p.start.job p.task = some p.job := by
  rcases h.enabled with hshape | hshape | ⟨w, hshape⟩
  · exact Mem.job_of_shape hshape
  · exact Mem.job_of_shape hshape
  · exact Mem.job_of_shape hshape

theorem Begins.wakes {p : Point S} (h : Begins p) : Wakes p := by
  obtain ⟨hstatus, henv, hmem⟩ := h
  have hshape : p.start.shape p.task = some (p.job, .ready) ∨
      p.start.shape p.task = some (p.job, .pausing) :=
    hstatus.imp (fun h => Mem.shape_eq_some.mpr ⟨_, h⟩) (fun h => Mem.shape_eq_some.mpr ⟨_, h⟩)
  refine ⟨?_, ?_, ?_, ?_, hshape.imp_right .inl⟩
  · rw [hmem]
    exact Mem.vars_alter _ _ _
  · rw [hmem]
    exact Elsewhere.job_alter _ _ fun _ => rfl
  · rw [hmem]
    exact Elsewhere.alter _ _ _ fun _ => rfl
  · rw [hmem]
    exact hshape.elim shape_wake shape_wake

theorem Resumes.wakes {t : ℕ} {job : S.Job} {w : Wait S} {m : Mem S} {p : Point S} {r : Reply S}
    (h : Resumes sys R t job w m p r) : Wakes p := by
  obtain ⟨_, _, rfl, rfl, cancelled, hstatus, hresume⟩ := h
  have hshape : p.start.shape p.task = some (p.job, .waiting w) :=
    Mem.shape_eq_some.mpr ⟨_, hstatus⟩
  obtain ⟨hvars, hjobs, helse, hrun⟩ := resume_memory hshape hresume
  exact ⟨hvars, hjobs, helse, hrun, .inr (.inr ⟨w, hshape⟩)⟩

theorem Interrupts.wakes {t : ℕ} {job : S.Job} {m : Mem S} {p : Point S}
    (h : Interrupts R t job m p) : Wakes p := by
  obtain ⟨_, _, rfl, rfl, hstatus, _, hmem⟩ := h
  have hshape : p.start.shape p.task = some (p.job, .pausing) :=
    Mem.shape_eq_some.mpr ⟨_, hstatus⟩
  refine ⟨?_, ?_, ?_, ?_, .inr (.inl hshape)⟩
  · rw [hmem]
    exact Mem.vars_alter _ _ _
  · rw [hmem]
    exact Elsewhere.job_alter _ _ fun _ => rfl
  · rw [hmem]
    exact Elsewhere.alter _ _ _ fun _ => rfl
  · rw [hmem]
    exact shape_wake hshape

/-- How a segment ends, with the memory after it. -/
inductive Closes (G : Guarantee S) (q : Point S) : Mem S → Prop where
  | suspend (w : Wait S) (h : G.suspend q w) : Closes G q (q.mem.suspend q.task w)
  | pause (h : G.pause q) : Closes G q (q.mem.pause q.task)
  | finish (r : Reply S) (h : G.finish q r) : Closes G q (q.mem.finish q.task r)

/-- A segment from the memory `m` to the memory `m'`: it begins at `p` and stops
at `q`. -/
structure Segment (G : Guarantee S) (m m' : Mem S) (t : ℕ) (env : ℕ → S.Reading)
    (p q : Point S) : Prop where
  task : p.task = t
  start : p.start = m
  given : p.given = env
  wakes : Wakes p
  reach : Reach G p q
  closes : Closes G q m'

theorem Closes.elsewhere {q : Point S} {m : Mem S} (h : Closes G q m) :
    Elsewhere q.task q.mem m := by
  cases h with
  | suspend w h => exact Elsewhere.suspend _ _ w
  | pause h => exact Elsewhere.alter _ _ _ fun _ => rfl
  | finish r h => exact Elsewhere.alter _ _ _ fun _ => rfl

theorem Closes.vars {q : Point S} {m : Mem S} (h : Closes G q m) : m.vars = q.mem.vars := by
  cases h with
  | suspend w h => exact vars_suspend _ _ _
  | pause h => exact Mem.vars_alter _ _ _
  | finish r h => exact Mem.vars_alter _ _ _

/-- A segment ends with the locks that its task has. -/
theorem Closes.owner {q : Point S} {m : Mem S} (h : Closes G q m) (l : S.Lock) :
    m.owner l = q.mem.owner l := by
  cases h with
  | suspend w h => exact owner_suspend _ _ w l
  | pause h => exact Mem.owner_alter _ _ _ _
  | finish r h => exact Mem.owner_alter _ _ _ _

theorem Segment.elsewhere {m m' : Mem S} {t : ℕ} {env : ℕ → S.Reading} {p q : Point S}
    (h : Segment G m m' t env p q) : Elsewhere t m m' := by
  have hwake := h.wakes.elsewhere
  have hreach := h.reach.elsewhere
  have hclose := h.closes.elsewhere
  rw [h.reach.sameSegment.task] at hclose
  rw [h.start] at hwake
  rw [h.task] at hwake hreach hclose
  exact (hwake.trans hreach).trans hclose

/-- Where a segment leaves its task. -/
inductive Stopped (G : Guarantee S) (q : Point S) : Status S → Prop where
  | waiting (w : Wait S) (h : G.suspend q w) : Stopped G q (.waiting w)
  | pausing (h : G.pause q) : Stopped G q .pausing
  | finished (r : Reply S) (h : G.finish q r) : Stopped G q (.finished r)

theorem shape_alter {m : Mem S} {t : ℕ} {job : S.Job} {status status' : Status S}
    {f : Task S → Task S} (h : m.shape t = some (job, status))
    (hf : ∀ c, ((f ⟨job, status, c⟩).job, (f ⟨job, status, c⟩).status) = (job, status')) :
    (m.alter t f).shape t = some (job, status') := by
  obtain ⟨c, hc⟩ := Mem.shape_eq_some.mp h
  rw [Mem.shape, Mem.task_alter_self hc, Option.map_some, hf c]

theorem shape_suspend {m : Mem S} {t : ℕ} {job : S.Job} {status : Status S}
    (h : m.shape t = some (job, status)) (w : Wait S) :
    (m.suspend t w).shape t = some (job, .waiting w) := by
  have halter : (m.alter t fun k => { k with status := .waiting w }).shape t =
      some (job, .waiting w) := shape_alter h fun _ => rfl
  cases w <;> exact halter

theorem Closes.shape {q : Point S} {m : Mem S} {job : S.Job} {status : Status S}
    (h : Closes G q m) (hq : q.mem.shape q.task = some (job, status)) :
    ∃ status', m.shape q.task = some (job, status') ∧ Stopped G q status' := by
  cases h with
  | suspend w h => exact ⟨_, shape_suspend hq w, .waiting w h⟩
  | pause h => exact ⟨_, shape_alter hq fun _ => rfl, .pausing h⟩
  | finish r h => exact ⟨_, shape_alter hq fun _ => rfl, .finished r h⟩

section Segment

variable {m m' : Mem S} {t : ℕ} {env : ℕ → S.Reading} {p q : Point S}
  (h : Segment G m m' t env p q) (habsent : ∀ u, m.count ≤ u → m.task u = none)
include h habsent

/-- The task runs until its segment ends. -/
theorem Segment.shape_running : q.mem.shape q.task = some (p.job, .running) := by
  have hlt : p.task < p.mem.count := by
    by_contra hle
    have hnone := h.wakes.elsewhere.absent (h.start ▸ habsent) p.task (not_lt.mp hle)
    have hshape := h.wakes.shape
    rw [Mem.shape, hnone] at hshape
    cases hshape
  rw [h.reach.sameSegment.task]
  exact (h.reach.shape_self hlt).trans h.wakes.shape

theorem Segment.shape_self : ∃ status, m'.shape t = some (p.job, status) ∧ Stopped G q status := by
  obtain ⟨status, hshape, hstopped⟩ := h.closes.shape (h.shape_running habsent)
  rw [h.reach.sameSegment.task, h.task] at hshape
  exact ⟨status, hshape, hstopped⟩

/-- A task that was created and has not started is there after the segment. -/
theorem Segment.shape_ready {u : ℕ} {job : S.Job} {cancelled : Bool}
    (hu : q.mem.task u = some ⟨job, .ready, cancelled⟩) : m'.shape u = some (job, .ready) := by
  have hready : q.mem.shape u = some (job, .ready) := Mem.shape_eq_some.mpr ⟨_, hu⟩
  have hne : u ≠ q.task := by
    rintro rfl
    rw [h.shape_running habsent] at hready
    cases hready
  have hlt : u < q.mem.count := by
    by_contra hle
    have hbefore := h.wakes.elsewhere.absent (h.start ▸ habsent)
    rw [h.reach.elsewhere.absent hbefore u (not_lt.mp hle)] at hu
    cases hu
  rw [h.closes.elsewhere.shape u hne hlt]
  exact hready

/-- **Where the tasks stand after a segment**: the task of the segment where it stopped,
the other ones where they were, and the new ones before their start. -/
theorem Segment.shape_cases {u : ℕ} {job : S.Job} {status : Status S}
    (hu : m'.shape u = some (job, status)) :
    (u = t ∧ job = p.job ∧ Stopped G q status) ∨
      (u ≠ t ∧ (m.shape u = some (job, status) ∨ (m.count ≤ u ∧ status = .ready))) := by
  by_cases hut : u = t
  · obtain ⟨status', hshape, hstopped⟩ := h.shape_self habsent
    rw [hut, hshape] at hu
    cases hu
    exact .inl ⟨hut, rfl, hstopped⟩
  · refine .inr ⟨hut, ?_⟩
    by_cases hlt : u < m.count
    · rw [h.elsewhere.shape u hut hlt] at hu
      exact .inl hu
    · have hlt' : u < m'.count := by
        by_contra hle
        rw [Mem.shape, h.elsewhere.absent habsent u (not_lt.mp hle)] at hu
        cases hu
      obtain ⟨j, hj⟩ := h.elsewhere.fresh u hut (not_lt.mp hlt) hlt'
      rw [hj] at hu
      cases hu
      exact .inr ⟨not_lt.mp hlt, rfl⟩

end Segment

/-- The programs of the tasks in the middle of a segment. -/
theorem Reach.job_cases {p q : Point S} (h : Reach G p q) {u : ℕ} {j : S.Job}
    (hu : q.mem.job u = some j) : p.mem.job u = some j ∨ ∃ s, G.spawn s j := by
  induction h with
  | refl => exact .inl hu
  | read h ih => exact ih hu
  | @micro q m h hm ih =>
    cases hm with
    | write s hw => exact ih hu
    | spawn job hspawn =>
      by_cases heq : u = q.mem.count
      · subst heq
        have hnew : (q.mem.spawn job).job q.mem.count = some job := by
          simp [Mem.spawn, Mem.setTask, Mem.job]
        have hsame : job = j := Option.some.inj (hnew.symm.trans hu)
        exact .inr ⟨q, hsame ▸ hspawn⟩
      · refine ih ?_
        rw [← hu]
        show q.mem.job u = (q.mem.spawn job).job u
        simp [Mem.spawn, Mem.setTask, Mem.job, Function.update_of_ne heq]
    | cancel v hc =>
      refine ih ?_
      rw [← Elsewhere.job_eq_of_shape ((sameButCancelled_cancel q.mem v).shape u)]
      exact hu
    | take l hl => exact ih hu
    | release l hl => exact ih hu

theorem Closes.job {q : Point S} {m : Mem S} (h : Closes G q m) (u : ℕ) :
    m.job u = q.mem.job u := by
  cases h with
  | suspend w h =>
    have halter := Elsewhere.job_alter q.mem q.task
      (f := fun k => { k with status := .waiting w }) (fun _ => rfl) u
    cases w <;> exact halter
  | pause h =>
    exact Elsewhere.job_alter _ _ (f := fun k => { k with status := .pausing }) (fun _ => rfl) u
  | finish r h =>
    exact Elsewhere.job_alter _ _ (f := fun k => { k with status := .finished r }) (fun _ => rfl) u

/-- The task that runs keeps its program. -/
theorem Segment.job_self {m m' : Mem S} {t : ℕ} {env : ℕ → S.Reading} {p q : Point S}
    (h : Segment G m m' t env p q) {j : S.Job} (hj : m.job t = some j) : p.job = j := by
  have hself := h.wakes.job
  rw [h.start, h.task, hj] at hself
  exact (Option.some.inj hself).symm

/-- The programs of the tasks after a segment: those before it and those it has spawned. -/
theorem Segment.job_cases {m m' : Mem S} {t : ℕ} {env : ℕ → S.Reading} {p q : Point S}
    (h : Segment G m m' t env p q) {u : ℕ} {j : S.Job} (hu : m'.job u = some j) :
    m.job u = some j ∨ ∃ s, G.spawn s j := by
  rw [h.closes.job] at hu
  refine (h.reach.job_cases hu).imp_left fun hp => ?_
  rw [← h.start, ← h.wakes.jobs]
  exact hp

section Soundness

variable (hv : Verified sys G R)
include hv

/-- What a task leaves alone, the other tasks can rely on. -/
theorem rely_of_elsewhere {t u : ℕ} {m m' : Mem S} (hu : u ≠ t) (hvars : m'.vars = m.vars)
    (h : Elsewhere t m m') : R u m m' :=
  hv.frame hvars fun l => h.owner l u hu

theorem rely_of_reach {p q : Point S} (h : Reach G p q) {u : ℕ} (hu : u ≠ p.task) :
    R u p.mem q.mem := by
  induction h with
  | refl => exact hv.frame rfl fun _ h => h
  | read h ih => exact ih
  | @micro q m h hm ih =>
    have hq : u ≠ q.task := by rw [h.sameSegment.task]; exact hu
    refine hv.trans ih ?_
    cases hm with
    | write s hw => exact hv.write hq hw
    | spawn j hj => exact rely_of_elsewhere hv hq rfl (Elsewhere.spawn _ _ j)
    | cancel v hc =>
      have hsame := sameButCancelled_cancel q.mem v
      exact rely_of_elsewhere hv hq hsame.vars (Elsewhere.of_sameButCancelled hsame)
    | take l hl => exact rely_of_elsewhere hv hq rfl (Elsewhere.take hl _)
    | release l hl => exact rely_of_elsewhere hv hq rfl (Elsewhere.release hl)

/-- A whole segment keeps what the other tasks rely on. -/
theorem rely_of_segment {m m' : Mem S} {t : ℕ} {env : ℕ → S.Reading} {p q : Point S}
    (h : Segment G m m' t env p q) {u : ℕ} (hu : u ≠ t) : R u m m' := by
  have hp : u ≠ p.task := by rw [h.task]; exact hu
  have hq : u ≠ q.task := by rw [h.reach.sameSegment.task]; exact hp
  have hwake := rely_of_elsewhere hv hp h.wakes.vars h.wakes.elsewhere
  rw [h.start] at hwake
  exact hv.trans hwake (hv.trans (rely_of_reach hv h.reach hp)
    (rely_of_elsewhere hv hq h.closes.vars h.closes.elsewhere))

/-- The other tasks go on safely; the task `t` has to be looked at. -/
theorem kept_of_elsewhere {pool : Pool S} (hk : Kept sys G R pool) {t : ℕ} {m : Mem S}
    {cont : ℕ → Reply S → Prog S S.Value} (helse : Elsewhere t pool.mem m)
    (hrely : ∀ u, u ≠ t → R u pool.mem m) (hcont : ∀ u, u ≠ t → cont u = pool.cont u)
    (hwaiting : ∀ job w, m.shape t = some (job, .waiting w) → ∀ p r,
      Resumes sys R t job w m p r → Safe sys G R (cont t r) p (Ended G))
    (hpausing : ∀ job, m.shape t = some (job, .pausing) → ∀ p,
      Interrupts R t job m p → Safe sys G R (cont t (.error .cancelled)) p (Ended G)) :
    Kept sys G R ⟨m, cont⟩ := by
  have habsent := helse.absent hk.absent
  have hold : ∀ u, u ≠ t → ∀ job status, status ≠ .ready → m.shape u = some (job, status) →
      pool.mem.shape u = some (job, status) := by
    intro u hu job status hstatus hshape
    by_cases hlt : u < pool.mem.count
    · rw [← helse.shape u hu hlt]
      exact hshape
    · by_cases hlt' : u < m.count
      · obtain ⟨j, hj⟩ := helse.fresh u hu (not_lt.mp hlt) hlt'
        rw [hj] at hshape
        cases hshape
        exact absurd rfl hstatus
      · rw [Mem.shape, habsent u (not_lt.mp hlt')] at hshape
        cases hshape
  refine ⟨habsent, ?_, ?_⟩
  · intro u job w hshape p r hp
    by_cases hu : u = t
    · subst hu
      exact hwaiting job w hshape p r hp
    · show Safe sys G R (cont u r) p (Ended G)
      rw [hcont u hu]
      refine hk.waiting u job w (hold u hu job _ (by simp) hshape) p r ?_
      exact ⟨hv.trans (hrely u hu) hp.1, helse.toKnows.trans hp.2.1, hp.2.2⟩
  · intro u job hshape p hp
    by_cases hu : u = t
    · subst hu
      exact hpausing job hshape p hp
    · show Safe sys G R (cont u (.error .cancelled)) p (Ended G)
      rw [hcont u hu]
      refine hk.pausing u job (hold u hu job _ (by simp) hshape) p ?_
      exact ⟨hv.trans (hrely u hu) hp.1, helse.toKnows.trans hp.2.1, hp.2.2⟩

/-- **A segment of a safe program** keeps all tasks safe. -/
theorem kept_go {pool : Pool S} (hk : Kept sys G R pool) {p : Point S} (hstart : p.start = pool.mem)
    (hw : Wakes p) {program : Prog S S.Value} (hs : Safe sys G R program p (Ended G)) :
    Kept sys G R (pool.go sys p.task program p.env p.mem) ∧
      ∃ q, Segment G pool.mem (pool.go sys p.task program p.env p.mem).mem p.task p.given p q := by
  obtain ⟨q, hreach, hmem, hstops⟩ := advance_safe program hs .refl
  have hsame := hreach.sameSegment
  have hlt : p.task < p.mem.count := by
    by_contra hle
    have hnone := hw.elsewhere.absent (hstart ▸ hk.absent) p.task (not_lt.mp hle)
    have hshape := hw.shape
    rw [Mem.shape, hnone] at hshape
    cases hshape
  have hshape : q.mem.shape p.task = some (p.job, .running) :=
    (hreach.shape_self hlt).trans hw.shape
  have hsegment : ∀ {m}, Closes G q m → Segment G pool.mem m p.task p.given p q :=
    fun hclose => ⟨rfl, hstart, rfl, hw, hreach, hclose⟩
  unfold Pool.go
  generalize program.advance sys.nothing p.task p.env p.mem = result at hmem hstops
  obtain ⟨halt, m⟩ := result
  cases hmem
  cases halt with
  | done r =>
    have hclose : Closes G q (q.mem.finish p.task r) := by
      rw [← hsame.task]
      exact .finish r hstops
    have hseg := hsegment hclose
    have hdone : (q.mem.finish p.task r).shape p.task = some (p.job, .finished r) :=
      shape_alter hshape fun _ => rfl
    refine ⟨kept_of_elsewhere hv hk hseg.elsewhere (fun u hu => rely_of_segment hv hseg hu)
      (fun _ _ => rfl) ?_ ?_, q, hseg⟩
    · intro job w h
      rw [hdone] at h
      cases h
    · intro job h
      rw [hdone] at h
      cases h
  | waiting w k =>
    have hclose : Closes G q (q.mem.suspend p.task w) := by
      rw [← hsame.task]
      exact .suspend w hstops.1
    have hseg := hsegment hclose
    refine ⟨kept_of_elsewhere hv hk hseg.elsewhere (fun u hu => rely_of_segment hv hseg hu)
      (fun u hu => Function.update_of_ne hu _ _) ?_ ?_, q, hseg⟩
    · intro job w' h p' r hp'
      rw [shape_suspend hshape w] at h
      cases h
      rw [Function.update_self]
      have hsafe := hstops.2 p' r
      rw [hsame.task, hsame.job] at hsafe
      exact hsafe hp'
    · intro job h
      rw [shape_suspend hshape w] at h
      cases h
  | pausing h =>
    have hclose : Closes G q (q.mem.pause p.task) := by
      rw [← hsame.task]
      exact .pause hstops.1
    have hseg := hsegment hclose
    have hdone : (q.mem.pause p.task).shape p.task = some (p.job, .pausing) :=
      shape_alter hshape fun _ => rfl
    refine ⟨kept_of_elsewhere hv hk hseg.elsewhere (fun u hu => rely_of_segment hv hseg hu)
      (fun u hu => Function.update_of_ne hu _ _) ?_ ?_, q, hseg⟩
    · intro job w h
      rw [hdone] at h
      cases h
    · intro job hjob p' hp'
      rw [hdone] at hjob
      cases hjob
      rw [Function.update_self]
      have hsafe := hstops.2 p'
      rw [hsame.task, hsame.job] at hsafe
      exact hsafe hp'

/-- What one step of the event loop does to the memory. -/
inductive Stepped (sys : System S) (G : Guarantee S) (m : Mem S) : Label S → Mem S → Prop where
  | call {j : S.Job} (h : sys.callable j = true) : Stepped sys G m (.call j) (m.spawn j)
  | cancel (t : ℕ) : Stepped sys G m (.cancel t) (m.cancel t)
  /-- A task is cancelled before it starts. -/
  | drop {t : ℕ} {env : ℕ → S.Reading} {job : S.Job} (h : m.task t = some ⟨job, .ready, true⟩) :
      Stepped sys G m (.run t env) (m.finish t (.error .cancelled))
  | run {t : ℕ} {env : ℕ → S.Reading} {m' : Mem S} {p q : Point S}
      (h : Segment G m m' t env p q) : Stepped sys G m (.run t env) m'

/-- **Each step of the event loop** is a call, a cancellation or a segment that
keeps the guarantee, and keeps all tasks safe. -/
theorem stepped_of_step {pool pool' : Pool S} {l : Label S} (hk : Kept sys G R pool)
    (h : step sys pool l = some pool') : Kept sys G R pool' ∧ Stepped sys G pool.mem l pool'.mem := by
  have hnone : pool.mem.shape pool.mem.count = none := by
    rw [Mem.shape, hk.absent _ le_rfl]
    rfl
  cases l with
  | call j =>
    simp only [step] at h
    split at h
    · next hcall =>
      cases h
      have hnew : (pool.mem.spawn j).shape pool.mem.count = some (j, .ready) := by
        simp [Mem.spawn, Mem.setTask, Mem.shape]
      refine ⟨kept_of_elsewhere hv hk (t := pool.mem.count) (Elsewhere.spawn _ _ j)
        (fun u hu => rely_of_elsewhere hv hu rfl (Elsewhere.spawn _ _ j)) (fun _ _ => rfl) ?_ ?_,
        .call hcall⟩
      · intro job w hw
        rw [hnew] at hw
        cases hw
      · intro job hw
        rw [hnew] at hw
        cases hw
    · cases h
  | cancel t =>
    cases h
    have hsame := sameButCancelled_cancel pool.mem t
    refine ⟨kept_of_elsewhere hv hk (t := pool.mem.count) (Elsewhere.of_sameButCancelled hsame)
      (fun u hu => rely_of_elsewhere hv hu hsame.vars (Elsewhere.of_sameButCancelled hsame))
      (fun _ _ => rfl) ?_ ?_, .cancel t⟩
    · intro job w hw
      rw [hsame.shape, hnone] at hw
      cases hw
    · intro job hw
      rw [hsame.shape, hnone] at hw
      cases hw
  | run t env =>
    simp only [step] at h
    split at h
    · cases h
    · next job status cancelled htask =>
      cases status with
      | ready =>
        cases cancelled with
        | true =>
          cases h
          have helse : Elsewhere t pool.mem (pool.mem.finish t (.error .cancelled)) :=
            Elsewhere.alter _ _ _ fun _ => rfl
          have hdone : (pool.mem.finish t (.error .cancelled)).shape t =
              some (job, .finished (.error .cancelled)) :=
            shape_alter (Mem.shape_eq_some.mpr ⟨_, htask⟩) fun _ => rfl
          refine ⟨kept_of_elsewhere hv hk helse
            (fun u hu => rely_of_elsewhere hv hu (Mem.vars_alter _ _ _) helse)
            (fun _ _ => rfl) ?_ ?_, .drop htask⟩
          · intro job w hw
            rw [hdone] at hw
            cases hw
          · intro job hw
            rw [hdone] at hw
            cases hw
        | false =>
          cases h
          have hbegin : Begins (⟨t, job, pool.mem, env, env, pool.mem.wake t⟩ : Point S) :=
            ⟨.inl htask, rfl, rfl⟩
          obtain ⟨hkept, q, hseg⟩ := kept_go hv hk rfl hbegin.wakes (hv.body _ hbegin)
          exact ⟨hkept, .run hseg⟩
      | pausing =>
        cases cancelled with
        | true =>
          cases h
          have hint : Interrupts R t job pool.mem
              (⟨t, job, pool.mem, env, env, pool.mem.wake t⟩ : Point S) :=
            ⟨hv.frame rfl fun _ h => h, .refl _, rfl, rfl, htask, rfl, rfl⟩
          obtain ⟨hkept, q, hseg⟩ := kept_go hv hk rfl hint.wakes
            (hk.pausing t job (Mem.shape_eq_some.mpr ⟨_, htask⟩) _ hint)
          exact ⟨hkept, .run hseg⟩
        | false =>
          cases h
          have hbegin : Begins (⟨t, job, pool.mem, env, env, pool.mem.wake t⟩ : Point S) :=
            ⟨.inr htask, rfl, rfl⟩
          obtain ⟨hkept, q, hseg⟩ := kept_go hv hk rfl hbegin.wakes (hv.body _ hbegin)
          exact ⟨hkept, .run hseg⟩
      | waiting w =>
        dsimp only at h
        split at h
        · next r env' m hresume =>
          cases h
          have hres : Resumes sys R t job w pool.mem
              (⟨t, job, pool.mem, env, env', m⟩ : Point S) r :=
            ⟨hv.frame rfl fun _ h => h, .refl _, rfl, rfl, cancelled, htask, hresume⟩
          obtain ⟨hkept, q, hseg⟩ := kept_go hv hk rfl hres.wakes
            (hk.waiting t job w (Mem.shape_eq_some.mpr ⟨_, htask⟩) _ r hres)
          exact ⟨hkept, .run hseg⟩
        · cases h
      | running => cases h
      | finished r => cases h

/-- **What segments keep, runs keep**: for every run whose steps meet a condition on
the pool before the step, an invariant of the memory holds in the end.  Within a
segment that begins at `p`, `W p` is kept from one action to the next. -/
theorem runs_keep {I : Mem S → Prop} {ok : Pool S → Label S → Prop}
    {W : Point S → Point S → Prop}
    (spawned : ∀ pool j, Kept sys G R pool → ok pool (.call j) → sys.callable j = true → I pool.mem →
      I (pool.mem.spawn j))
    (cancelled : ∀ m t, I m → I (m.cancel t))
    (dropped : ∀ pool t env job, ok pool (.run t env) →
      pool.mem.task t = some ⟨job, .ready, true⟩ → I pool.mem →
      I (pool.mem.finish t (.error .cancelled)))
    (starts : ∀ pool pool' p, ok pool (.run p.task p.given) → I pool.mem → p.start = pool.mem →
      step sys pool (.run p.task p.given) = some pool' → Wakes p → W p p)
    (acts : ∀ p q m, SameSegment p q → W p q → Micro G q m → W p (q.setMem m))
    (reads : ∀ p q, W p q → W p q.next)
    (ends : ∀ pool pool' p q, Kept sys G R pool → ok pool (.run p.task p.given) → I pool.mem →
      p.start = pool.mem → step sys pool (.run p.task p.given) = some pool' → W p q →
      Segment G pool.mem pool'.mem p.task p.given p q → I pool'.mem)
    {pool pool' : Pool S} {ls : List (Label S)} (hk : Kept sys G R pool) (hi : I pool.mem)
    (hok : Transition.Meets (step sys) ok pool ls)
    (hexec : Transition.exec (step sys) pool ls = some pool') : I pool'.mem := by
  have hboth : Kept sys G R pool' ∧ I pool'.mem := by
    refine Transition.invariant_of_meets (I := fun pool => Kept sys G R pool ∧ I pool.mem) ?_
      ⟨hk, hi⟩ hok hexec
    rintro pool l pool' ⟨hk, hi⟩ hl hs
    obtain ⟨hk', hstepped⟩ := stepped_of_step hv hk hs
    refine ⟨hk', ?_⟩
    generalize hm' : pool'.mem = m' at hstepped
    cases hstepped with
    | call h => exact spawned pool _ hk hl h hi
    | cancel t => exact cancelled _ t hi
    | drop h => exact dropped pool _ _ _ hl h hi
    | @run t env _ p q hseg =>
      obtain rfl := hseg.task
      obtain rfl := hseg.given
      have hw := starts pool pool' p hl hi hseg.start hs hseg.wakes
      have hall : ∀ q, Reach G p q → W p q := by
        intro q hq
        induction hq with
        | refl => exact hw
        | read h ih => exact reads _ _ ih
        | micro h hm ih => exact acts _ _ _ h.sameSegment ih hm
      rw [← hm'] at hseg ⊢
      exact ends pool pool' p q hk hl hi hseg.start hs (hall q hseg.reach) hseg
  exact hboth.2

end Soundness

/-- A system without tasks is safe. -/
theorem kept_start (vars : S.Vars) : Kept sys G R (Pool.start sys vars) where
  absent := fun _ _ => rfl
  waiting := fun t job w h => by simp [Pool.start, Mem.shape] at h
  pausing := fun t job h => by simp [Pool.start, Mem.shape] at h

end Coroutine
