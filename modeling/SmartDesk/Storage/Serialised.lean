import SmartDesk.Storage.Database

/-!
# One worker at a time

What the operation lock and `_await_completion` guarantee together, however often the
callers are cancelled.

* `Moved`, `moved_of_step` — everything that a step can do.
* `Serial` — the invariant: a worker that has not ended is that of the task that has the
  lock.
* `serialised` — **one worker at a time, transactions are atomic, and a `stop()` is
  final**.
-/

namespace SmartDesk.Storage

variable {Db V E : Type} {startSync : Faults → Db → Except (Raised E) Unit × Db}
  {s s' : SQLiteDatabase Db V E} {l : Label Db V E}

/-! ## What a step does -/

def Job.isThread : Job Db V E → Bool
  | .thread _ => true
  | _ => false

def Phase.isEnded : Phase V E → Bool
  | .ended _ => true
  | _ => false

/-- The task waits in `_await_completion` for the task `u`. -/
def Awaits (s : SQLiteDatabase Db V E) (t u : ℕ) : Prop :=
  ∃ k told, s.task t = some k ∧ k.phase = .completing u told

/-- The task has not ended. -/
def Live (s : SQLiteDatabase Db V E) (u : ℕ) (k : Task Db V E) : Prop :=
  s.task u = some k ∧ k.phase.isEnded = false

/-- The body of the coroutine has begun, and has not ended. -/
def Task.inBody (k : Task Db V E) : Bool :=
  match k.phase with
  | .locking => true
  | .completing _ _ => true
  | _ => false

/-- The task that is awaited has ended. -/
def WorkerEnded (s : SQLiteDatabase Db V E) (k : Task Db V E) : Prop :=
  ∃ u told w, k.phase = .completing u told ∧ s.task u = some w ∧ w.phase.isEnded = true

/-- One task goes on and creates no other.  It awaits what it has awaited, or that has
ended, and releases the lock only then.  The body of a `stop()` ends with the flags
cleared and a free lock. -/
structure Progress (s : SQLiteDatabase Db V E) (l : Label Db V E) (s' : SQLiteDatabase Db V E)
    (t : ℕ) (k k' : Task Db V E) : Prop where
  before : s.task t = some k
  task : ∀ u, s'.task u = if u = t then some k' else s.task u
  count : s'.count = s.count
  job : k'.job = k.job
  live : k'.phase.isEnded = false → k.phase.isEnded = false
  awaits : ∀ u told, k.phase = .completing u told →
    (∃ told', k'.phase = .completing u told') ∨ (k'.phase.isEnded = true ∧ WorkerEnded s k)
  new : ∀ u told, k'.phase = .completing u told → ∃ told', k.phase = .completing u told'
  owner : s'.owner = s.owner ∨
    (s'.owner = none ∧ k.job ≠ .stop ∧ k'.phase.isEnded = true ∧ WorkerEnded s k)
  body : k'.inBody = true → k.inBody = true ∨ (k.phase = .ready ∧ k.job ≠ .stop ∧ l = .run t)
  cancelled : k'.cancelled = true → k.cancelled = true ∨ k.job.isPublic = true
  started : s'.started = s.started ∨ s'.started = false ∨ (k.job = .start ∧ k.inBody = true)
  finished : k.job = .finishStop → k'.phase.isEnded = true →
    k.cancelled = true ∨ (s'.started = false ∧ s.owner = none)
  rows : s'.rows = s.rows ∨ ∃ u faults, l = .finish u faults

/-- Everything that a step can do to the tasks, the lock and the flags. -/
inductive Moved (s : SQLiteDatabase Db V E) (l : Label Db V E) : SQLiteDatabase Db V E → Prop where
  | called (job : Job Db V E) (hpublic : job.isPublic = true) : Moved s l (s.spawn job)
  | progress {s' : SQLiteDatabase Db V E} (t : ℕ) (k k' : Task Db V E)
      (h : Progress s l s' t k k') : Moved s l s'
  | stops (t : ℕ) (k : Task Db V E) (htask : s.task t = some k) (hjob : k.job = .stop)
      (hphase : k.phase = .ready) (hlabel : l = .run t) :
      Moved s l (SQLiteDatabase.awaitCompletion { s with closing := true } t k .finishStop)
  | acquired (t : ℕ) (k : Task Db V E) (work : Work Db V E) (closing : Bool)
      (htask : s.task t = some k) (hphase : k.phase = .locking) (hfree : s.owner = none)
      (hstarted : k.job = .start ∨
        (k.job.isPublic = true ∧ k.job ≠ .stop ∧ k.job ≠ .start ∧ s.started = true)) :
      Moved s l (SQLiteDatabase.awaitCompletion { s with owner := some t, closing := closing } t k
        (.thread work))

/-- A coroutine ends before it has got the lock. -/
theorem moved_refused {t : ℕ} {k : Task Db V E}
    {result : Except (Raised E) (Option V)} (htask : s.task t = some k)
    (hphase : k.phase = .ready ∨ k.phase = .locking)
    (hwhy : k.cancelled = true ∨ k.job ≠ .finishStop) : Moved s l (s.finish t k result) := by
  refine .progress t k { k with phase := .ended result, cancelled := false }
    ⟨htask, fun u => s.task_put t u _, rfl, rfl, ?_, ?_, ?_, .inl rfl, ?_, ?_, .inl rfl, ?_, .inl rfl⟩
  · intro h
    cases h
  · intro u told h
    rcases hphase with h' | h' <;> · rw [h'] at h; cases h
  · intro u told h
    cases h
  · intro h
    cases h
  · intro h
    cases h
  · exact fun hjob _ => .inl (hwhy.resolve_right (absurd hjob))

/-- A coroutine waits for the lock. -/
theorem moved_locks {t : ℕ} {k : Task Db V E} (htask : s.task t = some k)
    (hphase : k.phase = .ready) (hjob : k.job ≠ .stop) :
    Moved s (.run t) (s.put t { k with phase := .locking }) := by
  refine .progress t k { k with phase := .locking }
    ⟨htask, fun u => s.task_put t u _, rfl, rfl, ?_, ?_, ?_, .inl rfl, ?_, .inl, .inl rfl, ?_, .inl rfl⟩
  · exact fun _ => by rw [hphase]; rfl
  · intro u told h
    rw [hphase] at h
    cases h
  · intro u told h
    cases h
  · exact fun _ => .inr ⟨hphase, hjob, rfl⟩
  · intro _ h
    cases h

theorem moved_runReady {t : ℕ} {k : Task Db V E} (htask : s.task t = some k)
    (hphase : k.phase = .ready) (h : s.runReady t k = some s') : Moved s (.run t) s' := by
  unfold SQLiteDatabase.runReady at h
  split at h
  · next hjob => cases h; exact moved_locks htask hphase (by rw [hjob]; simp)
  · next hjob => cases h; exact moved_locks htask hphase (by rw [hjob]; simp)
  · next hjob => cases h; exact .stops t k htask hjob hphase rfl
  · next hjob =>
    split_ifs at h
    · cases h; exact moved_refused htask (.inl hphase) (.inr (by rw [hjob]; simp))
    · cases h; exact moved_locks htask hphase (by rw [hjob]; simp)
  · next hjob =>
    split_ifs at h
    · cases h; exact moved_refused htask (.inl hphase) (.inr (by rw [hjob]; simp))
    · cases h; exact moved_locks htask hphase (by rw [hjob]; simp)
  · cases h

/-- A coroutine gets the lock and ends at once: the lock is as free as before. -/
theorem moved_passed {t : ℕ} {k : Task Db V E} {started closing : Bool}
    {result : Except (Raised E) (Option V)} (htask : s.task t = some k)
    (hphase : k.phase = .locking) (hfree : s.owner = none)
    (hstarted : started = s.started ∧ k.job ≠ .finishStop ∨ started = false) :
    Moved s l (SQLiteDatabase.finish
      { s with owner := none, started := started, closing := closing } t k result) := by
  refine .progress t k { k with phase := .ended result, cancelled := false }
    ⟨htask, fun u => SQLiteDatabase.task_put _ t u _, rfl, rfl, ?_, ?_, ?_, .inl hfree.symm, ?_, ?_,
      ?_, ?_, .inl rfl⟩
  · intro h
    cases h
  · intro u told h
    rw [hphase] at h
    cases h
  · intro u told h
    cases h
  · intro h
    cases h
  · intro h
    cases h
  · exact hstarted.imp And.left .inl
  · exact fun hjob _ => .inr ⟨hstarted.resolve_left fun h => h.2 hjob, hfree⟩

theorem moved_runLocked {t : ℕ} {k : Task Db V E} (htask : s.task t = some k)
    (hphase : k.phase = .locking) (hfree : s.owner = none) (h : s.runLocked t k = some s') :
    Moved s (.run t) s' := by
  unfold SQLiteDatabase.runLocked at h
  dsimp only at h
  split at h
  · next hjob =>
    split_ifs at h
    · cases h; exact moved_passed htask hphase hfree (.inl ⟨rfl, by rw [hjob]; simp⟩)
    · cases h; exact .acquired t k .start false htask hphase hfree (.inl hjob)
  · next hjob => cases h; exact moved_passed htask hphase hfree (.inr rfl)
  · next hjob =>
    split_ifs at h with hrefused
    · cases h; exact moved_passed htask hphase hfree (.inl ⟨rfl, by rw [hjob]; simp⟩)
    · cases h
      exact .acquired t k _ s.closing htask hphase hfree
        (.inr ⟨by rw [hjob]; rfl, by rw [hjob]; simp, by rw [hjob]; simp,
          by simp at hrefused; exact hrefused.1⟩)
  · next hjob =>
    split_ifs at h with hrefused
    · cases h; exact moved_passed htask hphase hfree (.inl ⟨rfl, by rw [hjob]; simp⟩)
    · cases h
      exact .acquired t k _ s.closing htask hphase hfree
        (.inr ⟨by rw [hjob]; rfl, by rw [hjob]; simp, by rw [hjob]; simp,
          by simp at hrefused; exact hrefused.1⟩)
  · cases h
  · cases h

/-- A coroutine ends after its worker: it releases the lock, unless it is a `stop()`. -/
theorem moved_settled {t worker : ℕ} {k w : Task Db V E} {told started : Bool}
    {owner : Option ℕ} {result : Except (Raised E) (Option V)} (htask : s.task t = some k)
    (hpublic : k.job.isPublic = true) (hphase : k.phase = .completing worker told)
    (hworker : s.task worker = some w) (hended : w.phase.isEnded = true)
    (howner : owner = s.owner ∨ (owner = none ∧ k.job ≠ .stop))
    (hstarted : started = s.started ∨ k.job = .start) :
    Moved s l (SQLiteDatabase.finish { s with owner := owner, started := started } t k result) := by
  have hw : WorkerEnded s k := ⟨worker, told, w, hphase, hworker, hended⟩
  refine .progress t k { k with phase := .ended result, cancelled := false }
    ⟨htask, fun u => SQLiteDatabase.task_put _ t u _, rfl, rfl, ?_, fun _ _ _ => .inr ⟨rfl, hw⟩, ?_, ?_, ?_, ?_,
      ?_, ?_, .inl rfl⟩
  · intro h
    cases h
  · intro u told h
    cases h
  · exact howner.imp_right fun h => ⟨h.1, h.2, rfl, hw⟩
  · intro h
    cases h
  · intro h
    cases h
  · refine hstarted.imp_right fun hjob => .inr ⟨hjob, ?_⟩
    rw [Task.inBody, hphase]
  · intro hjob
    rw [hjob] at hpublic
    cases hpublic

theorem moved_runCompleting {t worker : ℕ} {k : Task Db V E} {told : Bool}
    (htask : s.task t = some k) (hphase : k.phase = .completing worker told)
    (h : s.runCompleting t k worker told = some s') : Moved s (.run t) s' := by
  unfold SQLiteDatabase.runCompleting at h
  split at h
  · next hworker =>
    unfold SQLiteDatabase.settle at h
    split at h
    · next hjob =>
      cases h
      exact moved_settled htask (by rw [hjob]; rfl) hphase hworker rfl
        (.inr ⟨rfl, by rw [hjob]; simp⟩) (.inr hjob)
    · next hjob =>
      cases h
      exact moved_settled htask (by rw [hjob]; rfl) hphase hworker rfl (.inl rfl) (.inl rfl)
    · next hjob =>
      cases h
      exact moved_settled htask (by rw [hjob]; rfl) hphase hworker rfl
        (.inr ⟨rfl, by rw [hjob]; simp⟩) (.inl rfl)
    · next hjob =>
      cases h
      exact moved_settled htask (by rw [hjob]; rfl) hphase hworker rfl
        (.inr ⟨rfl, by rw [hjob]; simp⟩) (.inl rfl)
    · cases h
    · cases h
  · split_ifs at h
    cases h
    refine .progress t k { k with phase := .completing worker true, cancelled := false }
      ⟨htask, fun u => s.task_put t u _, rfl, rfl, ?_, ?_, ?_, .inl rfl, ?_, ?_, .inl rfl, ?_, .inl rfl⟩
    · exact fun _ => by rw [hphase]; rfl
    · intro u told' h
      rw [hphase] at h
      cases h
      exact .inl ⟨true, rfl⟩
    · intro u told' h
      cases h
      exact ⟨told, hphase⟩
    · exact fun _ => .inl (by rw [Task.inBody, hphase])
    · intro h
      cases h
    · intro _ h
      cases h

theorem moved_run {t : ℕ} (h : s.run t = some s') : Moved s (.run t) s' := by
  unfold SQLiteDatabase.run at h
  split at h
  · cases h
  · cases h
  · next k hnot htask =>
    split at h
    · next hphase =>
      split_ifs at h with hcancelled
      · cases h; exact moved_refused htask (.inl hphase) (.inl hcancelled)
      · exact moved_runReady htask hphase h
    · next hphase =>
      split_ifs at h with hcancelled hfree
      · cases h; exact moved_refused htask (.inr hphase) (.inl hcancelled)
      · exact moved_runLocked htask hphase hfree h
    · next worker told hphase => exact moved_runCompleting htask hphase h
    · cases h
    · cases h

/-- A worker thread goes on. -/
theorem moved_thread {u : ℕ} {k k' : Task Db V E} {rows : Db}
    (htask : s.task u = some k) (hjob : k'.job = k.job) (hthread : k.job.isThread = true)
    (hlive : k.phase.isEnded = false) (hbefore : k.inBody = false) (hafter : k'.inBody = false)
    (hcancelled : k'.cancelled = k.cancelled)
    (hrows : rows = s.rows ∨ ∃ v faults, l = .finish v faults) :
    Moved s l (SQLiteDatabase.put { s with rows := rows } u k') := by
  have hphase : ∀ (k : Task Db V E) v told, k.inBody = false → k.phase ≠ .completing v told := by
    intro k v told hbody hphase
    rw [Task.inBody, hphase] at hbody
    cases hbody
  refine .progress u k k'
    ⟨htask, fun v => SQLiteDatabase.task_put _ u v _, rfl, hjob, fun _ => hlive, ?_, ?_, .inl rfl, ?_, ?_,
      .inl rfl, ?_, hrows⟩
  · exact fun v told h => absurd h (hphase k v told hbefore)
  · exact fun v told h => absurd h (hphase k' v told hafter)
  · intro h
    rw [hafter] at h
    cases h
  · exact fun h => .inl (hcancelled ▸ h)
  · intro h
    rw [h] at hthread
    cases hthread

/-- **Everything that a step does.** -/
theorem moved_of_step (h : step startSync s l = some s') : Moved s l s' := by
  cases l with
  | call job =>
    simp only [step] at h
    split_ifs at h with hpublic
    cases h
    exact .called job hpublic
  | cancel t =>
    simp only [step] at h
    split at h
    · cases h
    · next k _ htask =>
      split_ifs at h with hpublic
      cases h
      refine .progress t k { k with cancelled := true }
        ⟨htask, fun u => s.task_put t u _, rfl, rfl, id, fun u told h => .inl ⟨told, h⟩,
          fun u told h => ⟨told, h⟩, .inl rfl, .inl, fun _ => .inr hpublic, .inl rfl, ?_, .inl rfl⟩
      intro hjob
      rw [hjob] at hpublic
      cases hpublic
    · cases h
  | run t => exact moved_run h
  | begin u =>
    simp only [step] at h
    split at h
    · next htask => cases h; exact moved_thread htask rfl rfl rfl rfl rfl rfl (.inl rfl)
    · cases h
  | finish u faults =>
    simp only [step] at h
    split at h
    · next htask => cases h; exact moved_thread htask rfl rfl rfl rfl rfl rfl (.inr ⟨u, faults, rfl⟩)
    · cases h

theorem rows_moved (hmoved : Moved s l s') (hl : ∀ u faults, l ≠ .finish u faults) :
    s'.rows = s.rows := by
  cases hmoved with
  | called job _ => rfl
  | progress t k k' h =>
    rcases h.rows with hsame | ⟨u, faults, hfinish⟩
    · exact hsame
    · exact absurd hfinish (hl u faults)
  | stops t k _ _ _ _ => rfl
  | acquired t k work closing _ _ _ _ => rfl

/-! ## The invariant -/

/-- A worker that has not ended is awaited by the task that has the lock, and the body
of a `stop()` by that call. -/
structure Serial (s : SQLiteDatabase Db V E) : Prop where
  absent : ∀ u, s.count ≤ u → s.task u = none
  thread : ∀ u k, Live s u k → k.job.isThread = true → ∃ t, s.owner = some t ∧ Awaits s t u
  finishStop : ∀ u k, Live s u k → k.job = .finishStop →
    ∃ t kt, s.task t = some kt ∧ kt.job = .stop ∧ Awaits s t u
  locked : ∀ t k u told, s.task t = some k → k.phase = .completing u told → k.job ≠ .stop →
    s.owner = some t

theorem serial_init (rows : Db) : Serial (SQLiteDatabase.init (V := V) (E := E) rows) where
  absent := fun _ _ => rfl
  thread := fun _ _ h => nomatch h.1
  finishStop := fun _ _ h => nomatch h.1
  locked := fun _ _ _ _ h => nomatch h

theorem Serial.lt_count (h : Serial s) {t : ℕ} {k : Task Db V E} (htask : s.task t = some k) :
    t < s.count := by
  by_contra hle
  rw [h.absent t (by omega)] at htask
  cases htask

theorem Progress.live_cases {t u : ℕ} {k k' w : Task Db V E} (h : Progress s l s' t k k')
    (hlive : Live s' u w) : ∃ w', Live s u w' ∧ w'.job = w.job := by
  obtain ⟨htask, hended⟩ := hlive
  rw [h.task] at htask
  split_ifs at htask with hu
  · cases htask
    subst hu
    exact ⟨k, ⟨h.before, h.live hended⟩, h.job.symm⟩
  · exact ⟨w, ⟨htask, hended⟩, rfl⟩

/-- A live task is awaited as before. -/
theorem Progress.awaits_live {t t' u : ℕ} {k k' w : Task Db V E} (h : Progress s l s' t k k')
    (hlive : Live s u w) (hawaits : Awaits s t' u) : Awaits s' t' u := by
  obtain ⟨k₀, told, htask, hphase⟩ := hawaits
  by_cases ht : t' = t
  · subst ht
    obtain rfl : k = k₀ := Option.some.inj (h.before.symm.trans htask)
    rcases h.awaits u told hphase with ⟨told', hphase'⟩ | ⟨_, u', told', w', hphase', hw', hended⟩
    · exact ⟨k', told', by rw [h.task, if_pos rfl], hphase'⟩
    · rw [hphase] at hphase'
      cases hphase'
      obtain rfl : w = w' := Option.some.inj (hlive.1.symm.trans hw')
      rw [hlive.2] at hended
      cases hended
  · exact ⟨k₀, told, by rw [h.task, if_neg ht]; exact htask, hphase⟩

theorem Serial.progress (hs : Serial s) {t : ℕ} {k k' : Task Db V E}
    (h : Progress s l s' t k k') : Serial s' := by
  refine ⟨fun u hu => ?_, fun u w hlive hthread => ?_, fun u w hlive hjob => ?_,
    fun t' k₁ u told htask hphase hjob => ?_⟩
  · rw [h.count] at hu
    rw [h.task, if_neg, hs.absent u hu]
    rintro rfl
    exact absurd (hs.lt_count h.before) (by omega)
  · obtain ⟨w', hlive', hjob⟩ := h.live_cases hlive
    obtain ⟨t', howner, hawaits⟩ := hs.thread u w' hlive' (by rw [hjob]; exact hthread)
    refine ⟨t', ?_, h.awaits_live hlive' hawaits⟩
    rcases h.owner with hsame | ⟨_, hstop, _, u', told, w₁, hphase, hw₁, hended⟩
    · exact hsame.trans howner
    · -- The lock is released by its owner, whose worker has ended.
      obtain rfl : t = t' :=
        Option.some.inj ((hs.locked t k u' told h.before hphase hstop).symm.trans howner)
      obtain ⟨k₀, told', htask, hphase'⟩ := hawaits
      obtain rfl : k = k₀ := Option.some.inj (h.before.symm.trans htask)
      rw [hphase] at hphase'
      cases hphase'
      obtain rfl : w' = w₁ := Option.some.inj (hlive'.1.symm.trans hw₁)
      rw [hlive'.2] at hended
      cases hended
  · obtain ⟨w', hlive', hjob'⟩ := h.live_cases hlive
    obtain ⟨t', kt, htask, hstop, hawaits⟩ := hs.finishStop u w' hlive' (hjob'.trans hjob)
    by_cases ht : t' = t
    · subst ht
      obtain rfl : k = kt := Option.some.inj (h.before.symm.trans htask)
      exact ⟨t', k', by rw [h.task, if_pos rfl], h.job.trans hstop, h.awaits_live hlive' hawaits⟩
    · exact ⟨t', kt, by rw [h.task, if_neg ht]; exact htask, hstop,
        h.awaits_live hlive' hawaits⟩
  · have howner : s.owner = some t' := by
      rw [h.task] at htask
      split_ifs at htask with ht
      · cases htask
        subst ht
        obtain ⟨told', hphase'⟩ := h.new u told hphase
        exact hs.locked t' k u told' h.before hphase' (by rw [← h.job]; exact hjob)
      · exact hs.locked t' k₁ u told htask hphase hjob
    rcases h.owner with hsame | ⟨_, hstop, hended, u', told', _, hphase', _, _⟩
    · exact hsame.trans howner
    · obtain rfl : t = t' :=
        Option.some.inj ((hs.locked t k u' told' h.before hphase' hstop).symm.trans howner)
      rw [h.task, if_pos rfl] at htask
      cases htask
      rw [hphase] at hended
      cases hended

theorem private_of_isThread {job : Job Db V E} (h : job.isThread = true) : job.isPublic = false := by
  cases job with
  | thread work => rfl
  | _ => cases h

theorem Serial.called (hs : Serial s) {job : Job Db V E} (hpublic : job.isPublic = true) :
    Serial (s.spawn job) := by
  have hlive : ∀ u w, Live (s.spawn job) u w → w.job.isPublic = false → Live s u w := by
    rintro u w ⟨htask, hended⟩ hprivate
    rw [SQLiteDatabase.task_spawn] at htask
    split_ifs at htask
    · cases htask
      rw [hpublic] at hprivate
      cases hprivate
    · exact ⟨htask, hended⟩
  have hbefore : ∀ t k, s.task t = some k → (s.spawn job).task t = some k := by
    intro t k htask
    rw [SQLiteDatabase.task_spawn, if_neg]
    · exact htask
    · exact Nat.ne_of_lt (hs.lt_count htask)
  have hawaits : ∀ t u, Awaits s t u → Awaits (s.spawn job) t u := fun t u ⟨k, told, htask, hphase⟩ =>
    ⟨k, told, hbefore t k htask, hphase⟩
  refine ⟨fun u hu => ?_, fun u w hl hthread => ?_, fun u w hl hjob => ?_,
    fun t k u told htask hphase hjob => ?_⟩
  · rw [SQLiteDatabase.count_spawn] at hu
    rw [SQLiteDatabase.task_spawn, if_neg (by omega)]
    exact hs.absent u (by omega)
  · obtain ⟨t, howner, hawaited⟩ :=
      hs.thread u w (hlive u w hl (private_of_isThread hthread)) hthread
    exact ⟨t, howner, hawaits t u hawaited⟩
  · obtain ⟨t, kt, htask, hstop, hawaited⟩ := hs.finishStop u w (hlive u w hl (by rw [hjob]; rfl)) hjob
    exact ⟨t, kt, hbefore t kt htask, hstop, hawaits t u hawaited⟩
  · rw [SQLiteDatabase.task_spawn] at htask
    split_ifs at htask
    · cases htask
      cases hphase
    · exact hs.locked t k u told htask hphase hjob

theorem task_awaitCompletion (s : SQLiteDatabase Db V E) (t u : ℕ) (k : Task Db V E)
    (job : Job Db V E) :
    (s.awaitCompletion t k job).task u =
      if u = t then some { k with phase := .completing s.count false }
      else if u = s.count then some ⟨job, .ready, false⟩ else s.task u := by
  rw [SQLiteDatabase.awaitCompletion, SQLiteDatabase.task_put, SQLiteDatabase.task_spawn]

/-- A task that awaits nothing begins to await a new task: a `stop()` its body, and a task
that has got the lock its worker. -/
theorem Serial.awaitCompletion (hs : Serial s) {s₀ : SQLiteDatabase Db V E} {t : ℕ}
    {k : Task Db V E} {job : Job Db V E} (htask : s.task t = some k)
    (hphase : k.phase = .ready ∨ k.phase = .locking) (hpublic : k.job.isPublic = true)
    (hsame : s₀.task = s.task ∧ s₀.count = s.count)
    (hjob : (k.job = .stop ∧ job = .finishStop ∧ s₀.owner = s.owner) ∨
      (k.job ≠ .stop ∧ job.isThread = true ∧ s.owner = none ∧ s₀.owner = some t)) :
    Serial (s₀.awaitCompletion t k job) := by
  have hlt := hs.lt_count htask
  have hself : ∀ u, ¬ Awaits s t u := by
    rintro u ⟨k₀, told, htask₀, hphase₀⟩
    obtain rfl : k = k₀ := Option.some.inj (htask.symm.trans htask₀)
    rcases hphase with h | h <;> · rw [h] at hphase₀; cases hphase₀
  have hlook : ∀ u, (s₀.awaitCompletion t k job).task u =
      if u = t then some { k with phase := .completing s.count false }
      else if u = s.count then some ⟨job, .ready, false⟩ else s.task u := by
    intro u
    rw [task_awaitCompletion, hsame.1, hsame.2]
  have howner : (s₀.awaitCompletion t k job).owner = s₀.owner := rfl
  have hbefore : ∀ t' k', s.task t' = some k' → t' ≠ t →
      (s₀.awaitCompletion t k job).task t' = some k' := by
    intro t' k' htask' ht'
    rw [hlook, if_neg ht', if_neg (Nat.ne_of_lt (hs.lt_count htask'))]
    exact htask'
  have hawaits : ∀ t' u, Awaits s t' u → Awaits (s₀.awaitCompletion t k job) t' u := by
    intro t' u hawaited
    have ht' : t' ≠ t := by
      rintro rfl
      exact hself u hawaited
    obtain ⟨k', told, htask', hphase'⟩ := hawaited
    exact ⟨k', told, hbefore t' k' htask' ht', hphase'⟩
  have hchild : Awaits (s₀.awaitCompletion t k job) t s.count :=
    ⟨_, false, by rw [hlook, if_pos rfl], rfl⟩
  refine ⟨fun u hu => ?_, fun u w hl hthread => ?_, fun u w hl hw => ?_,
    fun t' k' u told htask' hphase' hstop => ?_⟩
  · have hu' : s.count + 1 ≤ u := hsame.2 ▸ hu
    rw [hlook, if_neg (by omega), if_neg (by omega)]
    exact hs.absent u (by omega)
  · obtain ⟨hw, hended⟩ := hl
    rw [hlook] at hw
    split_ifs at hw with ht hu
    · cases hw
      rw [private_of_isThread hthread] at hpublic
      cases hpublic
    · cases hw
      subst hu
      rcases hjob with ⟨_, rfl, _⟩ | ⟨_, _, _, hlock⟩
      · cases hthread
      · exact ⟨t, hlock, hchild⟩
    · obtain ⟨t', hlock, hawaited⟩ := hs.thread u w ⟨hw, hended⟩ hthread
      rcases hjob with ⟨_, _, hkeep⟩ | ⟨_, _, hfree, _⟩
      · exact ⟨t', hkeep.trans hlock, hawaits t' u hawaited⟩
      · rw [hfree] at hlock
        cases hlock
  · obtain ⟨hw', hended⟩ := hl
    rw [hlook] at hw'
    split_ifs at hw' with ht hu
    · cases hw'
      rw [show k.job = .finishStop from hw] at hpublic
      cases hpublic
    · cases hw'
      subst hu
      rcases hjob with ⟨hstop, _, _⟩ | ⟨_, hthread, _, _⟩
      · exact ⟨t, { k with phase := .completing s.count false }, by rw [hlook, if_pos rfl], hstop,
          hchild⟩
      · rw [show job = .finishStop from hw] at hthread
        cases hthread
    · obtain ⟨t', kt, htask', hstop, hawaited⟩ := hs.finishStop u w ⟨hw', hended⟩ hw
      have ht' : t' ≠ t := by
        rintro rfl
        exact hself u hawaited
      exact ⟨t', kt, hbefore t' kt htask' ht', hstop, hawaits t' u hawaited⟩
  · rw [hlook] at htask'
    split_ifs at htask' with ht hu
    · cases htask'
      rcases hjob with ⟨hstop', _, _⟩ | ⟨_, _, _, hlock⟩
      · exact absurd hstop' hstop
      · rw [ht]
        exact hlock
    · cases htask'
      cases hphase'
    · have hlock := hs.locked t' k' u told htask' hphase' hstop
      rcases hjob with ⟨_, _, hkeep⟩ | ⟨_, _, hfree, _⟩
      · exact hkeep.trans hlock
      · rw [hfree] at hlock
        cases hlock

/-- **Every step keeps the invariant.** -/
theorem Serial.moved (hs : Serial s) (hmoved : Moved s l s') : Serial s' := by
  cases hmoved with
  | called job hpublic => exact hs.called hpublic
  | progress t k k' h => exact hs.progress h
  | stops t k htask hjob hphase _ =>
    exact hs.awaitCompletion htask (.inl hphase) (by rw [hjob]; rfl) ⟨rfl, rfl⟩
      (.inl ⟨hjob, rfl, rfl⟩)
  | acquired t k work closing htask hphase hfree hstarted =>
    have hpublic : k.job.isPublic = true ∧ k.job ≠ .stop := by
      rcases hstarted with hjob | ⟨hpublic, hstop, _, _⟩
      · rw [hjob]
        exact ⟨rfl, by simp⟩
      · exact ⟨hpublic, hstop⟩
    exact hs.awaitCompletion htask (.inr hphase) hpublic.1 ⟨rfl, rfl⟩
      (.inr ⟨hpublic.2, rfl, hfree, rfl⟩)

/-! ## A `stop()` is final -/

/-- No `start()` begins while a `stop()` is in its body, and the other way round. -/
def apart (s : SQLiteDatabase Db V E) : Label Db V E → Prop
  | .run t => ∀ k, s.task t = some k → k.phase = .ready → ∀ t' k', s.task t' = some k' →
      k'.inBody = true → ¬ (k.job = .start ∧ k'.job = .stop) ∧ ¬ (k.job = .stop ∧ k'.job = .start)
  | _ => True

/-- No `start()` begins. -/
def startsNothing (s : SQLiteDatabase Db V E) : Label Db V E → Prop
  | .run t => ∀ k, s.task t = some k → k.phase = .ready → k.job ≠ .start
  | _ => True

/-- The database is not started, and no worker is there that has not ended. -/
def Idle (s : SQLiteDatabase Db V E) : Prop :=
  s.started = false ∧ ∀ u k, Live s u k → k.job.isThread = false

/-- No `start()` is in its body. -/
def Unstarted (s : SQLiteDatabase Db V E) : Prop :=
  ∀ t k, s.task t = some k → k.job = .start → k.inBody = false

/-- A `stop()` in its body has no `start()` beside it, and leaves an idle database when
its task is done. -/
structure Stopping (s : SQLiteDatabase Db V E) : Prop where
  spared : ∀ u k, s.task u = some k → k.job.isPublic = false → k.cancelled = false
  alone : ∀ t k, s.task t = some k → k.job = .stop → k.inBody = true → Unstarted s
  final : ∀ t k, s.task t = some k → k.job = .stop → k.inBody = true →
    ∃ u told w, k.phase = .completing u told ∧ s.task u = some w ∧ w.job = .finishStop ∧
      (w.phase.isEnded = true → Idle s)

theorem stopping_init (rows : Db) : Stopping (SQLiteDatabase.init (V := V) (E := E) rows) where
  spared := fun _ _ h => nomatch h
  alone := fun _ _ h => nomatch h
  final := fun _ _ h => nomatch h

/-- A task that is in its body after the progress was so before, or began. -/
theorem Progress.body_cases {t t' : ℕ} {k k' w : Task Db V E} (h : Progress s l s' t k k')
    (htask : s'.task t' = some w) (hbody : w.inBody = true) :
    (∃ w', s.task t' = some w' ∧ w'.job = w.job ∧ w'.inBody = true) ∨
      (t' = t ∧ k.job = w.job ∧ k.phase = .ready ∧ k.job ≠ .stop ∧ l = .run t) := by
  rw [h.task] at htask
  split_ifs at htask with ht
  · cases htask
    rcases h.body hbody with hbefore | ⟨hphase, hstop, hlabel⟩
    · exact .inl ⟨k, by rw [ht]; exact h.before, h.job.symm, hbefore⟩
    · exact .inr ⟨ht, h.job.symm, hphase, hstop, hlabel⟩
  · exact .inl ⟨w, htask, rfl, hbody⟩

/-- Without a `start()` that begins none gets into its body. -/
theorem unstarted_moved (hs : Unstarted s) (hl : startsNothing s l) (hmoved : Moved s l s') :
    Unstarted s' := by
  intro t' w htask hjob
  cases hmoved with
  | called job _ =>
    rw [SQLiteDatabase.task_spawn] at htask
    split_ifs at htask
    · cases htask
      rfl
    · exact hs t' w htask hjob
  | progress t k k' h =>
    rw [← Bool.not_eq_true]
    intro hbody
    rcases h.body_cases htask hbody with ⟨w', htask', hjob', hbody'⟩ | ⟨_, hjob', hphase, _, rfl⟩
    · rw [hs t' w' htask' (hjob'.trans hjob)] at hbody'
      cases hbody'
    · exact hl k h.before hphase (hjob'.trans hjob)
  | stops t k _ hstop _ _ =>
    rw [task_awaitCompletion] at htask
    split_ifs at htask
    · cases htask
      rw [hstop] at hjob
      cases hjob
    · cases htask
      cases hjob
    · exact hs t' w htask hjob
  | acquired t k work closing hbefore hphase _ _ =>
    rw [task_awaitCompletion] at htask
    split_ifs at htask
    · cases htask
      have hbody := hs t k hbefore hjob
      rw [Task.inBody, hphase] at hbody
      cases hbody
    · cases htask
      cases hjob
    · exact hs t' w htask hjob

/-- An idle database stays idle as long as no `start()` is in its body. -/
theorem idle_moved (hs : Idle s) (hunstarted : Unstarted s) (hmoved : Moved s l s') : Idle s' := by
  cases hmoved with
  | called job hpublic =>
    refine ⟨hs.1, fun u w ⟨htask, hended⟩ => ?_⟩
    rw [SQLiteDatabase.task_spawn] at htask
    split_ifs at htask
    · cases htask
      rw [← Bool.not_eq_true]
      intro hthread
      rw [private_of_isThread hthread] at hpublic
      cases hpublic
    · exact hs.2 u w ⟨htask, hended⟩
  | progress t k k' h =>
    refine ⟨?_, fun u w hlive => ?_⟩
    · rcases h.started with hsame | hnot | ⟨hjob, hbody⟩
      · exact hsame.trans hs.1
      · exact hnot
      · rw [hunstarted t k h.before hjob] at hbody
        cases hbody
    · obtain ⟨w', hlive', hjob⟩ := h.live_cases hlive
      rw [← hjob]
      exact hs.2 u w' hlive'
  | stops t k htask hjob hphase _ =>
    refine ⟨hs.1, fun u w ⟨hw, hended⟩ => ?_⟩
    rw [task_awaitCompletion] at hw
    split_ifs at hw
    · cases hw
      show k.job.isThread = false
      rw [hjob]
      rfl
    · cases hw
      rfl
    · exact hs.2 u w ⟨hw, hended⟩
  | acquired t k work closing htask hphase hfree hstarted =>
    -- Only a `start()` gets the lock of a database that is not started.
    rcases hstarted with hjob | ⟨_, _, _, hstarted⟩
    · have hbody := hunstarted t k htask hjob
      rw [Task.inBody, hphase] at hbody
      cases hbody
    · rw [hs.1] at hstarted
      cases hstarted

/-- A `stop()` in its body was there before the step, or has just begun. -/
theorem stop_cases {t : ℕ} {k' : Task Db V E} (hmoved : Moved s l s') (htask : s'.task t = some k')
    (hjob : k'.job = .stop) (hbody : k'.inBody = true) :
    (∃ k, s.task t = some k ∧ k.job = .stop ∧ k.inBody = true ∧
      ∀ u told, k.phase = .completing u told → ∃ told', k'.phase = .completing u told') ∨
    (l = .run t ∧ ∃ k, s.task t = some k ∧ k.job = .stop ∧ k.phase = .ready ∧
      k'.phase = .completing s.count false ∧
      (t ≠ s.count → s'.task s.count = some ⟨.finishStop, .ready, false⟩)) := by
  cases hmoved with
  | called job _ =>
    rw [SQLiteDatabase.task_spawn] at htask
    split_ifs at htask
    · cases htask
      cases hbody
    · exact .inl ⟨k', htask, hjob, hbody, fun u told h => ⟨told, h⟩⟩
  | progress t₀ k k₀ h =>
    rw [h.task] at htask
    split_ifs at htask with ht
    · cases htask
      subst ht
      rcases h.body hbody with hbefore | ⟨_, hstop, _⟩
      · refine .inl ⟨k, h.before, h.job.symm.trans hjob, hbefore, fun u told hphase => ?_⟩
        rcases h.awaits u told hphase with hgoes | ⟨hended, _⟩
        · exact hgoes
        · unfold Task.inBody at hbody
          unfold Phase.isEnded at hended
          split at hended
          · next hphase' =>
            rw [hphase'] at hbody
            cases hbody
          · cases hended
      · exact absurd (h.job.symm.trans hjob) hstop
    · exact .inl ⟨k', htask, hjob, hbody, fun u told h => ⟨told, h⟩⟩
  | stops t₀ k hbefore hstop hphase hlabel =>
    rw [task_awaitCompletion] at htask
    split_ifs at htask with ht
    · cases htask
      subst ht
      refine .inr ⟨hlabel, k, hbefore, hstop, hphase, rfl, fun hne => ?_⟩
      rw [task_awaitCompletion, if_neg hne.symm, if_pos rfl]
    · cases htask
      cases hbody
    · exact .inl ⟨k', htask, hjob, hbody, fun u told h => ⟨told, h⟩⟩
  | acquired t₀ k work closing hbefore hphase _ hstarted =>
    rw [task_awaitCompletion] at htask
    split_ifs at htask
    · cases htask
      rcases hstarted with hstart | ⟨_, hstop, _, _⟩
      · rw [hjob] at hstart
        cases hstart
      · exact absurd hjob hstop
    · cases htask
      cases hbody
    · exact .inl ⟨k', htask, hjob, hbody, fun u told h => ⟨told, h⟩⟩

/-- Beside a `stop()` in its body no `start()` begins. -/
theorem startsNothing_of_apart {t : ℕ} {k : Task Db V E} (hl : apart s l) (htask : s.task t = some k)
    (hjob : k.job = .stop) (hbody : k.inBody = true) : startsNothing s l := by
  cases l with
  | run t₀ => exact fun k₀ htask₀ hphase₀ hstart =>
      (hl k₀ htask₀ hphase₀ t k htask hbody).1 ⟨hstart, hjob⟩
  | _ => trivial

/-- Beside a `stop()` in its body no `start()` begins, and none is in its body. -/
theorem Stopping.unstarted {t : ℕ} {k' : Task Db V E} (hs : Stopping s) (hl : apart s l)
    (hmoved : Moved s l s') (htask : s'.task t = some k') (hjob : k'.job = .stop)
    (hbody : k'.inBody = true) : Unstarted s ∧ startsNothing s l := by
  rcases stop_cases hmoved htask hjob hbody with
    ⟨k, hbefore, hstop, hbody', _⟩ | ⟨rfl, k, hbefore, hstop, hphase, _, _⟩
  · exact ⟨hs.alone t k hbefore hstop hbody', startsNothing_of_apart hl hbefore hstop hbody'⟩
  · refine ⟨fun t₀ k₀ htask₀ hstart => ?_, fun k₀ htask₀ _ hstart => ?_⟩
    · rw [← Bool.not_eq_true]
      exact fun hbody₀ => (hl k hbefore hphase t₀ k₀ htask₀ hbody₀).2 ⟨hstop, hstart⟩
    · obtain rfl : k = k₀ := Option.some.inj (hbefore.symm.trans htask₀)
      rw [hstop] at hstart
      cases hstart

/-- The body of a `stop()` ends with an idle database. -/
theorem finishStop_moved {u : ℕ} {w : Task Db V E} (hserial : Serial s) (hs : Stopping s)
    (hunstarted : Unstarted s) (hmoved : Moved s l s') (htask : s.task u = some w)
    (hjob : w.job = .finishStop) (hidle : w.phase.isEnded = true → Idle s) :
    ∃ w', s'.task u = some w' ∧ w'.job = .finishStop ∧ (w'.phase.isEnded = true → Idle s') := by
  have hkeep : ∀ w', s'.task u = some w' → w' = w →
      ∃ w', s'.task u = some w' ∧ w'.job = .finishStop ∧ (w'.phase.isEnded = true → Idle s') := by
    rintro w' hw' rfl
    exact ⟨w', hw', hjob, fun hended => idle_moved (hidle hended) hunstarted hmoved⟩
  have hcount := hserial.lt_count htask
  have hpublic : w.job.isPublic = false := by
    rw [hjob]
    rfl
  cases hmoved with
  | called job _ =>
    refine hkeep w ?_ rfl
    rw [SQLiteDatabase.task_spawn, if_neg (Nat.ne_of_lt hcount)]
    exact htask
  | progress t k k' h =>
    by_cases ht : u = t
    · subst ht
      obtain rfl : k = w := Option.some.inj (h.before.symm.trans htask)
      refine ⟨k', by rw [h.task, if_pos rfl], h.job.trans hjob, fun hended => ?_⟩
      rcases h.finished hjob hended with hcancelled | ⟨hnot, hfree⟩
      · rw [hs.spared u k htask hpublic] at hcancelled
        cases hcancelled
      · -- The lock was free, so that no worker is left.
        refine ⟨hnot, fun v x hlive => ?_⟩
        obtain ⟨x', hlive', hjob'⟩ := h.live_cases hlive
        rw [← hjob', ← Bool.not_eq_true]
        intro hthread
        obtain ⟨t', howner, _⟩ := hserial.thread v x' hlive' hthread
        rw [hfree] at howner
        cases howner
    · refine hkeep w ?_ rfl
      rw [h.task, if_neg ht]
      exact htask
  | stops t k hbefore hstop _ _ =>
    refine hkeep w ?_ rfl
    have ht : u ≠ t := by
      rintro rfl
      rw [Option.some.inj (htask.symm.trans hbefore), hstop] at hjob
      cases hjob
    rw [task_awaitCompletion, if_neg ht, if_neg (Nat.ne_of_lt hcount)]
    exact htask
  | acquired t k work closing hbefore _ _ hstarted =>
    refine hkeep w ?_ rfl
    have ht : u ≠ t := by
      rintro rfl
      rw [Option.some.inj (htask.symm.trans hbefore)] at hjob hpublic
      rcases hstarted with hstart | ⟨hpublic', _, _, _⟩
      · rw [hstart] at hjob
        cases hjob
      · rw [hpublic'] at hpublic
        cases hpublic
    rw [task_awaitCompletion, if_neg ht, if_neg (Nat.ne_of_lt hcount)]
    exact htask

theorem spared_moved (hs : Stopping s) (hmoved : Moved s l s') (u : ℕ) (k' : Task Db V E)
    (htask : s'.task u = some k') (hprivate : k'.job.isPublic = false) : k'.cancelled = false := by
  cases hmoved with
  | called job _ =>
    rw [SQLiteDatabase.task_spawn] at htask
    split_ifs at htask
    · cases htask
      rfl
    · exact hs.spared u k' htask hprivate
  | progress t k k₀ h =>
    rw [h.task] at htask
    split_ifs at htask
    · cases htask
      rw [h.job] at hprivate
      rw [← Bool.not_eq_true]
      intro hcancelled
      rcases h.cancelled hcancelled with hbefore | hpublic
      · rw [hs.spared t k h.before hprivate] at hbefore
        cases hbefore
      · rw [hpublic] at hprivate
        cases hprivate
    · exact hs.spared u k' htask hprivate
  | stops t k hbefore hstop _ _ =>
    rw [task_awaitCompletion] at htask
    split_ifs at htask
    · cases htask
      exact hs.spared t k hbefore hprivate
    · cases htask
      rfl
    · exact hs.spared u k' htask hprivate
  | acquired t k work closing hbefore _ _ _ =>
    rw [task_awaitCompletion] at htask
    split_ifs at htask
    · cases htask
      exact hs.spared t k hbefore hprivate
    · cases htask
      rfl
    · exact hs.spared u k' htask hprivate

theorem Stopping.moved (hserial : Serial s) (hs : Stopping s) (hl : apart s l)
    (hmoved : Moved s l s') : Stopping s' := by
  refine ⟨spared_moved hs hmoved, fun t k' htask hjob hbody => ?_, fun t k' htask hjob hbody => ?_⟩
  · obtain ⟨hunstarted, hstarts⟩ := hs.unstarted hl hmoved htask hjob hbody
    exact unstarted_moved hunstarted hstarts hmoved
  · obtain ⟨hunstarted, hstarts⟩ := hs.unstarted hl hmoved htask hjob hbody
    rcases stop_cases hmoved htask hjob hbody with
      ⟨k, hbefore, hstop, hbody', hgoes⟩ | ⟨_, k, hbefore, _, _, hphase, hchild⟩
    · obtain ⟨u, told, w, hphase, hw, hfinish, hidle⟩ := hs.final t k hbefore hstop hbody'
      obtain ⟨told', hphase'⟩ := hgoes u told hphase
      obtain ⟨w', hw', hfinish', hidle'⟩ :=
        finishStop_moved hserial hs hunstarted hmoved hw hfinish hidle
      exact ⟨u, told', w', hphase', hw', hfinish', hidle'⟩
    · refine ⟨s.count, false, _, hphase, hchild (Nat.ne_of_lt (hserial.lt_count hbefore)), rfl, ?_⟩
      intro h
      cases h

/-! ## The result -/

/-- At most one worker has not ended. -/
def OneWorker (s : SQLiteDatabase Db V E) : Prop :=
  ∀ u u' k k', Live s u k → Live s u' k' → k.job.isThread = true → k'.job.isThread = true → u = u'

/-- A worker that has not ended is awaited by the task that has the lock. -/
def LockHeld (s : SQLiteDatabase Db V E) : Prop :=
  ∀ u k, Live s u k → k.job.isThread = true → ∃ t, s.owner = some t ∧ Awaits s t u

/-- Rows change only at the end of a worker; a write commits all its changes or none. -/
def Atomic (s : SQLiteDatabase Db V E) (l : Label Db V E) (s' : SQLiteDatabase Db V E) : Prop :=
  match l with
  | .finish u _ => ∀ operation cancelled,
      s.task u = some ⟨.thread (.execute operation true), .running, cancelled⟩ →
        (∃ value, s'.task u =
            some ⟨.thread (.execute operation true), .ended (.ok (some value)), cancelled⟩ ∧
          operation s.rows = (.ok value, s'.rows)) ∨
        ∃ e, s'.task u = some ⟨.thread (.execute operation true), .ended (.error e), cancelled⟩ ∧
          s'.rows = s.rows
  | _ => s'.rows = s.rows

theorem executeSync_write (faults : Faults) (operation : DatabaseOperation Db V E) (rows : Db) :
    (∃ value, executeSync faults operation true rows = (.ok value, (operation rows).2) ∧
      (operation rows).1 = .ok value) ∨
    ∃ e, executeSync faults operation true rows = (.error e, rows) := by
  unfold executeSync
  cases faults.connect with
  | some corruption => exact .inr ⟨_, rfl⟩
  | none =>
    cases faults.begin with
    | some corruption => exact .inr ⟨_, rfl⟩
    | none =>
      have hlogged : (rollbackLogged faults ⟨rows, some (operation rows).2⟩).close = rows := by
        unfold rollbackLogged
        split <;> rfl
      cases hresult : (operation rows).1 with
      | error e =>
        refine .inr ⟨e, ?_⟩
        simp [Connection.run, Connection.begin, hresult, hlogged]
      | ok value =>
        cases hcommit : faults.commit with
        | some corruption =>
          refine .inr ⟨.sqlite corruption, ?_⟩
          simp [Connection.run, Connection.begin, hresult, hlogged]
        | none =>
          refine .inl ⟨value, ?_, rfl⟩
          simp [Connection.run, Connection.begin, Connection.commit, Connection.close, hresult]

theorem atomic_of_step (h : step startSync s l = some s') : Atomic s l s' := by
  cases l with
  | call job => exact rows_moved (moved_of_step h) (by simp)
  | cancel t => exact rows_moved (moved_of_step h) (by simp)
  | run t => exact rows_moved (moved_of_step h) (by simp)
  | begin u => exact rows_moved (moved_of_step h) (by simp)
  | finish u faults =>
    intro operation cancelled htask
    simp only [step, htask] at h
    cases h
    rcases executeSync_write faults operation s.rows with ⟨value, hresult, hvalue⟩ | ⟨e, hresult⟩
    · refine .inl ⟨value, ?_, ?_⟩
      · rw [SQLiteDatabase.task_put, if_pos rfl, Work.perform, hresult]
        rfl
      · show operation s.rows = (.ok value, (Work.perform startSync _ faults s.rows).2)
        rw [Work.perform, hresult, ← hvalue]
    · refine .inr ⟨e, ?_, ?_⟩
      · rw [SQLiteDatabase.task_put, if_pos rfl, Work.perform, hresult]
        rfl
      · show (Work.perform startSync _ faults s.rows).2 = s.rows
        rw [Work.perform, hresult]

/-- A task ends only when what it awaits has ended. -/
theorem ended_of_moved {t u : ℕ} {k k' : Task Db V E} {told : Bool} (hserial : Serial s)
    (hmoved : Moved s l s') (htask : s.task t = some k) (hphase : k.phase = .completing u told)
    (htask' : s'.task t = some k') (hended : k'.phase.isEnded = true) : WorkerEnded s k := by
  have hsame : s'.task t ≠ some k := by
    intro h
    obtain rfl : k' = k := Option.some.inj (htask'.symm.trans h)
    rw [hphase] at hended
    cases hended
  have hother : ∀ {k₀ : Task Db V E} {job : Job Db V E} {s₀ : SQLiteDatabase Db V E} {t₀ : ℕ},
      s₀.task = s.task → s₀.count = s.count → s.task t₀ = some k₀ →
      k₀.phase = .ready ∨ k₀.phase = .locking →
      (s₀.awaitCompletion t₀ k₀ job).task t = some k := by
    intro k₀ job s₀ t₀ htasks hcount hk₀ hphase₀
    have ht : t ≠ t₀ := by
      rintro rfl
      rw [Option.some.inj (htask.symm.trans hk₀)] at hphase
      rcases hphase₀ with h | h <;> · rw [h] at hphase; cases hphase
    rw [task_awaitCompletion, if_neg ht, hcount, if_neg (Nat.ne_of_lt (hserial.lt_count htask)),
      htasks]
    exact htask
  cases hmoved with
  | called job _ =>
    refine absurd ?_ hsame
    rw [SQLiteDatabase.task_spawn, if_neg (Nat.ne_of_lt (hserial.lt_count htask))]
    exact htask
  | progress t₀ k₀ k₁ h =>
    by_cases ht : t = t₀
    · subst ht
      obtain rfl : k₀ = k := Option.some.inj (h.before.symm.trans htask)
      rw [h.task, if_pos rfl] at htask'
      cases htask'
      rcases h.awaits u told hphase with ⟨told', hgoes⟩ | ⟨_, hworker⟩
      · rw [hgoes] at hended
        cases hended
      · exact hworker
    · refine absurd ?_ hsame
      rw [h.task, if_neg ht]
      exact htask
  | stops t₀ k₀ hk₀ _ hphase₀ _ => exact absurd (hother rfl rfl hk₀ (.inl hphase₀)) hsame
  | acquired t₀ k₀ work closing hk₀ hphase₀ _ _ =>
    exact absurd (hother rfl rfl hk₀ (.inr hphase₀)) hsame

/-- The states of a database, from its construction. -/
def Reaches (startSync : Faults → Db → Except (Raised E) Unit × Db) (rows : Db)
    (ls : List (Label Db V E)) (s : SQLiteDatabase Db V E) : Prop :=
  Transition.exec (step startSync) (SQLiteDatabase.init rows) ls = some s

theorem Reaches.serial {rows : Db} {ls : List (Label Db V E)} (h : Reaches startSync rows ls s) :
    Serial s :=
  Transition.invariant (fun _ _ _ hs hstep => hs.moved (moved_of_step hstep)) (serial_init rows) h

theorem Reaches.stopping {rows : Db} {ls : List (Label Db V E)} (h : Reaches startSync rows ls s)
    (hapart : Transition.Meets (step startSync) apart (SQLiteDatabase.init rows) ls) :
    Stopping s :=
  (Transition.invariant_of_meets (I := fun s => Serial s ∧ Stopping s)
    (fun _ _ _ ⟨hserial, hs⟩ hl hstep =>
      ⟨hserial.moved (moved_of_step hstep), hs.moved hserial hl (moved_of_step hstep)⟩)
    ⟨serial_init rows, stopping_init rows⟩ hapart h).2

/-- After a `stop()` that ends here, the database is idle until a `start()` begins. -/
def StopsHere (startSync : Faults → Db → Except (Raised E) Unit × Db) (s : SQLiteDatabase Db V E) :
    Prop :=
  ∀ t k l s' k' ls s'', s.task t = some k → k.job = .stop → k.inBody = true →
    step startSync s l = some s' → s'.task t = some k' → k'.phase.isEnded = true → apart s l →
    Transition.Meets (step startSync) startsNothing s' ls →
    Transition.exec (step startSync) s' ls = some s'' → Idle s''

theorem stopsHere_of_stopping (hserial : Serial s) (hs : Stopping s) :
    StopsHere startSync s := by
  intro t k l s' k' ls s'' htask hjob hbody hstep htask' hended hl hmeets hexec
  have hmoved := moved_of_step hstep
  obtain ⟨u, told, w, hphase, hw, _, hidle⟩ := hs.final t k htask hjob hbody
  have hunstarted := hs.alone t k htask hjob hbody
  obtain ⟨u', told', w', hphase', hw', hfinished⟩ :=
    ended_of_moved hserial hmoved htask hphase htask' hended
  rw [hphase] at hphase'
  cases hphase'
  obtain rfl : w = w' := Option.some.inj (hw.symm.trans hw')
  have hstill : Idle s' ∧ Unstarted s' :=
    ⟨idle_moved (hidle hfinished) hunstarted hmoved,
      unstarted_moved hunstarted (startsNothing_of_apart hl htask hjob hbody) hmoved⟩
  exact (Transition.invariant_of_meets (I := fun s => Idle s ∧ Unstarted s)
    (fun _ _ _ ⟨hidle, hunstarted⟩ hl hstep =>
      ⟨idle_moved hidle hunstarted (moved_of_step hstep),
        unstarted_moved hunstarted hl (moved_of_step hstep)⟩) hstill hmeets hexec).1

/-- Two workers that have not ended are awaited by the same task, that has the lock. -/
theorem Serial.oneWorker (hs : Serial s) : OneWorker s := by
  intro u u' k k' hlive hlive' hthread hthread'
  obtain ⟨t, howner, k₀, told, htask, hphase⟩ := hs.thread u k hlive hthread
  obtain ⟨t', howner', k₀', told', htask', hphase'⟩ := hs.thread u' k' hlive' hthread'
  obtain rfl : t = t' := Option.some.inj (howner.symm.trans howner')
  obtain rfl : k₀ = k₀' := Option.some.inj (htask.symm.trans htask')
  rw [hphase] at hphase'
  exact (Phase.completing.inj hphase').1

/-- **One worker at a time, transactions are atomic, and a `stop()` is final**, whatever
the callbacks do and whenever the callers are cancelled. -/
theorem serialised {rows : Db} {ls : List (Label Db V E)} (h : Reaches startSync rows ls s) :
    OneWorker s ∧ LockHeld s ∧
      (∀ l s', step startSync s l = some s' → Atomic s l s') ∧
      (Transition.Meets (step startSync) apart (SQLiteDatabase.init rows) ls →
        StopsHere startSync s) :=
  ⟨h.serial.oneWorker, h.serial.thread, fun _ _ => atomic_of_step,
    fun hapart => stopsHere_of_stopping h.serial (h.stopping hapart)⟩

/-! ## A run -/

def Job.isStart : Job Db V E → Bool
  | .start => true
  | _ => false

def Job.isStop : Job Db V E → Bool
  | .stop => true
  | _ => false

/-- A `start()` and a `stop()`, of which the second is in its body. -/
def overlap (k k' : Option (Task Db V E)) : Bool :=
  match k, k' with
  | some k, some k' => k'.inBody && (k.job.isStart && k'.job.isStop || k.job.isStop && k'.job.isStart)
  | _, _ => false

/-- `apart`, computed. -/
def checkApart (s : SQLiteDatabase Db V E) : Label Db V E → Bool
  | .run t => (List.range s.count).all fun t' => !overlap (s.task t) (s.task t')
  | _ => true

theorem apart_of_checked (hs : Serial s) (h : checkApart s l = true) : apart s l := by
  cases l with
  | run t =>
    intro k htask _ t' k' htask' hbody
    have hchecked := List.all_eq_true.mp h t' (List.mem_range.mpr (hs.lt_count htask'))
    rw [htask, htask', overlap, hbody] at hchecked
    constructor <;>
    · rintro ⟨hjob, hjob'⟩
      simp [hjob, hjob', Job.isStart, Job.isStop] at hchecked
  | _ => trivial

/-- A `start()`, and a write that is cancelled twice while its worker goes on; a `stop()`
waits for it and is about to end. -/
def cancelledRun : List (Label ℕ Unit Empty) :=
  [.call .start, .run 0, .run 0, .begin 1, .finish 1 {}, .run 0,
    .call (.write fun rows => (.ok (), rows + 1)), .run 2, .run 2, .begin 3,
    .cancel 2, .run 2, .cancel 2, .call .stop, .run 4, .run 5, .finish 3 {}, .run 2, .run 5]

/-- The cancelled write is committed, and no worker is left when the `stop()` ends. -/
theorem serialised_cancelled : ∃ s s' : SQLiteDatabase ℕ Unit Empty,
    Reaches (fun _ rows => (.ok (), rows)) 0 cancelledRun s ∧ s.rows = 1 ∧ OneWorker s ∧
      step (fun _ rows => (.ok (), rows)) s (.run 4) = some s' ∧ Idle s' := by
  have hchecks : Transition.Meets (step fun _ rows => (.ok (), rows))
      (fun s l => checkApart s l = true) (SQLiteDatabase.init 0) cancelledRun := by
    decide
  have hmeets : Transition.Meets (step fun _ rows => (.ok (), rows)) apart
      (SQLiteDatabase.init 0) cancelledRun :=
    hchecks.mono (I := Serial) (fun _ _ _ hs _ hstep => hs.moved (moved_of_step hstep))
      (fun _ _ hs h => apart_of_checked hs h) (serial_init 0)
  have hreaches : ∃ s : SQLiteDatabase ℕ Unit Empty,
      Reaches (fun _ rows => (.ok (), rows)) 0 cancelledRun s ∧ s.rows = 1 ∧
        (∃ k, s.task 4 = some k ∧ k.job = .stop ∧ k.inBody = true) ∧ checkApart s (.run 4) = true ∧
        ∃ s' k', step (fun _ rows => (.ok (), rows)) s (.run 4) = some s' ∧
          s'.task 4 = some k' ∧ k'.phase.isEnded = true :=
    ⟨_, rfl, rfl, ⟨_, rfl, rfl, rfl⟩, rfl, _, _, rfl, rfl, rfl⟩
  obtain ⟨s, hs, hrows, ⟨k, htask, hjob, hbody⟩, hchecked, s', k', hstep, htask', hended⟩ := hreaches
  obtain ⟨hone, _, _, hstops⟩ := serialised hs
  exact ⟨s, s', hs, hrows, hone, hstep, hstops hmeets 4 k (.run 4) s' k' [] s' htask hjob hbody hstep
    htask' hended (apart_of_checked hs.serial hchecked) trivial rfl⟩

end SmartDesk.Storage
