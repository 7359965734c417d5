import SmartDesk.Profiles.FiniteMap
import SmartDesk.Storage.Serialised

/-!
# The repository over a started database

Any calls, in any order, each a task of the event loop; the callbacks run in worker
threads one after the other.

* `ProfileRepository`, `step` — the database with the calls, and a log of the callbacks in
  the order in which the workers have ended.
* `Refines` — the log is a run on the map of the table, and every call has returned or
  raised what its callback did.
* `repository_refines` — **the repository is a finite map**, if SQLite can keep the names.
-/

namespace SmartDesk.Profiles

open PyText Storage

/-! ## Runs -/

/-- What a worker thread has returned or raised. -/
abbrev WorkerResult : Type := Except (Raised ProfileError) (Option Returned)

structure ProfileRepository where
  database : SQLiteDatabase Table Returned ProfileError
  calls : ℕ → Option Call
  cancelled : ℕ → Bool
  log : List (ℕ × WorkerResult)

/-- A started database with this table. -/
def ProfileRepository.init (table : Table) : ProfileRepository where
  database := { SQLiteDatabase.init table with started := true }
  calls := fun _ => none
  cancelled := fun _ => false
  log := []

/-- A call, or what happens to one; no statement fails on the way to the table. -/
inductive RepositoryLabel where
  | call (call : Call)
  | cancel (t : ℕ)
  | run (t : ℕ)
  | begin (u : ℕ)
  | finish (u : ℕ)

def RepositoryLabel.database : RepositoryLabel → Label Table Returned ProfileError
  | .call called => .call called.job
  | .cancel t => .cancel t
  | .run t => .run t
  | .begin u => .begin u
  | .finish u => .finish u {}

/-- The log of a worker that ends belongs to the task that has the lock. -/
def ProfileRepository.logged (s : ProfileRepository) (u : ℕ)
    (database : SQLiteDatabase Table Returned ProfileError) : List (ℕ × WorkerResult) :=
  match s.database.owner, database.task u with
  | some t, some ⟨_, .ended result, _⟩ => (t, result) :: s.log
  | _, _ => s.log

def ProfileRepository.after (s : ProfileRepository)
    (database : SQLiteDatabase Table Returned ProfileError) : RepositoryLabel → ProfileRepository
  | .call called =>
      { s with database, calls := Function.update s.calls s.database.count (some called) }
  | .cancel t => { s with database, cancelled := Function.update s.cancelled t true }
  | .run _ => { s with database }
  | .begin _ => { s with database }
  | .finish u => { s with database, log := s.logged u database }

variable (startSync : Faults → Table → Except (Raised ProfileError) Unit × Table)

def step (s : ProfileRepository) (l : RepositoryLabel) : Option ProfileRepository :=
  (Storage.step startSync s.database l.database).map fun database => s.after database l

/-! ## The guarantee -/

/-- The log, newest first, is a run of the calls on the map, each of them once. -/
inductive Replays (calls : ℕ → Option Call) (m₀ : ProfileMap) :
    List (ℕ × WorkerResult) → ProfileMap → Prop where
  | nil : Replays calls m₀ [] m₀
  | cons {log : List (ℕ × WorkerResult)} {m m' : ProfileMap} {t : ℕ} {call : Call}
      {outcome : Outcome Returned} (hlog : Replays calls m₀ log m) (honce : t ∉ log.map Prod.fst)
      (hcall : calls t = some call) (hspec : call.Spec m outcome m') :
      Replays calls m₀ ((t, outcome.map some) :: log) m'

/-- What a call returns or raises: what its callback did, with the errors of SQLite
replaced, or its cancellation. -/
def Answered (s : ProfileRepository) (t : ℕ) (call : Call) (result : WorkerResult) : Prop :=
  (s.cancelled t = true ∧ result = .error .cancelled) ∨
    ∃ worker, (t, worker) ∈ s.log ∧ result = SQLiteDatabase.translated call.job worker

structure Refines (table : Table) (s : ProfileRepository) : Prop where
  replays : Replays s.calls (stored table) s.log (stored s.database.rows)
  answered : ∀ t call result cancelled, s.calls t = some call →
    s.database.task t = some ⟨call.job, .ended result, cancelled⟩ → Answered s t call result

/-- A new profile has an ID of its own. -/
def NewId (s : ProfileRepository) (id : ProfileId) : Prop :=
  stored s.database.rows id.id = none ∧ ∀ t fields, s.calls t ≠ some (.create id fields)

/-- The IDs of new profiles are distinct. -/
def distinctIds (s : ProfileRepository) : RepositoryLabel → Prop
  | .call (.create id _) => NewId s id
  | _ => True

/-- SQLite can keep the name that a callback is to write. -/
def storableNames (s : ProfileRepository) : RepositoryLabel → Prop
  | .call called => distinctIds s (.call called)
  | .finish _ => ∀ t call, s.database.owner = some t → s.calls t = some call →
      call.Storable (stored s.database.rows)
  | _ => True

/-! ## What happens to the database -/

section Database

variable {d d' : SQLiteDatabase Table Returned ProfileError}
  {l : Label Table Returned ProfileError}

/-- A started database without a `stop()`. -/
structure Open (d : SQLiteDatabase Table Returned ProfileError) : Prop where
  started : d.started = true
  closing : d.closing = false

/-- The worker of a read or a write. -/
def workOf : Job Table Returned ProfileError → Option (Work Table Returned ProfileError)
  | .read operation => some (.execute operation false)
  | .write operation => some (.execute operation true)
  | _ => none

/-- What a step does to an open database: one task goes on, or two when a worker is
created. -/
inductive Went (d : SQLiteDatabase Table Returned ProfileError) :
    Label Table Returned ProfileError → SQLiteDatabase Table Returned ProfileError → Prop where
  | called (job : Job Table Returned ProfileError) : Went d (.call job) (d.spawn job)
  | cancelled (t : ℕ) (k : Task Table Returned ProfileError) (htask : d.task t = some k)
      (hlive : k.phase.isEnded = false) (hjob : k.job.isThread = false) :
      Went d (.cancel t) (d.put t { k with cancelled := true })
  | refused (t : ℕ) (k : Task Table Returned ProfileError) (htask : d.task t = some k)
      (hjob : k.job.isThread = false) (hphase : k.phase = .ready ∨ k.phase = .locking)
      (hcancelled : k.cancelled = true) :
      Went d (.run t) (d.finish t k (.error .cancelled))
  | locks (t : ℕ) (k : Task Table Returned ProfileError) (htask : d.task t = some k)
      (hjob : k.job.isThread = false) (hphase : k.phase = .ready) :
      Went d (.run t) (d.put t { k with phase := .locking })
  | acquires (t : ℕ) (k : Task Table Returned ProfileError)
      (work : Work Table Returned ProfileError) (htask : d.task t = some k)
      (hphase : k.phase = .locking) (hwork : workOf k.job = some work) :
      Went d (.run t)
        (SQLiteDatabase.awaitCompletion { d with owner := some t } t k (.thread work))
  | told (t : ℕ) (k : Task Table Returned ProfileError) (u : ℕ) (told : Bool)
      (htask : d.task t = some k) (hjob : k.job.isThread = false)
      (hphase : k.phase = .completing u told) (hcancelled : k.cancelled = true) :
      Went d (.run t) (d.put t { k with phase := .completing u true, cancelled := false })
  | settled (t : ℕ) (k : Task Table Returned ProfileError) (u : ℕ) (told : Bool)
      (w : Task Table Returned ProfileError) (result : WorkerResult) (htask : d.task t = some k)
      (hjob : k.job.isThread = false) (hphase : k.phase = .completing u told)
      (hworker : d.task u = some w)
      (hended : w.phase = .ended result) :
      Went d (.run t) (d.release.finish t k (SQLiteDatabase.translated k.job
        (if k.cancelled || told then .error .cancelled else result)))
  | begins (u : ℕ) (work : Work Table Returned ProfileError) (cancelled : Bool)
      (htask : d.task u = some ⟨.thread work, .ready, cancelled⟩) :
      Went d (.begin u) (d.put u ⟨.thread work, .running, cancelled⟩)
  | finishes (u : ℕ) (faults : Faults) (work : Work Table Returned ProfileError) (cancelled : Bool)
      (htask : d.task u = some ⟨.thread work, .running, cancelled⟩) :
      Went d (.finish u faults)
        (({ d with rows := (work.perform startSync faults d.rows).2 }).put u
          ⟨.thread work, .ended (work.perform startSync faults d.rows).1, cancelled⟩)

variable {startSync}

theorem isThread_of_workOf {job : Job Table Returned ProfileError}
    {work : Work Table Returned ProfileError} (h : workOf job = some work) :
    job.isThread = false := by
  cases job <;> first | rfl | cases h

theorem not_isThread_of_isPublic {job : Job Table Returned ProfileError}
    (h : job.isPublic = true) : job.isThread = false := by
  cases job <;> first | rfl | cases h

section Run

variable {t : ℕ} {k : Task Table Returned ProfileError} {work : Work Table Returned ProfileError}

theorem runReady_of_open (ho : Open d) (hwork : workOf k.job = some work) :
    d.runReady t k = some (d.put t { k with phase := .locking }) := by
  obtain ⟨job, phase, cancelled⟩ := k
  cases job with
  | read operation => simp [SQLiteDatabase.runReady, ho.started, ho.closing]
  | write operation => simp [SQLiteDatabase.runReady, ho.started, ho.closing]
  | _ => cases hwork

theorem runLocked_of_open (ho : Open d) (hwork : workOf k.job = some work) :
    d.runLocked t k =
      some (SQLiteDatabase.awaitCompletion { d with owner := some t } t k (.thread work)) := by
  obtain ⟨job, phase, cancelled⟩ := k
  cases job with
  | read operation =>
    cases hwork
    simp [SQLiteDatabase.runLocked, ho.started, ho.closing]
  | write operation =>
    cases hwork
    simp [SQLiteDatabase.runLocked, ho.started, ho.closing]
  | _ => cases hwork

theorem settle_of_work (hwork : workOf k.job = some work) (result : WorkerResult) :
    d.settle t k result =
      some (d.release.finish t k (SQLiteDatabase.translated k.job result)) := by
  obtain ⟨job, phase, cancelled⟩ := k
  cases job with
  | read operation => rfl
  | write operation => rfl
  | _ => cases hwork

/-- A read or a write that is run. -/
theorem went_run (ho : Open d) (htask : d.task t = some k) (hwork : workOf k.job = some work)
    (h : d.run t = some d') : Went startSync d (.run t) d' := by
  have hjob : k.job.isThread = false := isThread_of_workOf hwork
  unfold SQLiteDatabase.run at h
  split at h
  · cases h
  · cases h
  · next k' hnot htask' =>
    obtain rfl : k = k' := Option.some.inj (htask.symm.trans htask')
    split at h
    · next hphase =>
      split_ifs at h with hcancelled
      · cases h
        exact .refused t k htask hjob (.inl hphase) hcancelled
      · rw [runReady_of_open ho hwork] at h
        cases h
        exact .locks t k htask hjob hphase
    · next hphase =>
      split_ifs at h with hcancelled
      · cases h
        exact .refused t k htask hjob (.inr hphase) hcancelled
      · rw [runLocked_of_open ho hwork] at h
        cases h
        exact .acquires t k work htask hphase hwork
    · next u told hphase =>
      unfold SQLiteDatabase.runCompleting at h
      split at h
      · next hworker =>
        rw [settle_of_work hwork] at h
        cases h
        exact .settled t k u told _ _ htask hjob hphase hworker rfl
      · split_ifs at h with hcancelled
        cases h
        exact .told t k u told htask hjob hphase hcancelled
    · cases h
    · cases h

end Run

theorem went_of_step (ho : Open d)
    (htasks : ∀ t k, d.task t = some k →
      k.job.isThread = true ∨ ∃ work, workOf k.job = some work)
    (h : Storage.step startSync d l = some d') : Went startSync d l d' := by
  cases l with
  | call job =>
    simp only [Storage.step] at h
    split_ifs at h
    cases h
    exact .called job
  | cancel t =>
    simp only [Storage.step] at h
    split at h
    · cases h
    · next k hended htask =>
      split_ifs at h with hpublic
      cases h
      refine .cancelled t k htask ?_ (not_isThread_of_isPublic hpublic)
      obtain ⟨job, phase, cancelled⟩ := k
      cases phase with
      | ended result => exact absurd rfl (hended job result cancelled)
      | _ => rfl
    · cases h
  | run t =>
    cases htask : d.task t with
    | none => simp [Storage.step, SQLiteDatabase.run, htask] at h
    | some k =>
      rcases htasks t k htask with hthread | ⟨work, hwork⟩
      · obtain ⟨job, phase, cancelled⟩ := k
        cases job with
        | thread work => simp [Storage.step, SQLiteDatabase.run, htask] at h
        | _ => cases hthread
      · exact went_run ho htask hwork h
  | begin u =>
    simp only [Storage.step] at h
    split at h
    · next work cancelled htask =>
      cases h
      exact .begins u work cancelled htask
    · cases h
  | finish u faults =>
    simp only [Storage.step] at h
    split at h
    · next work cancelled htask =>
      cases h
      exact .finishes u faults work cancelled htask
    · cases h

end Database

/-! ## The invariant -/

variable {startSync}

/-- The callback of the call has not ended. -/
def Unserved (s : ProfileRepository) (t : ℕ) : Prop := t ∉ s.log.map Prod.fst

/-- `u` runs the callback of the call, or has run it. -/
structure Serves (s : ProfileRepository) (t : ℕ) (call : Call) (w : Task Table Returned ProfileError) :
    Prop where
  job : w.job = .thread (.execute call.operation call.writes)
  live : w.phase.isEnded = false → Unserved s t
  ended : ∀ result, w.phase = .ended result → (t, result) ∈ s.log

/-- Where the task of a call stands. -/
structure CallOk (s : ProfileRepository) (t : ℕ) (call : Call)
    (k : Task Table Returned ProfileError) : Prop where
  job : k.job = call.job
  cancelled : k.cancelled = true → s.cancelled t = true
  waiting : k.phase = .ready ∨ k.phase = .locking → Unserved s t
  completing : ∀ u told, k.phase = .completing u told → (told = true → s.cancelled t = true) ∧
    ∃ w, s.database.task u = some w ∧ Serves s t call w
  ended : ∀ result, k.phase = .ended result → Answered s t call result

structure Inv (table : Table) (s : ProfileRepository) : Prop where
  serial : Serial s.database
  opened : Open s.database
  tasks : ∀ t k, s.database.task t = some k →
    (k.job.isThread = true ∧ k.inBody = false) ∨ ∃ call, s.calls t = some call
  calls : ∀ t call, s.calls t = some call → ∃ k, s.database.task t = some k ∧ CallOk s t call k
  good : Good s.database.rows
  replays : Replays s.calls (stored table) s.log (stored s.database.rows)
  pending : ∀ t id fields, s.calls t = some (.create id fields) → Unserved s t →
    stored s.database.rows id.id = none
  distinct : ∀ t t' id fields fields', s.calls t = some (.create id fields) →
    s.calls t' = some (.create id fields') → t = t'

theorem inv_init {table : Table} (hg : Good table) : Inv table (.init table) where
  serial := ⟨fun _ _ => rfl, fun _ _ h => (nomatch h.1), fun _ _ h => (nomatch h.1),
    fun _ _ _ _ h => (nomatch h)⟩
  opened := ⟨rfl, rfl⟩
  tasks := fun _ _ h => nomatch h
  calls := fun _ _ h => nomatch h
  good := hg
  replays := .nil
  pending := fun _ _ _ h => nomatch h
  distinct := fun _ _ _ _ _ h => nomatch h

theorem Inv.refines {table : Table} {s : ProfileRepository} (hi : Inv table s) :
    Refines table s := by
  refine ⟨hi.replays, fun t call result cancelled hcall htask => ?_⟩
  obtain ⟨k, htask', hok⟩ := hi.calls t call hcall
  rw [htask] at htask'
  cases htask'
  exact hok.ended result rfl

theorem workOf_job (call : Call) : workOf call.job = some (.execute call.operation call.writes) := by
  cases call <;> rfl

/-- More calls change nothing for a run of the earlier ones. -/
theorem Replays.mono {calls calls' : ℕ → Option Call} {m₀ m : ProfileMap}
    {log : List (ℕ × WorkerResult)} (h : Replays calls m₀ log m)
    (hcalls : ∀ t call, calls t = some call → calls' t = some call) : Replays calls' m₀ log m := by
  induction h with
  | nil => exact .nil
  | cons hlog honce hcall hspec ih => exact .cons ih honce (hcalls _ _ hcall) hspec

/-- A call that stands where it stood. -/
theorem CallOk.keep {s s' : ProfileRepository} {t : ℕ} {call : Call}
    {k : Task Table Returned ProfileError} (h : CallOk s t call k)
    (hlog : ∀ entry ∈ s.log, entry ∈ s'.log) (hunserved : Unserved s t → Unserved s' t)
    (hcancelled : s.cancelled t = true → s'.cancelled t = true)
    (hworker : ∀ u told w, k.phase = .completing u told → s.database.task u = some w →
      Serves s t call w → ∃ w', s'.database.task u = some w' ∧ Serves s' t call w') :
    CallOk s' t call k := by
  refine ⟨h.job, fun hc => hcancelled (h.cancelled hc), fun hphase => hunserved (h.waiting hphase),
    fun u told hphase => ?_, fun result hphase => ?_⟩
  · obtain ⟨htold, w, htask, hserves⟩ := h.completing u told hphase
    exact ⟨fun ht => hcancelled (htold ht), hworker u told w hphase htask hserves⟩
  · rcases h.ended result hphase with ⟨hc, hresult⟩ | ⟨worker, hmem, hresult⟩
    · exact .inl ⟨hcancelled hc, hresult⟩
    · exact .inr ⟨worker, hlog _ hmem, hresult⟩

/-- A step at which no call begins and no worker ends. -/
theorem Inv.keep {table : Table} {s s' : ProfileRepository} (hi : Inv table s)
    (hserial : Serial s'.database) (hopened : Open s'.database)
    (hrows : s'.database.rows = s.database.rows) (hcalls : s'.calls = s.calls)
    (hlog : s'.log = s.log) (hcancelled : ∀ t, s.cancelled t = true → s'.cancelled t = true)
    (htasks : ∀ t k', s'.database.task t = some k' →
      (k'.job.isThread = true ∧ k'.inBody = false) ∨
        ∃ k, s.database.task t = some k ∧ (k = k' ∨ k.job.isThread = false))
    (hthreads : ∀ u w, s.database.task u = some w → w.job.isThread = true →
      ∃ w', s'.database.task u = some w' ∧ w'.job = w.job ∧
        ∀ result, w'.phase = .ended result ↔ w.phase = .ended result)
    (hsteps : ∀ t call k, s.database.task t = some k → CallOk s t call k →
      ∃ k', s'.database.task t = some k' ∧ (k' = k ∨ CallOk s' t call k')) : Inv table s' := by
  have hunserved : ∀ t, Unserved s' t ↔ Unserved s t := fun t => by rw [Unserved, Unserved, hlog]
  refine ⟨hserial, hopened, fun t k' htask => ?_, fun t call hcall => ?_, ?_, ?_, ?_, ?_⟩
  · rw [hcalls]
    rcases htasks t k' htask with hthread | ⟨k, hk, rfl | hjob⟩
    · exact .inl hthread
    · exact hi.tasks t k hk
    · rcases hi.tasks t k hk with ⟨hthread, _⟩ | hcall
      · rw [hjob] at hthread
        cases hthread
      · exact .inr hcall
  · rw [hcalls] at hcall
    obtain ⟨k, htask, hok⟩ := hi.calls t call hcall
    obtain ⟨k', htask', rfl | hok'⟩ := hsteps t call k htask hok
    · refine ⟨k', htask', hok.keep (fun _ h => by rwa [hlog]) (hunserved t).mpr (hcancelled t) ?_⟩
      intro u told w _ hw hserves
      obtain ⟨w', hw', hjob, hended⟩ := hthreads u w hw (by rw [hserves.job]; rfl)
      refine ⟨w', hw', hjob.trans hserves.job, fun hlive => (hunserved t).mpr (hserves.live ?_),
        fun result hresult => ?_⟩
      · cases hphase : w.phase with
        | ended result => rw [(hended result).mpr hphase] at hlive; cases hlive
        | _ => rfl
      · rw [hlog]
        exact hserves.ended result ((hended result).mp hresult)
    · exact ⟨k', htask', hok'⟩
  · rw [hrows]
    exact hi.good
  · rw [hcalls, hlog, hrows]
    exact hi.replays
  · intro t id fields hcall ht
    rw [hcalls] at hcall
    rw [hrows]
    exact hi.pending t id fields hcall ((hunserved t).mp ht)
  · rw [hcalls]
    exact hi.distinct

/-- One call goes on. -/
theorem Inv.put {table : Table} {s s' : ProfileRepository} (hi : Inv table s)
    (hserial : Serial s'.database) (hopened : Open s'.database)
    (hrows : s'.database.rows = s.database.rows) (hcalls : s'.calls = s.calls)
    (hlog : s'.log = s.log) (hcancelled : ∀ t, s.cancelled t = true → s'.cancelled t = true)
    {t : ℕ} {k k' : Task Table Returned ProfileError} (htask : s.database.task t = some k)
    (hjob : k.job.isThread = false)
    (htasks : ∀ u, s'.database.task u = if u = t then some k' else s.database.task u)
    (hjob' : k'.job = k.job) (hok : ∀ call, CallOk s t call k → CallOk s' t call k') :
    Inv table s' := by
  refine hi.keep hserial hopened hrows hcalls hlog hcancelled (fun u k₀ hk₀ => ?_)
    (fun u w hw hthread => ?_) fun u call k₀ hk₀ hok₀ => ?_
  · rw [htasks] at hk₀
    split_ifs at hk₀ with hu
    · cases hk₀
      exact .inr ⟨k, by rw [hu]; exact htask, .inr hjob⟩
    · exact .inr ⟨k₀, hk₀, .inl rfl⟩
  · have hu : u ≠ t := by
      rintro rfl
      rw [Option.some.inj (hw.symm.trans htask), hjob] at hthread
      cases hthread
    exact ⟨w, by rw [htasks, if_neg hu]; exact hw, rfl, fun _ => Iff.rfl⟩
  · by_cases hu : u = t
    · subst hu
      obtain rfl : k₀ = k := Option.some.inj (hk₀.symm.trans htask)
      exact ⟨k', by rw [htasks, if_pos rfl], .inr (hok call hok₀)⟩
    · exact ⟨k₀, by rw [htasks, if_neg hu]; exact hk₀, .inl rfl⟩

theorem inv_cancel {table : Table} {s : ProfileRepository} (hi : Inv table s) {t : ℕ}
    {d' : SQLiteDatabase Table Returned ProfileError} (hserial : Serial d')
    (h : Went startSync s.database (.cancel t) d') : Inv table (s.after d' (.cancel t)) := by
  cases h with
  | cancelled t k htask hlive hjob =>
    refine hi.put hserial ⟨hi.opened.started, hi.opened.closing⟩ rfl rfl rfl (fun u hu => ?_) htask hjob
      (fun u => SQLiteDatabase.task_put _ _ _ _) rfl fun call hok => ?_
    · show Function.update s.cancelled t true u = true
      rw [Function.update_apply]
      split_ifs
      · rfl
      · exact hu
    · have htold : (s.after (s.database.put t { k with cancelled := true }) (.cancel t)).cancelled t
          = true := Function.update_self _ _ _
      refine ⟨hok.job, fun _ => htold, hok.waiting, fun u told hphase => ⟨fun _ => htold, ?_⟩,
        fun result hphase => ?_⟩
      · obtain ⟨_, w, hw, hserves⟩ := hok.completing u told hphase
        have hu : u ≠ t := by
          rintro rfl
          rw [Option.some.inj (htask.symm.trans hw), hserves.job] at hjob
          cases hjob
        exact ⟨w, by rw [ProfileRepository.after, SQLiteDatabase.task_put, if_neg hu]; exact hw,
          hserves.job, hserves.live, hserves.ended⟩
      · rw [hphase] at hlive
        cases hlive

/-- The worker of a call is not the call. -/
theorem Serves.ne {s : ProfileRepository} {t u : ℕ} {call : Call}
    {k w : Task Table Returned ProfileError} (h : Serves s t call w)
    (htask : s.database.task t = some k) (hjob : k.job.isThread = false)
    (hw : s.database.task u = some w) : u ≠ t := by
  rintro rfl
  rw [Option.some.inj (htask.symm.trans hw), h.job] at hjob
  cases hjob

theorem inv_run {table : Table} {s : ProfileRepository} (hi : Inv table s) {t : ℕ}
    {d' : SQLiteDatabase Table Returned ProfileError} (hserial : Serial d')
    (h : Went startSync s.database (.run t) d') : Inv table (s.after d' (.run t)) := by
  cases h with
  | refused t k htask hjob hphase hcancelled =>
    refine hi.put hserial ⟨hi.opened.started, hi.opened.closing⟩ rfl rfl rfl (fun _ h => h) htask hjob
      (fun u => SQLiteDatabase.task_put _ _ _ _) rfl fun call hok => ?_
    refine ⟨hok.job, fun h => (nomatch h), fun h => (nomatch h), fun _ _ h => (nomatch h),
      fun result h => ?_⟩
    cases h
    exact .inl ⟨hok.cancelled hcancelled, rfl⟩
  | locks t k htask hjob hphase =>
    refine hi.put hserial ⟨hi.opened.started, hi.opened.closing⟩ rfl rfl rfl (fun _ h => h) htask hjob
      (fun u => SQLiteDatabase.task_put _ _ _ _) rfl fun call hok => ?_
    exact ⟨hok.job, hok.cancelled, fun _ => hok.waiting (.inl hphase), fun _ _ h => (nomatch h),
      fun _ h => (nomatch h)⟩
  | told t k u told htask hjob hphase hcancelled =>
    refine hi.put hserial ⟨hi.opened.started, hi.opened.closing⟩ rfl rfl rfl (fun _ h => h) htask hjob
      (fun u => SQLiteDatabase.task_put _ _ _ _) rfl fun call hok => ?_
    refine ⟨hok.job, fun h => (nomatch h), fun h => ?_, fun v told' h => ?_, fun _ h => (nomatch h)⟩
    · rcases h with h | h <;> cases h
    · cases h
      obtain ⟨_, w, hw, hserves⟩ := hok.completing u told hphase
      refine ⟨fun _ => hok.cancelled hcancelled, w, ?_, hserves.job, hserves.live, hserves.ended⟩
      rw [ProfileRepository.after, SQLiteDatabase.task_put, if_neg (hserves.ne htask hjob hw)]
      exact hw
  | settled t k u told w result htask hjob hphase hworker hended =>
    refine hi.put hserial ⟨hi.opened.started, hi.opened.closing⟩ rfl rfl rfl (fun _ h => h) htask hjob
      (fun u => SQLiteDatabase.task_put _ _ _ _) rfl fun call hok => ?_
    refine ⟨hok.job, fun h => (nomatch h), fun h => ?_, fun _ _ h => (nomatch h),
      fun answer h => ?_⟩
    · rcases h with h | h <;> cases h
    · cases h
      obtain ⟨htold, w', hw', hserves⟩ := hok.completing u told hphase
      obtain rfl : w = w' := Option.some.inj (hworker.symm.trans hw')
      rw [hok.job]
      split_ifs with hc
      · refine .inl ⟨?_, by cases call <;> rfl⟩
        rcases Bool.or_eq_true_iff.mp hc with h | h
        · exact hok.cancelled h
        · exact htold h
      · exact .inr ⟨result, hserves.ended result hended, rfl⟩
  | acquires t k work htask hphase hwork =>
    have hjob := isThread_of_workOf hwork
    have hcount : t ≠ s.database.count := Nat.ne_of_lt (hi.serial.lt_count htask)
    have htasks := fun u => task_awaitCompletion { s.database with owner := some t } t u k
      (.thread work)
    refine hi.keep hserial ⟨hi.opened.started, hi.opened.closing⟩ rfl rfl rfl (fun _ h => h)
      (fun u k₀ hk₀ => ?_) (fun u w hw hthread => ?_) fun u call k₀ hk₀ hok₀ => ?_
    · rw [ProfileRepository.after, htasks] at hk₀
      split_ifs at hk₀ with hu
      · cases hk₀
        exact .inr ⟨k, by rw [hu]; exact htask, .inr hjob⟩
      · cases hk₀
        exact .inl ⟨rfl, rfl⟩
      · exact .inr ⟨k₀, hk₀, .inl rfl⟩
    · refine ⟨w, ?_, rfl, fun _ => Iff.rfl⟩
      have hu : u ≠ t := by
        rintro rfl
        rw [Option.some.inj (hw.symm.trans htask), hjob] at hthread
        cases hthread
      rw [ProfileRepository.after, htasks, if_neg hu,
        if_neg (Nat.ne_of_lt (hi.serial.lt_count hw))]
      exact hw
    · by_cases hu : u = t
      · subst hu
        obtain rfl : k₀ = k := Option.some.inj (hk₀.symm.trans htask)
        refine ⟨_, by rw [ProfileRepository.after, htasks, if_pos rfl], .inr ?_⟩
        refine ⟨hok₀.job, hok₀.cancelled, fun h => ?_, fun v told h => ?_, fun _ h => (nomatch h)⟩
        · rcases h with h | h <;> cases h
        · cases h
          refine ⟨fun h => (nomatch h), ⟨.thread work, .ready, false⟩, ?_, ?_,
            fun _ => hok₀.waiting (.inr hphase), fun _ h => (nomatch h)⟩
          · rw [ProfileRepository.after, htasks, if_neg hcount.symm, if_pos rfl]
          · rw [hok₀.job, workOf_job] at hwork
            cases hwork
            rfl
      · refine ⟨k₀, ?_, .inl rfl⟩
        rw [ProfileRepository.after, htasks, if_neg hu,
          if_neg (Nat.ne_of_lt (hi.serial.lt_count hk₀))]
        exact hk₀

theorem inv_begin {table : Table} {s : ProfileRepository} (hi : Inv table s) {u : ℕ}
    {d' : SQLiteDatabase Table Returned ProfileError} (hserial : Serial d')
    (h : Went startSync s.database (.begin u) d') : Inv table (s.after d' (.begin u)) := by
  cases h with
  | begins u work cancelled htask =>
    refine hi.keep hserial ⟨hi.opened.started, hi.opened.closing⟩ rfl rfl rfl (fun _ h => h)
      (fun v k' hk' => ?_) (fun v w hw hthread => ?_) fun t call k hk hok => ?_
    · rw [ProfileRepository.after, SQLiteDatabase.task_put] at hk'
      split_ifs at hk'
      · cases hk'
        exact .inl ⟨rfl, rfl⟩
      · exact .inr ⟨k', hk', .inl rfl⟩
    · rw [ProfileRepository.after, SQLiteDatabase.task_put]
      split_ifs with hv
      · subst hv
        obtain rfl : w = _ := Option.some.inj (hw.symm.trans htask)
        exact ⟨_, rfl, rfl, fun _ => ⟨fun h => (nomatch h), fun h => (nomatch h)⟩⟩
      · exact ⟨w, hw, rfl, fun _ => Iff.rfl⟩
    · refine ⟨k, ?_, .inl rfl⟩
      have ht : t ≠ u := by
        rintro rfl
        obtain rfl : k = _ := Option.some.inj (hk.symm.trans htask)
        exact absurd (isThread_of_workOf (workOf_job call)) (by rw [← hok.job]; simp [Job.isThread])
      rw [ProfileRepository.after, SQLiteDatabase.task_put, if_neg ht]
      exact hk

/-- What is in the log is a call. -/
theorem Replays.call_of_mem {calls : ℕ → Option Call} {m₀ m : ProfileMap}
    {log : List (ℕ × WorkerResult)} (h : Replays calls m₀ log m) {t : ℕ}
    (ht : t ∈ log.map Prod.fst) : ∃ call, calls t = some call := by
  induction h with
  | nil => cases ht
  | cons _ _ hcall _ ih =>
    rcases List.mem_cons.mp ht with rfl | ht
    · exact ⟨_, hcall⟩
    · exact ih ht

theorem Inv.absent {table : Table} {s : ProfileRepository} (hi : Inv table s) {t : ℕ}
    (ht : s.database.count ≤ t) : s.calls t = none ∧ Unserved s t := by
  have hcalls : s.calls t = none := by
    cases hcall : s.calls t with
    | none => rfl
    | some call =>
      obtain ⟨k, htask, _⟩ := hi.calls t call hcall
      rw [hi.serial.absent t ht] at htask
      cases htask
  refine ⟨hcalls, fun hmem => ?_⟩
  obtain ⟨call, hcall⟩ := hi.replays.call_of_mem hmem
  rw [hcalls] at hcall
  cases hcall

theorem inv_call {table : Table} {s : ProfileRepository} (hi : Inv table s) {call : Call}
    (hnew : ∀ id fields, call = .create id fields → NewId s id)
    (hserial : Serial (s.database.spawn call.job)) :
    Inv table (s.after (s.database.spawn call.job) (.call call)) := by
  obtain ⟨habsent, hunserved⟩ := hi.absent (Nat.le_refl s.database.count)
  have hcalls : ∀ t called, Function.update s.calls s.database.count (some call) t = some called →
      (t = s.database.count ∧ called = call) ∨ s.calls t = some called := by
    intro t called h
    rw [Function.update_apply] at h
    split_ifs at h with ht
    · cases h
      exact .inl ⟨ht, rfl⟩
    · exact .inr h
  have hmono : ∀ t called, s.calls t = some called →
      Function.update s.calls s.database.count (some call) t = some called := by
    intro t called h
    have ht : t ≠ s.database.count := by
      rintro rfl
      rw [habsent] at h
      cases h
    rw [Function.update_of_ne ht]
    exact h
  refine ⟨hserial, ⟨hi.opened.started, hi.opened.closing⟩, fun t k htask => ?_,
    fun t called hcall => ?_, hi.good, hi.replays.mono hmono, fun t id fields hcall ht => ?_,
    fun t t' id fields fields' hcall hcall' => ?_⟩
  · rw [ProfileRepository.after, SQLiteDatabase.task_spawn] at htask
    split_ifs at htask with ht
    · exact .inr ⟨call, by rw [ht]; exact Function.update_self _ _ _⟩
    · exact (hi.tasks t k htask).imp id fun ⟨called, hcalled⟩ => ⟨called, hmono t called hcalled⟩
  · rcases hcalls t called hcall with ⟨rfl, rfl⟩ | hcall
    · refine ⟨⟨called.job, .ready, false⟩, ?_, rfl, fun h => (nomatch h), fun _ => hunserved,
        fun _ _ h => (nomatch h), fun _ h => (nomatch h)⟩
      rw [ProfileRepository.after, SQLiteDatabase.task_spawn, if_pos rfl]
    · obtain ⟨k, htask, hok⟩ := hi.calls t called hcall
      have hkeep : ∀ {u k}, s.database.task u = some k →
          (s.database.spawn call.job).task u = some k := by
        intro u k hk
        rw [SQLiteDatabase.task_spawn, if_neg (Nat.ne_of_lt (hi.serial.lt_count hk))]
        exact hk
      refine ⟨k, hkeep htask, hok.keep (fun _ h => h) (fun h => h) (fun h => h) ?_⟩
      exact fun u told w _ hw hserves =>
        ⟨w, hkeep hw, hserves.job, hserves.live, hserves.ended⟩
  · rcases hcalls t _ hcall with ⟨_, hcreate⟩ | hcall
    · exact (hnew id fields hcreate.symm).1
    · exact hi.pending t id fields hcall ht
  · rcases hcalls t _ hcall with ⟨ht, hcreate⟩ | hcall <;>
      rcases hcalls t' _ hcall' with ⟨ht', hcreate'⟩ | hcall'
    · rw [ht, ht']
    · exact absurd hcall' ((hnew id fields hcreate.symm).2 t' fields')
    · exact absurd hcall ((hnew id fields' hcreate'.symm).2 t fields)
    · exact hi.distinct t t' id fields fields' hcall hcall'

theorem perform_execute (call : Call) (table : Table) :
    (Work.execute call.operation call.writes).perform startSync {} table =
      ((call.perform table).1.map some, (call.perform table).2) := rfl

/-- A worker that runs is that of the call that has the lock. -/
theorem Inv.serving {table : Table} {s : ProfileRepository} (hi : Inv table s) {u : ℕ}
    {work : Work Table Returned ProfileError} {cancelled : Bool}
    (htask : s.database.task u = some ⟨.thread work, .running, cancelled⟩) :
    ∃ t call, s.database.owner = some t ∧ s.calls t = some call ∧ Awaits s.database t u ∧
      Unserved s t ∧ work = .execute call.operation call.writes ∧
      ∀ t' k' told, s.database.task t' = some k' → k'.phase = .completing u told → t' = t := by
  obtain ⟨t, howner, k, told, hk, hphase⟩ := hi.serial.thread u _ ⟨htask, rfl⟩ rfl
  have hnot : ∀ t' k' told', s.database.task t' = some k' → k'.phase = .completing u told' →
      ∃ call, s.calls t' = some call ∧ CallOk s t' call k' := by
    intro t' k' told' hk' hphase'
    rcases hi.tasks t' k' hk' with ⟨_, hbody⟩ | ⟨call, hcall⟩
    · rw [Task.inBody, hphase'] at hbody
      cases hbody
    · obtain ⟨k, hk, hok⟩ := hi.calls t' call hcall
      obtain rfl : k' = k := Option.some.inj (hk'.symm.trans hk)
      exact ⟨call, hcall, hok⟩
  obtain ⟨call, hcall, hok⟩ := hnot t k told hk hphase
  obtain ⟨_, w, hw, hserves⟩ := hok.completing u told hphase
  obtain rfl : w = _ := Option.some.inj (hw.symm.trans htask)
  refine ⟨t, call, howner, hcall, ⟨k, told, hk, hphase⟩, hserves.live rfl, ?_,
    fun t' k' told' hk' hphase' => ?_⟩
  · simpa using hserves.job
  · obtain ⟨call', _, hok'⟩ := hnot t' k' told' hk' hphase'
    have hlocked := hi.serial.locked t' k' u told' hk' hphase' (by
      rw [hok'.job]
      cases call' <;> simp [Call.job, Call.writes])
    exact Option.some.inj (hlocked.symm.trans howner)

/-- Nothing of one call changes where another stands. -/
theorem stored_kept {m m' : ProfileMap} {call : Call} {outcome : Outcome Returned}
    (h : call.Spec m outcome m') {id : PyStr} (hnone : m id = none)
    (hcreate : ∀ id' fields, call = .create id' fields → id'.id ≠ id) : m' id = none := by
  cases call with
  | create id' fields =>
    rw [h.2, Function.update_of_ne (hcreate id' fields rfl).symm]
    exact hnone
  | update id' fields =>
    cases hid : m id' with
    | none =>
      rw [(h.2 hid).2]
      exact hnone
    | some values =>
      have hne : id ≠ id' := by
        rintro rfl
        rw [hnone] at hid
        cases hid
      rw [(h.1 values hid).2, Function.update_of_ne hne]
      exact hnone
  | delete id' =>
    cases hid : m id' with
    | none =>
      rw [(h.2 hid).2]
      exact hnone
    | some values =>
      rw [(h.1 values hid).2, Function.update_apply]
      split_ifs
      · rfl
      · exact hnone
  | get id' =>
    cases hid : m id' with
    | none =>
      rw [(h.2 hid).2]
      exact hnone
    | some values =>
      rw [(h.1 values hid).2]
      exact hnone
  | list =>
    obtain ⟨_, _, _, _, rfl⟩ := h
    exact hnone

/-- The calls after the end of a worker: the one that has awaited it is served. -/
theorem callOk_served {s s' : ProfileRepository} {t t' u : ℕ} {call called : Call}
    {result : WorkerResult} {cancelled : Bool} {k : Task Table Returned ProfileError}
    (hok : CallOk s t' called k) (hk : s.database.task t' = some k)
    (hcall : s.calls t = some call) (hcalled : s.calls t' = some called)
    (hlog : s'.log = (t, result) :: s.log) (hcancelled : s'.cancelled = s.cancelled)
    (hawaits : Awaits s.database t u)
    (htasks : ∀ v, s'.database.task v = if v = u then
      some ⟨.thread (.execute call.operation call.writes), .ended result, cancelled⟩
      else s.database.task v)
    (honly : ∀ k' told, s.database.task t' = some k' → k'.phase = .completing u told → t' = t) :
    CallOk s' t' called k := by
  by_cases ht : t' = t
  · subst ht
    obtain rfl : call = called := Option.some.inj (hcall.symm.trans hcalled)
    obtain ⟨k', told, hk', hphase⟩ := hawaits
    obtain rfl : k = k' := Option.some.inj (hk.symm.trans hk')
    refine ⟨hok.job, fun h => by rw [hcancelled]; exact hok.cancelled h, fun h => ?_,
      fun v told' h => ?_, fun _ h => ?_⟩
    · rcases h with h | h <;> · rw [hphase] at h; cases h
    · rw [hphase] at h
      cases h
      refine ⟨fun h => ?_, _, by rw [htasks, if_pos rfl], rfl, fun h => ?_, fun _ h => ?_⟩
      · rw [hcancelled]
        exact (hok.completing u told hphase).1 h
      · cases h
      · cases h
        rw [hlog]
        exact List.mem_cons_self
    · rw [hphase] at h
      cases h
  · have hunserved : Unserved s t' → Unserved s' t' := by
      intro ht' hmem
      rw [hlog, List.map_cons, List.mem_cons] at hmem
      exact hmem.elim ht ht'
    have hmem : ∀ entry ∈ s.log, entry ∈ s'.log := by
      intro entry hentry
      rw [hlog]
      exact List.mem_cons_of_mem _ hentry
    refine hok.keep hmem hunserved (fun h => by rw [hcancelled]; exact h) ?_
    intro v told w hphase hw hserves
    have hv : v ≠ u := by
      rintro rfl
      exact ht (honly k told hk hphase)
    exact ⟨w, by rw [htasks, if_neg hv]; exact hw, hserves.job,
      fun h => hunserved (hserves.live h), fun result h => hmem _ (hserves.ended result h)⟩

theorem inv_finish {table : Table} {s : ProfileRepository} (hi : Inv table s) {u : ℕ}
    {d' : SQLiteDatabase Table Returned ProfileError} (hl : storableNames s (.finish u))
    (hserial : Serial d') (h : Went startSync s.database (.finish u {}) d') :
    Inv table (s.after d' (.finish u)) := by
  cases h with
  | finishes u faults work cancelled htask =>
    obtain ⟨t, call, howner, hcall, hawaits, hunserved, rfl, honly⟩ := hi.serving htask
    rw [perform_execute] at hserial ⊢
    have hspec := perform_spec hi.good call (hl t call howner hcall) (fun id fields hcreate =>
      hi.pending t id fields (by rw [hcall, hcreate]) hunserved)
    obtain ⟨hspec, hgood⟩ := hspec
    generalize hperform : call.perform s.database.rows = performed at *
    obtain ⟨outcome, rows⟩ := performed
    generalize hafter : s.after _ (.finish u) = s'
    have hlog : s'.log = (t, outcome.map some) :: s.log := by
      rw [← hafter]
      simp [ProfileRepository.after, ProfileRepository.logged, howner]
    have hcalls : s'.calls = s.calls := by
      rw [← hafter]
      rfl
    have hrows : s'.database.rows = rows := by
      rw [← hafter]
      rfl
    have htasks : ∀ v, s'.database.task v = if v = u then
        some ⟨.thread (.execute call.operation call.writes), .ended (outcome.map some), cancelled⟩
        else s.database.task v := by
      intro v
      rw [← hafter]
      exact SQLiteDatabase.task_put _ _ _ _
    have hserved : ∀ t', Unserved s' t' → t' ≠ t ∧ Unserved s t' := by
      intro t' ht'
      rw [Unserved, hlog, List.map_cons, List.mem_cons, not_or] at ht'
      exact ht'
    refine ⟨?_, ?_, fun v k hk => ?_, fun t' called hcalled => ?_, ?_, ?_, ?_, ?_⟩
    · rw [← hafter]
      exact hserial
    · rw [← hafter]
      exact ⟨hi.opened.started, hi.opened.closing⟩
    · rw [htasks] at hk
      rw [hcalls]
      split_ifs at hk
      · cases hk
        exact .inl ⟨rfl, rfl⟩
      · exact hi.tasks v k hk
    · obtain ⟨k, hk, hok⟩ := hi.calls t' called (by rw [← hcalls]; exact hcalled)
      have hne : t' ≠ u := by
        rintro rfl
        obtain rfl : k = _ := Option.some.inj (hk.symm.trans htask)
        exact absurd (isThread_of_workOf (workOf_job called))
          (by rw [← hok.job]; simp [Job.isThread])
      refine ⟨k, by rw [htasks, if_neg hne]; exact hk, ?_⟩
      have hcancelled : s'.cancelled = s.cancelled := by
        rw [← hafter]
        rfl
      rw [hcalls] at hcalled
      exact callOk_served hok hk hcall hcalled hlog hcancelled hawaits htasks (honly t')
    · rw [hrows]
      exact hgood
    · rw [hcalls, hlog, hrows]
      exact .cons hi.replays hunserved hcall hspec
    · intro t' id fields hcall' ht'
      obtain ⟨hne, ht'⟩ := hserved t' ht'
      rw [hcalls] at hcall'
      rw [hrows]
      refine stored_kept hspec (hi.pending t' id fields hcall' ht') ?_
      rintro ⟨id', hid'⟩ fields' rfl rfl
      exact hne (hi.distinct t' t id fields fields' hcall' hcall)
    · rw [hcalls]
      exact hi.distinct

/-- **Every step keeps the invariant.** -/
theorem Inv.moved {table : Table} {s s' : ProfileRepository} {l : RepositoryLabel}
    (hi : Inv table s) (hl : storableNames s l) (h : step startSync s l = some s') :
    Inv table s' := by
  obtain ⟨d', hd', rfl⟩ := Option.map_eq_some_iff.mp h
  have hserial : Serial d' := hi.serial.moved (moved_of_step hd')
  have hwent : Went startSync s.database l.database d' := by
    refine went_of_step hi.opened (fun t k htask => ?_) hd'
    rcases hi.tasks t k htask with ⟨hthread, _⟩ | ⟨call, hcall⟩
    · exact .inl hthread
    · obtain ⟨k', hk', hok⟩ := hi.calls t call hcall
      obtain rfl : k = k' := Option.some.inj (htask.symm.trans hk')
      exact .inr ⟨_, by rw [hok.job]; exact workOf_job call⟩
  cases l with
  | call call =>
    cases hwent
    refine inv_call hi (fun id fields hcreate => ?_) hserial
    rw [hcreate] at hl
    exact hl
  | cancel t => exact inv_cancel hi hserial hwent
  | run t => exact inv_run hi hserial hwent
  | begin u => exact inv_begin hi hserial hwent
  | finish u => exact inv_finish hi hl hserial hwent

/-! ## The result -/

/-- A run from a table that the repository has left. -/
structure RepositoryRun (startSync : Faults → Table → Except (Raised ProfileError) Unit × Table)
    (ok : ProfileRepository → RepositoryLabel → Prop) (table : Table)
    (ls : List RepositoryLabel) (s : ProfileRepository) : Prop where
  good : Good table
  meets : Transition.Meets (step startSync) ok (.init table) ls
  reaches : Transition.exec (step startSync) (.init table) ls = some s

/-- **The repository is a finite map**: in every run in which SQLite can keep the names,
the calls act on the map of the table one after the other. -/
theorem repository_refines {table : Table} {ls : List RepositoryLabel} {s : ProfileRepository}
    (h : RepositoryRun startSync storableNames table ls s) : Refines table s :=
  (Transition.invariant_of_meets (I := Inv table) (fun _ _ _ hi hl hstep => hi.moved hl hstep)
    (inv_init h.good) h.meets h.reaches).refines

/-! ## Two runs -/

/-- A server ID of zeros. -/
def zeroId : ProfileId :=
  ⟨decode ("profile-".toList ++ List.replicate 32 '0'), by decide⟩

/-- A profile with this name. -/
def named (name : List Char) : ProfileValues :=
  ⟨decode name, .finite 80, .finite 100, none⟩

/-- A call that runs up to its end, with its worker. -/
def served (t u : ℕ) : List RepositoryLabel := [.run t, .begin u, .finish u, .run t]

/-- Two updates of one new profile, at the same time. -/
def updatesRun (create : ProfileCreate) (first second : ProfileUpdate) : List RepositoryLabel :=
  .call (.create zeroId create) :: .run 0 :: served 0 1 ++
    [.call (.update zeroId.id first), .call (.update zeroId.id second), .run 2, .run 3] ++
    served 2 4 ++ served 3 5

/-- The run with a name and a height that change. -/
def updatesBoth : List RepositoryLabel :=
  updatesRun ⟨named ['a'], by decide⟩
    ⟨⟨some (decode ['b']), none, none, none⟩, ⟨.value (decode ['b']), .unset, .unset, .unset⟩,
      by decide⟩
    ⟨⟨none, none, some (.finite 110), none⟩, ⟨.unset, .unset, .value (.finite 110), .unset⟩,
      by decide⟩

/-- The names of the calls can be kept, whatever the table. -/
def storableCalls (s : ProfileRepository) : RepositoryLabel → Prop
  | .call called => distinctIds s (.call called) ∧ ∀ m, called.Storable m
  | _ => True

theorem calls_of_step {s s' : ProfileRepository} {l : RepositoryLabel}
    (h : step startSync s l = some s') {t : ℕ} {call : Call} (hcall : s'.calls t = some call) :
    s.calls t = some call ∨ l = .call call := by
  obtain ⟨d', _, rfl⟩ := Option.map_eq_some_iff.mp h
  cases l with
  | call called =>
    simp only [ProfileRepository.after, Function.update_apply] at hcall
    split_ifs at hcall
    · cases hcall
      exact .inr rfl
    · exact .inl hcall
  | _ => exact .inl hcall

theorem meets_storableNames {table : Table} {ls : List RepositoryLabel}
    (h : Transition.Meets (step startSync) storableCalls (.init table) ls) :
    Transition.Meets (step startSync) storableNames (.init table) ls := by
  refine Transition.Meets.mono
    (I := fun s => ∀ t call, s.calls t = some call → ∀ m, call.Storable m)
    (fun s l s' hi hl hstep t call hcall => ?_) (fun s l hi hl => ?_) (fun _ _ h => nomatch h) h
  · rcases calls_of_step hstep hcall with hcall | rfl
    · exact hi t call hcall
    · exact hl.2
  · cases l with
    | call called => exact hl.1
    | finish u => exact fun t call _ hcall => hi t call hcall _
    | _ => trivial

/-- Both updates are kept. -/
theorem refines_updates : ∃ s, RepositoryRun (fun _ table => (.ok (), table)) storableNames []
      updatesBoth s ∧
    stored s.database.rows zeroId.id = some ⟨decode ['b'], .finite 80, .finite 110, none⟩ ∧
    Refines [] s := by
  have hstored : (Transition.exec (step fun _ table => (.ok (), table)) (.init []) updatesBoth).map
      (fun s => stored s.database.rows zeroId.id) =
        some (some ⟨decode ['b'], .finite 80, .finite 110, none⟩) := by
    decide
  obtain ⟨s, hs, hstored⟩ := Option.map_eq_some_iff.mp hstored
  have hmeets : Transition.Meets (step fun _ table => (.ok (), table)) storableNames (.init [])
      updatesBoth := by
    refine meets_storableNames ⟨⟨⟨rfl, fun _ _ h => (nomatch h)⟩, fun _ => ⟨rfl, by decide⟩⟩,
      fun _ _ => ?_⟩
    refine Transition.meets_of_labels ?_
    simp [served, storableCalls, distinctIds, Call.Storable, NameStorable, encode, decode]
  have hrun : RepositoryRun (fun _ table => (.ok (), table)) storableNames [] updatesBoth s :=
    ⟨good_nil, hmeets, hs⟩
  exact ⟨s, hrun, hstored, repository_refines hrun⟩

/-- A profile whose name begins with U+0000, which the model accepts. -/
def nulRun : List RepositoryLabel :=
  .call (.create zeroId ⟨named ['\x00', 'a'], by decide⟩) :: .run 0 :: served 0 1

/-- The constraint of the table refuses it. -/
theorem refused_nul : ∃ s, RepositoryRun (fun _ table => (.ok (), table)) distinctIds [] nulRun s ∧
    ¬ Refines [] s := by
  have hlog : (Transition.exec (step fun _ table => (.ok (), table)) (.init []) nulRun).map
      (fun s => s.log) = some [(0, .error (.sqlite false))] := by
    decide
  obtain ⟨s, hs, hlog⟩ := Option.map_eq_some_iff.mp hlog
  have hcall : (Transition.exec (step fun _ table => (.ok (), table)) (.init []) nulRun).map
      (fun s => s.calls 0) = some (some (.create zeroId ⟨named ['\x00', 'a'], by decide⟩)) :=
    rfl
  rw [hs] at hcall
  refine ⟨s, ⟨good_nil, ⟨⟨rfl, fun _ _ h => (nomatch h)⟩, fun _ _ => ?_⟩, hs⟩, fun h => ?_⟩
  · refine Transition.meets_of_labels ?_
    simp [served, distinctIds]
  · have hreplays := h.replays
    rw [hlog] at hreplays
    generalize hentry : ((0, .error (.sqlite false)) : ℕ × WorkerResult) = entry at hreplays
    cases hreplays with
    | cons _ _ hcalled hspec =>
      obtain ⟨rfl, houtcome⟩ := Prod.mk.inj hentry
      have hcreate := Option.some.inj (hcalled.symm.trans (Option.some.inj hcall))
      rw [hcreate] at hspec
      -- A create that the log shows has returned its profile.
      rw [hspec.1] at houtcome
      cases houtcome

end SmartDesk.Profiles
