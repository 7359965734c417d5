import Mathlib.Data.List.Sort
import SmartDesk.Lib.Transition
import SmartDesk.Core.TaskManager

/-!
# The lifecycle of the application

The lifespan handler of `core/lifecycle.py`, up to one `await` at a time, between the
events of the supervised tasks.

* `Registry`, `AppContainer`, `Lifespan`, `step` — the registered resources, and where the
  handler is.
* `failure_masked`, `failure_not_masked` — a critical failure that is recorded during the
  startup is overwritten by READY; **without one the status shows every critical failure that
  the task manager has recorded**.
* `Paired` — every resource that was started is stopped exactly once, in order.
* `paired_iff` — **the handler pairs starts and stops exactly if it is not interrupted**
  while a resource still waits for its stop.
-/

namespace SmartDesk.Core

/-! ## The container -/

structure ResourceRegistration where
  name : String
  startupOrder : ℤ := 100
  shutdownOrder : ℤ := 100
  deriving DecidableEq

/-- The registered resources; `register` keeps their names distinct. -/
structure Registry where
  resources : List ResourceRegistration
  distinct : (resources.map (·.name)).Nodup

namespace Registry

def empty : Registry := ⟨[], by simp⟩

/-- `register(registration)`, unless it raises. -/
def register (registration : ResourceRegistration) (registry : Registry) : Option Registry :=
  if h : registration.name ∈ registry.resources.map (·.name) then none
  else
    some ⟨registry.resources ++ [registration], by
      rw [List.map_append, List.map_singleton, List.nodup_append]
      refine ⟨registry.distinct, by simp, ?_⟩
      rintro name hname _ hlast rfl
      exact h ((List.mem_singleton.mp hlast) ▸ hname)⟩

/-- The resources in the order of their start; equal orders keep their place. -/
def startup (registry : Registry) : List ResourceRegistration :=
  registry.resources.insertionSort fun a b => a.startupOrder ≤ b.startupOrder

end Registry

/-- The started resources in the order of their stop. -/
def shutdownSorted (started : List ResourceRegistration) : List ResourceRegistration :=
  started.insertionSort fun a b => b.shutdownOrder ≤ a.shutdownOrder

structure AppContainer where
  registry : Registry
  status : ApplicationStatus
  manager : TaskManager
  startedResources : List ResourceRegistration

/-! ## The handler -/

/-- What the lifespan handler awaits: the start of the first resource of `rest`, its stop
(in a shutdown, or before the error of a start is raised again), the end of the requests,
or the shutdown of the task manager. -/
inductive Lifespan where
  | created
  | starting (rest : List ResourceRegistration)
  | serving
  | stopping (shutdown : Bool) (rest : List ResourceRegistration)
  | closing
  | ended (how : TaskEnd)
  deriving DecidableEq

/-- A start or a stop of a resource, and how it ended. -/
inductive Call where
  | start (registration : ResourceRegistration) (how : TaskEnd)
  | stop (registration : ResourceRegistration) (how : TaskEnd)
  deriving DecidableEq

structure Server where
  container : AppContainer
  lifespan : Lifespan
  calls : List Call

namespace Server

/-- The next turn of the loop of `start_application`. -/
def startNext (rest : List ResourceRegistration) (s : Server) : Server :=
  if rest = [] then
    { s with container := { s.container with status := .ready }, lifespan := .serving }
  else { s with lifespan := .starting rest }

/-- The next turn of the loop of `_stop_started_resources`. -/
def stopNext (shutdown : Bool) (rest : List ResourceRegistration) (s : Server) : Server :=
  if rest = [] then
    let s := { s with container := { s.container with startedResources := [] } }
    if shutdown then
      { s with
        container := { s.container with manager := { s.container.manager with closing := true } }
        lifespan := .closing }
    else { s with lifespan := .ended .raised }
  else { s with lifespan := .stopping shutdown rest }

end Server

/-- What can happen: the handler goes on, an `await` of the handler ends, or a supervised
task is created or done. -/
inductive LifecycleEvent where
  | begin
  | started (how : TaskEnd)
  | served
  | stopped (how : TaskEnd)
  | closed (how : TaskEnd)
  | create (name : String) (critical : Bool)
  /-- `_on_done` records the end of a task, which counts as not done until then. -/
  | done (task : SupervisedTask) (how : TaskEnd)
  deriving DecidableEq

/-- The server before its start. -/
def constructed (registry : Registry) : Server :=
  ⟨⟨registry, .created, ⟨[], [], false⟩, []⟩, .created, []⟩

/-- The lifespan handler and the supervised tasks; `CancelledError` is no `Exception`. -/
def step (s : Server) : LifecycleEvent → Option Server
  | .begin =>
      if s.lifespan = .created then
        some ({ s with container := { s.container with status := .starting } }.startNext
          s.container.registry.startup)
      else none
  | .started how =>
      match s.lifespan with
      | .starting (registration :: rest) =>
          let s := { s with calls := s.calls ++ [Call.start registration how] }
          match how with
          | .returned =>
              some ({ s with container := { s.container with
                startedResources := s.container.startedResources ++ [registration] } }.startNext rest)
          | .raised =>
              some ({ s with container := { s.container with status := .failed } }.stopNext false
                (shutdownSorted s.container.startedResources))
          | .cancelled => some { s with lifespan := .ended .cancelled }
      | _ => none
  | .served =>
      if s.lifespan = .serving then
        some ({ s with container := { s.container with status := .stopping } }.stopNext true
          (shutdownSorted s.container.startedResources))
      else none
  | .stopped how =>
      match s.lifespan with
      | .stopping shutdown (registration :: rest) =>
          let s := { s with calls := s.calls ++ [Call.stop registration how] }
          match how with
          | .cancelled => some { s with lifespan := .ended .cancelled }
          | _ => some (s.stopNext shutdown rest)
      | _ => none
  | .closed how =>
      if s.lifespan = .closing then
        match how with
        | .returned =>
            some { s with
              container := { s.container with status := .stopped }, lifespan := .ended .returned }
        | _ => some { s with lifespan := .ended how }
      else none
  | .create name critical =>
      (s.container.manager.create name critical).map fun m =>
        { s with container := { s.container with manager := m } }
  | .done task how =>
      if task ∈ s.container.manager.tasks ∧ task.done = false then
        let (manager, failed) := s.container.manager.onDone task how
        some { s with container := { s.container with
          manager := manager, status := if failed then .failed else s.container.status } }
      else none

/-! ## A failure during the startup -/

/-- A failure of a critical task was recorded since `m`. -/
def FailedSince (m s : Server) : Prop :=
  ∃ f ∈ s.container.manager.failures.drop m.container.manager.failures.length, f.critical = true

def mqttResource : ResourceRegistration := ⟨"mqtt", 10, 10⟩

def heightResource : ResourceRegistration := ⟨"desk-height-monitor", 20, 20⟩

def twoResources : Registry := ⟨[mqttResource, heightResource], by decide⟩

/-- The task of the first resource fails while the second one is started. -/
def failsEarly : List LifecycleEvent :=
  [.create "mqtt-main" true, .started .returned, .done ⟨"mqtt-main", true, false⟩ .raised,
    .started .returned]

/-- **READY overwrites the failure of a critical task** during the startup. -/
theorem failure_masked : ¬ ∀ registry before after m s,
    Transition.exec step (constructed registry) (before ++ [.begin]) = some m →
      Transition.exec step m after = some s → FailedSince m s → s.container.status ≠ .ready := by
  intro hall
  have hbegin : ∃ m, Transition.exec step (constructed twoResources) ([] ++ [.begin]) = some m ∧
      (Transition.exec step m failsEarly).map (fun s =>
        (s.container.manager.failures.drop m.container.manager.failures.length,
          s.container.status)) = some ([⟨"mqtt-main", true⟩], .ready) :=
    ⟨_, rfl, by decide⟩
  obtain ⟨m, hm, hrun⟩ := hbegin
  obtain ⟨s, hs, hstate⟩ := Option.map_eq_some_iff.mp hrun
  simp only [Prod.mk.injEq] at hstate
  refine hall _ [] failsEarly m s hm hs ?_ hstate.2
  rw [FailedSince, hstate.1]
  exact ⟨_, List.mem_singleton_self _, rfl⟩

/-- The start of the last resource returns. -/
def becomesReady (s : Server) : LifecycleEvent → Bool
  | .started .returned =>
      match s.lifespan with
      | .starting [_] => true
      | _ => false
  | _ => false

/-- The application does not become ready after a critical failure that was recorded since `m`. -/
def readyUnfailed (m s : Server) (e : LifecycleEvent) : Prop :=
  becomesReady s e = true → ¬ FailedSince m s

instance (m s : Server) : Decidable (FailedSince m s) :=
  inferInstanceAs (Decidable (∃ f ∈ _, _))

instance (m s : Server) (e : LifecycleEvent) : Decidable (readyUnfailed m s e) :=
  inferInstanceAs (Decidable (_ → _))

/-- After the begin READY shows that no critical failure was recorded since `m`, whose failures
are the first. -/
structure Shows (m s : Server) : Prop where
  begun : s.lifespan ≠ .created
  failures : m.container.manager.failures.length ≤ s.container.manager.failures.length
  unmasked : s.container.status = .ready → ¬ FailedSince m s

namespace Server

@[simp] theorem startNext_manager (rest : List ResourceRegistration) (s : Server) :
    (s.startNext rest).container.manager = s.container.manager := by
  unfold startNext
  split <;> rfl

@[simp] theorem stopNext_failures (shutdown : Bool) (rest : List ResourceRegistration)
    (s : Server) : (s.stopNext shutdown rest).container.manager.failures =
      s.container.manager.failures := by
  unfold stopNext
  split
  · cases shutdown <;> rfl
  · rfl

@[simp] theorem stopNext_status (shutdown : Bool) (rest : List ResourceRegistration)
    (s : Server) : (s.stopNext shutdown rest).container.status = s.container.status := by
  unfold stopNext
  split
  · cases shutdown <;> rfl
  · rfl

theorem startNext_begun (rest : List ResourceRegistration) (s : Server) :
    (s.startNext rest).lifespan ≠ .created := by
  unfold startNext
  split <;> simp

theorem stopNext_begun (shutdown : Bool) (rest : List ResourceRegistration) (s : Server) :
    (s.stopNext shutdown rest).lifespan ≠ .created := by
  unfold stopNext
  split
  · cases shutdown <;> simp
  · simp

end Server

theorem Shows.keep {m s s' : Server} (h : Shows m s) (hbegun : s'.lifespan ≠ .created)
    (hfailures : s'.container.manager.failures = s.container.manager.failures)
    (hstatus : s'.container.status = s.container.status ∨ s'.container.status ≠ .ready) :
    Shows m s' := by
  refine ⟨hbegun, by rw [hfailures]; exact h.failures, fun hready => ?_⟩
  rw [FailedSince, hfailures]
  rcases hstatus with hsame | hother
  · exact h.unmasked (hsame ▸ hready)
  · exact absurd hready hother

/-- A failure that is not recorded as critical leaves the status alone. -/
theorem Shows.done {m s : Server} (h : Shows m s) (task : SupervisedTask) (how : TaskEnd) :
    Shows m { s with container := { s.container with
      manager := (s.container.manager.onDone task how).1
      status := if (s.container.manager.onDone task how).2 then .failed
        else s.container.status } } := by
  unfold TaskManager.onDone
  dsimp only
  split
  · exact h.keep h.begun rfl (.inl rfl)
  · refine ⟨h.begun, ?_, fun hready => ?_⟩
    · rw [List.length_append]
      exact h.failures.trans (Nat.le_add_right _ _)
    · cases hcritical : task.critical with
      | true => simp [hcritical] at hready
      | false =>
        simp only [hcritical, Bool.false_eq_true, if_false] at hready
        rintro ⟨f, hf, hcrit⟩
        rw [List.drop_append_of_le_length h.failures, List.mem_append] at hf
        rcases hf with hold | hnew
        · exact h.unmasked hready ⟨f, hold, hcrit⟩
        · rw [List.mem_singleton.mp hnew] at hcrit
          cases hcrit

theorem Shows.step {m s s' : Server} {e : LifecycleEvent} (h : Shows m s)
    (hok : readyUnfailed m s e) (hstep : step s e = some s') : Shows m s' := by
  cases e with
  | begin => simp [Core.step, h.begun] at hstep
  | started how =>
    simp only [Core.step] at hstep
    split at hstep
    · next registration rest hlifespan =>
      cases how with
      | returned =>
        cases hstep
        unfold Server.startNext
        split
        · next hrest =>
          subst hrest
          exact ⟨by simp, h.failures, fun _ => hok (by simp [becomesReady, hlifespan])⟩
        · exact h.keep (by simp) rfl (.inl rfl)
      | raised =>
        cases hstep
        exact h.keep (Server.stopNext_begun _ _ _) (by simp) (.inr (by simp))
      | cancelled =>
        cases hstep
        exact h.keep (by simp) rfl (.inl rfl)
    · cases hstep
  | served =>
    simp only [Core.step] at hstep
    split at hstep
    · cases hstep
      exact h.keep (Server.stopNext_begun _ _ _) (by simp) (.inr (by simp))
    · cases hstep
  | stopped how =>
    simp only [Core.step] at hstep
    split at hstep
    · cases how with
      | cancelled =>
        cases hstep
        exact h.keep (by simp) rfl (.inl rfl)
      | returned =>
        cases hstep
        exact h.keep (Server.stopNext_begun _ _ _) (by simp) (.inl (by simp))
      | raised =>
        cases hstep
        exact h.keep (Server.stopNext_begun _ _ _) (by simp) (.inl (by simp))
    · cases hstep
  | closed how =>
    simp only [Core.step] at hstep
    split at hstep
    · cases how with
      | returned =>
        cases hstep
        exact h.keep (by simp) rfl (.inr (by simp))
      | raised =>
        cases hstep
        exact h.keep (by simp) rfl (.inl rfl)
      | cancelled =>
        cases hstep
        exact h.keep (by simp) rfl (.inl rfl)
    · cases hstep
  | create name critical =>
    simp only [Core.step, TaskManager.create] at hstep
    split at hstep
    · cases hstep
    · cases hstep
      exact h.keep h.begun rfl (.inl rfl)
  | done task how =>
    simp only [Core.step] at hstep
    split at hstep
    · cases hstep
      exact h.done task how
    · cases hstep

/-- **The status shows every critical failure**: it is not READY once a critical failure was
recorded after the begin of the startup, if the application does not become ready after
such a failure. -/
theorem failure_not_masked {registry : Registry} {before after : List LifecycleEvent}
    {m s : Server}
    (hbefore : Transition.exec step (constructed registry) (before ++ [.begin]) = some m)
    (hmeets : Transition.Meets step (readyUnfailed m) m after)
    (hafter : Transition.exec step m after = some s) (hfailed : FailedSince m s) :
    s.container.status ≠ .ready := by
  obtain ⟨a, _, hbegin⟩ := Transition.exec_append.mp hbefore
  have hbegun : m.lifespan ≠ .created := by
    obtain ⟨m', hm', hend⟩ := Transition.exec_cons_eq_some.mp hbegin
    cases hend
    simp only [step] at hm'
    split at hm'
    · cases hm'
      exact Server.startNext_begun _ _
    · cases hm'
  have hshows : Shows m s :=
    Transition.invariant_of_meets (fun _ _ _ h hok hs => h.step hok hs)
      ⟨hbegun, le_rfl, fun _ => by simp [FailedSince]⟩ hmeets hafter
  exact fun hready => hshows.unmasked hready hfailed

/-- The task of the first resource fails when the application is ready. -/
def failsLate : List LifecycleEvent :=
  [.create "mqtt-main" true, .started .returned, .started .returned,
    .done ⟨"mqtt-main", true, false⟩ .raised]

/-- Such a failure shows. -/
theorem failure_not_masked_late : ∃ s,
    Transition.exec step (constructed twoResources) (([] ++ [.begin]) ++ failsLate) = some s ∧
      s.container.status ≠ .ready := by
  have hbegin : ∃ m, Transition.exec step (constructed twoResources) ([] ++ [.begin]) = some m ∧
      Transition.Meets step (readyUnfailed m) m failsLate ∧
      (Transition.exec step m failsLate).map (fun s =>
        s.container.manager.failures.drop m.container.manager.failures.length) =
          some [⟨"mqtt-main", true⟩] :=
    ⟨_, rfl, by decide, by decide⟩
  obtain ⟨m, hm, hmeets, hrun⟩ := hbegin
  obtain ⟨s, hs, hstate⟩ := Option.map_eq_some_iff.mp hrun
  refine ⟨s, Transition.exec_append.mpr ⟨m, hm, hs⟩, failure_not_masked hm hmeets hs ?_⟩
  rw [FailedSince, hstate]
  exact ⟨_, List.mem_singleton_self _, rfl⟩

/-! ## Starts and stops -/

namespace Call

/-- The resource whose start was called. -/
def startOf : Call → Option ResourceRegistration
  | .start registration _ => some registration
  | .stop _ _ => none

/-- The resource whose stop was called. -/
def stopOf : Call → Option ResourceRegistration
  | .start _ _ => none
  | .stop registration _ => some registration

end Call

/-- The resources are started in the order of their start; each one whose start returned
is stopped once, in the order of their stop, and no other one is stopped. -/
structure Paired (calls : List Call) : Prop where
  inOrder : (calls.filterMap Call.startOf).Pairwise fun a b => a.startupOrder ≤ b.startupOrder
  stoppedOnce : ∀ r, .start r .returned ∈ calls → (calls.filterMap Call.stopOf).count r = 1
  reversed : (calls.filterMap Call.stopOf).Pairwise fun a b => b.shutdownOrder ≤ a.shutdownOrder
  onlyStarted : ∀ r ∈ calls.filterMap Call.stopOf, .start r .returned ∈ calls

/-- The handler is cancelled while a resource that was started still waits for its stop. -/
def interrupts (s : Server) : LifecycleEvent → Bool
  | .started .cancelled => !s.container.startedResources.isEmpty
  | .stopped .cancelled =>
      match s.lifespan with
      | .stopping _ (_ :: _ :: _) => true
      | _ => false
  | _ => false

/-- The starts that returned, the start that did not, and the stops. -/
def journal (started : List ResourceRegistration)
    (halted dones : List (ResourceRegistration × TaskEnd)) : List Call :=
  started.map (Call.start · .returned) ++
    (halted.map (fun h => Call.start h.1 h.2) ++ dones.map (fun d => Call.stop d.1 d.2))

/-- The calls up to the stop of `rest`. -/
def Stopping (s : Server) (rest : List ResourceRegistration) : Prop :=
  ∃ started halted dones, s.calls = journal started halted dones ∧
    (started ++ halted.map Prod.fst) <+: s.container.registry.startup ∧
    (∀ h ∈ halted, h.2 ≠ .returned) ∧ dones.map Prod.fst ++ rest = shutdownSorted started

/-- The resources before `rest` were started. -/
structure Starting (s : Server) (rest : List ResourceRegistration) : Prop where
  order : s.container.startedResources ++ rest = s.container.registry.startup
  calls : s.calls = journal s.container.startedResources [] []

/-- What the handler has done so far, without an interruption. -/
def Whole (s : Server) : Prop :=
  match s.lifespan with
  | .created => Starting s s.container.registry.startup
  | .starting rest => Starting s rest
  | .serving => Starting s []
  | .stopping _ rest => Stopping s rest
  | .closing => Stopping s []
  | .ended _ => Stopping s []

/-- The handler has ended, and a resource was not stopped. -/
def Broken (s : Server) : Prop :=
  (∃ how, s.lifespan = .ended how) ∧ ∃ registration rest, Stopping s (registration :: rest)

instance : Std.Total fun a b : ResourceRegistration => a.startupOrder ≤ b.startupOrder :=
  ⟨fun a b => le_total a.startupOrder b.startupOrder⟩

instance : IsTrans ResourceRegistration fun a b => a.startupOrder ≤ b.startupOrder :=
  ⟨fun _ _ _ => le_trans⟩

instance : Std.Total fun a b : ResourceRegistration => b.shutdownOrder ≤ a.shutdownOrder :=
  ⟨fun a b => le_total b.shutdownOrder a.shutdownOrder⟩

instance : IsTrans ResourceRegistration fun a b => b.shutdownOrder ≤ a.shutdownOrder :=
  ⟨fun _ _ _ h h' => le_trans h' h⟩

theorem Registry.nodup_startup (registry : Registry) : registry.startup.Nodup :=
  (List.perm_insertionSort _ _).nodup_iff.mpr registry.distinct.of_map

theorem mem_shutdownSorted {started : List ResourceRegistration} {r : ResourceRegistration} :
    r ∈ shutdownSorted started ↔ r ∈ started :=
  List.mem_insertionSort _

section Journal

variable (started : List ResourceRegistration) (halted dones : List (ResourceRegistration × TaskEnd))

theorem startOf_journal :
    (journal started halted dones).filterMap Call.startOf = started ++ halted.map Prod.fst := by
  simp [journal, List.filterMap_append, List.filterMap_map, Function.comp_def, Call.startOf]

theorem stopOf_journal :
    (journal started halted dones).filterMap Call.stopOf = dones.map Prod.fst := by
  simp [journal, List.filterMap_append, List.filterMap_map, Function.comp_def, Call.stopOf]

variable {started halted}

theorem start_mem_journal (hhalted : ∀ h ∈ halted, h.2 ≠ .returned) {r : ResourceRegistration} :
    .start r .returned ∈ journal started halted dones ↔ r ∈ started := by
  simp only [journal, List.mem_append, List.mem_map, Call.start.injEq, and_true, exists_eq_right,
    reduceCtorEq, and_false, exists_false, or_false, or_iff_left_iff_imp, forall_exists_index]
  rintro h ⟨hmem, _, hreturned⟩
  exact absurd hreturned (hhalted h hmem)

end Journal

/-- The stops of the started resources are distinct. -/
theorem nodup_shutdownSorted {registry : Registry} {started rest : List ResourceRegistration}
    (h : (started ++ rest) <+: registry.startup) : (shutdownSorted started).Nodup := by
  have hnodup := registry.nodup_startup.sublist h.sublist
  exact (List.perm_insertionSort _ _).nodup_iff.mpr (List.Nodup.of_append_left hnodup)

theorem Stopping.paired {s : Server} (h : Stopping s []) : Paired s.calls := by
  obtain ⟨started, halted, dones, hcalls, hprefix, hhalted, hdones⟩ := h
  rw [List.append_nil] at hdones
  rw [hcalls]
  constructor
  · rw [startOf_journal]
    exact (List.pairwise_insertionSort _ _).sublist hprefix.sublist
  · intro r hr
    rw [stopOf_journal, hdones]
    rw [start_mem_journal dones hhalted] at hr
    exact List.count_eq_one_of_mem (nodup_shutdownSorted hprefix) (mem_shutdownSorted.mpr hr)
  · rw [stopOf_journal, hdones]
    exact List.pairwise_insertionSort _ _
  · intro r hr
    rw [stopOf_journal, hdones] at hr
    exact (start_mem_journal dones hhalted).mpr (mem_shutdownSorted.mp hr)

/-- A resource that was not stopped. -/
theorem Broken.not_paired {s : Server} (h : Broken s) : ¬ Paired s.calls := by
  obtain ⟨_, r, rest, started, halted, dones, hcalls, hprefix, hhalted, hdones⟩ := h
  intro hpaired
  have hstarted : r ∈ started := mem_shutdownSorted.mp (hdones ▸ by simp)
  have honce := hpaired.stoppedOnce r (by rw [hcalls]; exact (start_mem_journal dones hhalted).mpr hstarted)
  rw [hcalls, stopOf_journal] at honce
  have hnodup := nodup_shutdownSorted hprefix
  rw [← hdones, List.nodup_append] at hnodup
  have hmem : r ∈ dones.map Prod.fst := List.count_pos_iff.mp (by omega)
  exact hnodup.2.2 r hmem r (by simp) rfl

/-! ## One step -/

theorem Starting.startNext {s : Server} {rest : List ResourceRegistration} (h : Starting s rest) :
    Whole (s.startNext rest) := by
  unfold Server.startNext
  split
  · next hrest =>
    subst hrest
    exact ⟨h.order, h.calls⟩
  · exact ⟨h.order, h.calls⟩

theorem Stopping.stopNext {s : Server} {rest : List ResourceRegistration} (h : Stopping s rest)
    (shutdown : Bool) : Whole (s.stopNext shutdown rest) := by
  unfold Server.stopNext
  split
  · next hrest =>
    subst hrest
    cases shutdown with
    | true => exact h
    | false => exact h
  · exact h

/-- The stops begin with all started resources. -/
theorem Starting.stopping {s : Server} {rest : List ResourceRegistration} (h : Starting s rest) :
    Stopping s (shutdownSorted s.container.startedResources) :=
  ⟨_, [], [], h.calls, ⟨rest, by simpa using h.order⟩, by simp, by simp⟩

/-- The stops begin after a start that did not return. -/
theorem Starting.halted {s s' : Server} {registration : ResourceRegistration}
    {rest : List ResourceRegistration} {how : TaskEnd} (h : Starting s (registration :: rest))
    (hhow : how ≠ .returned) (hcalls : s'.calls = s.calls ++ [.start registration how])
    (hregistry : s'.container.registry = s.container.registry) :
    Stopping s' (shutdownSorted s.container.startedResources) := by
  refine ⟨s.container.startedResources, [(registration, how)], [], ?_, ⟨rest, ?_⟩, ?_, by simp⟩
  · rw [hcalls, h.calls]
    simp [journal]
  · rw [hregistry]
    simpa using h.order
  · rintro pair hpair
    rw [List.mem_singleton.mp hpair]
    exact hhow

theorem Stopping.stopped {s s' : Server} {registration : ResourceRegistration}
    {rest : List ResourceRegistration} (h : Stopping s (registration :: rest)) (how : TaskEnd)
    (hcalls : s'.calls = s.calls ++ [.stop registration how])
    (hregistry : s'.container.registry = s.container.registry) : Stopping s' rest := by
  obtain ⟨started, halted, dones, hjournal, hprefix, hhalted, hdones⟩ := h
  refine ⟨started, halted, dones ++ [(registration, how)], ?_, ?_, hhalted, ?_⟩
  · rw [hcalls, hjournal]
    simp [journal]
  · rw [hregistry]
    exact hprefix
  · simpa using hdones

/-- The supervised tasks do not matter. -/
theorem Whole.of_same {s s' : Server} (h : Whole s) (hlifespan : s'.lifespan = s.lifespan)
    (hcalls : s'.calls = s.calls) (hregistry : s'.container.registry = s.container.registry)
    (hstarted : s'.container.startedResources = s.container.startedResources) : Whole s' := by
  have hstarting : ∀ rest, Starting s rest → Starting s' rest := fun rest hs =>
    ⟨by rw [hstarted, hregistry]; exact hs.order, by rw [hcalls, hstarted]; exact hs.calls⟩
  have hstopping : ∀ rest, Stopping s rest → Stopping s' rest := by
    rintro rest ⟨started, halted, dones, hjournal, hprefix, hrest⟩
    exact ⟨started, halted, dones, hcalls.trans hjournal, hregistry ▸ hprefix, hrest⟩
  unfold Whole at h ⊢
  rw [hlifespan]
  cases hpc : s.lifespan with
  | created =>
    rw [hpc] at h
    rw [hregistry]
    exact hstarting _ h
  | starting rest =>
    rw [hpc] at h
    exact hstarting _ h
  | serving =>
    rw [hpc] at h
    exact hstarting _ h
  | stopping shutdown rest =>
    rw [hpc] at h
    exact hstopping _ h
  | closing =>
    rw [hpc] at h
    exact hstopping _ h
  | ended how =>
    rw [hpc] at h
    exact hstopping _ h

/-- A step that does not interrupt keeps the journal whole; an interruption breaks it. -/
theorem Whole.step {s s' : Server} {e : LifecycleEvent} (h : Whole s)
    (hstep : step s e = some s') :
    (interrupts s e = false → Whole s') ∧ (interrupts s e = true → Broken s') := by
  cases e with
  | begin =>
    simp only [Core.step] at hstep
    split at hstep
    · next hcreated =>
      cases hstep
      rw [Whole, hcreated] at h
      exact ⟨fun _ => Starting.startNext ⟨h.order, h.calls⟩, fun hi => by cases hi⟩
    · cases hstep
  | started how =>
    simp only [Core.step] at hstep
    split at hstep
    · next registration rest hlifespan =>
      rw [Whole, hlifespan] at h
      cases how with
      | returned =>
        cases hstep
        refine ⟨fun _ => Starting.startNext ⟨?_, ?_⟩, fun hi => by cases hi⟩
        · simpa using h.order
        · simp [h.calls, journal]
      | raised =>
        cases hstep
        refine ⟨fun _ => Stopping.stopNext ?_ false, fun hi => by cases hi⟩
        exact h.halted TaskEnd.noConfusion rfl rfl
      | cancelled =>
        cases hstep
        have hhalted : Stopping ⟨s.container, .ended .cancelled,
            s.calls ++ [.start registration .cancelled]⟩
            (shutdownSorted s.container.startedResources) := by
          exact h.halted TaskEnd.noConfusion rfl rfl
        refine ⟨fun hi => ?_, fun hi => ⟨⟨_, rfl⟩, ?_⟩⟩
        · have hnone : s.container.startedResources = [] := by simpa [interrupts] using hi
          rw [hnone] at hhalted
          exact hhalted
        · obtain ⟨first, others, hsorted⟩ :
              ∃ first others, shutdownSorted s.container.startedResources = first :: others := by
            refine List.exists_cons_of_ne_nil fun hnil => ?_
            have hperm := (List.perm_insertionSort (fun a b : ResourceRegistration =>
              b.shutdownOrder ≤ a.shutdownOrder) s.container.startedResources).symm
            rw [show List.insertionSort _ _ = _ from hnil] at hperm
            simp [interrupts, hperm.eq_nil] at hi
          exact ⟨first, others, hsorted ▸ hhalted⟩
    · cases hstep
  | served =>
    simp only [Core.step] at hstep
    split at hstep
    · next hserving =>
      cases hstep
      rw [Whole, hserving] at h
      refine ⟨fun _ => Stopping.stopNext ?_ true, fun hi => by cases hi⟩
      exact h.stopping
    · cases hstep
  | stopped how =>
    simp only [Core.step] at hstep
    split at hstep
    · next shutdown registration rest hlifespan =>
      rw [Whole, hlifespan] at h
      cases how with
      | cancelled =>
        cases hstep
        have hstopped : Stopping ⟨s.container, .ended .cancelled,
            s.calls ++ [.stop registration .cancelled]⟩ rest := by
          exact h.stopped .cancelled rfl rfl
        cases rest with
        | nil => exact ⟨fun _ => hstopped, fun hi => by simp [interrupts, hlifespan] at hi⟩
        | cons first others =>
          exact ⟨fun hi => by simp [interrupts, hlifespan] at hi,
            fun _ => ⟨⟨_, rfl⟩, first, others, hstopped⟩⟩
      | returned =>
        cases hstep
        refine ⟨fun _ => Stopping.stopNext ?_ shutdown, fun hi => by cases hi⟩
        exact h.stopped .returned rfl rfl
      | raised =>
        cases hstep
        refine ⟨fun _ => Stopping.stopNext ?_ shutdown, fun hi => by cases hi⟩
        exact h.stopped .raised rfl rfl
    · cases hstep
  | closed how =>
    simp only [Core.step] at hstep
    split at hstep
    · next hclosing =>
      rw [Whole, hclosing] at h
      refine ⟨fun _ => ?_, fun hi => by cases hi⟩
      cases how with
      | returned =>
        cases hstep
        exact h
      | raised =>
        cases hstep
        exact h
      | cancelled =>
        cases hstep
        exact h
    · cases hstep
  | create name critical =>
    obtain ⟨m, _, rfl⟩ := Option.map_eq_some_iff.mp hstep
    exact ⟨fun _ => h.of_same rfl rfl rfl rfl, fun hi => by cases hi⟩
  | done task how =>
    simp only [Core.step] at hstep
    split at hstep
    · cases hstep
      exact ⟨fun _ => h.of_same rfl rfl rfl rfl, fun hi => by cases hi⟩
    · cases hstep

/-- A handler that has ended calls nothing. -/
theorem Broken.step {s s' : Server} {e : LifecycleEvent} (h : Broken s)
    (hstep : step s e = some s') : Broken s' := by
  obtain ⟨⟨how, hended⟩, first, others, hstopping⟩ := h
  cases e with
  | begin => simp [Core.step, hended] at hstep
  | started how => simp [Core.step, hended] at hstep
  | served => simp [Core.step, hended] at hstep
  | stopped how => simp [Core.step, hended] at hstep
  | closed how => simp [Core.step, hended] at hstep
  | create name critical =>
    obtain ⟨m, _, rfl⟩ := Option.map_eq_some_iff.mp hstep
    exact ⟨⟨how, hended⟩, first, others, hstopping⟩
  | done task how' =>
    simp only [Core.step] at hstep
    split at hstep
    · cases hstep
      exact ⟨⟨how, hended⟩, first, others, hstopping⟩
    · cases hstep

/-! ## Whole runs -/

/-- **The handler pairs starts and stops exactly if it is not interrupted** while a
resource that was started still waits for its stop. -/
theorem paired_iff {registry : Registry} {es : List LifecycleEvent} {s : Server} {how : TaskEnd}
    (hexec : Transition.exec step (constructed registry) es = some s)
    (hended : s.lifespan = .ended how) :
    Paired s.calls ↔
      Transition.Meets step (fun s e => interrupts s e = false) (constructed registry) es := by
  have hwhole : Whole (constructed registry) := ⟨rfl, rfl⟩
  generalize constructed registry = a at hexec hwhole
  induction es generalizing a with
  | nil =>
    cases hexec
    rw [Whole, hended] at hwhole
    exact ⟨fun _ => trivial, fun _ => Stopping.paired hwhole⟩
  | cons e es ih =>
    obtain ⟨m, hm, hrest⟩ := Transition.exec_cons_eq_some.mp hexec
    obtain ⟨hkeeps, hbreaks⟩ := hwhole.step hm
    cases hi : interrupts a e with
    | false =>
      refine (ih m hrest (hkeeps hi)).trans ⟨fun hmeets => ⟨hi, fun s' hs' => ?_⟩,
        fun hmeets => hmeets.2 m hm⟩
      rw [hm] at hs'
      cases hs'
      exact hmeets
    | true =>
      -- The interruption leaves a resource that is never stopped.
      have hbroken : Broken s :=
        Transition.invariant (fun _ _ _ h hs => h.step hs) (hbreaks hi) hrest
      refine ⟨fun hpaired => absurd hpaired hbroken.not_paired, fun hmeets => ?_⟩
      have hquiet : interrupts a e = false := hmeets.1
      rw [hi] at hquiet
      cases hquiet

/-- The second resource does not start, and the first one is stopped. -/
theorem paired_rollback : ∃ s,
    Transition.exec step (constructed twoResources)
      [.begin, .started .returned, .started .raised, .stopped .raised] = some s ∧
      Paired s.calls := by
  obtain ⟨s, hs, hended⟩ : ∃ s, Transition.exec step (constructed twoResources)
      [.begin, .started .returned, .started .raised, .stopped .raised] = some s ∧
        s.lifespan = .ended .raised :=
    ⟨_, rfl, by decide⟩
  exact ⟨s, hs, (paired_iff hs hended).mpr (by decide)⟩

/-- **A resource is not stopped** when the handler is cancelled in the next start. -/
theorem not_paired : ¬ ∀ registry es s how,
    Transition.exec step (constructed registry) es = some s → s.lifespan = .ended how →
      Paired s.calls := by
  intro hall
  obtain ⟨s, hs, hended, hcalls⟩ : ∃ s, Transition.exec step (constructed twoResources)
      [.begin, .started .returned, .started .cancelled] = some s ∧
        s.lifespan = .ended .cancelled ∧
        s.calls = [.start mqttResource .returned, .start heightResource .cancelled] :=
    ⟨_, rfl, by decide, by decide⟩
  have honce := (hall _ _ s _ hs hended).stoppedOnce mqttResource (by rw [hcalls]; simp)
  rw [hcalls] at honce
  cases honce

end SmartDesk.Core
