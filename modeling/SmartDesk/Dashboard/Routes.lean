import SmartDesk.Desk.StopReturned
import SmartDesk.Core.TaskManager

/-!
# The routes of the dashboard

`api/routes/dashboard.py` over the runtime status of `core/runtime.py`, which
`core/lifecycle.py` and the failures that `core/task_manager.py` reports set.

* `Application`, `appStep` — the application with its supervised tasks and its controller.
* `stop_refused` — a STOP is refused after a critical task has failed.
* `stop_accepted_iff` — **a STOP reaches `stop_motion` exactly as long as the task manager
  has recorded no failure of a critical task** since the application became ready.
* `stopped_of_callsStopMotion` — what the STOP does that has reached it.
-/

namespace SmartDesk.Dashboard

open SmartDesk.Core Desk Coroutine

/-! ## The application -/

/-- How far the lifespan of the application is; requests are served between its startup
and its shutdown. -/
inductive Phase where
  | created
  | starting
  | aborted
  | serving
  | stopping
  | stopped
  deriving DecidableEq

structure Application where
  phase : Phase
  status : ApplicationStatus
  manager : TaskManager
  desk : DeskPool

/-- A request to `/api/control` or `/api/target`. -/
inductive Request where
  | hold (direction : Direction)
  | stop
  | setTarget (targetCm : Ieee)
  | cancelTarget

/-- A STOP of `/api/control` or a CANCEL of `/api/target`. -/
def Request.isStop : Request → Bool
  | .stop => true
  | .cancelTarget => true
  | _ => false

/-- What the routes call through `DashboardService`. -/
def Request.job : Request → Job
  | .hold .up => .holdUp
  | .hold .down => .holdDown
  | .stop => .stopMotion "대시보드에서 수동 이동을 정지했습니다."
  | .setTarget targetCm => .setTarget (.float targetCm)
  | .cancelTarget => .stopMotion "대시보드에서 목표 이동을 취소했습니다."

/-- The routes: `_require_application_ready`, and the call of the controller; without a
call the answer is 503. -/
def route (ready : Bool) (request : Request) : Option Job :=
  if ready then some request.job else none

inductive AppEvent where
  | start
  | started
  | startFailed
  | shutdown
  | closeTasks
  | stopped
  | create (name : String) (critical : Bool)
  /-- `_on_done` records the end of a task, which counts as not done until then. -/
  | done (task : SupervisedTask) (ended : TaskEnd)
  | desk (l : DeskLabel)
  | request (r : Request)

variable (settings : DeskSettings)

/-- The application that `build_container` makes. -/
def built (now : Instant) : Application :=
  ⟨.created, .created, ⟨[], [], false⟩, deskStart settings now⟩

/-- What can happen to the application. -/
def appStep (a : Application) : AppEvent → Option Application
  | .start =>
      if a.phase = .created then some { a with phase := .starting, status := .starting } else none
  | .started =>
      if a.phase = .starting then some { a with phase := .serving, status := .ready } else none
  | .startFailed =>
      if a.phase = .starting then some { a with phase := .aborted, status := .failed } else none
  | .shutdown =>
      if a.phase = .serving then some { a with phase := .stopping, status := .stopping } else none
  | .closeTasks =>
      if a.phase = .stopping then some { a with manager := { a.manager with closing := true } }
      else none
  | .stopped =>
      if a.phase = .stopping then some { a with phase := .stopped, status := .stopped } else none
  | .create name critical => (a.manager.create name critical).map fun m => { a with manager := m }
  | .done task ended =>
      if task ∈ a.manager.tasks ∧ task.done = false then
        let (manager, failed) := a.manager.onDone task ended
        some { a with manager := manager, status := if failed then .failed else a.status }
      else none
  | .desk l => (Coroutine.step (deskSystem settings) a.desk l).map fun pool => { a with desk := pool }
  | .request r =>
      if a.phase = .serving then
        match route a.status.isReady r with
        | none => some a
        | some job =>
            (Coroutine.step (deskSystem settings) a.desk (.call job)).map fun pool =>
              { a with desk := pool }
      else none

/-- The step calls `DeskController.stop_motion`. -/
def CallsStopMotion (a a' : Application) : Prop :=
  ∃ reason, a'.desk.mem = a.desk.mem.spawn (.stopMotion reason)

variable {settings}

/-! ## A STOP that is refused -/

/-- A STOP whose call did not change the controller was refused. -/
theorem not_callsStopMotion {a a' : Application} (h : a'.desk.mem.count = a.desk.mem.count) :
    ¬ CallsStopMotion a a' := by
  rintro ⟨reason, hspawn⟩
  rw [hspawn] at h
  exact absurd h (Nat.succ_ne_self _)

/-- The task of the height monitor. -/
def heightTask : SupervisedTask := ⟨"desk-height-monitor", true, false⟩

/-- The controller is started. -/
def startsDesk : List AppEvent :=
  [.start, .create heightTask.name true, .desk (.call .start), .desk (.run 0 fun _ => readingAt 0),
    .desk (.run 0 fun _ => readingAt 1)]

/-- The application starts, and its height monitor fails. -/
def failedHeight : List AppEvent := startsDesk ++ [.started, .done heightTask .raised]

/-- **A running controller does not get a STOP** of a served request after a critical task
has failed. -/
theorem stop_refused : ¬ ∀ settings now es a a' r,
    Transition.exec (appStep settings) (built settings now) es = some a → a.phase = .serving →
      a.desk.mem.vars.desk.running = true → r.isStop = true →
      appStep settings a (.request r) = some a' → CallsStopMotion a a' := by
  intro hall
  have hrun : (Transition.exec (appStep .default) (built .default 0) failedHeight).map
      (fun a => (a.phase, a.status, a.desk.mem.vars.desk.running)) =
      some (.serving, .failed, true) := by
    decide +kernel
  obtain ⟨a, ha, hstate⟩ := Option.map_eq_some_iff.mp hrun
  simp only [Prod.mk.injEq] at hstate
  obtain ⟨hphase, hstatus, hrunning⟩ := hstate
  have hrequest : appStep .default a (.request .stop) = some a := by
    simp [appStep, hphase, hstatus, route, ApplicationStatus.isReady]
  exact not_callsStopMotion rfl (hall _ _ _ a a .stop ha hphase hrunning rfl hrequest)

/-! ## When a STOP is accepted -/

/-- What holds after the application became ready in `m`: as long as requests are served,
the status says whether a failure of a critical task was recorded since then. -/
structure Since (m a : Application) : Prop where
  phase : a.phase = .serving ∨ a.phase = .stopping ∨ a.phase = .stopped
  status : a.phase = .serving → ∃ new, a.manager.failures = m.manager.failures ++ new ∧
    (a.status = .ready ↔ ∀ f ∈ new, f.critical = false)

theorem Since.step {m a a' : Application} {e : AppEvent} (h : Since m a)
    (hstep : appStep settings a e = some a') : Since m a' := by
  -- An event that leaves the phase, the status and the tasks alone.
  have hkeep : a'.phase = a.phase → a'.status = a.status →
      a'.manager.failures = a.manager.failures → Since m a' := by
    intro hphase hstatus hfailures
    refine ⟨by rw [hphase]; exact h.phase, fun hserving => ?_⟩
    rw [hstatus, hfailures]
    exact h.status (hphase.symm.trans hserving)
  cases e with
  | start =>
    simp only [appStep] at hstep
    split at hstep
    · next hphase =>
      rcases h.phase with h' | h' | h' <;> rw [hphase] at h' <;> cases h'
    · cases hstep
  | started =>
    simp only [appStep] at hstep
    split at hstep
    · next hphase =>
      rcases h.phase with h' | h' | h' <;> rw [hphase] at h' <;> cases h'
    · cases hstep
  | startFailed =>
    simp only [appStep] at hstep
    split at hstep
    · next hphase =>
      rcases h.phase with h' | h' | h' <;> rw [hphase] at h' <;> cases h'
    · cases hstep
  | shutdown =>
    simp only [appStep] at hstep
    split at hstep
    · cases hstep
      exact ⟨.inr (.inl rfl), fun h => by cases h⟩
    · cases hstep
  | closeTasks =>
    simp only [appStep] at hstep
    split at hstep
    · cases hstep
      exact hkeep rfl rfl rfl
    · cases hstep
  | stopped =>
    simp only [appStep] at hstep
    split at hstep
    · cases hstep
      exact ⟨.inr (.inr rfl), fun h => by cases h⟩
    · cases hstep
  | create name critical =>
    simp only [appStep, TaskManager.create] at hstep
    split at hstep
    · cases hstep
    · cases hstep
      exact hkeep rfl rfl rfl
  | done task ended =>
    simp only [appStep, TaskManager.onDone] at hstep
    split at hstep
    · split at hstep
      · cases hstep
        exact hkeep rfl rfl rfl
      · cases hstep
        refine ⟨h.phase, fun hserving => ?_⟩
        obtain ⟨new, hnew, hready⟩ := h.status hserving
        refine ⟨new ++ [⟨task.name, task.critical⟩], ?_, ?_⟩
        · simp [hnew]
        · rw [List.forall_mem_append]
          cases hcritical : task.critical with
          | false => simpa using hready
          | true => simp
    · cases hstep
  | desk l =>
    simp only [appStep, Option.map_eq_some_iff] at hstep
    obtain ⟨pool, _, rfl⟩ := hstep
    exact hkeep rfl rfl rfl
  | request r =>
    simp only [appStep] at hstep
    split at hstep
    · split at hstep
      · cases hstep
        exact h
      · simp only [Option.map_eq_some_iff] at hstep
        obtain ⟨pool, _, rfl⟩ := hstep
        exact hkeep rfl rfl rfl
    · cases hstep

/-- **A STOP reaches `stop_motion` exactly as long as the task manager has recorded no failure
of a critical task** since the application became ready. -/
theorem stop_accepted_iff {now : Instant} {before after : List AppEvent} {m a a' : Application}
    {r : Request}
    (hbefore : Transition.exec (appStep settings) (built settings now) (before ++ [.started]) =
      some m)
    (hafter : Transition.exec (appStep settings) m after = some a) (hserving : a.phase = .serving)
    (hstop : r.isStop = true) (hstep : appStep settings a (.request r) = some a') :
    CallsStopMotion a a' ↔
      ∀ f ∈ a.manager.failures.drop m.manager.failures.length, f.critical = false := by
  obtain ⟨s, _, hstarted⟩ := Transition.exec_append.mp hbefore
  have hready : m.phase = .serving ∧ m.status = .ready := by
    obtain ⟨m', hm', hend⟩ := Transition.exec_cons_eq_some.mp hstarted
    cases hend
    simp only [appStep] at hm'
    split at hm'
    · cases hm'
      exact ⟨rfl, rfl⟩
    · cases hm'
  have hsince : Since m a := by
    refine Transition.invariant (I := Since m) (fun _ _ _ h hs => h.step hs) ?_ hafter
    exact ⟨.inl hready.1, fun _ => ⟨[], by simp, by simp [hready.2]⟩⟩
  obtain ⟨new, hnew, hstatus⟩ := hsince.status hserving
  rw [hnew, List.drop_left, ← hstatus]
  simp only [appStep, hserving, if_true] at hstep
  constructor
  · intro hcalls
    by_contra hnot
    have hrefused : route a.status.isReady r = none := by
      simp [route, ApplicationStatus.isReady, hnot]
    rw [hrefused] at hstep
    cases hstep
    exact not_callsStopMotion rfl hcalls
  · intro hready'
    have haccepted : route a.status.isReady r = some r.job := by
      simp [route, ApplicationStatus.isReady, hready']
    rw [haccepted] at hstep
    obtain ⟨pool, hcall, rfl⟩ := Option.map_eq_some_iff.mp hstep
    cases r with
    | hold d => cases hstop
    | setTarget x => cases hstop
    | stop =>
      cases hcall
      exact ⟨_, rfl⟩
    | cancelTarget =>
      cases hcall
      exact ⟨_, rfl⟩

/-- The task of the voice service, which is not critical. -/
def voiceTask : SupervisedTask := ⟨"voice-main", false, false⟩

/-- The controller and the voice service are started. -/
def startsAll : List AppEvent := startsDesk ++ [.create voiceTask.name false]

/-- A STOP is accepted although the voice service has failed. -/
theorem stop_accepted_ready : ∃ m a a',
    Transition.exec (appStep .default) (built .default 0) (startsAll ++ [.started]) = some m ∧
      Transition.exec (appStep .default) m [.done voiceTask .raised] = some a ∧
      a.desk.mem.vars.desk.running = true ∧ a.manager.failures = [⟨"voice-main", false⟩] ∧
      appStep .default a (.request .stop) = some a' ∧ CallsStopMotion a a' := by
  have hready : (Transition.exec (appStep .default) (built .default 0)
      (startsAll ++ [.started])).map (fun m => (m.manager.failures, (Transition.exec
        (appStep .default) m [.done voiceTask .raised]).map fun a =>
          (a.phase, a.desk.mem.vars.desk.running, a.manager.failures,
            (appStep .default a (.request .stop)).isSome))) =
      some ([], some (.serving, true, [⟨"voice-main", false⟩], true)) := by
    decide +kernel
  obtain ⟨m, hm, hrest⟩ := Option.map_eq_some_iff.mp hready
  simp only [Prod.mk.injEq] at hrest
  obtain ⟨hnone, hafter⟩ := hrest
  obtain ⟨a, ha, hstate⟩ := Option.map_eq_some_iff.mp hafter
  simp only [Prod.mk.injEq] at hstate
  obtain ⟨hphase, hrunning, hfailures, hstop⟩ := hstate
  obtain ⟨a', hstep⟩ := Option.isSome_iff_exists.mp hstop
  refine ⟨m, a, a', hm, ha, hrunning, hfailures, hstep, ?_⟩
  refine (stop_accepted_iff hm ha hphase rfl hstep).mpr fun f hf => ?_
  rw [hfailures, hnone] at hf
  rw [List.mem_singleton.mp hf]

/-! ## What an accepted STOP does -/

/-- The step of the controller in a step of the application. -/
def AppEvent.deskLabel (a : Application) : AppEvent → Option DeskLabel
  | .desk l => some l
  | .request r =>
      if a.phase = .serving then (route a.status.isReady r).map fun job => .call job else none
  | _ => none

/-- A STOP is requested. -/
theorem deskLabel_of_callsStopMotion {a a' : Application} {r : Request} (hstop : r.isStop = true)
    (hstep : appStep settings a (.request r) = some a') (hcalls : CallsStopMotion a a') :
    ∃ reason, AppEvent.deskLabel a (.request r) = some (.call (.stopMotion reason)) := by
  simp only [appStep] at hstep
  simp only [AppEvent.deskLabel]
  split at hstep
  · next hserving =>
    rw [if_pos hserving]
    cases hroute : route a.status.isReady r with
    | none =>
      rw [hroute] at hstep
      cases hstep
      exact absurd hcalls (not_callsStopMotion rfl)
    | some job =>
      have hjob : r.job = job := by
        unfold route at hroute
        split at hroute
        · exact Option.some.inj hroute
        · cases hroute
      cases r with
      | hold d => cases hstop
      | setTarget x => cases hstop
      | stop => exact ⟨_, by rw [← hjob]; rfl⟩
      | cancelTarget => exact ⟨_, by rw [← hjob]; rfl⟩
  · cases hstep

theorem desk_of_appStep (a : Application) (e : AppEvent) (a' : Application)
    (h : appStep settings a e = some a') :
    Transition.exec (Coroutine.step (deskSystem settings)) a.desk (e.deskLabel a).toList =
      some a'.desk := by
  have hcall (job : Job) (h : (Coroutine.step (deskSystem settings) a.desk (.call job)).map
      (fun pool => { a with desk := pool }) = some a') :
      Transition.exec (Coroutine.step (deskSystem settings)) a.desk [.call job] = some a'.desk := by
    obtain ⟨pool, hpool, rfl⟩ := Option.map_eq_some_iff.mp h
    exact Transition.exec_cons_eq_some.mpr ⟨pool, hpool, rfl⟩
  cases e with
  | desk l =>
    obtain ⟨pool, hpool, rfl⟩ := Option.map_eq_some_iff.mp h
    exact Transition.exec_cons_eq_some.mpr ⟨pool, hpool, rfl⟩
  | request r =>
    simp only [appStep] at h
    simp only [AppEvent.deskLabel]
    split at h
    · next hserving =>
      rw [if_pos hserving]
      split at h
      · next hroute =>
        rw [hroute]
        cases h
        rfl
      · next job hroute =>
        rw [hroute]
        exact hcall job h
    · cases h
  | create name critical =>
    obtain ⟨manager, _, rfl⟩ := Option.map_eq_some_iff.mp h
    rfl
  | _ =>
    simp only [appStep] at h
    split at h
    · cases h
      rfl
    · cases h

/-- **What an accepted STOP does**: when its call returns, a STOP was published since and the
relay has confirmed it, in every run of the application in which the STOP tasks find no other
exchange in progress. -/
theorem stopped_of_callsStopMotion {now : Instant} {before after : List AppEvent}
    {a a' b : Application} {r : Request}
    (hbefore : Transition.exec (appStep settings) (built settings now) before = some a)
    (hstop : r.isStop = true) (hstep : appStep settings a (.request r) = some a')
    (hcalls : CallsStopMotion a a') (hafter : Transition.exec (appStep settings) a' after = some b)
    (hmeets : Transition.Meets (appStep settings) (fun a e => ∀ l ∈ e.deskLabel a, startsOwn a.desk l)
      (built settings now) (before ++ .request r :: after)) :
    ReturnsStopped a.desk.mem b.desk.mem := by
  have hrun {es : List AppEvent} {c : Application}
      (hes : Transition.Meets (appStep settings) (fun a e => ∀ l ∈ e.deskLabel a, startsOwn a.desk l)
        (built settings now) es)
      (h : Transition.exec (appStep settings) (built settings now) es = some c) :
      ∃ ls, DeskRun settings startsOwn now ls c.desk := by
    obtain ⟨ls, hls, hexec⟩ := Transition.project Application.desk startsOwn desk_of_appStep hes h
    exact ⟨ls, hls, hexec⟩
  have hend : Transition.exec (appStep settings) (built settings now)
      (before ++ .request r :: after) = some b :=
    Transition.exec_append.mpr ⟨a, hbefore, Transition.exec_cons_eq_some.mpr ⟨a', hstep, hafter⟩⟩
  obtain ⟨ls, hcalled⟩ := hrun (Transition.meets_append hmeets).1 hbefore
  obtain ⟨ls', hnow⟩ := hrun hmeets hend
  obtain ⟨reason, hlabel⟩ := deskLabel_of_callsStopMotion hstop hstep hcalls
  have hcall := desk_of_appStep a _ a' hstep
  rw [hlabel] at hcall
  obtain ⟨pool, hpool, hsame⟩ := Transition.exec_cons_eq_some.mp hcall
  cases hsame
  obtain ⟨ms, -, hms⟩ := Transition.project Application.desk (fun _ _ => True) desk_of_appStep
    (Transition.meets_of_labels fun _ _ _ _ _ => trivial) hafter
  exact (answering_of_run hnow).returnsStopped (answering_of_run hcalled) hcalled.kept.absent
    (job_of_called hcalled.kept (Transition.exec_cons_eq_some.mpr ⟨_, hpool, hms⟩))

end SmartDesk.Dashboard
