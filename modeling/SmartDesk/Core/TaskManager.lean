import Mathlib.Data.List.Basic

/-!
# The supervised tasks and the status of the application

`core/task_manager.py` and the status of `core/runtime.py`.

* `TaskManager` — the named tasks, and the failures that it has recorded.
* `ApplicationStatus` — the status that a critical failure changes to FAILED.
-/

namespace SmartDesk.Core

/-- How a task ends. -/
inductive TaskEnd where
  | cancelled
  | returned
  | raised
  deriving DecidableEq

structure SupervisedTask where
  name : String
  critical : Bool
  done : Bool
  deriving DecidableEq

structure TaskFailure where
  name : String
  critical : Bool
  deriving DecidableEq

/-- `TaskManager`; the failures are in the order of their record. -/
structure TaskManager where
  tasks : List SupervisedTask
  failures : List TaskFailure
  closing : Bool

namespace TaskManager

/-- `create(name, coroutine, critical)`, unless it raises. -/
def create (name : String) (critical : Bool) (manager : TaskManager) : Option TaskManager :=
  if manager.tasks.any (fun task => task.name == name && !task.done) || manager.closing then none
  else
    some { manager with
      tasks := ⟨name, critical, false⟩ :: manager.tasks.filter (·.name != name) }

/-- `_on_done(name, task)`, and whether it calls `on_critical_failure`. -/
def onDone (task : SupervisedTask) (ended : TaskEnd) (manager : TaskManager) :
    TaskManager × Bool :=
  let manager :=
    { manager with
      tasks := manager.tasks.map fun t => if t.name = task.name then { t with done := true } else t }
  if ended = .cancelled || manager.closing || ended = .returned then (manager, false)
  else
    ({ manager with failures := manager.failures ++ [⟨task.name, task.critical⟩] }, task.critical)

end TaskManager

/-- `ApplicationStatus`. -/
inductive ApplicationStatus where
  | created
  | starting
  | ready
  | stopping
  | stopped
  | failed
  deriving DecidableEq

/-- `RuntimeSnapshot.ready`. -/
def ApplicationStatus.isReady (status : ApplicationStatus) : Bool := status == .ready

end SmartDesk.Core
