import TTasks.Executor

/-!
# Operations issued one after another

The caller of a `TaskExecutor` who waits for each call before making the next. An `Operation` is one
complete call on a task, a `Call` adds the configuration it is issued under (handlers may be
registered between two calls), and `sequence` performs a list of them, whether each one returns or
raises.

`World.events` is what the subscribers were told about one task's lifecycle, in order.
-/

namespace TTasks

open Interleave

namespace Executor

variable {α : Type}

/-- A method's run with no other thread between its steps. -/
def run (x : Executor) (p : Exec α) (w : World) : Except Exc α × World := p.run (TaskOp.perform x) w

/-- The state a method leaves when it runs alone. -/
def after (x : Executor) (p : Exec α) (w : World) : World := (x.run p w).2

end Executor

/-- One complete executor call on a task. -/
inductive Operation
  | execute (upstream : List TaskId) (policy : RetryPolicy)
  | cancel
  | markBlocked (parent : Option TaskId)

/-- An operation with the configuration it is issued under. -/
structure Call where
  executor : Executor
  operation : Operation

namespace Call

/-- The state the call leaves, whether it returned or raised. -/
def perform (t : TaskId) (c : Call) (w : World) : World :=
  match c.operation with
  | .execute upstream policy => c.executor.after (execute c.executor t upstream policy) w
  | .cancel => c.executor.after (cancel c.executor t) w
  | .markBlocked parent => c.executor.after (markBlocked c.executor t parent) w

/-- The handler's calls for the task all end in ways that the executor deals with. -/
def Ordinary (t : TaskId) (c : Call) : Prop :=
  ∀ n, (c.executor.behaviour t n).outcome.isOrdinary = true

end Call

/-- The calls in their order, each after the one before it has returned or raised. -/
def sequence (t : TaskId) (calls : List Call) (w : World) : World :=
  calls.foldl (fun w c => c.perform t w) w

/-- The lifecycle event types: the ones that report a status. -/
def TaskEventType.status : TaskEventType → Option TaskStatus
  | .started => some .running
  | .succeeded => some .succeeded
  | .failed => some .failed
  | .cancelled => some .cancelled
  | .blocked => some .blocked
  | .progress | .output | .persistenceFailed => none

/-- The task's lifecycle events, as delivered. -/
def World.events (w : World) (t : TaskId) : List Delivery :=
  w.deliveries.filter fun d => d.event.taskId == t && d.event.type.status.isSome

@[simp] theorem World.setTask_events (w : World) (t u : TaskId) (task : Task) :
    (w.setTask t task).events u = w.events u := rfl

end TTasks
