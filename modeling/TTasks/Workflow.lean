import TTasks.Scheduler
import TTasks.Sequence

/-!
# A graph in use

A `TaskGraph` with its task objects, and what a caller does to it one operation after another: it
adds a task or adds one again, it cancels a member, it runs the graph. A run is any interleaving of
its threads, taken to the end of `run`, whether that returns or raises.
-/

namespace TTasks

open Interleave

/-- A graph and the state of its tasks. -/
structure Workflow where
  graph : TaskGraph
  world : World

namespace Workflow

/-- `graph.run(executor, max_workers=...)`. -/
def toRun (f : Workflow) (x : Executor) (maxWorkers : Nat) : Scheduler.Run where
  graph := f.graph
  executor := x
  maxWorkers
  world := f.world

/-- The operations. Tasks are new to the graph without a blocker, and adding one again drops none of
its dependencies. -/
inductive Step : Workflow → Workflow → Prop
  | run {f : Workflow} {x : Executor} {maxWorkers : Nat} {s₀ s : Scheduler.State}
      (accepted : Scheduler.run (f.toRun x maxWorkers) = .ok s₀)
      (goes : (Scheduler.machine (f.toRun x maxWorkers)).Reaches
        (Scheduler.Steps (f.toRun x maxWorkers) Scheduler.anyTime) s₀ s)
      (halted : ¬ (s.rest .main).Acting) : Step f { f with world := s.shared.world }
  | rejected {f : Workflow} {x : Executor} {maxWorkers : Nat} {e : Exc}
      (raises : Scheduler.run (f.toRun x maxWorkers) = .error e) : Step f f
  | add {f : Workflow} {t : TaskId} {after : List TaskId} {isFinally required : Bool}
      {g : TaskGraph} (added : f.graph.add t after isFinally required = .ok g)
      (keeps : ∀ d ∈ f.graph.deps t, d ∈ after)
      (new : t ∉ f.graph.keys → (f.world.tasks t).blockedBy = none) : Step f { f with graph := g }
  | cancel {f : Workflow} {t : TaskId} (x : Executor) (member : t ∈ f.graph.keys) :
      Step f { f with world := x.after (TTasks.cancel x t) f.world }

/-- Any number of operations. -/
def Reaches : Workflow → Workflow → Prop := Relation.ReflTransGen Step

end Workflow

end TTasks
