import TTasks.Executor
import TTasks.Sequence
import TTasks.Interleave.Threads

/-!
# One attempt and any number of cancels

`execute` on a task in one thread and `cancel` on the same task in `n` others, step by step in any
order. The shared state is the `World` with two notes: the statuses the task has entered since the
start, and the statuses that each cancel has read.

A cancel reads the status three times before it changes anything: for its test for SUCCEEDED, as
`previous`, and in `Task.cancel`.
-/

namespace TTasks

open Interleave

namespace Race

/-- The threads: the one that executes and the ones that cancel. -/
inductive Who (n : Nat)
  | attempt
  | cancel (i : Fin n)
  deriving DecidableEq

structure Shared (n : Nat) where
  world : World
  entered : List TaskStatus := []
  reads : Fin n → List TaskStatus := fun _ => []

/-- `_terminalize` serves these statuses: each has an event of its own. -/
def isFinal (s : TaskStatus) : Bool := s == .succeeded || s == .failed || s == .cancelled

/-- `{TaskStatus.PENDING, TaskStatus.FAILED, TaskStatus.BLOCKED}`: the statuses from which `cancel`
attaches the result and publishes the event itself. -/
def isIdle (s : TaskStatus) : Bool := s == .pending || s == .failed || s == .blocked

section Machine

variable (x : Executor) (t : TaskId) {n : Nat}

/-- The status that a step has moved the task into. -/
def newlyEntered (w w' : World) : List TaskStatus :=
  if w'.status t = w.status t then [] else [w'.status t]

/-- The status a cancel's operation reads. -/
def statusRead : (o : TaskOp) → o.Ans → List TaskStatus
  | .status _, s => [s]
  | _, _ => []

/-- One operation of one thread. -/
def sem (who : Who n) (o : TaskOp) (s : Shared n) : o.Ans × Shared n :=
  ((o.perform x s.world).1,
    { world := (o.perform x s.world).2
      entered := s.entered ++ newlyEntered t s.world (o.perform x s.world).2
      reads := fun i => match who with
        | .attempt => s.reads i
        | .cancel j =>
          if i = j then s.reads i ++ statusRead o (o.perform x s.world).1 else s.reads i })

abbrev State (n : Nat) := Threads (Who n) TaskOp.Ans Exc Unit (Shared n)

/-- One `execute` and `n` cancels are about to begin; the log of deliveries starts here. -/
def start (n : Nat) (upstream : List TaskId) (w : World) : State n where
  shared := { world := { w with deliveries := [] } }
  rest
    | .attempt => (execute x t upstream).bind fun _ => .ret ()
    | .cancel _ => cancel x t

/-- How many of the task's events report the status. -/
def reported (w : World) (t : TaskId) (s : TaskStatus) : Nat :=
  (w.events t).countP fun d => d.event.type.status == some s

/-- What the calls leave when they are all over: a terminal status, the result of that status, a
success that lasts, and one event for each terminal status the task entered. -/
structure Agreed (s : Shared n) : Prop where
  terminal : (s.world.status t).isTerminal = true
  result : ∃ r, (s.world.tasks t).result = some r ∧ r.status = s.world.status t
  succeeded : .succeeded ∈ s.entered → s.world.status t = .succeeded
  events : ∀ status, isFinal status = true → reported s.world t status = s.entered.count status

/-! ## Stale steps -/

/-- The status that a cancel holds as `previous`. -/
def previous (s : Shared n) (i : Fin n) : Option TaskStatus := (s.reads i)[1]?

/-- A cancel that found an idle task and is about to let `Task.cancel` look again finds no sink
there; at `Task.cancel`'s transition, a task that was idle has not started, and a task that was
RUNNING has not failed. -/
def cancelFresh (i : Fin n) (o : TaskOp) (s : Shared n) : Bool :=
  match o with
  | .status _ =>
    !((s.reads i).length == 2 && (previous s i).any isIdle && (s.world.status t).isSink)
  | .transition _ _ _ =>
    !((s.reads i).length == 3 &&
      (((previous s i).any isIdle && s.world.status t == .running) ||
        (previous s i == some .running && s.world.status t == .failed)))
  | _ => true

/-- The attempt does not put the result of a failure over the result of a cancel, and once it has
moved the task to RUNNING it makes its transition to FAILED or CANCELLED on a task that is not
already CANCELLED. -/
def attemptFresh (o : TaskOp) (s : Shared n) : Bool :=
  match o with
  | .setResult _ r =>
    !(r.status == .failed && s.world.status t == .cancelled &&
      (s.world.tasks t).result.any fun r => r.status == .cancelled)
  | .transition _ target _ =>
    !((target == .failed || target == .cancelled) && s.world.status t == .cancelled &&
      s.entered.contains .running)
  | _ => true

/-- The step does not act on a status that another thread has changed since it was read. -/
def Fresh (who : Who n) (o : TaskOp) (s : Shared n) : Prop :=
  match who with
  | .attempt => attemptFresh t o s = true
  | .cancel i => cancelFresh t i o s = true

instance (who : Who n) (o : TaskOp) (s : Shared n) : Decidable (Fresh t who o s) := by
  unfold Fresh; split <;> infer_instance

end Machine

end Race

end TTasks
