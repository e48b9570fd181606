import TTasks.Sequence
import TTasks.Reference
import TTasks.Interleave.Machine

/-!
# An execution with retries and the cancels that reach it

`execute` with a `RetryPolicy`, operation by operation, while `cancel` is called on its task: by the
handler in the course of a call, or by anybody while the task is FAILED between two attempts, which
includes the subscribers of its FAILED event. A cancel that arrives runs to its end before `execute`
goes on. The notes say after how many handler calls each cancel arrived, and how often the status
has been read since the last FAILED event.

In `except Exception` the loop of `execute` reads the status twice before it decides: once for its
test for CANCELLED, and again for its test for anything but FAILED.
-/

namespace TTasks

open Interleave

/-- The result that an attempt attaches by itself. -/
def HandlerCall.result (t : TaskId) (call : HandlerCall) : TaskResult :=
  match call.outcome with
  | .returns raw =>
    if call.cancels = 0 then .fromRaw t raw .succeeded else cancelledResult t (cancelledError t)
  | .raises (.taskCancelled m) => cancelledResult t (.taskCancelled m)
  | .raises e => if call.cancels = 0 then failedResult t e else cancelledResult t e

namespace Retrying

/-- The world, with notes on the cancels and the status reads. -/
structure Shared where
  world : World
  arrivals : List Nat := []
  looks : Nat := 0

/-- `execute`, on its way. -/
structure State where
  shared : Shared
  rest : Exec TaskResult

/-- How the call ended, once it is over. -/
def State.outcome (s : State) : Option (Except Exc TaskResult) :=
  match s.rest with
  | .ret result => some (.ok result)
  | .fail e => some (.error e)
  | .act _ _ => none

/-- The status reads since the last FAILED event, after an operation. -/
def looksAfter : TaskOp → Nat → Nat
  | .status _, n => n + 1
  | .deliver _ e, n => if e.type = .failed then 0 else n
  | _, n => n

section Machine

variable (x : Executor) (t : TaskId)

/-- One operation of `execute`. -/
def sem (o : TaskOp) (s : Shared) : o.Ans × Shared :=
  ((o.perform x s.world).1,
    { s with world := (o.perform x s.world).2, looks := looksAfter o s.looks })

/-- A cancel arrives, and runs to its end. -/
def arrive (s : Shared) : Shared :=
  { s with
    world := x.after (cancel x t) s.world
    arrivals := s.arrivals ++ [s.world.callCount t] }

inductive Label
  | execute
  | cancel
  deriving DecidableEq, Repr

def step : Label → State → Option State
  | .execute, s =>
    match s.rest with
    | .act o k => some ⟨(sem x o s.shared).2, k (sem x o s.shared).1⟩
    | _ => none
  | .cancel, s => some { s with shared := arrive x t s.shared }

def machine : Machine State Label := ⟨step x t⟩

/-- The call is about to begin. -/
def start (upstream : List TaskId) (policy : RetryPolicy) (w : World) : State :=
  ⟨{ world := w }, execute x t upstream policy⟩

/-- The task is FAILED and the call has begun an attempt: it is between two attempts. -/
def Between (base : Nat) (s : Shared) : Prop := s.world.status t = .failed ∧ base < s.world.callCount t

instance (base : Nat) (s : Shared) : Decidable (Between t base s) :=
  inferInstanceAs (Decidable (_ ∧ _))

/-- A cancel comes between two attempts of a call that is not over. -/
def Arrives (base : Nat) (s : State) (l : Label) : Prop :=
  l = .cancel → s.rest.Acting ∧ Between t base s.shared

instance (base : Nat) (s : State) (l : Label) : Decidable (Arrives t base s l) :=
  inferInstanceAs (Decidable (_ → _))

/-- No cancel comes between the two status reads that decide about a failed attempt. -/
def Timely (base : Nat) (s : State) (l : Label) : Prop :=
  Arrives t base s l ∧ (l = .cancel → s.shared.looks ≠ 1)

/-! ## What the call should come to -/

/-- Attempt `i`, counted from 0, ends SUCCEEDED or CANCELLED, or a cancel arrives after it. -/
def Stops (base : Nat) (s : Shared) (i : Nat) : Prop :=
  (x.behaviour t (base + i)).ending ≠ .failed ∨ base + i + 1 ∈ s.arrivals

/-- The attempt is the first that stops the call. -/
def FirstStop (base : Nat) (s : Shared) (i : Nat) : Prop :=
  Stops x t base s i ∧ ∀ j < i, ¬ Stops x t base s j

/-- What the call comes to when attempt `i` stops it: no further call, the attempt's result if it
SUCCEEDED and `TaskCancelled` otherwise. -/
structure StoppedAt (base i : Nat) (r : Except Exc TaskResult) (s : Shared) : Prop where
  calls : s.world.callCount t = base + i + 1
  outcome : if (x.behaviour t (base + i)).ending = .succeeded then
    r = .ok ((x.behaviour t (base + i)).result t) else ∃ m, r = .error (.taskCancelled m)
  status : s.world.status t =
    if (x.behaviour t (base + i)).ending = .succeeded then .succeeded else .cancelled
  result : (s.world.tasks t).result = some (if base + i + 1 ∈ s.arrivals then cancelResult t
    else (x.behaviour t (base + i)).result t)

/-- What the call comes to when all its `n` attempts fail: the last exception. -/
structure Exhausted (base n : Nat) (r : Except Exc TaskResult) (s : Shared) : Prop where
  calls : s.world.callCount t = base + n
  outcome : ∃ e, (x.behaviour t (base + n - 1)).outcome = .raises e ∧ r = .error e
  status : s.world.status t = .failed
  result : (s.world.tasks t).result = some ((x.behaviour t (base + n - 1)).result t)

/-- The call comes to what the attempts and the arrivals say. -/
structure Retried (base n : Nat) (r : Except Exc TaskResult) (s : Shared) : Prop where
  stopped : ∀ i < n, FirstStop x t base s i → StoppedAt x t base i r s
  exhausted : (∀ i < n, ¬ Stops x t base s i) → Exhausted x t base n r s

end Machine

end Retrying

end TTasks
