import TTasks.Scheduler

/-!
# What a run should come to

The status in which one execution leaves its task, and two recursions over the dependencies of a
graph. `outcome` is the status in which each task of a graph ends when all of them enter PENDING.
`verdict` says for any statuses on entry what a run does about each task: a task may be kept as it
is, executed, marked BLOCKED, or left over. Neither knows of threads, futures or order.
-/

namespace TTasks

/-- The status that a handler call brings its task to. An exception outside `Exception` brings it
nowhere, and neither does one that cannot be read. -/
def HandlerCall.ending (call : HandlerCall) : TaskStatus :=
  if call.cancels ≠ 0 then .cancelled
  else
    match call.outcome with
    | .returns _ => .succeeded
    | .raises (.taskCancelled _) => .cancelled
    | .raises (.baseException _) | .raises (.unprintable _) | .raises (.unprintableCancelled _)
    | .raises (.unreadable _ _) => .running
    | .raises _ => .failed

/-- The status that the next execution of the task brings it to. -/
def Executor.ending (x : Executor) (w : World) (t : TaskId) : TaskStatus :=
  if x.handlers (w.tasks t).type then (x.behaviour t (w.callCount t)).ending else .failed

/-- An ordinary call, or one that has cancelled its task, brings the task to a terminal status. -/
theorem HandlerCall.ending_eq_running_iff (call : HandlerCall) :
    call.ending = .running ↔ call.cancels = 0 ∧ call.outcome.isOrdinary = false := by
  unfold HandlerCall.ending
  split
  · rename_i cancels
    simp [cancels]
  · rename_i cancels
    rw [ne_eq, Decidable.not_not] at cancels
    cases h : call.outcome with
    | returns _ => simp [Outcome.isOrdinary]
    | raises e => cases e <;> simp [cancels, Outcome.isOrdinary, Exc.isOrdinary]

/-- An execution never brings its task to PENDING or BLOCKED. -/
theorem Executor.ending_cases (x : Executor) (w : World) (t : TaskId) :
    x.ending w t = .succeeded ∨ x.ending w t = .failed ∨ x.ending w t = .cancelled ∨
      x.ending w t = .running := by
  unfold Executor.ending
  split
  · unfold HandlerCall.ending
    split
    · simp
    · split <;> simp
  · simp

theorem Executor.ending_isTerminal_or_running (x : Executor) (w : World) (t : TaskId) :
    (x.ending w t = .succeeded ∨ (x.ending w t).isBad = true) ∨ x.ending w t = .running := by
  rcases x.ending_cases w t with h | h | h | h <;> simp [h, TaskStatus.isBad]

namespace Scheduler

variable (r : Run)

/-- The status with which the task entered the run. -/
def entered (t : TaskId) : TaskStatus := r.world.status t

/-- The status that executing the task in this run brings it to. -/
def ending (t : TaskId) : TaskStatus := r.executor.ending r.world t

/-! ## All tasks PENDING -/

/-- A finally task is executed whatever its dependencies come to, any other task if all of them
succeed. -/
def outcomeStep (t : TaskId) (outcome : TaskId → TaskStatus) : TaskStatus :=
  if r.graph.isFinally t ∨ ∀ d ∈ r.graph.deps t, outcome d = .succeeded then ending r t
  else .blocked

/-- The recursion `outcomeStep`, which needs no more rounds than there are tasks. -/
def outcome : TaskId → TaskStatus := Dag.unroll (outcomeStep r) .blocked r.graph.keys.length

/-- The task's handler, if its type has one, returns or raises an exception that the executor deals
with. -/
def Ordinary (t : TaskId) : Prop :=
  r.executor.handlers (r.world.tasks t).type = true →
    (r.executor.behaviour t (r.world.callCount t)).outcome.isOrdinary = true

theorem Ordinary.ending_ne_running {r : Run} {t : TaskId} (h : Ordinary r t) :
    ending r t ≠ .running := by
  unfold ending Executor.ending
  split
  · rename_i registered
    rw [ne_eq, HandlerCall.ending_eq_running_iff]
    rintro ⟨-, other⟩
    rw [h registered] at other
    cases other
  · simp

/-! ## Any statuses on entry -/

inductive Verdict
  /-- SUCCEEDED or CANCELLED on entry. -/
  | kept
  /-- Executed. -/
  | ran
  /-- Marked BLOCKED. -/
  | blocked
  /-- Neither. -/
  | left
  deriving DecidableEq, Repr

/-- The task ends SUCCEEDED. -/
def Verdict.good (t : TaskId) : Verdict → Bool
  | kept => entered r t == .succeeded
  | ran => ending r t == .succeeded
  | _ => false

/-- The task blocks its dependents. -/
def Verdict.bad (t : TaskId) : Verdict → Bool
  | kept => entered r t == .cancelled
  | ran => ending r t != .succeeded
  | blocked => true
  | left => false

/-- A finally task waits for dependencies that are left over, and any other task for those of them
that do not block it; a task that is blocked is marked only if it is PENDING. -/
def verdictStep (t : TaskId) (verdict : TaskId → Verdict) : Verdict :=
  if (entered r t).isSink then .kept
  else if r.graph.isFinally t then
    if ∃ d ∈ r.graph.deps t, verdict d = .left then .left else .ran
  else if ∃ d ∈ r.graph.deps t, (verdict d).bad r d = true then
    if entered r t = .pending then .blocked else .left
  else if ∀ d ∈ r.graph.deps t, (verdict d).good r d = true then .ran
  else .left

/-- The recursion `verdictStep`, which needs no more rounds than there are tasks. -/
def verdict : TaskId → Verdict := Dag.unroll (verdictStep r) .left r.graph.keys.length

/-- A PENDING task that a run neither executes nor marks BLOCKED: it waits for a task that entered
FAILED or BLOCKED and is itself left over. -/
def Stranded (t : TaskId) : Prop := entered r t = .pending ∧ verdict r t = .left

instance (t : TaskId) : Decidable (Stranded r t) := inferInstanceAs (Decidable (_ ∧ _))

end Scheduler

end TTasks
