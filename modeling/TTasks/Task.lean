import Mathlib.Data.Rat.Defs

/-!
# Tasks and their state machine

`_task.py` and `_exceptions.py`: the statuses, the table of allowed transitions, the task record,
its results and the exceptions that a handler can end with. A task object is known by its id, so
the record here carries what the object carries beside it. Clock readings (`created_at`,
`started_at`, `finished_at`, `duration`) are left out.
-/

namespace TTasks

/-- `Task.id`: a string that is only compared and printed. -/
abbrev TaskId := String

/-! ## Statuses -/

inductive TaskStatus
  | pending
  | running
  | succeeded
  | failed
  | cancelled
  | blocked
  deriving DecidableEq, Repr

namespace TaskStatus

def value : TaskStatus → String
  | pending => "pending"
  | running => "running"
  | succeeded => "succeeded"
  | failed => "failed"
  | cancelled => "cancelled"
  | blocked => "blocked"

/-- No outgoing transitions in the state machine. -/
def isSink (s : TaskStatus) : Bool := s == succeeded || s == cancelled

/-- An upstream parent in this state blocks ready descendants. -/
def isBad (s : TaskStatus) : Bool := s == failed || s == cancelled || s == blocked

/-- The task may still progress within the current run. -/
def isActive (s : TaskStatus) : Bool := s == pending || s == running

/-- `Task.is_terminal`. -/
def isTerminal (s : TaskStatus) : Bool :=
  s == succeeded || s == failed || s == cancelled || s == blocked

/-- `_ALLOWED_TRANSITIONS`. -/
def allowedTransitions : TaskStatus → List TaskStatus
  | pending => [running, cancelled, blocked, failed]
  | running => [succeeded, failed, cancelled]
  | failed => [running, cancelled]
  | blocked => [running, cancelled]
  | succeeded => []
  | cancelled => []

/-- `Task.can_transition_to`. -/
def canTransitionTo (s target : TaskStatus) : Bool := target ∈ s.allowedTransitions

/-- The sinks are the statuses the table gives no way out of. -/
theorem isSink_iff (s : TaskStatus) : s.isSink = true ↔ s.allowedTransitions = [] := by
  cases s <;> decide

theorem canTransitionTo_of_isSink {s : TaskStatus} (h : s.isSink = true)
    (target : TaskStatus) : s.canTransitionTo target = false := by
  simp [canTransitionTo, (isSink_iff s).mp h]

theorem isSink_of_canTransitionTo {s target : TaskStatus} (h : s.canTransitionTo target = true) :
    s.isSink = false := by
  rw [← Bool.not_eq_true]
  intro sink
  rw [canTransitionTo_of_isSink sink] at h
  cases h

/-- Only a task that is waiting, or whose last run can be repeated, may start. -/
theorem canTransitionTo_running_iff (s : TaskStatus) :
    s.canTransitionTo running = true ↔ s = pending ∨ s = failed ∨ s = blocked := by
  cases s <;> decide

end TaskStatus

inductive TaskType
  | bash
  | powershell
  | prompt
  | agent
  deriving DecidableEq, Repr

def TaskType.value : TaskType → String
  | .bash => "bash"
  | .powershell => "powershell"
  | .prompt => "prompt"
  | .agent => "agent"

/-! ## Exceptions -/

/-- `subprocess.CompletedProcess[str]`, as the executor reads it. -/
structure CompletedProcess where
  returncode : Int
  stdout : Option String := none
  stderr : Option String := none
  deriving DecidableEq, Repr

/-- `text or ""`. -/
def orEmpty (text : Option String) : String := text.getD ""

/-- `text or None`. -/
def orNone (text : Option String) : Option String := text.filter fun s => s ≠ ""

/-- The exceptions that reach the executor or the scheduler, each with its `str()`. `baseException`
stands for every exception outside `Exception`: `SystemExit`, `KeyboardInterrupt`,
`asyncio.CancelledError`. The last three are within `Exception`, and reading them raises another. -/
inductive Exc
  | taskCancelled (message : String)
  | taskExecutionError (message : String) (completed : CompletedProcess)
  | taskTimeoutError (message : String) (completed : CompletedProcess)
  | valueError (message : String)
  | runtimeError (message : String)
  | assertionError (message : String)
  | exception (message : String)
  | baseException (message : String)
  /-- Its `str()` raises. -/
  | unprintable (raised : Exc)
  /-- A `TaskCancelled` whose `str()` raises. -/
  | unprintableCancelled (raised : Exc)
  /-- A `TaskExecutionError` or `TaskTimeoutError` whose `completed` is no process: to read it
  raises. -/
  | unreadable (message : String) (raised : Exc)
  deriving DecidableEq, Repr

namespace Exc

/-- `str(error)`, where it does not raise. -/
def text : Exc → String
  | taskCancelled m | taskExecutionError m _ | taskTimeoutError m _ | valueError m
  | runtimeError m | assertionError m | exception m | baseException m | unreadable m _ => m
  | unprintable _ | unprintableCancelled _ => ""

/-- `isinstance(error, Exception)`. -/
def isException : Exc → Bool
  | baseException _ => false
  | _ => true

/-- The exception is within `Exception`, and what the executor reads of it can be read. -/
def isOrdinary : Exc → Bool
  | baseException _ | unprintable _ | unprintableCancelled _ | unreadable _ _ => false
  | _ => true

end Exc

/-- `repr()` of a text without quotes and escapes, such as an id. It stands for `repr()` in the messages
that name a title or a schema version too, where Python would escape what has to be escaped. -/
def quoted (id : TaskId) : String := "'" ++ id ++ "'"

/-! ## Results -/

inductive TerminationReason
  | exitCode
  | timeout
  | cancelled
  | handler
  deriving DecidableEq, Repr

/-- A handler's return value other than `None`. -/
inductive Raw
  | completed (process : CompletedProcess)
  | text (value : String)
  | object (repr : String)
  deriving DecidableEq, Repr

structure TaskResult where
  taskId : TaskId
  status : TaskStatus
  output : String := ""
  error : Option String := none
  returncode : Option Int := none
  raw : Option Raw := none
  terminationReason : Option TerminationReason := none
  deriving DecidableEq, Repr

/-- Normalize a handler return value. -/
def TaskResult.fromRaw (task : TaskId) (raw : Option Raw) (status : TaskStatus) : TaskResult :=
  match raw with
  | some (.completed p) =>
    { taskId := task, status, output := orEmpty p.stdout, error := orNone p.stderr,
      returncode := some p.returncode, raw }
  | some (.text s) => { taskId := task, status, output := s, raw }
  | _ => { taskId := task, status, raw }

@[simp] theorem TaskResult.fromRaw_taskId (t : TaskId) (raw : Option Raw) (s : TaskStatus) :
    (TaskResult.fromRaw t raw s).taskId = t := by
  unfold TaskResult.fromRaw; split <;> rfl

@[simp] theorem TaskResult.fromRaw_status (t : TaskId) (raw : Option Raw) (s : TaskStatus) :
    (TaskResult.fromRaw t raw s).status = s := by
  unfold TaskResult.fromRaw; split <;> rfl

@[simp] theorem TaskResult.fromRaw_terminationReason (t : TaskId) (raw : Option Raw)
    (s : TaskStatus) : (TaskResult.fromRaw t raw s).terminationReason = none := by
  unfold TaskResult.fromRaw; split <;> rfl

/-! ## The task record -/

structure Task where
  title : String := ""
  type : TaskType := .bash
  error : Option String := none
  status : TaskStatus := .pending
  result : Option TaskResult := none
  blockedBy : Option TaskId := none
  deriving DecidableEq, Repr

namespace Task

/-- The writes of a transition: the error is dropped on entering RUNNING and SUCCEEDED, and
entering RUNNING clears the prior run's result and blocker. -/
def enter (task : Task) (status : TaskStatus) (error : Option String) : Task :=
  { task with
    error := if status = .running ∨ status = .succeeded then none else error
    status
    result := if status = .running then none else task.result
    blockedBy := if status = .running then none else task.blockedBy }

/-- `Task.transition_to`: the check and the writes, in one step. -/
def transitionTo (task : Task) (status : TaskStatus) (error : Option String) : Except Exc Task :=
  if task.status.canTransitionTo status then
    .ok (task.enter status error)
  else
    .error (.valueError ("Cannot transition task from '" ++ task.status.value ++ "' to '" ++
      status.value ++ "'"))

@[simp] theorem enter_status (task : Task) (status : TaskStatus) (error : Option String) :
    (task.enter status error).status = status := rfl

/-- A transition that is carried out was allowed, and it makes the writes. -/
theorem transitionTo_ok {task task' : Task} {status : TaskStatus} {error : Option String}
    (h : task.transitionTo status error = .ok task') :
    task.status.canTransitionTo status = true ∧ task' = task.enter status error := by
  unfold transitionTo at h
  split at h
  · rename_i allowed
    cases h
    exact ⟨allowed, rfl⟩
  · cases h

end Task

end TTasks
