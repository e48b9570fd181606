import TTasks.Task
import TTasks.Interleave.Prog

/-!
# The executor

`_executor.py`: `execute`, `cancel`, `mark_blocked` and what they are made of, as programs of
atomic operations on a shared `World`. Each status read, status transition, result write, store
save and event delivery is one operation, so that other threads may come between any two of them.

What a handler does is data: on its `n`-th call for a task it calls `executor.cancel` on the task
some number of times and then returns a value or raises (`Executor.behaviour`), be it an exception
whose own text or process cannot be read. The store either accepts a save or raises, as
`Executor.saveFails` says for the `n`-th save; an accepted save leaves a snapshot of the task.
Subscribers are observers: each delivery is kept with what a subscriber could read at that moment,
the live task and the stored one.

Left out: the clock readings, the type checks on arguments, and what `_terminate_process` does to
an operating-system process.
-/

namespace TTasks

open Interleave

/-! ## Events -/

inductive TaskEventType
  | started
  | progress
  | output
  | succeeded
  | failed
  | cancelled
  | blocked
  | persistenceFailed
  deriving DecidableEq, Repr

structure TaskEvent where
  type : TaskEventType
  taskId : TaskId
  previousStatus : Option TaskStatus
  status : TaskStatus
  error : Option String := none
  deriving DecidableEq, Repr

/-- An event as its subscribers meet it: with the task and the store as they then are. -/
structure Delivery where
  event : TaskEvent
  live : Task
  stored : Option Task
  deriving DecidableEq, Repr

/-! ## Configuration and state -/

/-- How a handler call ends. -/
inductive Outcome
  | returns (raw : Option Raw)
  | raises (error : Exc)
  deriving DecidableEq, Repr

/-- The outcome is a return or an exception that the executor deals with. -/
def Outcome.isOrdinary : Outcome → Bool
  | .returns _ => true
  | .raises e => e.isOrdinary

/-- One call of a handler: the `executor.cancel` calls on its own task, then its end. -/
structure HandlerCall where
  cancels : Nat := 0
  outcome : Outcome
  deriving DecidableEq, Repr

/-- What is fixed about an executor: the task types with a handler, what the handlers do on the
`n`-th call for a task, whether there is a store, and which saves it refuses. -/
structure Executor where
  handlers : TaskType → Bool
  behaviour : TaskId → Nat → HandlerCall
  store : Bool := false
  saveFails : Nat → Option Exc := fun _ => none

/-- The state that threads share: the live tasks, the store, the executor's error list, the events
delivered so far, and the handler calls with the upstream ids each was given. -/
structure World where
  tasks : TaskId → Task
  stored : TaskId → Option Task := fun _ => none
  saves : Nat := 0
  persistenceErrors : List (TaskId × Exc) := []
  deliveries : List Delivery := []
  calls : List (TaskId × List TaskId) := []

namespace World

def status (w : World) (t : TaskId) : TaskStatus := (w.tasks t).status

/-- How often a handler has been called for the task. -/
def callCount (w : World) (t : TaskId) : Nat := (w.calls.filter fun c => c.1 == t).length

def setTask (w : World) (t : TaskId) (task : Task) : World :=
  { w with tasks := fun u => if u = t then task else w.tasks u }

def setStored (w : World) (t : TaskId) (task : Task) : World :=
  { w with stored := fun u => if u = t then some task else w.stored u }

@[simp] theorem setTask_tasks (w : World) (t u : TaskId) (task : Task) :
    (w.setTask t task).tasks u = if u = t then task else w.tasks u := rfl

@[simp] theorem setTask_calls (w : World) (t : TaskId) (task : Task) :
    (w.setTask t task).calls = w.calls := rfl

@[simp] theorem setTask_deliveries (w : World) (t : TaskId) (task : Task) :
    (w.setTask t task).deliveries = w.deliveries := rfl

@[simp] theorem setTask_stored (w : World) (t : TaskId) (task : Task) :
    (w.setTask t task).stored = w.stored := rfl

@[simp] theorem setTask_saves (w : World) (t : TaskId) (task : Task) :
    (w.setTask t task).saves = w.saves := rfl

@[simp] theorem setTask_self (w : World) (t : TaskId) (task : Task) :
    (w.setTask t task).status t = task.status := by simp [status]

end World

/-! ## Atomic operations -/

/-- What an executor method does to a task in one step. -/
inductive TaskOp
  | status (t : TaskId)
  | error (t : TaskId)
  | type (t : TaskId)
  | transition (t : TaskId) (status : TaskStatus) (error : Option String)
  | setResult (t : TaskId) (result : TaskResult)
  | setBlockedBy (t : TaskId) (parent : Option TaskId)
  | save (t : TaskId)
  | recordSaveError (t : TaskId) (error : Exc)
  | deliver (t : TaskId) (event : TaskEvent)
  | call (t : TaskId) (upstream : List TaskId)
  | terminateProcess (t : TaskId)
  | sleep (t : TaskId)

namespace TaskOp

/-- The task an operation is about. -/
def task : TaskOp → TaskId
  | .status t | .error t | .type t | .transition t _ _ | .setResult t _ | .setBlockedBy t _ | .save t
  | .recordSaveError t _ | .deliver t _ | .call t _ | .terminateProcess t | .sleep t => t

/-- What an operation answers. -/
abbrev Ans : TaskOp → Type
  | .status _ => TaskStatus
  | .error _ => Option String
  | .type _ => TaskType
  | .transition _ _ _ => Except Exc Unit
  | .save _ => Except Exc Unit
  | .call _ _ => HandlerCall
  | _ => Unit

/-- What an operation does. -/
def perform (x : Executor) : (op : TaskOp) → World → Ans op × World
  | .status t, w => (w.status t, w)
  | .error t, w => ((w.tasks t).error, w)
  | .type t, w => ((w.tasks t).type, w)
  | .transition t target message, w =>
    match (w.tasks t).transitionTo target message with
    | .ok task => (.ok (), w.setTask t task)
    | .error e => (.error e, w)
  | .setResult t result, w => ((), w.setTask t { w.tasks t with result := some result })
  | .setBlockedBy t parent, w => ((), w.setTask t { w.tasks t with blockedBy := parent })
  | .save t, w =>
    match x.saveFails w.saves with
    | some e => (.error e, { w with saves := w.saves + 1 })
    | none => (.ok (), { w.setStored t (w.tasks t) with saves := w.saves + 1 })
  | .recordSaveError t e, w =>
    ((), { w with persistenceErrors := w.persistenceErrors ++ [(t, e)] })
  | .deliver t event, w =>
    ((), { w with deliveries := w.deliveries ++ [⟨event, w.tasks t, w.stored t⟩] })
  | .call t upstream, w =>
    (x.behaviour t (w.callCount t), { w with calls := w.calls ++ [(t, upstream)] })
  | .terminateProcess _, w => ((), w)
  | .sleep _, w => ((), w)

end TaskOp

/-- An executor method: a program of task operations that may raise. -/
abbrev Exec (α : Type) := Prog TaskOp.Ans Exc α

/-! ## The methods -/

def readStatus (t : TaskId) : Exec TaskStatus := .op (TaskOp.status t)

def readError (t : TaskId) : Exec (Option String) := .op (TaskOp.error t)

def readType (t : TaskId) : Exec TaskType := .op (TaskOp.type t)

def setResult (t : TaskId) (result : TaskResult) : Exec Unit := .op (TaskOp.setResult t result)

def setBlockedBy (t : TaskId) (parent : Option TaskId) : Exec Unit := .op (TaskOp.setBlockedBy t parent)

def deliver (t : TaskId) (event : TaskEvent) : Exec Unit := .op (TaskOp.deliver t event)

/-- The transition or its refusal, not yet raised. -/
def tryTransition (t : TaskId) (status : TaskStatus) (error : Option String) :
    Exec (Except Exc Unit) := .op (TaskOp.transition t status error)

/-- The save or its failure, not yet raised. -/
def trySave (t : TaskId) : Exec (Except Exc Unit) := .op (TaskOp.save t)

def recordSaveError (t : TaskId) (error : Exc) : Exec Unit := .op (TaskOp.recordSaveError t error)

/-- The handler is entered; the answer is what it goes on to do. -/
def enterHandler (t : TaskId) (upstream : List TaskId) : Exec HandlerCall := .op (TaskOp.call t upstream)

def terminateProcess (t : TaskId) : Exec Unit := .op (TaskOp.terminateProcess t)

def sleep (t : TaskId) : Exec Unit := .op (TaskOp.sleep t)

/-- An operation's answer, raised where it is an exception. -/
def orRaise : Except Exc Unit → Exec Unit
  | .ok () => .ret ()
  | .error e => .fail e

/-- `task.transition_to(status, error)`. -/
def transitionTo (t : TaskId) (status : TaskStatus) (error : Option String := none) :
    Exec Unit := do
  let answer ← tryTransition t status error
  orRaise answer

/-- `store.tasks.save(task)`. -/
def save (t : TaskId) : Exec Unit := do
  let answer ← trySave t
  orRaise answer

/-- The exception that says a task was cancelled. -/
def cancelledError (t : TaskId) : Exc := .taskCancelled ("Task " ++ quoted t ++ " was cancelled")

section Methods

variable (x : Executor)

/-- `_persist`: auto-save the task; a failing save is recorded and announced, and goes no
further. -/
def persist (t : TaskId) : Exec Unit :=
  if x.store then
    tryCatch (save t) fun error => do
      recordSaveError t error
      let status ← readStatus t
      deliver t
        { type := .persistenceFailed, taskId := t, previousStatus := none, status,
          error := some error.text }
  else
    pure ()

/-- `_emit`: persist the task, then publish the event. -/
def emit (t : TaskId) (type : TaskEventType) (previousStatus : Option TaskStatus)
    (error : Option String := none) : Exec Unit := do
  persist x t
  let status ← readStatus t
  deliver t { type, taskId := t, previousStatus, status, error }

/-- `_terminalize`: result, then transition unless the status is already there, then event. -/
def terminalize (t : TaskId) (result : TaskResult) (status : TaskStatus)
    (previous : TaskStatus) (eventType : TaskEventType) (error : Option String := none) :
    Exec Unit := do
  setResult t result
  let current ← readStatus t
  if current != status then
    transitionTo t status error
  emit x t eventType (some previous) error

/-- `mark_blocked`. -/
def markBlocked (t : TaskId) (parent : Option TaskId) : Exec Unit := do
  let previousStatus ← readStatus t
  transitionTo t .blocked
  setBlockedBy t parent
  emit x t .blocked (some previousStatus)

/-- `Task.cancel`: idempotent, and keeps the error that is there. -/
def taskCancel (t : TaskId) : Exec Unit := do
  let status ← readStatus t
  if status.isSink then
    pure ()
  else
    let error ← readError t
    transitionTo t .cancelled error

/-- The first half of `cancel`: `None` for a SUCCEEDED task, else the status it then reads as
`previous`. -/
def cancelPrevious (t : TaskId) : Exec (Option TaskStatus) := do
  let status ← readStatus t
  if status == .succeeded then
    pure none
  else
    let previous ← readStatus t
    pure (some previous)

/-- The last part of `cancel`: reap the subprocess, and attach the result and publish the event
where no active `execute` owns them. -/
def cancelFinish (t : TaskId) (previous : TaskStatus) : Exec Unit := do
  terminateProcess t
  if previous == .pending || previous == .failed || previous == .blocked then
    terminalize x t
      { taskId := t, status := .cancelled, error := some "cancelled",
        terminationReason := some .cancelled }
      .cancelled previous .cancelled (some "cancelled")
  else
    pure ()

/-- `cancel`. -/
def cancel (t : TaskId) : Exec Unit := do
  match ← cancelPrevious t with
  | none => pure ()
  | some previous =>
    taskCancel t
    cancelFinish x t previous

/-- The result that `cancel` itself attaches. -/
def cancelResult (t : TaskId) : TaskResult where
  taskId := t
  status := .cancelled
  error := some "cancelled"
  terminationReason := some .cancelled

/-- `context.raise_if_cancelled`. -/
def raiseIfCancelled (t : TaskId) : Exec Unit := do
  let status ← readStatus t
  if status == .cancelled then
    throw (cancelledError t)
  else
    pure ()

/-- The cancels a handler makes on its own task. -/
def ownCancels (t : TaskId) : Nat → Exec Unit
  | 0 => pure ()
  | n + 1 => do
    cancel x t
    ownCancels t n

/-- `handler(context)`. -/
def callHandler (t : TaskId) (upstream : List TaskId) : Exec (Option Raw) := do
  let run ← enterHandler t upstream
  ownCancels x t run.cancels
  match run.outcome with
  | .returns raw => pure raw
  | .raises e => throw e

/-- The `try` block of `_execute_once`. -/
def attempt (t : TaskId) (upstream : List TaskId) : Exec TaskResult := do
  let raw ← callHandler x t upstream
  raiseIfCancelled t
  let result := TaskResult.fromRaw t raw .succeeded
  terminalize x t result .succeeded .running .succeeded
  pure result

/-- `build_result` for a cancelled attempt. -/
def cancelledResult (t : TaskId) (e : Exc) : TaskResult :=
  { taskId := t, status := .cancelled, error := some e.text, terminationReason := some .cancelled }

/-- `build_result` for a failed attempt: structured where the exception carries a process. -/
def failedResult (t : TaskId) : Exc → TaskResult
  | .taskExecutionError m p =>
    { taskId := t, status := .failed, output := orEmpty p.stdout,
      error := some (if orEmpty p.stderr = "" then m else orEmpty p.stderr),
      returncode := some p.returncode, raw := some (.completed p),
      terminationReason := some .exitCode }
  | .taskTimeoutError m p =>
    { taskId := t, status := .failed, output := orEmpty p.stdout, error := some m,
      returncode := some p.returncode, raw := some (.completed p),
      terminationReason := some .timeout }
  | e =>
    { taskId := t, status := .failed, error := some e.text, terminationReason := some .handler }

/-- `except TaskCancelled`. -/
def exceptCancelled (t : TaskId) (e : Exc) : Exec TaskResult := do
  terminalize x t (cancelledResult t e) .cancelled .running .cancelled (some e.text)
  throw e

/-- `except Exception`. -/
def exceptException (t : TaskId) (e : Exc) : Exec TaskResult := do
  let status ← readStatus t
  if status == .cancelled then
    terminalize x t (cancelledResult t e) .cancelled .running .cancelled (some e.text)
    throw (cancelledError t)
  else
    terminalize x t (failedResult t e) .failed .running .failed (some e.text)
    throw e

/-- `except Exception`, where `str(e)` raises: either branch evaluates it before it writes. -/
def exceptUnprintable (t : TaskId) (raised : Exc) : Exec TaskResult := do
  let _ ← readStatus t
  throw raised

/-- `except Exception`, where `e.completed` is no process: unless the task is CANCELLED, it is read
before anything is written. -/
def exceptUnreadable (t : TaskId) (message : String) (raised : Exc) : Exec TaskResult := do
  let status ← readStatus t
  if status == .cancelled then
    terminalize x t (cancelledResult t (.unreadable message raised)) .cancelled .running .cancelled
      (some message)
    throw (cancelledError t)
  else
    throw raised

/-- The `except` clauses of `_execute_once`, in their order. An exception outside `Exception` passes
them by, and so does one that is raised within them. -/
def handleError (t : TaskId) (e : Exc) : Exec TaskResult :=
  match e with
  | .taskCancelled m => exceptCancelled x t (.taskCancelled m)
  -- `except TaskCancelled` evaluates `str(e)` before it writes
  | .unprintableCancelled raised => throw raised
  | .baseException m => throw (.baseException m)
  | .unprintable raised => exceptUnprintable t raised
  | .unreadable message raised => exceptUnreadable x t message raised
  | e => exceptException x t e

/-- The branch of `_execute_once` for a task type without a handler. -/
def missingHandler (t : TaskId) (type : TaskType) : Exec TaskResult := do
  let message := "No handler registered for task type '" ++ type.value ++ "'"
  let previousStatus ← readStatus t
  let current ← readStatus t
  if !current.canTransitionTo .failed then
    transitionTo t .running
  terminalize x t
    { taskId := t, status := .failed, error := some message, terminationReason := some .handler }
    .failed previousStatus .failed (some message)
  throw (.valueError message)

/-- `_execute_once`. -/
def executeOnce (t : TaskId) (upstream : List TaskId) : Exec TaskResult := do
  let status ← readStatus t
  if !status.canTransitionTo .running then
    let status ← readStatus t
    throw (.valueError ("Cannot execute task with status '" ++ status.value ++ "'"))
  else
    let type ← readType t
    if !x.handlers type then
      missingHandler x t type
    else
      let previousStatus ← readStatus t
      transitionTo t .running
      emit x t .started (some previousStatus)
      tryCatch (attempt x t upstream) (handleError x t)

/-- Single-task retry configuration; both bounds are checked on construction. -/
structure RetryPolicy where
  maxAttempts : Nat := 1
  backoff : Rat := 0
  one_le : 1 ≤ maxAttempts := by decide
  nonneg : 0 ≤ backoff := by decide

/-- `RetryPolicy()`. -/
def RetryPolicy.default : RetryPolicy := {}

/-- What the retry loop does with an exception of one attempt: it raises, or it sleeps and lets
the loop go on. `lastAttempt` is `attempt + 1 >= max_attempts`. -/
def afterFailure (policy : RetryPolicy) (t : TaskId) (lastAttempt : Bool) (e : Exc) :
    Exec Unit :=
  match e with
  | .taskCancelled m => throw (.taskCancelled m)
  | .unprintableCancelled raised => throw (.unprintableCancelled raised)
  | .baseException m => throw (.baseException m)
  | e => do
    let status ← readStatus t
    if status == .cancelled then
      throw (cancelledError t)
    else if lastAttempt then
      throw e
    else
      let status ← readStatus t
      if status != .failed then
        throw e
      else
        if policy.backoff ≠ 0 then
          sleep t
        let status ← readStatus t
        if status == .cancelled then
          throw (cancelledError t)
        else
          pure ()

/-- The retry loop of `execute`, by the number of attempts left. -/
def retryLoop (policy : RetryPolicy) (t : TaskId) (upstream : List TaskId) :
    Nat → Exec TaskResult
  | 0 => throw (.assertionError "unreachable retry loop exit")
  | n + 1 =>
    tryCatch (executeOnce x t upstream) fun e => do
      afterFailure policy t (n == 0) e
      retryLoop policy t upstream n

/-- `execute`. -/
def execute (t : TaskId) (upstream : List TaskId) (policy : RetryPolicy := .default) :
    Exec TaskResult := do
  if policy.maxAttempts == 1 then
    executeOnce x t upstream
  else
    let type ← readType t
    if !x.handlers type then
      executeOnce x t upstream
    else
      retryLoop x policy t upstream policy.maxAttempts

end Methods

end TTasks
