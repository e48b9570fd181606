import TTasks.Graph
import TTasks.Interleave.Threads

/-!
# The scheduler

`TaskGraph.run` on a `ThreadPoolExecutor`: the thread that calls `run`, one thread of the pool for
each submitted task, and other threads that call `executor.cancel`. They are programs of atomic
operations on a `Shared` state, and any of them may move at any time, as far as the operation it is
at does not wait: for the lock, for a free place in the pool, for the `done` event, for the end of
the pool.

A task is submitted at most once in a run, so its future and its thread go by the task's id. The
lock is reentrant, so the inline call of `on_finish` by `add_done_callback` takes it without
waiting; it is modelled by the outermost `with lock:` alone. `schedule` is bounded by a fuel that no
run uses up; a thread without fuel would be at `outOfFuel`.

Left out: the autosave of the graph itself, which raises nothing and is not read by a run, and the
clock readings.
-/

namespace TTasks

open Interleave

namespace Scheduler

/-! ## State -/

/-- Where a task's future is: not created, waiting in the pool, running, or done with the exception
it carries. -/
inductive Stage
  | absent
  | queued
  | running
  | done (exception : Option Exc)
  deriving DecidableEq, Repr

def Stage.isDone : Stage → Bool
  | done _ => true
  | _ => false

/-- The `on_finish` callback of a future: not added yet, added, or begun. -/
inductive Callback
  | unregistered
  | registered
  | invoked
  deriving DecidableEq, Repr

/-- The threads: the caller of `run`, the pool's thread for a task, and those that cancel. -/
inductive Who
  | main
  | worker (t : TaskId)
  | outside (i : Nat)
  deriving DecidableEq, Repr

/-- What is fixed about a run: its arguments, the state it starts from, and the tasks that other
threads cancel while it goes on. -/
structure Run where
  graph : TaskGraph
  executor : Executor
  maxWorkers : Nat := 4
  world : World
  cancels : List TaskId := []

/-- What the threads of a run share. -/
structure Shared where
  world : World
  /-- The calls of `pool.submit`, in order, with the upstream ids of each. -/
  submitted : List (TaskId × List TaskId) := []
  /-- `futures`, and the state of each future. -/
  stage : TaskId → Stage := fun _ => .absent
  callback : TaskId → Callback := fun _ => .unregistered
  /-- `_errors`. -/
  errors : TaskId → Option Exc := fun _ => none
  /-- The thread that holds the lock. -/
  lock : Option Who := none
  /-- How many calls of `schedule` are in progress. -/
  scheduling : Nat := 0
  /-- The tasks whose pool thread is taken: from its start to the end of its callbacks. -/
  busy : List TaskId := []
  /-- The `done` event. -/
  done : Bool := false
  /-- `scheduler_error`. -/
  schedulerErrors : List Exc := []
  /-- The pool's shutdown has begun. -/
  shutdown : Bool := false

namespace Shared

def status (s : Shared) (t : TaskId) : TaskStatus := s.world.status t

def setStage (s : Shared) (t : TaskId) (stage : Stage) : Shared :=
  { s with stage := Function.update s.stage t stage }

def setCallback (s : Shared) (t : TaskId) (callback : Callback) : Shared :=
  { s with callback := Function.update s.callback t callback }

@[simp] theorem setStage_self (s : Shared) (t : TaskId) (stage : Stage) :
    (s.setStage t stage).stage t = stage := Function.update_self ..

@[simp] theorem setCallback_self (s : Shared) (t : TaskId) (callback : Callback) :
    (s.setCallback t callback).callback t = callback := Function.update_self ..

end Shared

/-! ## Atomic operations -/

inductive SchedOp
  | task (o : TaskOp)
  | title (t : TaskId)
  | inFutures (t : TaskId)
  | futureDone (t : TaskId)
  | inErrors (t : TaskId)
  | terminal (t : TaskId)
  | poolSubmit (t : TaskId) (upstream : List TaskId)
  | addDoneCallback (t : TaskId)
  | recordException (t : TaskId)
  | futures
  | live (t : TaskId)
  | setDone
  | appendError (error : Exc)
  | beginSchedule
  | endSchedule
  | outOfFuel
  | acquire
  | release
  | waitDone
  | shutdown
  | join
  | schedulerErrors
  | start (t : TaskId)
  | finish (t : TaskId) (exception : Option Exc)
  | leave (t : TaskId)

namespace SchedOp

/-- What an operation answers. -/
abbrev Ans : SchedOp → Type
  | .task o => o.Ans
  | .title _ => String
  | .inFutures _ | .futureDone _ | .inErrors _ | .terminal _ | .addDoneCallback _ | .live _ => Bool
  | .poolSubmit _ _ => Except Exc Unit
  | .futures => List TaskId
  | .schedulerErrors => List Exc
  | .start _ => List TaskId
  | .finish _ _ => Bool
  | _ => Unit

/-- What an operation does. -/
def perform (r : Run) (who : Who) : (op : SchedOp) → Shared → Ans op × Shared
  | .task o, s => ((o.perform r.executor s.world).1,
      { s with world := (o.perform r.executor s.world).2 })
  | .title t, s => ((s.world.tasks t).title, s)
  | .inFutures t, s => (s.stage t != .absent, s)
  | .futureDone t, s => ((s.stage t).isDone, s)
  | .inErrors t, s => ((s.errors t).isSome, s)
  -- `task.is_terminal`, in the test for the end of the run
  | .terminal t, s => ((s.status t).isTerminal, s)
  -- `pool.submit`, and its future put into `futures`
  | .poolSubmit t upstream, s =>
    if s.shutdown then (.error (.runtimeError "cannot schedule new futures after shutdown"), s)
    else (.ok (), { s.setStage t .queued with submitted := s.submitted ++ [(t, upstream)] })
  -- whether the future is already done, so that the callback is called at once
  | .addDoneCallback t, s =>
    if (s.stage t).isDone then (true, s) else (false, s.setCallback t .registered)
  -- `exception = fut.exception()`, kept in `_errors` where it is one
  | .recordException t, s =>
    match s.stage t with
    | .done e => ((), { s.setCallback t .invoked with errors := Function.update s.errors t e })
    | _ => ((), s)
  | .futures, s => (s.submitted.map Prod.fst, s)
  -- `not f.done()`, in the test for live work
  | .live t, s => (!(s.stage t).isDone, s)
  | .setDone, s => ((), { s with done := true })
  | .appendError e, s => ((), { s with schedulerErrors := s.schedulerErrors ++ [e] })
  | .beginSchedule, s => ((), { s with scheduling := s.scheduling + 1 })
  | .endSchedule, s => ((), { s with scheduling := s.scheduling - 1 })
  | .outOfFuel, s => ((), s)
  | .acquire, s => ((), { s with lock := some who })
  | .release, s => ((), { s with lock := none })
  | .waitDone, s => ((), s)
  | .shutdown, s => ((), { s with shutdown := true })
  | .join, s => ((), s)
  | .schedulerErrors, s => (s.schedulerErrors, s)
  -- the pool takes the call out of its queue, with its arguments
  | .start t, s => ((s.submitted.lookup t).getD [], { s.setStage t .running with busy := t :: s.busy })
  -- the future is set, and its callbacks are called if there are any
  | .finish t e, s => (s.callback t == .registered, s.setStage t (.done e))
  | .leave t, s => ((), { s with busy := s.busy.filter (· ≠ t) })

/-- Whether an operation can be performed now, or has to wait. -/
def enabled (r : Run) (s : Shared) : SchedOp → Bool
  | .acquire => s.lock.isNone
  | .start t => s.stage t == .queued && decide (s.busy.length < r.maxWorkers)
  | .recordException t => (s.stage t).isDone
  | .waitDone => s.done
  | .join => s.submitted.all (fun p => (s.stage p.1).isDone) && s.busy.isEmpty
  | _ => true

end SchedOp

/-- A program of scheduler operations that may raise. -/
abbrev Sched (α : Type) := Prog SchedOp.Ans Exc α

/-- One operation. -/
def once (o : SchedOp) : Sched o.Ans := Prog.op o

/-- An executor method, called by a thread of the run. -/
def liftTask {α : Type} (p : Exec α) : Sched α := p.lift SchedOp.task fun _ a => a

section Code

variable (r : Run)

/-! ## The predicates of `_run_inner` -/

/-- `tid in entering_blocked`. -/
def entering (t : TaskId) : Bool := r.world.status t == .blocked

def status (t : TaskId) : Sched TaskStatus := once (.task (.status t))

def inFutures (t : TaskId) : Sched Bool := once (.inFutures t)

def futureDone (t : TaskId) : Sched Bool := once (.futureDone t)

def inErrors (t : TaskId) : Sched Bool := once (.inErrors t)

/-- A test of the task's status. -/
def statusIs (p : TaskStatus → Bool) (t : TaskId) : Sched Bool := (status t).bind fun s => .ret (p s)

def succeeded (t : TaskId) : Sched Bool := statusIs (· == .succeeded) t

def retryableThisRun (t : TaskId) : Sched Bool :=
  (inFutures t).not.and <|
    (statusIs (·.canTransitionTo .running) t).and <|
      (statusIs (· != .blocked) t).or (.ret (entering r t))

def inactive (t : TaskId) : Sched Bool := do
  if ← inFutures t then
    futureDone t
  else
    ((statusIs (·.isTerminal) t).and (retryableThisRun r t).not).or (inErrors t)

def ready (t : TaskId) : Sched Bool :=
  if r.graph.isFinally t then Prog.all (inactive r) (r.graph.deps t)
  else Prog.all succeeded (r.graph.deps t)

/-- `first_bad_parent`, on the dependencies still to be looked at. -/
def firstBadParent : List TaskId → Sched (Option TaskId)
  | [] => pure none
  | d :: ds => do
    if ← (inFutures d).and (futureDone d).not then
      firstBadParent ds
    else if ← inErrors d then
      pure (some d)
    else if ← (statusIs (·.isBad) d).and (retryableThisRun r d).not then
      pure (some d)
    else
      firstBadParent ds

def finished (t : TaskId) : Sched Bool :=
  (once (.terminal t)).or ((inFutures t).and (futureDone t))

/-! ## `schedule` -/

/-- What the `for` loop of `schedule` does about a task. -/
inductive Decision
  | skip
  | block (parent : TaskId)
  | submit
  deriving DecidableEq, Repr

/-- The end of the loop's body, for a task that no parent blocks. -/
def decideReady (t : TaskId) : Sched Decision := do
  if ← (ready r t).and (statusIs (·.canTransitionTo .running) t) then
    pure .submit
  else
    pure .skip

/-- The body of the `for` loop up to what it then does. -/
def decide (t : TaskId) : Sched Decision := do
  if ← inFutures t then
    pure .skip
  else if ← statusIs (·.isSink) t then
    pure .skip
  else if ← (statusIs (· == .blocked) t).and (.ret (!entering r t)) then
    pure .skip
  else if r.graph.isFinally t then
    decideReady r t
  else
    match ← firstBadParent r (r.graph.deps t) with
    | some bad => do
      if ← statusIs (· == .pending) t then
        pure (.block bad)
      else
        pure .skip
    | none => decideReady r t

/-- `on_finish`, without the lock. -/
def onFinish (schedule : Sched Unit) (t : TaskId) : Sched Unit := do
  once (.recordException t)
  schedule

/-- `submit`; a future that is already done calls `on_finish` at once, and its exceptions are
swallowed. -/
def submit (schedule : Sched Unit) (t : TaskId) : Sched Unit := do
  match ← once (.poolSubmit t (r.graph.deps t)) with
  | .error e => throw e
  | .ok () =>
    if ← once (.addDoneCallback t) then
      (onFinish schedule t).swallow
    else
      pure ()

/-- What the `for` loop does, and whether it sets `changed`. -/
def act (schedule : Sched Unit) (t : TaskId) : Decision → Sched Bool
  | .skip => pure false
  | .block bad => do
    liftTask (markBlocked r.executor t (some bad))
    pure true
  | .submit => do
    submit r schedule t
    pure true

/-- The `for` loop, on the tasks still to be visited; it answers `changed`. -/
def pass (schedule : Sched Unit) (changed : Bool) : List TaskId → Sched Bool
  | [] => pure changed
  | t :: ts => do
    let decision ← decide r t
    let acted ← act r schedule t decision
    pass schedule (changed || acted) ts

/-- The titles of the unfinished tasks. -/
def stuck : List TaskId → Sched (List String)
  | [] => pure []
  | t :: ts => do
    if ← finished t then
      stuck ts
    else
      let title ← once (.title t)
      let titles ← stuck ts
      pure (title :: titles)

/-- `repr()` of a list of titles. -/
def reprTitles (titles : List String) : String :=
  "[" ++ String.intercalate ", " (titles.map quoted) ++ "]"

/-- The end of `schedule`: the run is over, or it goes on, or it is stuck. -/
def close : Sched Unit := do
  if ← Prog.all finished r.graph.keys then
    once .setDone
  else
    let futures ← once .futures
    if ← Prog.any (fun t => once (.live t)) futures then
      pure ()
    else
      let titles ← stuck r.graph.keys
      once (.appendError (.runtimeError
        ("scheduler made no progress; stuck=" ++ reprTitles titles)))
      once .setDone

/-- A call of `schedule`, from its entry to its exit. -/
def inSchedule (body : Sched Unit) : Sched Unit := do
  once .beginSchedule
  body.finallyDo (once .endSchedule)

/-- The `while` loop and what follows it. -/
def scheduleLoop : Nat → Sched Unit
  | 0 => once .outOfFuel
  | n + 1 => do
    let changed ← pass r (inSchedule (scheduleLoop n)) false r.graph.keys
    if changed then
      scheduleLoop n
    else
      close r

/-- Every `while` round but the last submits a task or marks one BLOCKED, and each of these can be
done to a task once. -/
def fuel : Nat := 2 * r.graph.keys.length + 1

def schedule : Sched Unit := inSchedule (scheduleLoop r (fuel r))

/-! ## The threads -/

/-- `with lock:`. -/
def withLock (body : Sched Unit) : Sched Unit := do
  once .acquire
  body.finallyDo (once .release)

/-- The callbacks of a future, whose exceptions are swallowed. -/
def callbacks (t : TaskId) (registered : Bool) : Sched Unit :=
  if registered then (withLock (onFinish (schedule r) t)).swallow else pure ()

/-- A submitted call in the pool: `execute`, the future's outcome, and the callback. -/
def worker (t : TaskId) : Sched Unit := do
  let upstream ← once (.start t)
  let exception ← (liftTask (execute r.executor t upstream)).caught
  let registered ← once (.finish t exception)
  callbacks r t registered
  once (.leave t)

/-- The end of `with ThreadPoolExecutor`. -/
def closePool : Sched Unit := do
  once .shutdown
  once .join

/-- `_run_inner`. -/
def main : Sched Unit :=
  if r.graph.keys.isEmpty then
    pure ()
  else do
    Prog.finallyDo (do
      withLock (schedule r)
      once .waitDone) closePool
    match ← once .schedulerErrors with
    | [] => pure ()
    | e :: _ => throw e

/-- A thread that cancels a task of the run. -/
def canceller (i : Nat) : Sched Unit :=
  match r.cancels[i]? with
  | some t => liftTask (cancel r.executor t)
  | none => pure ()

/-! ## The system -/

abbrev State := Threads Who SchedOp.Ans Exc Unit Shared

/-- `_run_inner` is about to begin. -/
def start : State where
  shared := { world := r.world }
  rest
    | .main => main r
    | .worker t => worker r t
    | .outside i => canceller r i

/-- `run`: the arguments are checked, and the threads may begin. -/
def run : Except Exc State := do
  if r.maxWorkers = 0 then
    throw (.valueError "max_workers must be greater than 0")
  r.graph.validate r.world
  pure (start r)

def machine : Machine State Who := Threads.machine (SchedOp.perform r)

/-- A discipline: which operations may be taken when. -/
abbrev Discipline := Who → SchedOp → Shared → Prop

/-- The steps of a discipline: no thread passes where it has to wait. -/
def Steps (allow : Discipline) : State → Who → Prop :=
  Threads.Allows fun who o s => o.enabled r s = true ∧ allow who o s

instance (allow : Discipline) [∀ who o s, Decidable (allow who o s)] (s : State) (who : Who) :
    Decidable (Steps r allow s who) :=
  inferInstanceAs (Decidable (Threads.Allows _ s who))

/-- A run of the discipline, from the entry of `_run_inner`. -/
def Reachable (allow : Discipline) (s : State) : Prop :=
  (machine r).Reaches (Steps r allow) (start r) s

/-- No restriction on when threads may move. -/
def anyTime : Discipline := fun _ _ _ => True

instance (who : Who) (o : SchedOp) (s : Shared) : Decidable (anyTime who o s) :=
  inferInstanceAs (Decidable True)

end Code

end Scheduler

end TTasks
