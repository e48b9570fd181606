import TTasks.Sequence
import TTasks.Submission

/-!
# Submitted tasks and their futures

`TaskExecutor.submit` with the future it returns: what a worker of the pool makes of a submitted
task, what `Future.cancel` does, and the callback by which a cancelled future cancels its task. Any
number of threads submit tasks, cancel futures and shut the executor down.

Each block of `concurrent.futures.Future` under its condition is one operation. A worker takes a
queued future at any moment: how many workers there are, and the order of their queue, is left open.
So is what the caller of `shutdown` does on a thread of the pool, which `Submission` has.
-/

namespace TTasks.Futures

open Interleave
open Submission (Who)

/-- What a worker needs to know of the call that was submitted. -/
structure WorkItem where
  task : TaskId
  upstream : List TaskId
  policy : RetryPolicy

/-- The states of a future. -/
inductive Stage
  | pending
  | running
  | cancelled
  | finished (outcome : Except Exc TaskResult)

namespace Stage

def isCancelled : Stage → Bool
  | .cancelled => true
  | _ => false

/-- In the pool's queue: a cancelled future stays there until a worker meets it. -/
def isQueued : Stage → Bool
  | .pending | .cancelled => true
  | _ => false

/-- `done()`. -/
def isDone : Stage → Bool
  | .cancelled | .finished _ => true
  | _ => false

end Stage

structure Future (κ : Type) where
  item : WorkItem
  /-- A note: the thread that has submitted it. -/
  submitter : Who κ
  stage : Stage := .pending
  /-- `add_done_callback` has been called; from then on `submit` may return the future. -/
  added : Bool := false
  /-- The callback of `submit` is among `_done_callbacks`. -/
  watched : Bool := false
  /-- A note: the thread whose `cancel` has cancelled it. -/
  canceller : Option (Who κ) := none

structure Shared (κ : Type) where
  world : World
  /-- `_closed`. -/
  closed : Bool := false
  /-- What the pool has been given, in that order. -/
  futures : List (Future κ) := []
  /-- A note: what each call of `Future.cancel` answers. -/
  answers : List (Nat × Bool) := []

/-- What the locked block of `Future.cancel` decides; the one call that cancels goes on to the
callback, if there is one, which knows its task. -/
inductive Cancelling
  | refused
  | already
  | now (callback : Option TaskId)
  deriving DecidableEq

inductive Op
  /-- The locked block of `submit`, up to `_pool.submit`. -/
  | submit (item : WorkItem)
  | addDoneCallback (n : Nat)
  /-- The locked block of `Future.cancel`. -/
  | cancelFuture (n : Nat)
  /-- `submitted.cancelled()`. -/
  | cancelled (n : Nat)
  /-- `set_running_or_notify_cancel`. -/
  | start (n : Nat)
  /-- `set_result` or `set_exception`. -/
  | finish (n : Nat) (outcome : Except Exc TaskResult)
  /-- The locked block of `shutdown`. -/
  | close
  /-- `pool.shutdown(wait=True)` returns. -/
  | shutdownWait
  /-- An operation of an executor method. -/
  | task (o : TaskOp)

/-- `submit` raises where it answers nothing. `addDoneCallback` answers whether the callback is to be
called at once, `finish` for which task it is to be called, `close` whether there is a pool to
wait for. -/
abbrev Op.Ans : Op → Type
  | .submit _ => Option Nat
  | .addDoneCallback _ => Bool
  | .cancelFuture _ => Cancelling
  | .cancelled _ => Bool
  | .start _ => Option WorkItem
  | .finish _ _ => Option TaskId
  | .close => Bool
  | .shutdownWait => Unit
  | .task o => o.Ans

section Semantics

variable {κ : Type}

namespace Shared

/-- A change of one future. -/
def change (s : Shared κ) (n : Nat) (f : Future κ → Future κ) : Shared κ :=
  { s with futures := s.futures.modify n f }

/-- A call of `Future.cancel` gets its answer. -/
def answering (s : Shared κ) (n : Nat) (answer : Bool) : Shared κ :=
  { s with answers := s.answers ++ [(n, answer)] }

end Shared

/-- The callback of `submit`, if it is among those of the future. -/
def Future.callback (f : Future κ) : Option TaskId := if f.watched then some f.item.task else none

def addDoneCallback (n : Nat) (s : Shared κ) : Bool × Shared κ :=
  match s.futures[n]? with
  | none => (false, s)
  | some f =>
    (f.stage.isDone, s.change n fun f => { f with added := true, watched := !f.stage.isDone })

def cancelFuture (who : Who κ) (n : Nat) (s : Shared κ) : Cancelling × Shared κ :=
  match s.futures[n]? with
  | none => (.refused, s)
  | some f =>
    match f.stage with
    | .running | .finished _ => (.refused, s.answering n false)
    | .cancelled => (.already, s.answering n true)
    | .pending =>
      (.now f.callback,
        (s.change n fun f => { f with stage := .cancelled, canceller := some who }).answering n true)

def startFuture (n : Nat) (s : Shared κ) : Option WorkItem × Shared κ :=
  match s.futures[n]? with
  | none => (none, s)
  | some f =>
    match f.stage with
    | .pending => (some f.item, s.change n fun f => { f with stage := .running })
    | _ => (none, s)

def sem (x : Executor) (who : Who κ) : (o : Op) → Shared κ → o.Ans × Shared κ
  | .submit item, s =>
    if s.closed then (none, s)
    else (some s.futures.length, { s with futures := s.futures ++ [{ item, submitter := who }] })
  | .addDoneCallback n, s => addDoneCallback n s
  | .cancelFuture n, s => cancelFuture who n s
  | .cancelled n, s => ((s.futures[n]?).any fun f => f.stage.isCancelled, s)
  | .start n, s => startFuture n s
  | .finish n outcome, s =>
    ((s.futures[n]?).bind Future.callback,
      s.change n fun f => { f with stage := .finished outcome })
  | .close, s => (!s.closed && !s.futures.isEmpty, { s with closed := true })
  | .shutdownWait, s => ((), s)
  | .task o, s => ((o.perform x s.world).1, { s with world := (o.perform x s.world).2 })

/-- A future can be cancelled by those who have it, and a worker takes it from the queue. -/
def Enabled (o : Op) (s : Shared κ) : Prop :=
  match o with
  | .cancelFuture n => ∃ f ∈ s.futures[n]?, f.added = true
  | .start n => ∃ f ∈ s.futures[n]?, f.stage.isQueued = true
  | .shutdownWait => ∀ f ∈ s.futures, f.stage.isDone = true
  | _ => True

instance (o : Op) (s : Shared κ) : Decidable (Enabled o s) :=
  match o with
  | .cancelFuture n => inferInstanceAs (Decidable (∃ f ∈ s.futures[n]?, f.added = true))
  | .start n => inferInstanceAs (Decidable (∃ f ∈ s.futures[n]?, f.stage.isQueued = true))
  | .shutdownWait => inferInstanceAs (Decidable (∀ f ∈ s.futures, f.stage.isDone = true))
  | .submit _ | .addDoneCallback _ | .cancelled _ | .finish _ _ | .close | .task _ => isTrue trivial

/-- The task has not been submitted yet. -/
def New (o : Op) (s : Shared κ) : Prop :=
  match o with
  | .submit item => ∀ f ∈ s.futures, f.item.task ≠ item.task
  | _ => True

instance (o : Op) (s : Shared κ) : Decidable (New o s) :=
  match o with
  | .submit item => inferInstanceAs (Decidable (∀ f ∈ s.futures, f.item.task ≠ item.task))
  | .addDoneCallback _ | .cancelFuture _ | .cancelled _ | .start _ | .finish _ _ | .close
  | .shutdownWait | .task _ => isTrue trivial

/-- A step in which no task is submitted that has been submitted before. -/
def Once (_ : Who κ) (o : Op) (s : Shared κ) : Prop := Enabled o s ∧ New o s

instance (who : Who κ) (o : Op) (s : Shared κ) : Decidable (Once who o s) :=
  inferInstanceAs (Decidable (_ ∧ _))

end Semantics

/-! ## Calls -/

abbrev Fut := Prog Op.Ans Exc

/-- An executor method, among the operations on futures. -/
def liftTask {α : Type} (p : Exec α) : Fut α := p.lift Op.task fun _ a => a

/-- `_execute_submitted`. -/
def executeSubmitted (x : Executor) (item : WorkItem) : Exec TaskResult := do
  let status ← readStatus item.task
  if status == .cancelled then
    throw (cancelledError item.task)
  else
    execute x item.task item.upstream item.policy

section Code

variable (x : Executor)

/-- The callback that `submit` adds, as a future calls it: an exception within `Exception` is logged
and goes no further. -/
def callback (n : Nat) (t : TaskId) : Fut Unit :=
  tryCatch
    (do
      let cancelled ← .op (Op.cancelled n)
      if cancelled then
        liftTask (cancel x t)
      else
        pure ())
    fun error => if error.isException then pure () else throw error

/-- `submit`. -/
def submit (item : WorkItem) : Fut (Option Nat) := do
  let future ← .op (Op.submit item)
  match future with
  | none => pure none
  | some n => do
    let atOnce ← .op (Op.addDoneCallback n)
    if atOnce then
      callback x n item.task
    pure (some n)

/-- `Future.cancel`. -/
def futureCancel (n : Nat) : Fut Bool := do
  let cancelling ← .op (Op.cancelFuture n)
  match cancelling with
  | .refused => pure false
  | .already => pure true
  | .now none => pure true
  | .now (some t) => do
    callback x n t
    pure true

/-- `shutdown`, outside the pool. -/
def shutdown : Fut Unit := do
  let pool ← .op Op.close
  if pool then
    .op Op.shutdownWait
  else
    pure ()

/-- A worker of the pool runs the call that was submitted, unless its future is cancelled. -/
def work (n : Nat) : Fut Unit := do
  let item ← .op (Op.start n)
  match item with
  | none => pure ()
  | some item => do
    let outcome ← (liftTask (executeSubmitted x item)).result
    let watching ← .op (Op.finish n outcome)
    match watching with
    | none => pure ()
    | some t => callback x n t

/-- What a thread can call. -/
inductive Call
  | submit (item : WorkItem)
  | cancel (n : Nat)
  | shutdown

abbrev Call.Ans : Call → Type
  | .submit _ => Option Nat
  | .cancel _ => Bool
  | .shutdown => Unit

/-- A program of calls; what it does may depend on their answers. -/
abbrev Caller := Prog Call.Ans Exc Unit

def Call.code : (c : Call) → Fut c.Ans
  | .submit item => Futures.submit x item
  | .cancel n => futureCancel x n
  | .shutdown => Futures.shutdown

variable {κ : Type}

abbrev State (κ : Type) := Threads (Who κ) Op.Ans Exc Unit (Shared κ)

/-- A new executor, and the threads that are going to call it. -/
def start (callers : κ → Caller) (w : World) : State κ where
  shared := { world := w }
  rest
    | .outside k => (callers k).expand (Call.code x)
    | .work n => work x n

end Code

end TTasks.Futures
