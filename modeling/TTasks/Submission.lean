import TTasks.Interleave.Threads

/-!
# Submitting and shutting down

`TaskExecutor.submit` and `shutdown` on one executor, called by any number of threads and by the
tasks that run on its pool. Each block under `_pool_lock` is one operation; the waiting of `shutdown`
is outside the lock.

A future that was handed out is queued, running or done. Its work starts and ends on a worker of the
pool it was submitted to, in any order the pool chooses; what it calls meanwhile is a program like
that of any other thread. `ThreadPoolExecutor.shutdown(wait=True)` returns only when all work of the
pool is done.
-/

namespace TTasks.Submission

open Interleave

/-- The stages of a submitted future. -/
inductive Stage
  | queued
  | running
  | done
  deriving DecidableEq

structure Future where
  /-- The pool it was submitted to. -/
  pool : Nat
  stage : Stage := .queued
  deriving DecidableEq

/-- How far the call that has closed the executor has come. -/
inductive Closing
  /-- There has been none. -/
  | unclosed
  /-- It comes from outside the pool and waits for the pool's work. -/
  | waits
  /-- It comes from outside the pool, and need not wait any longer. -/
  | ended
  /-- A task makes it on its worker. -/
  | inside
  deriving DecidableEq

structure Shared where
  /-- `_closed`. -/
  closed : Bool := false
  /-- `_pool`. -/
  pool : Option Nat := none
  /-- How many pools have been made. -/
  pools : Nat := 0
  /-- What `submit` has handed out, in that order. -/
  futures : List Future := []
  /-- A note: what has become of the call that closed the executor. -/
  closing : Closing := .unclosed
  deriving DecidableEq

/-- Threads outside the pool, and the work of each future. -/
inductive Who (κ : Type)
  | outside (k : κ)
  | work (n : Nat)
  deriving DecidableEq

/-- What the locked block of `shutdown` hands over. -/
inductive Taken
  | alreadyClosed
  | noPool
  | pool (p : Nat)
  deriving DecidableEq

inductive Op
  /-- The locked block of `submit`. -/
  | submit
  /-- The locked block of `shutdown`. -/
  | close
  /-- `current in pool_threads`. -/
  | inPool (p : Nat)
  /-- `pool.shutdown(wait=True)` returns. -/
  | shutdownWait (p : Nat)
  /-- `pool.shutdown(wait=False)`. -/
  | shutdownNoWait (p : Nat)
  /-- The last `thread.join()` returns. -/
  | joinOthers (p : Nat)
  /-- `shutdown` returns. -/
  | leave
  /-- A worker takes the future's work. -/
  | start
  /-- The future gets its result or its exception. -/
  | finish
  deriving DecidableEq

/-- `submit` raises where it answers nothing. -/
abbrev Op.Ans : Op → Type
  | .submit => Option Nat
  | .close => Taken
  | .inPool _ => Bool
  | .shutdownWait _ | .shutdownNoWait _ | .joinOthers _ | .leave | .start | .finish => Unit

variable {κ : Type}

/-- The locked block of `submit`: refused when closed; the pool is made when it is first needed. -/
def submit (s : Shared) : Option Nat × Shared :=
  if s.closed then (none, s)
  else
    match s.pool with
    | some p => (some s.futures.length, { s with futures := s.futures ++ [{ pool := p }] })
    | none =>
      (some s.futures.length,
        { s with
          pool := some s.pools
          pools := s.pools + 1
          futures := s.futures ++ [{ pool := s.pools }] })

/-- The work whose thread this is. -/
def Who.own : Who κ → Option Nat
  | .outside _ => none
  | .work n => some n

/-- The locked block of `shutdown`; a call from outside the pool goes on to wait if there is one. -/
def close (who : Who κ) (s : Shared) : Taken × Shared :=
  if s.closed then (.alreadyClosed, s)
  else
    let closing := if who.own.isSome then .inside else if s.pool.isSome then .waits else .ended
    (match s.pool with
      | some p => .pool p
      | none => .noPool,
      { s with closed := true, pool := none, closing })

/-- The future's next stage. -/
def Shared.setStage (s : Shared) (n : Nat) (stage : Stage) : Shared :=
  { s with futures := s.futures.modify n fun future => { future with stage } }

def sem (who : Who κ) : (o : Op) → Shared → o.Ans × Shared
  | .submit, s => submit s
  | .close, s => close who s
  | .inPool p, s => ((who.own.bind (s.futures[·]?)).any fun future => future.pool = p, s)
  | .shutdownWait _, s => ((), { s with closing := .ended })
  | .shutdownNoWait _, s | .joinOthers _, s | .leave, s => ((), s)
  | .start, s => ((), who.own.elim s fun n => s.setStage n .running)
  | .finish, s => ((), who.own.elim s fun n => s.setStage n .done)

/-- The operations that wait, and for what: a pool's shutdown for all its work, the joins in a worker
for what the others run, the work for its turn. -/
def Waits (who : Who κ) (o : Op) (s : Shared) : Prop :=
  match o with
  | .shutdownWait p => ∀ future ∈ s.futures, future.pool = p → future.stage = .done
  | .joinOthers p => ∀ n < s.futures.length, who.own ≠ some n →
      ∀ future ∈ s.futures[n]?, future.pool = p → future.stage ≠ .running
  | .start => ∃ future ∈ who.own.bind (s.futures[·]?), future.stage = .queued
  | _ => True

instance [DecidableEq κ] (who : Who κ) (o : Op) (s : Shared) : Decidable (Waits who o s) :=
  match o with
  | .shutdownWait p =>
    inferInstanceAs (Decidable (∀ future ∈ s.futures, future.pool = p → future.stage = .done))
  | .joinOthers p =>
    inferInstanceAs (Decidable (∀ n < s.futures.length, who.own ≠ some n →
      ∀ future ∈ s.futures[n]?, future.pool = p → future.stage ≠ .running))
  | .start =>
    inferInstanceAs (Decidable (∃ future ∈ who.own.bind (s.futures[·]?), future.stage = .queued))
  | .submit | .close | .inPool _ | .shutdownNoWait _ | .leave | .finish => isTrue trivial

/-! ## Calls -/

abbrev Sub := Prog Op.Ans Unit

/-- `shutdown`, and `close`, which is the same. -/
def shutdown : Sub Unit :=
  .act Op.close fun taken =>
    match taken with
    | .alreadyClosed | .noPool => Prog.op Op.leave
    | .pool p =>
      .act (Op.inPool p) fun current =>
        if current then
          .act (Op.shutdownNoWait p) fun _ => .act (Op.joinOthers p) fun _ => Prog.op Op.leave
        else .act (Op.shutdownWait p) fun _ => Prog.op Op.leave

/-- What a thread, or a task's handler, can call. -/
inductive Call
  | submit
  | shutdown
  deriving DecidableEq

abbrev Call.Ans : Call → Type
  | .submit => Option Nat
  | .shutdown => Unit

/-- A program of calls; what it does may depend on which of them raise. -/
abbrev Caller := Prog Call.Ans Unit Unit

def Call.code : (c : Call) → Sub c.Ans
  | .submit => Prog.op Op.submit
  | .shutdown => Submission.shutdown

def Caller.code (p : Caller) : Sub Unit := p.expand Call.code

/-- A worker runs the future's work; what it raises is the future's exception. -/
def work (body : Caller) : Sub Unit :=
  .act Op.start fun _ => body.code.finallyDo (Prog.op Op.finish)

abbrev State (κ : Type) := Threads (Who κ) Op.Ans Unit Unit Shared

/-- A new executor, the threads that are going to call it, and what the handlers of the tasks that
they submit will call. -/
def start (callers : κ → Caller) (bodies : Nat → Caller) : State κ where
  shared := {}
  rest
    | .outside k => (callers k).code
    | .work n => work (bodies n)

/-- Every future that was handed out is done. -/
def AllDone (s : Shared) : Prop := ∀ future ∈ s.futures, future.stage = .done

instance (s : Shared) : Decidable (AllDone s) :=
  inferInstanceAs (Decidable (∀ future ∈ s.futures, _))

/-- No call of `shutdown` from outside the pool is made while an earlier one from outside waits, nor,
after a task has made one on its worker, before all tasks are over. -/
def InTurn (who : Who κ) (o : Op) (s : Shared) : Prop :=
  Waits who o s ∧ (o = .close → who.own = none → s.closing ≠ .waits ∧
    (s.closing = .inside → AllDone s))

instance [DecidableEq κ] (who : Who κ) (o : Op) (s : Shared) : Decidable (InTurn who o s) :=
  inferInstanceAs (Decidable (_ ∧ _))

end TTasks.Submission
