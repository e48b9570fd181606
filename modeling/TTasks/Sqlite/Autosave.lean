import TTasks.Sqlite.Clients

/-!
# Auto-saves of a task that several threads work on

`execute` and `cancel` calls on one task, each in a thread of its own, by an executor that has a
store. A save takes two steps: `_task_values` and `_result_values` read the live task, and the
connection block commits what they read once it has the database lock. No save fails.

The shared state is the `World` with notes about the threads: what each has read of the status and
written of the result, which one moved the task to RUNNING last, and which one holds the newest
snapshot. No operation reads the notes.
-/

namespace TTasks

open Interleave

namespace Sqlite

namespace Autosave

/-- The operations: an executor's, and the two steps of a save. -/
inductive Op
  | task (o : TaskOp)
  | snapshot (t : TaskId)
  | commit (t : TaskId) (snapshot : Task)

abbrev Op.Ans : Op → Type
  | .task o => o.Ans
  | .snapshot _ => Task
  | .commit _ _ => Unit

/-- A save as its two steps. -/
def split : (o : TaskOp) → Prog Op.Ans Exc o.Ans
  | .save t =>
    .act (Op.snapshot t) fun snapshot : Task => .act (Op.commit t snapshot) fun _ => .ret (.ok ())
  | o => .op (Op.task o)

structure Shared (ι : Type) where
  world : World
  /-- The statuses that each thread has read, the newest first. -/
  reads : ι → List TaskStatus := fun _ => []
  /-- The thread has written a result since its last snapshot. -/
  wrote : ι → Bool := fun _ => false
  /-- The thread that last moved the task to RUNNING. -/
  runner : Option ι := none
  /-- The handler call that it moved the task to RUNNING for comes back to the executor. -/
  answering : Bool := false
  /-- The thread with the newest snapshot, until it commits that. -/
  holder : Option ι := none

/-- What a call is asked to do. -/
inductive Request
  | execute (upstream : List TaskId) (policy : RetryPolicy)
  | cancel

section Machine

variable {ι : Type} [DecidableEq ι] (x : Executor) (t : TaskId)

def Request.program : Request → Exec Unit
  | .execute upstream policy => (TTasks.execute x t upstream policy).bind fun _ => .ret ()
  | .cancel => TTasks.cancel x t

/-- The next handler call ends in a way that the executor deals with; without a handler there is no
call that could fail to. -/
def answers (w : World) : Bool :=
  !x.handlers (w.tasks t).type || (x.behaviour t (w.callCount t)).outcome.isOrdinary

/-- What an operation of the executor adds to the notes. -/
def note (i : ι) : (o : TaskOp) → o.Ans → Shared ι → Shared ι
  | .status _, (status : TaskStatus), s =>
    { s with reads := Function.update s.reads i (status :: s.reads i) }
  | .setResult _ _, _, s => { s with wrote := Function.update s.wrote i true }
  | .transition t target _, answer, s =>
    if target == .running && answer.isOk then
      { s with runner := some i, answering := answers x t s.world }
    else s
  | _, _, s => s

/-- One operation of one thread. -/
def sem (i : ι) : (o : Op) → Shared ι → o.Ans × Shared ι
  | .task o, s =>
    ((o.perform x s.world).1,
      { note x i o (o.perform x s.world).1 s with world := (o.perform x s.world).2 })
  | .snapshot t, s =>
    ((s.world.tasks t).dropRaw,
      { s with wrote := Function.update s.wrote i false, holder := some i })
  | .commit t snapshot, s =>
    ((), { s with
      world := s.world.setStored t snapshot
      holder := if s.holder = some i then none else s.holder })

abbrev State (ι : Type) := Threads ι Op.Ans Exc Unit (Shared ι)

/-- The calls are about to begin. -/
def start (calls : ι → Request) (w : World) : State ι where
  shared := { world := w }
  rest i := ((calls i).program x t).expand split

/-- The stored task is what a save of the live task leaves. -/
def Saved (w : World) : Prop := w.stored t = some (w.tasks t).dropRaw

instance (w : World) : Decidable (Saved t w) := inferInstanceAs (Decidable (_ = _))

/-! ## Steps that leave the last change unsaved -/

/-- A thread that has written a result can move the task on and come to its save, unless it was
going for SUCCEEDED, where the `except` clause saves. -/
def moves (i : ι) (t : TaskId) (target : TaskStatus) (s : Shared ι) : Bool :=
  !s.wrote i || target == .succeeded || (s.world.status t).canTransitionTo target

/-- A `cancel` that has read RUNNING as `previous` and leaves the save to the active `execute` moves
a task that is still RUNNING, for an `execute` that will come back. -/
def leaves (i : ι) (t : TaskId) (target : TaskStatus) (s : Shared ι) : Bool :=
  s.wrote i || target != .cancelled || (s.reads i)[1]? != some .running ||
    !(s.world.status t).canTransitionTo target ||
    (s.world.status t == .running && s.runner.isSome && s.answering)

/-- A snapshot is not committed after a newer one, unless it changes nothing. -/
def newest (t : TaskId) (snapshot : Task) (s : Shared ι) : Bool :=
  s.holder.isSome || s.world.stored t == some snapshot

/-- The step does not leave the last change of the task without a save after it. -/
def timely (i : ι) : Op → Shared ι → Bool
  | .task (.transition t target _), s => moves i t target s && leaves i t target s
  | .commit t snapshot, s => newest t snapshot s
  | _, _ => true

def Timely (i : ι) (o : Op) (s : Shared ι) : Prop := timely i o s = true

instance (i : ι) (o : Op) (s : Shared ι) : Decidable (Timely i o s) :=
  inferInstanceAs (Decidable (_ = _))

end Machine

end Autosave

end Sqlite

end TTasks
