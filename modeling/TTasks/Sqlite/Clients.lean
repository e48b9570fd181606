import TTasks.Sqlite.Object
import TTasks.Interleave.Threads

/-!
# Clients of a store beside an executor

`SQLiteTaskCollection.cancel` while executor threads work on the live task and save it to the same
store. Each connection block is one step: the read of `cancel`, its write, and each auto-save.
Between its two blocks a client holds a snapshot of its own; what the last read gave it is kept as a
note beside the `World`.

A snapshot here is the executor's view of the stored object (`TaskObject.toTask`).
-/

namespace TTasks

/-- `Task.cancel`, on a task object that nobody else has. -/
def Task.cancel (task : Task) : Task :=
  if task.status.isSink then task else task.enter .cancelled task.error

/-- The snapshot a store keeps. -/
def Task.dropRaw (task : Task) : Task :=
  { task with result := task.result.map fun r => { r with raw := none } }

/-- A stored task has its status. -/
@[simp] theorem Task.dropRaw_status (task : Task) : task.dropRaw.status = task.status := rfl

/-- A stored task has a result if the task has one. -/
@[simp] theorem Task.dropRaw_result_isSome (task : Task) :
    task.dropRaw.result.isSome = task.result.isSome := Option.isSome_map

namespace Sqlite

/-- The stored object of a task is that of the stored task. -/
theorem TaskObject.toTask_dropRaw {D : Type} (t : TaskObject D) :
    t.dropRaw.toTask = t.toTask.dropRaw := by
  have result : t.dropRaw.toTask.result = t.toTask.dropRaw.result := by
    change (t.result.map TimedResult.dropRaw).map TimedResult.toTaskResult =
      (t.result.map TimedResult.toTaskResult).map fun r => { r with raw := none }
    cases t.result <;> rfl
  change { t.toTask with result := t.dropRaw.toTask.result } = _
  rw [result]
  rfl

/-- The collection's `Task.cancel` on the executor's view. -/
theorem TaskObject.toTask_cancel {D : Type} (t : TaskObject D) :
    t.cancel.toTask = t.toTask.cancel := by
  unfold TaskObject.cancel Task.cancel
  change _ = if t.status.isSink = true then _ else _
  split <;> rfl

namespace Clients

open Interleave

/-- The operations: an executor's, and the two blocks of a client. -/
inductive Op
  | task (o : TaskOp)
  | read (t : TaskId)
  | write (t : TaskId) (snapshot : Task)

/-- What the operations answer. -/
abbrev Op.Ans : Op → Type
  | .task o => o.Ans
  | .read _ => Option Task
  | .write _ _ => Unit

/-- The threads: any number of executor calls and any number of clients. -/
inductive Who (κ ι : Type)
  | executor (k : κ)
  | client (i : ι)
  deriving DecidableEq

variable {κ ι : Type}

/-- The live task and the rows, and what each client has read. -/
structure Shared (ι : Type) where
  world : World
  /-- What the client's last read found. -/
  found : ι → Option Task := fun _ => none

section Machine

variable [DecidableEq ι] (x : Executor)

/-- One operation of one thread. -/
def sem (who : Who κ ι) : (o : Op) → Shared ι → o.Ans × Shared ι
  | .task o, s => ((o.perform x s.world).1, { s with world := (o.perform x s.world).2 })
  | .read t, s =>
    ((s.world.stored t).map Task.dropRaw,
      match who with
      | .executor _ => s
      | .client i =>
        { s with found := Function.update s.found i ((s.world.stored t).map Task.dropRaw) })
  | .write t snapshot, s => ((), { s with world := s.world.setStored t snapshot })

/-- `SQLiteTaskCollection.cancel`; a `KeyError` for an id that is not stored. -/
def cancel (t : TaskId) : Prog Op.Ans Exc Unit :=
  .act (Op.read t) fun found : Option Task =>
    match found with
    | none => .fail (.exception (quoted t))
    | some snapshot => .act (Op.write t snapshot.cancel) fun _ => .ret ()

/-- The executors and the clients, with what each has still to do. -/
abbrev State (κ ι : Type) := Threads (Who κ ι) Op.Ans Exc Unit (Shared ι)

/-- The executor's calls and the clients' cancels are about to begin. -/
def start (calls : κ → Exec Unit) (t : TaskId) (w : World) : State κ ι where
  shared := { world := w }
  rest
    | .executor k => (calls k).lift Op.task fun _ => id
    | .client _ => cancel t

/-- `new` keeps the success of `old`: its status and a result. -/
def Lasts (old new : Option Task) : Prop :=
  ∀ task ∈ old, task.status = .succeeded →
    ∃ task' ∈ new, task'.status = .succeeded ∧
      (task.result.isSome = true → task'.result.isSome = true)

/-! ## Overtaken writes -/

/-- Since a client read the task, it has been stored SUCCEEDED, or has got its result. -/
def overtaken (stored found : Task) : Bool :=
  stored.status == .succeeded &&
    (found.status != .succeeded || (stored.result.isSome && found.result.isNone))

/-- A client does not write over a success that its own read has not seen. -/
def Current (t : TaskId) (who : Who κ ι) (o : Op) (s : Shared ι) : Prop :=
  match who, o with
  | .client i, .write _ _ =>
    ((s.world.stored t).all fun stored => (s.found i).all fun found => !overtaken stored found) =
      true
  | _, _ => True

instance (t : TaskId) (who : Who κ ι) (o : Op) (s : Shared ι) : Decidable (Current t who o s) :=
  match who, o with
  | .client _, .write _ _ => inferInstanceAs (Decidable (_ = true))
  | .client _, .task _ | .client _, .read _ => isTrue trivial
  | .executor _, .task _ | .executor _, .read _ | .executor _, .write _ _ => isTrue trivial

end Machine

end Clients

end Sqlite

end TTasks
