import Mathlib.Data.List.Intervals
import TTasks.EventBus
import TTasks.GraphRun
import TTasks.Interleave.Raising
import TTasks.Relational.Table
import TTasks.Sequence

/-!
# The observers of an executor

Its store and the subscribers of its bus, beside complete operations issued one after another and
beside a run of a graph. Any save may fail and any subscriber may raise, with whatever exception: the
delivery of an event is an `emit` of the bus, and what comes out of that is raised by the operation.
The subscribers call nothing back.

`World.bare` and `Shared.bare` are what is left of a state without its observers. The steps of a save
(`persisting`) are the save itself, and the record and the announcement of its failure.
-/

namespace TTasks

open Interleave

/-! ## What observers do not own -/

/-- The event announces a failed save. -/
def TaskEvent.isAnnouncement (event : TaskEvent) : Bool := event.type == .persistenceFailed

namespace World

/-- The world without its store: no snapshot, no record and no announcement of a failed save. -/
def bare (w : World) : World where
  tasks := w.tasks
  deliveries := (w.deliveries.filter fun d => !d.event.isAnnouncement).map fun d =>
    { d with stored := none }
  calls := w.calls

/-- The announcements of failed saves: each with the text of its exception. -/
def announcements (w : World) : List (Option String) :=
  (w.deliveries.filter fun d => d.event.isAnnouncement).map fun d => d.event.error

end World

/-- The run without its store. -/
def GraphRun.Shared.bare (s : GraphRun.Shared) : GraphRun.Shared where
  inner := { s.inner with world := s.inner.world.bare }

/-! ## The observers -/

/-- The history of an executor's bus. -/
abbrev Bus (α : Type) := Events.History α TaskEvent

/-- A store or none, the exceptions of its saves of tasks and of graphs where these fail, and the
subscribers. -/
structure Observers (α κ : Type) where
  store : Bool
  saveFails : Nat → Option Exc
  graphSaveFails : Nat → Option Exc
  subscribers : Events.Subscribers α TaskEvent κ

/-- The exceptions of the saves from the `n`-th up to the `m`-th. -/
def failures (fails : Nat → Option Exc) (n m : Nat) : List Exc := (List.Ico n m).filterMap fails

/-- The operation, where the delivery of an event is an `emit`. -/
def publishing {Op σ α κ : Type} {Ans : Op → Type} (S : Events.Subscribers α TaskEvent κ)
    (event? : Op → Option TaskEvent) (sem : (op : Op) → σ → Ans op × σ) (op : Op) (s : σ × Bus α) :
    Except Exc (Ans op) × (σ × Bus α) :=
  match event? op with
  | none => (.ok (sem op s.1).1, (sem op s.1).2, s.2)
  | some event =>
    match Events.emit S event s.2 with
    | (.ok (), bus) => (.ok (sem op s.1).1, (sem op s.1).2, bus)
    | (.error e, bus) => (.error e, (sem op s.1).2, bus)

/-- The event that the operation delivers. -/
def TaskOp.event? : TaskOp → Option TaskEvent
  | .deliver _ event => some event
  | _ => none

/-! ## Operations one after another -/

/-- A complete operation; only `execute` returns a value. -/
def Operation.program (x : Executor) (t : TaskId) : Operation → Exec (Option TaskResult)
  | .execute upstream policy => do
    let result ← TTasks.execute x t upstream policy
    pure (some result)
  | .cancel => do
    TTasks.cancel x t
    pure none
  | .markBlocked parent => do
    TTasks.markBlocked x t parent
    pure none

namespace Observers

variable {α κ : Type} (o : Observers α κ)

/-- The executor with these observers. -/
def watch (x : Executor) : Executor := { x with store := o.store, saveFails := o.saveFails }

/-- A call on a task, with its value or its exception. -/
def request (q : TaskId × Call) (s : World × Bus α) :
    Except Exc (Option TaskResult) × (World × Bus α) :=
  (q.2.operation.program (o.watch q.2.executor) q.1).raising.run
    (publishing o.subscribers TaskOp.event? (TaskOp.perform (o.watch q.2.executor))) s

/-- The calls one after another, whether they return or raise. -/
def requests (calls : List (TaskId × Call)) (s : World × Bus α) :
    List (Except Exc (Option TaskResult)) × (World × Bus α) :=
  Relational.session o.request calls s

end Observers

/-! ## A run of a graph -/

namespace GraphRun

open Scheduler (Who)

namespace Op

def event? : Op → Option TaskEvent
  | .sched (.task op) => op.event?
  | _ => none

/-- Whether the operation can be performed now. -/
def enabled (r : Setup) (s : Shared) : Op → Bool
  | .sched op => op.enabled r.toRun s.inner
  | _ => true

/-- The operation delivers the announcement of a failed save. -/
def announces (op : Op) : Bool := op.event?.any TaskEvent.isAnnouncement

/-- The operation saves, or has to do with a save that failed. -/
def ofSave : Op → Bool
  | .sched (.task (.save _)) | .sched (.task (.recordSaveError _ _)) => true
  | .saveGraph | .recordGraphError _ => true
  | op => op.announces

def isStatusRead : Op → Bool
  | .sched (.task (.status _)) => true
  | _ => false

end Op

/-- The next operation announces a failed save. -/
def announcing {Ans : Op → Type} {ε α : Type} : Prog Ans ε α → Prop
  | .act op _ => op.announces = true
  | _ => False

/-- The next operation is one of a save; the announcement of a failed one reads the status first. -/
def persisting {Ans : Op → Type} {ε α : Type} : Prog Ans ε α → Prop
  | .act op k => op.ofSave = true ∨ op.isStatusRead = true ∧ ∃ x, announcing (k x)
  | _ => False

end GraphRun

namespace Observers

open Scheduler (Who)

variable {α κ : Type} (o : Observers α κ)

/-- A call of `run` on an executor with these observers. -/
def setup (r : GraphRun.Setup) : GraphRun.Setup :=
  { r with executor := o.watch r.executor, graphSaveFails := o.graphSaveFails }

abbrev RunState (α : Type) :=
  Threads Who (fun op : GraphRun.Op => Except Exc op.Ans) Exc Unit (GraphRun.Shared × Bus α)

/-- `run` is about to begin. -/
def start (r : GraphRun.Setup) (s : GraphRun.Shared) (bus : Bus α) : RunState α where
  shared := (s, bus)
  rest who := ((GraphRun.start (o.setup r) s).rest who).raising

/-- One operation of one thread. -/
def sem (r : GraphRun.Setup) (who : Who) (op : GraphRun.Op) (s : GraphRun.Shared × Bus α) :
    Except Exc op.Ans × (GraphRun.Shared × Bus α) :=
  publishing o.subscribers GraphRun.Op.event? (GraphRun.sem (o.setup r) who) op s

/-- A run in which the threads of the schedule take, in this order, the steps that are not part of a
save. -/
def Runs (r : GraphRun.Setup) (schedule : List Who) : RunState α → RunState α → Prop :=
  Threads.Goes (o.sem r) (fun _ op s => op.enabled r s.1 = true) GraphRun.persisting schedule

end Observers

/-! ## What a store notes down -/

/-- Every save of a task that failed has added one entry to `persistence_errors`, and one
announcement. -/
structure Recorded (fails : Nat → Option Exc) (w w' : World) : Prop where
  errors : (w'.persistenceErrors.map Prod.snd).Perm
    (w.persistenceErrors.map Prod.snd ++ failures fails w.saves w'.saves)
  announcements : w'.announcements.Perm
    (w.announcements ++ (failures fails w.saves w'.saves).map fun e => some e.text)

/-- Every save of the graph that failed has added one entry to `graph_persistence_errors`. -/
def GraphRecorded (fails : Nat → Option Exc) (s s' : GraphRun.Shared) : Prop :=
  s'.graphPersistenceErrors.Perm
    (s.graphPersistenceErrors ++ failures fails s.graphSaves s'.graphSaves)

/-- Every subscriber has been called with every event that was delivered, in the order of the
deliveries. -/
def Heard {α : Type} (w w' : World) (bus bus' : Bus α) : Prop :=
  ∃ events, w'.deliveries.map Delivery.event = w.deliveries.map Delivery.event ++ events ∧
    bus'.calls = bus.calls ++ events.flatMap fun event =>
      bus.bus.subscribers.map fun subscriber => (subscriber, event)

end TTasks
