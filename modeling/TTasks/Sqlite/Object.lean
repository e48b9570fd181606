import Mathlib.Algebra.Order.Ring.Rat
import Mathlib.Algebra.Order.Monoid.Unbundled.WithTop
import TTasks.Graph

/-!
# Task and graph objects

`Task` and `TaskGraph` with every field a store writes: the id, the description, the payload, the
timeout and the clock readings beside what the executor's `Task` has, and for a graph its own
references to its member tasks. `TaskObject.toTask` is the executor's view of the same object.
-/

namespace TTasks.Sqlite

/-- `datetime`, as far as a store uses it: the two conversions are inverse. -/
class DateTime (D : Type) where
  isoformat : D → String
  fromisoformat : String → Option D
  fromisoformat_isoformat : ∀ d, fromisoformat (isoformat d) = some d

/-- A `datetime` known by its text. -/
instance : DateTime String where
  isoformat := id
  fromisoformat := some
  fromisoformat_isoformat _ := rfl

/-- The exceptions of the collections. -/
inductive StoreError
  | keyError (key : String)
  | valueError (message : String)
  | integrityError (message : String)
  deriving DecidableEq, Repr

/-- `TaskResult` with its clock readings. -/
@[ext] structure TimedResult (D : Type) extends TaskResult where
  startedAt : D
  finishedAt : D
  duration : ℚ
  deriving DecidableEq

/-- A task object. The constructor refuses a timeout that is not positive; the executor, which
alone attaches results, gives them the task's id. -/
@[ext] structure TaskObject (D : Type) where
  id : TaskId
  title : String
  payload : String
  type : TaskType
  description : String := ""
  error : Option String := none
  /-- Infinity is a positive float. -/
  timeout : Option (WithBot (WithTop ℚ)) := none
  createdAt : D
  status : TaskStatus := .pending
  result : Option (TimedResult D) := none
  blockedBy : Option TaskId := none
  timeout_pos : ∀ s ∈ timeout, 0 < s
  result_own : ∀ r ∈ result, r.taskId = id

variable {D : Type}

namespace TimedResult

/-- `raw=None`. -/
def dropRaw (r : TimedResult D) : TimedResult D := { r with raw := none }

/-- A stored result is of the same task. -/
@[simp] theorem dropRaw_taskId (r : TimedResult D) : r.dropRaw.taskId = r.taskId := rfl

/-- What is stored is stored as it is. -/
@[simp] theorem dropRaw_dropRaw (r : TimedResult D) : r.dropRaw.dropRaw = r.dropRaw := rfl

end TimedResult

namespace TaskObject

/-- What the executor sees of the object. -/
def toTask (t : TaskObject D) : Task where
  title := t.title
  type := t.type
  error := t.error
  status := t.status
  result := t.result.map (·.toTaskResult)
  blockedBy := t.blockedBy

/-- The snapshot a store keeps: the raw value of the result is not written. -/
def dropRaw (t : TaskObject D) : TaskObject D :=
  { t with
    result := t.result.map TimedResult.dropRaw
    result_own := by
      intro r own
      obtain ⟨old, mem, rfl⟩ := Option.mem_map.mp own
      exact t.result_own old mem }

/-- A stored task has its id. -/
@[simp] theorem dropRaw_id (t : TaskObject D) : t.dropRaw.id = t.id := rfl

/-- What is stored is stored as it is. -/
@[simp] theorem dropRaw_dropRaw (t : TaskObject D) : t.dropRaw.dropRaw = t.dropRaw := by
  ext1 <;> try rfl
  change (t.result.map TimedResult.dropRaw).map TimedResult.dropRaw = t.result.map TimedResult.dropRaw
  cases t.result <;> rfl

/-- `Task.cancel`: nothing for a sink, else `transition_to(CANCELLED, error=self.error)`, which
writes the status and the error the task has already. -/
def cancel (t : TaskObject D) : TaskObject D :=
  if t.status.isSink then t else { t with status := .cancelled, error := t.error }

/-- `cancel` leaves the id. -/
@[simp] theorem cancel_id (t : TaskObject D) : t.cancel.id = t.id := by
  unfold cancel
  split <;> rfl

/-- `cancel` and storing may come in either order. -/
theorem dropRaw_cancel (t : TaskObject D) : t.cancel.dropRaw = t.dropRaw.cancel := by
  unfold cancel
  change dropRaw _ = if t.status.isSink = true then _ else _
  split <;> rfl

end TaskObject

/-! ## Graphs -/

/-- A graph object: the topology and the task object of each member. -/
structure GraphObject (D : Type) where
  id : String
  title : String
  createdAt : D
  topology : TaskGraph
  /-- `_tasks`. -/
  tasks : TaskId → Option (TaskObject D)
  tasks_isSome : ∀ t, (tasks t).isSome = true ↔ t ∈ topology.keys
  tasks_id : ∀ t, ∀ task ∈ tasks t, task.id = t
  /-- `required=False` comes with `finally_=True` only. -/
  optional_finally : ∀ t ∈ topology.optionalIds, t ∈ topology.finallyIds

namespace GraphObject

/-- `TaskGraph(title=...)`, with the id and the clock reading it is given. -/
def new (id title : String) (createdAt : D) : GraphObject D where
  id
  title
  createdAt
  topology := .empty
  tasks _ := none
  tasks_isSome := by simp [TaskGraph.keys, TaskGraph.empty]
  tasks_id := by simp
  optional_finally := by simp [TaskGraph.empty]

/-- An accepted `add` keeps the optional tasks among the finally tasks. -/
theorem optional_finally_of_add {g g' : TaskGraph} {t : TaskId} {after : List TaskId}
    {isFinally required : Bool} (added : g.add t after isFinally required = .ok g')
    (old : ∀ u ∈ g.optionalIds, u ∈ g.finallyIds) : ∀ u ∈ g'.optionalIds, u ∈ g'.finallyIds := by
  obtain ⟨-, -, finals, optionals⟩ := TaskGraph.add_ok added
  rw [finals, optionals]
  intro u
  cases isFinally with
  | false =>
    simp only [Bool.false_and, Bool.false_eq_true, if_false, List.mem_filter]
    exact fun h => ⟨old u h.1, h.2⟩
  | true =>
    have kept : u ≠ t → u ∈ g.optionalIds → u ∈ t :: g.finallyIds.erase t := fun other h =>
      List.mem_cons_of_mem _ ((List.mem_erase_of_ne other).mpr (old u h))
    cases required with
    | false =>
      intro h
      rcases List.mem_cons.mp h with rfl | h
      · exact List.mem_cons_self
      · by_cases same : u = t
        · exact same ▸ List.mem_cons_self
        · exact kept same (List.mem_of_mem_erase h)
    | true =>
      intro h
      obtain ⟨h, other⟩ := List.mem_filter.mp h
      exact kept (by simpa using other) h

/-- `add`; `graph[task] = after` is `add` without flags. -/
def add (g : GraphObject D) (task : TaskObject D) (after : List (TaskObject D))
    (isFinally : Bool := false) (required : Bool := true) : Except StoreError (GraphObject D) :=
  match added : g.topology.add task.id (after.map (·.id)) isFinally required with
  | .error e => .error (.valueError e.text)
  | .ok topology =>
    .ok
      { g with
        topology
        tasks := fun u => if u = task.id then some task else g.tasks u
        tasks_isSome := by
          intro u
          rw [TaskGraph.add_keys added, ← g.tasks_isSome u]
          by_cases same : u = task.id
          · simp [same]
          · simp [same]
        tasks_id := by
          intro u member mem
          split at mem
          · rename_i same
            cases mem
            exact same.symm
          · exact g.tasks_id u member mem
        optional_finally := optional_finally_of_add added g.optional_finally }

/-- An `add` that the topology accepts. -/
theorem add_ok {g : GraphObject D} {task : TaskObject D} {after : List (TaskObject D)}
    {isFinally required : Bool} {topology : TaskGraph}
    (added : g.topology.add task.id (after.map (·.id)) isFinally required = .ok topology) :
    ∃ g', g.add task after isFinally required = .ok g' ∧ g'.topology = topology ∧
      g'.tasks = (fun u => if u = task.id then some task else g.tasks u) ∧
      g'.id = g.id ∧ g'.title = g.title ∧ g'.createdAt = g.createdAt := by
  unfold add
  split
  · rename_i refused
    rw [added] at refused
    cases refused
  · rename_i topology' accepted
    rw [added] at accepted
    cases accepted
    exact ⟨_, rfl, rfl, rfl, rfl, rfl, rfl⟩

/-- An `add` that is accepted was accepted by the topology. -/
theorem topology_of_add {g g' : GraphObject D} {task : TaskObject D} {after : List (TaskObject D)}
    {isFinally required : Bool} (added : g.add task after isFinally required = .ok g') :
    g.topology.add task.id (after.map (·.id)) isFinally required = .ok g'.topology ∧
      g'.id = g.id ∧ g'.title = g.title ∧ g'.createdAt = g.createdAt := by
  unfold add at added
  split at added
  · cases added
  · rename_i topology accepted
    cases added
    exact ⟨accepted, rfl, rfl, rfl⟩

/-- `list(graph)`: the members in insertion order. -/
def members (g : GraphObject D) : List (TaskObject D) := g.topology.keys.filterMap g.tasks

/-- `self._tasks[t]`. -/
def task (g : GraphObject D) (t : TaskId) : Except StoreError (TaskObject D) :=
  match g.tasks t with
  | none => .error (.keyError t)
  | some task => .ok task

/-- `dependencies`. -/
def dependencies (g : GraphObject D) (task : TaskObject D) : Except StoreError (List (TaskObject D)) :=
  (g.topology.deps task.id).mapM g.task

/-- The task was added with `finally_=True`. -/
def isFinally (g : GraphObject D) (task : TaskObject D) : Bool := g.topology.isFinally task.id

/-- The task was added with `required=False`. -/
def isOptional (g : GraphObject D) (task : TaskObject D) : Bool := task.id ∈ g.topology.optionalIds

/-- The ids of the members are the keys of the topology, in their order. -/
theorem members_ids (g : GraphObject D) : g.members.map (·.id) = g.topology.keys := by
  have each : ∀ keys : List TaskId, (∀ t ∈ keys, t ∈ g.topology.keys) →
      (keys.filterMap g.tasks).map (·.id) = keys := by
    intro keys
    induction keys with
    | nil => intro _; rfl
    | cons t keys ih =>
      intro sub
      obtain ⟨task, here⟩ := Option.isSome_iff_exists.mp
        ((g.tasks_isSome t).mpr (sub t List.mem_cons_self))
      rw [List.filterMap_cons_some here, List.map_cons, g.tasks_id t task here,
        ih fun u mem => sub u (List.mem_cons_of_mem _ mem)]
  exact each g.topology.keys fun _ mem => mem

end GraphObject

end TTasks.Sqlite
