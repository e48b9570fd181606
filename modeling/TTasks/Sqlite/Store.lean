import Mathlib.Data.String.Basic
import TTasks.Sqlite.Schema

/-!
# The collections of a `SQLiteStore`

`_sqlite.py`: `SQLiteTaskCollection` and `SQLiteGraphCollection` with the codecs between objects and
rows. A call that writes gives its outcome and the database it leaves; a call that reads leaves the
database as it is. The `TypeError` branches are excluded by the types.
-/

namespace TTasks

/-- `TaskStatus(value)`. -/
def TaskStatus.ofValue? (value : String) : Option TaskStatus :=
  [pending, running, succeeded, failed, cancelled, blocked].find? fun s => s.value == value

/-- `TaskType(value)`. -/
def TaskType.ofValue? (value : String) : Option TaskType :=
  [bash, powershell, prompt, agent].find? fun t => t.value == value

@[simp] theorem TaskStatus.ofValue?_value (s : TaskStatus) : ofValue? s.value = some s := by
  cases s <;> decide

@[simp] theorem TaskType.ofValue?_value (t : TaskType) : ofValue? t.value = some t := by
  cases t <;> decide

namespace Sqlite

variable {D : Type} [DateTime D]

/-! ## Codecs -/

def readStatus (value : String) : Except StoreError TaskStatus :=
  match TaskStatus.ofValue? value with
  | some s => .ok s
  | none => .error (.valueError (quoted value ++ " is not a valid TaskStatus"))

def readType (value : String) : Except StoreError TaskType :=
  match TaskType.ofValue? value with
  | some t => .ok t
  | none => .error (.valueError (quoted value ++ " is not a valid TaskType"))

/-- `datetime.fromisoformat`. -/
def readDate (text : String) : Except StoreError D :=
  match DateTime.fromisoformat text with
  | some d => .ok d
  | none => .error (.valueError ("Invalid isoformat string: " ++ quoted text))

/-- `_task_values`. -/
def taskValues (task : TaskObject D) : TaskRow where
  id := task.id
  title := task.title
  description := task.description
  payload := task.payload
  type := task.type.value
  status := task.status.value
  error := task.error
  timeout := task.timeout
  blockedBy := task.blockedBy
  createdAt := DateTime.isoformat task.createdAt

/-- `_result_values`. -/
def resultValues (result : TimedResult D) : ResultRow where
  taskId := result.taskId
  status := result.status.value
  startedAt := DateTime.isoformat result.startedAt
  finishedAt := DateTime.isoformat result.finishedAt
  duration := result.duration
  output := result.output
  error := result.error
  returncode := result.returncode
  terminationReason := result.terminationReason

/-- `_result_from_row`. -/
def resultFromRow (row : ResultRow) :
    Except StoreError { r : TimedResult D // r.taskId = row.taskId } := do
  let status ← readStatus row.status
  let startedAt ← readDate row.startedAt
  let finishedAt ← readDate row.finishedAt
  .ok ⟨{  taskId := row.taskId
          status
          startedAt
          finishedAt
          duration := row.duration
          output := row.output
          error := row.error
          returncode := row.returncode
          raw := none
          terminationReason := row.terminationReason }, rfl⟩

/-- `_task_from_row`, with the check of the constructor. -/
def taskFromRow (row : TaskRow) (result : Option { r : TimedResult D // r.taskId = row.id }) :
    Except StoreError (TaskObject D) := do
  let type ← readType row.type
  let createdAt ← readDate row.createdAt
  if timeout_pos : ∀ s ∈ row.timeout, 0 < s then
    let status ← readStatus row.status
    .ok { id := row.id
          title := row.title
          payload := row.payload
          type
          description := row.description
          error := row.error
          timeout := row.timeout
          createdAt
          status
          result := result.map (·.1)
          blockedBy := row.blockedBy
          timeout_pos
          result_own := by
            intro r own
            obtain ⟨r', -, rfl⟩ := Option.mem_map.mp own
            exact r'.2 }
  else .error (.valueError "timeout must be greater than 0")

/-- `_upsert_task`. -/
def upsertTask (db : Database) (task : TaskObject D) : Except StoreError Database :=
  let db := db.upsertTaskRow (taskValues task)
  match task.result with
  | none => .ok (db.deleteResult task.id)
  | some result => db.upsertResultRow (resultValues result)

/-! ## `SQLiteTaskCollection` -/

namespace TaskCollection

/-- `store.tasks[task_id] = task`. -/
def setItem (taskId : TaskId) (task : TaskObject D) (db : Database) :
    Except StoreError Unit × Database :=
  if taskId ≠ task.id then (.error (.valueError "task_id must match task.id"), db)
  else connect (fun db => upsertTask db task) db

def save (task : TaskObject D) (db : Database) : Except StoreError Unit × Database :=
  setItem task.id task db

/-- `store.tasks[task_id]`. -/
def getItem (taskId : TaskId) (db : Database) : Except StoreError (TaskObject D) :=
  match found : db.tasks.find? taskId with
  | none => .error (.keyError taskId)
  | some row =>
    match found' : db.taskResults.find? taskId with
    | none => taskFromRow row none
    | some resultRow => do
      let result ← resultFromRow resultRow
      taskFromRow row (some ⟨result.1, by
        rw [result.2, (Relational.Table.find?_eq_some.mp found').2,
          (Relational.Table.find?_eq_some.mp found).2]⟩)

/-- `del store.tasks[task_id]`. -/
def delItem (taskId : TaskId) : Database → Except StoreError Unit × Database :=
  connect fun db =>
    let (db, rowcount) := db.deleteTask taskId
    if rowcount = 0 then .error (.keyError taskId) else .ok db

/-- `iter(store.tasks)`: `SELECT id FROM tasks ORDER BY created_at, id`. -/
def iter (db : Database) : List TaskId :=
  (Relational.orderBy (fun row => toLex (row.createdAt, row.id)) db.tasks.rows).map TaskRow.id

/-- `len(store.tasks)`. -/
def len (db : Database) : Nat := db.tasks.rows.length

/-- `task_id in store.tasks`; a task object stands for its id. -/
def contains (taskId : TaskId) (db : Database) : Bool := db.tasks.contains taskId

/-- `cancel`: a read, `Task.cancel` on the snapshot, and a save. -/
def cancel (D : Type) [DateTime D] (taskId : TaskId) (db : Database) :
    Except StoreError Unit × Database :=
  match getItem (D := D) taskId db with
  | .error e => (.error e, db)
  | .ok task => save task.cancel db

end TaskCollection

/-! ## `SQLiteGraphCollection` -/

namespace GraphCollection

/-- The row of the member at a position. -/
def graphTaskRow (graph : GraphObject D) (member : TaskObject D × Nat) : GraphTaskRow where
  graphId := graph.id
  taskId := member.1.id
  isFinally := (graph.isFinally member.1).toInt
  isOptional := (graph.isOptional member.1).toInt
  position := member.2

/-- The row of the dependency of a task at a position. -/
def dependencyRow (graph : GraphObject D) (task : TaskObject D) (dep : TaskObject D × Nat) :
    DependencyRow where
  graphId := graph.id
  taskId := task.id
  dependencyId := dep.1.id
  position := dep.2

/-- `INSERT INTO graph_dependencies` for each dependency of one task. -/
def insertDependencies (graph : GraphObject D) (db : Database) (task : TaskObject D) :
    Except StoreError Database := do
  let deps ← graph.dependencies task
  deps.zipIdx.foldlM (fun db dep => db.insertDependency (dependencyRow graph task dep)) db

/-- The statements of `store.graphs[graph_id] = graph`. -/
def write (graph : GraphObject D) (db : Database) : Except StoreError Database := do
  let db ← graph.members.foldlM upsertTask db
  let db := db.upsertGraphRow ⟨graph.id, graph.title, DateTime.isoformat graph.createdAt⟩
  let db := db.deleteDependencies graph.id
  let db := db.deleteGraphTasks graph.id
  let db ← graph.members.zipIdx.foldlM
    (fun db member => db.insertGraphTask (graphTaskRow graph member)) db
  graph.members.foldlM (insertDependencies graph) db

/-- `store.graphs[graph_id] = graph`. -/
def setItem (graphId : String) (graph : GraphObject D) (db : Database) :
    Except StoreError Unit × Database :=
  if graphId ≠ graph.id then (.error (.valueError "graph_id must match graph.id"), db)
  else connect (write graph) db

def save (graph : GraphObject D) (db : Database) : Except StoreError Unit × Database :=
  setItem graph.id graph db

/-- `deps_by_task`: a list for every member, and each dependency row appended to its task's. -/
def depsByTask (taskRows : List GraphTaskRow) (dependencyRows : List DependencyRow) :
    Except StoreError (TaskId → Option (List TaskId)) :=
  dependencyRows.foldlM
    (fun deps row =>
      match deps row.taskId with
      | none => .error (.keyError row.taskId)
      | some ds =>
        .ok fun t => if t = row.taskId then some (ds ++ [row.dependencyId]) else deps t)
    fun t => if t ∈ taskRows.map GraphTaskRow.taskId then some [] else none

/-- `deps_by_task[task_id]`. -/
def depsOf (deps : TaskId → Option (List TaskId)) (t : TaskId) : Except StoreError (List TaskId) :=
  match deps t with
  | none => .error (.keyError t)
  | some ids => .ok ids

/-- One round of the loop that rebuilds the graph. -/
def addRow (db : Database) (deps : TaskId → Option (List TaskId)) (graph : GraphObject D)
    (row : GraphTaskRow) : Except StoreError (GraphObject D) := do
  let task ← TaskCollection.getItem row.taskId db
  let ids ← depsOf deps row.taskId
  let after ← ids.mapM fun d => TaskCollection.getItem d db
  if row.isFinally ≠ 0 then graph.add task after true (row.isOptional = 0)
  else graph.add task after

/-- `store.graphs[graph_id]`. -/
def getItem (graphId : String) (db : Database) : Except StoreError (GraphObject D) :=
  match db.graphs.find? graphId with
  | none => .error (.keyError graphId)
  | some graphRow => do
    let taskRows := Relational.orderBy (fun row => toLex (row.position, row.taskId))
      (db.graphTasks.rows.filter fun row => row.graphId == graphId)
    let dependencyRows := Relational.orderBy
      (fun row => toLex (row.taskId, toLex (row.position, row.dependencyId)))
      (db.graphDependencies.rows.filter fun row => row.graphId == graphId)
    let createdAt ← readDate graphRow.createdAt
    let deps ← depsByTask taskRows dependencyRows
    taskRows.foldlM (addRow db deps) (.new graphRow.id graphRow.title createdAt)

/-- `del store.graphs[graph_id]`. -/
def delItem (graphId : String) : Database → Except StoreError Unit × Database :=
  connect fun db =>
    let (db, rowcount) := db.deleteGraph graphId
    if rowcount = 0 then .error (.keyError graphId) else .ok db

/-- `iter(store.graphs)`: `SELECT id FROM graphs ORDER BY created_at, id`. -/
def iter (db : Database) : List String :=
  (Relational.orderBy (fun row => toLex (row.createdAt, row.id)) db.graphs.rows).map GraphRow.id

end GraphCollection

end Sqlite

end TTasks
