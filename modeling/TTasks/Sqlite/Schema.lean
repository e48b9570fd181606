import TTasks.Sqlite.Object
import TTasks.Relational.Table

/-!
# The tables of a store

The schema of `_init_schema` with the statements that `_sqlite.py` runs on it: keys and foreign keys
are enforced, deletes cascade, and every value is read back as it was written. A `with` block on a
connection is one transaction: `connect` commits what its statements did, and keeps the database as
it was when one of them, or the code between them, raises.

The table `metadata` is left out here; no statement of a collection uses it.
-/

namespace TTasks.Sqlite

open Relational

/-! ## Rows -/

/-- `tasks`. -/
structure TaskRow where
  id : String
  title : String
  description : String
  payload : String
  type : String
  status : String
  error : Option String
  timeout : Option (WithBot (WithTop ℚ))
  blockedBy : Option String
  createdAt : String
  deriving DecidableEq

/-- `task_results`. -/
structure ResultRow where
  taskId : String
  status : String
  startedAt : String
  finishedAt : String
  duration : ℚ
  output : String
  error : Option String
  returncode : Option Int
  terminationReason : Option TerminationReason
  deriving DecidableEq

/-- `graphs`. -/
structure GraphRow where
  id : String
  title : String
  createdAt : String
  deriving DecidableEq

/-- `graph_tasks`. -/
structure GraphTaskRow where
  graphId : String
  taskId : String
  isFinally : Int
  isOptional : Int
  position : Nat
  deriving DecidableEq

def GraphTaskRow.key (row : GraphTaskRow) : String × String := (row.graphId, row.taskId)

/-- `graph_dependencies`. -/
structure DependencyRow where
  graphId : String
  taskId : String
  dependencyId : String
  position : Nat
  deriving DecidableEq

def DependencyRow.key (row : DependencyRow) : String × String × String :=
  (row.graphId, row.taskId, row.dependencyId)

/-! ## The database -/

structure Database where
  tasks : Table TaskRow.id
  taskResults : Table ResultRow.taskId
  graphs : Table GraphRow.id
  graphTasks : Table GraphTaskRow.key
  graphDependencies : Table DependencyRow.key

/-- The two ways a statement fails. -/
def uniqueFailed (columns : String) : StoreError :=
  .integrityError ("UNIQUE constraint failed: " ++ columns)

def foreignKeyFailed : StoreError := .integrityError "FOREIGN KEY constraint failed"

namespace Database

/-- After `_init_schema` on an empty file. -/
def empty : Database := ⟨.empty, .empty, .empty, .empty, .empty⟩

/-- `INSERT INTO tasks … ON CONFLICT(id) DO UPDATE SET`. -/
def upsertTaskRow (row : TaskRow) (db : Database) : Database :=
  { db with
    tasks := db.tasks.upsert row
      (fun old =>
        { old with
          title := row.title
          description := row.description
          payload := row.payload
          type := row.type
          status := row.status
          error := row.error
          timeout := row.timeout
          blockedBy := row.blockedBy
          createdAt := row.createdAt })
      fun _ => rfl }

/-- `DELETE FROM task_results WHERE task_id = ?`. -/
def deleteResult (id : String) (db : Database) : Database :=
  { db with taskResults := db.taskResults.deleteWhere fun row => row.taskId == id }

/-- `INSERT INTO task_results … ON CONFLICT(task_id) DO UPDATE SET`; a new row refers to its task. -/
def upsertResultRow (row : ResultRow) (db : Database) : Except StoreError Database :=
  if db.taskResults.contains row.taskId || db.tasks.contains row.taskId then
    .ok
      { db with
        taskResults := db.taskResults.upsert row
          (fun old =>
            { old with
              status := row.status
              startedAt := row.startedAt
              finishedAt := row.finishedAt
              duration := row.duration
              output := row.output
              error := row.error
              returncode := row.returncode
              terminationReason := row.terminationReason })
          fun _ => rfl }
  else .error foreignKeyFailed

/-- `DELETE FROM tasks WHERE id = ?` with its cascades, and `cursor.rowcount`. -/
def deleteTask (id : String) (db : Database) : Database × Nat :=
  ({ db with
      tasks := db.tasks.deleteWhere fun row => row.id == id
      taskResults := db.taskResults.deleteWhere fun row => row.taskId == id
      graphTasks := db.graphTasks.deleteWhere fun row => row.taskId == id
      graphDependencies := db.graphDependencies.deleteWhere fun row =>
        row.taskId == id || row.dependencyId == id },
    (db.tasks.rows.filter fun row => row.id == id).length)

/-- `INSERT INTO graphs … ON CONFLICT(id) DO UPDATE SET`. -/
def upsertGraphRow (row : GraphRow) (db : Database) : Database :=
  { db with
    graphs := db.graphs.upsert row
      (fun old => { old with title := row.title, createdAt := row.createdAt })
      fun _ => rfl }

/-- `DELETE FROM graph_dependencies WHERE graph_id = ?`. -/
def deleteDependencies (id : String) (db : Database) : Database :=
  { db with
    graphDependencies := db.graphDependencies.deleteWhere fun row => row.graphId == id }

/-- `DELETE FROM graph_tasks WHERE graph_id = ?`. -/
def deleteGraphTasks (id : String) (db : Database) : Database :=
  { db with graphTasks := db.graphTasks.deleteWhere fun row => row.graphId == id }

/-- `INSERT INTO graph_tasks`. -/
def insertGraphTask (row : GraphTaskRow) (db : Database) : Except StoreError Database :=
  match db.graphTasks.insert row with
  | none => .error (uniqueFailed "graph_tasks.graph_id, graph_tasks.task_id")
  | some graphTasks =>
    if db.graphs.contains row.graphId && db.tasks.contains row.taskId then
      .ok { db with graphTasks }
    else .error foreignKeyFailed

/-- `INSERT INTO graph_dependencies`. -/
def insertDependency (row : DependencyRow) (db : Database) : Except StoreError Database :=
  match db.graphDependencies.insert row with
  | none =>
    .error (uniqueFailed ("graph_dependencies.graph_id, graph_dependencies.task_id, " ++
      "graph_dependencies.dependency_id"))
  | some graphDependencies =>
    if db.graphs.contains row.graphId && db.tasks.contains row.taskId &&
        db.tasks.contains row.dependencyId then
      .ok { db with graphDependencies }
    else .error foreignKeyFailed

/-- `DELETE FROM graphs WHERE id = ?` with its cascades, and `cursor.rowcount`. -/
def deleteGraph (id : String) (db : Database) : Database × Nat :=
  ({ db with
      graphs := db.graphs.deleteWhere fun row => row.id == id
      graphTasks := db.graphTasks.deleteWhere fun row => row.graphId == id
      graphDependencies := db.graphDependencies.deleteWhere fun row => row.graphId == id },
    (db.graphs.rows.filter fun row => row.id == id).length)

end Database

/-- `with connection:`. -/
def connect (block : Database → Except StoreError Database) (db : Database) :
    Except StoreError Unit × Database :=
  match block db with
  | .ok db' => (.ok (), db')
  | .error e => (.error e, db)

/-- A block that raises changes no table. -/
theorem connect_error {block : Database → Except StoreError Database} {db : Database}
    {e : StoreError} (h : block db = .error e) : connect block db = (.error e, db) := by
  rw [connect, h]

theorem connect_ok {block : Database → Except StoreError Database} {db db' : Database}
    (h : block db = .ok db') : connect block db = (.ok (), db') := by
  rw [connect, h]

end TTasks.Sqlite
