import TTasks.Relational.Table
import TTasks.Sqlite.Object

/-!
# The in-memory store

`_store.py`: the two collections of an `InMemoryStore`, each a dict of its own from ids to objects.
A dict holds the object itself, so a read gives the object as it is at the time; as long as nothing
changes an object between its save and the read, that is the object that was saved. The `TypeError`
branches are excluded by the types.
-/

namespace TTasks.Memory

open Relational Sqlite

variable {D : Type}

/-! ## `InMemoryTaskCollection` -/

/-- `_tasks`; an object is kept under its own id. -/
abbrev Tasks (D : Type) := Table (TaskObject.id : TaskObject D → TaskId)

namespace TaskCollection

/-- `store.tasks[task_id] = task`. -/
def setItem (taskId : TaskId) (task : TaskObject D) (tasks : Tasks D) :
    Except StoreError Unit × Tasks D :=
  if taskId ≠ task.id then (.error (.valueError "task_id must match task.id"), tasks)
  else (.ok (), tasks.put task)

def save (task : TaskObject D) (tasks : Tasks D) : Except StoreError Unit × Tasks D :=
  setItem task.id task tasks

/-- `del store.tasks[task_id]`. -/
def delItem (taskId : TaskId) (tasks : Tasks D) : Except StoreError Unit × Tasks D :=
  match tasks.find? taskId with
  | none => (.error (.keyError taskId), tasks)
  | some _ => (.ok (), tasks.deleteWhere fun task => task.id == taskId)

/-- `iter(store.tasks)`, in insertion order. -/
def iter (tasks : Tasks D) : List TaskId := tasks.rows.map (·.id)

end TaskCollection

/-! ## `InMemoryGraphCollection` -/

/-- `_graphs`. -/
abbrev Graphs (D : Type) := Table (GraphObject.id : GraphObject D → String)

namespace GraphCollection

/-- `store.graphs[graph_id] = graph`. -/
def setItem (graphId : String) (graph : GraphObject D) (graphs : Graphs D) :
    Except StoreError Unit × Graphs D :=
  if graphId ≠ graph.id then (.error (.valueError "graph_id must match graph.id"), graphs)
  else (.ok (), graphs.put graph)

def save (graph : GraphObject D) (graphs : Graphs D) : Except StoreError Unit × Graphs D :=
  setItem graph.id graph graphs

/-- `store.graphs[graph_id]`. -/
def getItem (graphId : String) (graphs : Graphs D) : Except StoreError (GraphObject D) :=
  match graphs.find? graphId with
  | none => .error (.keyError graphId)
  | some graph => .ok graph

/-- `del store.graphs[graph_id]`. -/
def delItem (graphId : String) (graphs : Graphs D) : Except StoreError Unit × Graphs D :=
  match graphs.find? graphId with
  | none => (.error (.keyError graphId), graphs)
  | some _ => (.ok (), graphs.deleteWhere fun graph => graph.id == graphId)

/-- `iter(store.graphs)`, in insertion order. -/
def iter (graphs : Graphs D) : List String := graphs.rows.map (·.id)

end GraphCollection

/-- `InMemoryStore`. -/
structure InMemoryStore (D : Type) where
  tasks : Tasks D := .empty
  graphs : Graphs D := .empty

end TTasks.Memory
