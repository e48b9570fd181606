import TTasks.Sqlite.Store

/-!
# Live tasks and what is saved of them

A `Task` between its constructor and a save. `__post_init__` looks at the timeout once;
`__setattr__` lets any public attribute be assigned later, the timeout among them, until the task
has SUCCEEDED. A save copies the attributes as they then are, and `_task_from_row` goes through the
constructor again.

The timeout of a live task may be any float, so it is kept beside a `TaskObject`, whose own timeout
is the live one as far as the constructor accepts it.
-/

namespace TTasks.Sqlite

variable {D : Type}

/-! ## Timeouts -/

/-- A Python `float`: NaN, or a number or an infinity. -/
inductive PyFloat
  | nan
  | real (x : WithBot (WithTop ℚ))
  deriving DecidableEq

namespace PyFloat

/-- `x <= 0`, which is false of NaN. -/
def isNonpos : PyFloat → Bool
  | nan => false
  | real x => x ≤ 0

/-- What a REAL column keeps; NaN becomes NULL. -/
def column : PyFloat → Option (WithBot (WithTop ℚ))
  | nan => none
  | real x => some x

end PyFloat

/-- `self.timeout is not None and self.timeout <= 0`. -/
def isRefused (timeout : Option PyFloat) : Bool := timeout.any PyFloat.isNonpos

/-- The column of the timeout, where it is positive. -/
def accepted (timeout : Option PyFloat) : Option (WithBot (WithTop ℚ)) :=
  (timeout.bind PyFloat.column).filter fun s => 0 < s

theorem accepted_pos (timeout : Option PyFloat) : ∀ s ∈ accepted timeout, 0 < s := by
  intro s mem
  obtain ⟨-, positive⟩ := Option.filter_eq_some_iff.mp mem
  exact of_decide_eq_true positive

/-! ## Live tasks -/

structure LiveTask (D : Type) where
  object : TaskObject D
  timeout : Option PyFloat
  object_timeout : object.timeout = accepted timeout

/-- `AttributeError`. -/
structure AttributeError where
  message : String
  deriving DecidableEq, Repr

/-- An assignment to a public attribute. -/
inductive Assignment (D : Type)
  | title (value : String)
  | payload (value : String)
  | type (value : TaskType)
  | description (value : String)
  | error (value : Option String)
  | timeout (value : Option PyFloat)
  | createdAt (value : D)

namespace LiveTask

/-- `Task(...)`, with the check of `__post_init__`. -/
def new (id title payload : String) (type : TaskType) (description : String)
    (error : Option String) (timeout : Option PyFloat) (createdAt : D) :
    Except StoreError (LiveTask D) :=
  if isRefused timeout then .error (.valueError "timeout must be greater than 0")
  else .ok
    { object :=
        { id, title, payload, type, description, error, createdAt
          timeout := accepted timeout
          timeout_pos := accepted_pos timeout
          result_own := by simp }
      timeout
      object_timeout := rfl }

/-- The write of `__setattr__`. -/
def write (task : LiveTask D) : Assignment D → LiveTask D
  | .title v => { task with object := { task.object with title := v } }
  | .payload v => { task with object := { task.object with payload := v } }
  | .type v => { task with object := { task.object with type := v } }
  | .description v => { task with object := { task.object with description := v } }
  | .error v => { task with object := { task.object with error := v } }
  | .createdAt v => { task with object := { task.object with createdAt := v } }
  | .timeout v =>
    { object := { task.object with timeout := accepted v, timeout_pos := accepted_pos v }
      timeout := v
      object_timeout := rfl }

/-- `__setattr__` for a public attribute: no check but that for SUCCEEDED. -/
def assign (task : LiveTask D) (a : Assignment D) : Except AttributeError (LiveTask D) :=
  if task.object.status = .succeeded then .error ⟨"SUCCEEDED tasks are immutable"⟩
  else .ok (task.write a)

/-- `transition_to`. -/
def transitionTo (task : LiveTask D) (status : TaskStatus) (error : Option String) :
    Except StoreError (LiveTask D) :=
  if task.object.status.canTransitionTo status then
    .ok
      { task with
        object :=
          { task.object with
            error := if status = .running ∨ status = .succeeded then none else error
            status
            result := if status = .running then none else task.object.result
            blockedBy := if status = .running then none else task.object.blockedBy
            result_own := by
              intro r own
              split at own
              · cases own
              · exact task.object.result_own r own } }
  else
    .error (.valueError ("Cannot transition task from '" ++ task.object.status.value ++ "' to '" ++
      status.value ++ "'"))

/-- `_set_result`; the executor gives a result the id of its task. -/
def setResult (task : LiveTask D) (r : TimedResult D) (own : r.taskId = task.object.id) : LiveTask D :=
  { task with
    object :=
      { task.object with
        result := some r
        result_own := by
          intro r' same
          cases same
          exact own } }

/-- `_set_blocked_by`. -/
def setBlockedBy (task : LiveTask D) (parent : Option TaskId) : LiveTask D :=
  { task with object := { task.object with blockedBy := parent } }

/-- The constructor, assignments, transitions, and what the executor attaches. -/
inductive Reachable : LiveTask D → Prop
  | new {id title payload : String} {type : TaskType} {description : String} {error : Option String}
      {timeout : Option PyFloat} {createdAt : D} {task : LiveTask D}
      (made : LiveTask.new id title payload type description error timeout createdAt = .ok task) :
      Reachable task
  | assign {task task' : LiveTask D} {a : Assignment D} (old : Reachable task)
      (made : task.assign a = .ok task') : Reachable task'
  | transition {task task' : LiveTask D} {status : TaskStatus} {error : Option String}
      (old : Reachable task) (made : task.transitionTo status error = .ok task') : Reachable task'
  | result {task : LiveTask D} (old : Reachable task) (r : TimedResult D)
      (own : r.taskId = task.object.id) : Reachable (task.setResult r own)
  | blockedBy {task : LiveTask D} (old : Reachable task) (parent : Option TaskId) :
      Reachable (task.setBlockedBy parent)

end LiveTask

/-- A graph of live tasks. -/
structure LiveGraph (D : Type) where
  graph : GraphObject D
  timeouts : TaskId → Option PyFloat
  tasks_timeout : ∀ t, ∀ task ∈ graph.tasks t, task.timeout = accepted (timeouts t)

/-! ## Saving them -/

variable [DateTime D]

/-- `_task_values` of a live task. -/
def liveValues (object : TaskObject D) (timeout : Option PyFloat) : TaskRow :=
  { taskValues object with timeout := timeout.bind PyFloat.column }

/-- `_upsert_task` of a live task. -/
def upsertLive (db : Database) (object : TaskObject D) (timeout : Option PyFloat) :
    Except StoreError Database :=
  let db := db.upsertTaskRow (liveValues object timeout)
  match object.result with
  | none => .ok (db.deleteResult object.id)
  | some result => db.upsertResultRow (resultValues result)

/-- The statements of `store.graphs[graph_id] = graph` for a graph of live tasks. -/
def LiveGraph.write (g : LiveGraph D) (db : Database) : Except StoreError Database := do
  let db ← g.graph.members.foldlM (fun db task => upsertLive db task (g.timeouts task.id)) db
  let db := db.upsertGraphRow ⟨g.graph.id, g.graph.title, DateTime.isoformat g.graph.createdAt⟩
  let db := db.deleteDependencies g.graph.id
  let db := db.deleteGraphTasks g.graph.id
  let db ← g.graph.members.zipIdx.foldlM
    (fun db member => db.insertGraphTask (GraphCollection.graphTaskRow g.graph member)) db
  g.graph.members.foldlM (GraphCollection.insertDependencies g.graph) db

/-- The calls that write. -/
inductive LiveCall (D : Type)
  | saveTask (task : LiveTask D)
  | deleteTask (id : TaskId)
  | saveGraph (g : LiveGraph D)
  | deleteGraph (id : String)

namespace LiveCall

def run (c : LiveCall D) (db : Database) : Except StoreError Unit × Database :=
  match c with
  | saveTask task => connect (fun db => upsertLive db task.object task.timeout) db
  | deleteTask id => TaskCollection.delItem id db
  | saveGraph g => connect g.write db
  | deleteGraph id => GraphCollection.delItem id db

omit [DateTime D] in
/-- The tasks that the call saves, each with its timeout. -/
def saved : LiveCall D → List (TaskId × Option PyFloat)
  | saveTask task => [(task.object.id, task.timeout)]
  | saveGraph g => g.graph.members.map fun task => (task.id, g.timeouts task.id)
  | _ => []

omit [DateTime D] in
/-- Every dependency of a graph to save is a member of it. -/
def Storable : LiveCall D → Prop
  | saveGraph g => ∀ t ∈ g.graph.topology.keys, ∀ d ∈ g.graph.topology.deps t,
    d ∈ g.graph.topology.keys
  | _ => True

omit [DateTime D] in
/-- The constructor would accept the timeout of every task that the call saves. -/
def Loadable (c : LiveCall D) : Prop := ∀ p ∈ c.saved, isRefused p.2 = false

/-- Every task that the call has saved can be read, and so can every stored graph that contains it. -/
def ReadsBack (c : LiveCall D) (db : Database) : Prop :=
  ∀ p ∈ c.saved, (∃ task : TaskObject D, TaskCollection.getItem p.1 (c.run db).2 = .ok task) ∧
    ∀ k ∈ GraphCollection.iter (c.run db).2,
      (∃ row ∈ (c.run db).2.graphTasks.rows, row.graphId = k ∧ row.taskId = p.1) →
        ∃ g : GraphObject D, GraphCollection.getItem k (c.run db).2 = .ok g

end LiveCall

/-- Whatever a history saves can be read at once. -/
def ReadsBackThrough (db : Database) : List (LiveCall D) → Prop
  | [] => True
  | c :: calls => ((c.run db).1 = .ok () → c.ReadsBack db) ∧ ReadsBackThrough (c.run db).2 calls

end TTasks.Sqlite
