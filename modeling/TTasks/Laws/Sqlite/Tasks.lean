import TTasks.Sqlite.Store

/-!
# The task collection is a map

`Saves` and `Deletes` say which rows the two writing statements change. From them a stored task
reads back as the object that was saved, whatever version of it was there before, and the collection
behaves as a map from ids to snapshots over every session.
-/

namespace TTasks.Sqlite

open Relational

variable {D : Type} [DateTime D]

/-! ## Reading what was written -/

/-- A status is read back from the text it is stored as. -/
@[simp] theorem readStatus_value (s : TaskStatus) : readStatus s.value = .ok s := by
  simp [readStatus]

/-- A type is read back from the text it is stored as. -/
@[simp] theorem readType_value (t : TaskType) : readType t.value = .ok t := by
  simp [readType]

/-- A time is read back from the text it is stored as. -/
@[simp] theorem readDate_isoformat (d : D) : readDate (DateTime.isoformat d) = .ok d := by
  simp [readDate, DateTime.fromisoformat_isoformat]

/-- A result is read back without its raw value. -/
theorem resultFromRow_values (r : TimedResult D) :
    resultFromRow (resultValues r) = .ok ⟨r.dropRaw, rfl⟩ := by
  simp only [resultFromRow, resultValues, readStatus_value, readDate_isoformat]
  rfl

/-- A task is read back with the result it is given. -/
theorem taskFromRow_values (task : TaskObject D)
    (result : Option { r : TimedResult D // r.taskId = (taskValues task).id })
    (same : result.map (·.1) = task.result.map TimedResult.dropRaw) :
    taskFromRow (taskValues task) result = .ok task.dropRaw := by
  have type : readType (taskValues task).type = .ok task.type := readType_value _
  have date : readDate (taskValues task).createdAt = .ok task.createdAt := readDate_isoformat _
  have status : readStatus (taskValues task).status = .ok task.status := readStatus_value _
  have positive : ∀ s ∈ (taskValues task).timeout, 0 < s := task.timeout_pos
  simp only [taskFromRow, type, date, status, bind, Except.bind]
  rw [dif_pos positive]
  congr 1
  ext1 <;> try rfl
  exact same

/-- An id without a row cannot be read. -/
theorem getItem_of_none {id : TaskId} {db : Database} (none : db.tasks.find? id = none) :
    TaskCollection.getItem (D := D) id db = .error (.keyError id) := by
  unfold TaskCollection.getItem
  split
  · rfl
  · rename_i found
    rw [none] at found
    cases found

/-- A task without a result row is read with none. -/
theorem getItem_of_row {id : TaskId} {db : Database} {row : TaskRow}
    (task : db.tasks.find? id = some row) (result : db.taskResults.find? id = none) :
    TaskCollection.getItem (D := D) id db = taskFromRow row none := by
  unfold TaskCollection.getItem
  split
  · rename_i found
    rw [task] at found
    cases found
  · rename_i row' found
    rw [task] at found
    cases found
    split
    · rfl
    · rename_i found
      rw [result] at found
      cases found

/-- A task with a result row is read with both. -/
theorem getItem_of_rows {id : TaskId} {db : Database} {row : TaskRow} {resultRow : ResultRow}
    (task : db.tasks.find? id = some row) (result : db.taskResults.find? id = some resultRow)
    (own : resultRow.taskId = row.id) :
    TaskCollection.getItem (D := D) id db = (resultFromRow resultRow).bind fun r =>
      taskFromRow row (some ⟨r.1, r.2.trans own⟩) := by
  unfold TaskCollection.getItem
  split
  · rename_i found
    rw [task] at found
    cases found
  · rename_i row' found
    rw [task] at found
    cases found
    split
    · rename_i found
      rw [result] at found
      cases found
    · rename_i resultRow' found
      rw [result] at found
      cases found
      rfl

/-- The task that is read has the row's id. -/
theorem taskFromRow_id {row : TaskRow} {result : Option { r : TimedResult D // r.taskId = row.id }}
    {task : TaskObject D} (h : taskFromRow row result = .ok task) : task.id = row.id := by
  unfold taskFromRow at h
  obtain ⟨type, -, h⟩ := bind_ok h
  obtain ⟨createdAt, -, h⟩ := bind_ok h
  split at h
  · obtain ⟨status, -, h⟩ := bind_ok h
    cases h
    rfl
  · cases h

/-- What is read under an id has that id. -/
theorem getItem_id {id : TaskId} {db : Database} {task : TaskObject D}
    (h : TaskCollection.getItem id db = .ok task) : task.id = id := by
  unfold TaskCollection.getItem at h
  split at h
  · cases h
  · rename_i row found
    have keyed : row.id = id := (Table.find?_eq_some.mp found).2
    split at h
    · exact (taskFromRow_id h).trans keyed
    · obtain ⟨result, -, h⟩ := bind_ok h
      exact (taskFromRow_id h).trans keyed

/-- Reading an id looks at its rows only. -/
theorem getItem_congr {id : TaskId} {db db' : Database}
    (tasks : db'.tasks.find? id = db.tasks.find? id)
    (results : db'.taskResults.find? id = db.taskResults.find? id) :
    TaskCollection.getItem (D := D) id db' = TaskCollection.getItem id db := by
  cases task : db.tasks.find? id with
  | none => rw [getItem_of_none task, getItem_of_none (tasks.trans task)]
  | some row =>
    cases result : db.taskResults.find? id with
    | none => rw [getItem_of_row task result, getItem_of_row (tasks.trans task) (results.trans result)]
    | some resultRow =>
      have own : resultRow.taskId = row.id :=
        (Table.find?_eq_some.mp result).2.trans (Table.find?_eq_some.mp task).2.symm
      rw [getItem_of_rows task result own,
        getItem_of_rows (tasks.trans task) (results.trans result) own]

/-- The rows under an id are those of `task`. -/
structure Stored (task : TaskObject D) (db : Database) : Prop where
  taskRow : db.tasks.find? task.id = some (taskValues task)
  resultRow : db.taskResults.find? task.id = task.result.map resultValues

/-- The raw value is not among the rows. -/
theorem Stored.dropRaw {task : TaskObject D} {db : Database} (h : Stored task db) :
    Stored task.dropRaw db := by
  refine ⟨h.taskRow, ?_⟩
  rw [TaskObject.dropRaw_id, h.resultRow]
  change _ = (task.result.map TimedResult.dropRaw).map resultValues
  cases task.result <;> rfl

/-- A stored task reads as its snapshot. -/
theorem Stored.getItem {task : TaskObject D} {db : Database} (h : Stored task db) :
    TaskCollection.getItem task.id db = .ok task.dropRaw := by
  have resultRow := h.resultRow
  cases own : task.result with
  | none =>
    rw [own, Option.map_none] at resultRow
    rw [getItem_of_row h.taskRow resultRow]
    apply taskFromRow_values
    rw [own]
    rfl
  | some result =>
    rw [own, Option.map_some] at resultRow
    rw [getItem_of_rows h.taskRow resultRow (task.result_own result own), resultFromRow_values]
    apply taskFromRow_values
    rw [own]
    rfl

/-! ## What the statements write -/

/-- Saving `task` writes its rows and touches nothing else. -/
structure Saves (task : TaskObject D) (db db' : Database) : Prop where
  tasks : ∀ k, db'.tasks.find? k =
    if k = task.id then some (taskValues task) else db.tasks.find? k
  taskResults : ∀ k, db'.taskResults.find? k =
    if k = task.id then task.result.map resultValues else db.taskResults.find? k
  graphs : db'.graphs = db.graphs
  graphTasks : db'.graphTasks = db.graphTasks
  graphDependencies : db'.graphDependencies = db.graphDependencies

omit [DateTime D] in
/-- `INSERT .. ON CONFLICT DO UPDATE` of a task row is seen at its own id only. -/
theorem find?_upsertTaskRow (row : TaskRow) (db : Database) (k : String) :
    (db.upsertTaskRow row).tasks.find? k = if k = row.id then some row else db.tasks.find? k := by
  unfold Database.upsertTaskRow
  rw [Table.find?_upsert]
  split
  · rename_i here
    cases found : db.tasks.find? k with
    | none => rfl
    | some old =>
      -- every column but the id is among those the update sets
      have id : old.id = row.id := (Table.find?_eq_some.mp found).2.trans here
      rw [Option.elim_some, id]
  · rfl

/-- The same for a result row, where the update leaves the row's key and sets it to the new result.
-/
theorem find?_upsertResult (result : TimedResult D) (table : Table ResultRow.taskId)
    (update : ResultRow → ResultRow) (same : ∀ old, (update old).taskId = old.taskId)
    (sets : ∀ old, old.taskId = result.taskId → update old = resultValues result) (k : String) :
    (table.upsert (resultValues result) update same).find? k =
      if k = result.taskId then some (resultValues result) else table.find? k := by
  rw [Table.find?_upsert]
  change (if k = result.taskId then _ else _) = _
  split
  · rename_i here
    cases found : table.find? k with
    | none => rfl
    | some old =>
      rw [Option.elim_some, sets old ((Table.find?_eq_some.mp found).2.trans here)]
  · rfl

/-- A deletion by key is seen at that key only. -/
theorem find?_deleteBy {ρ : Type} {key : ρ → String} (table : Table key) (id k : String) :
    (table.deleteWhere fun row => key row == id).find? k =
      if k = id then none else table.find? k := by
  rw [Table.find?_deleteWhere]
  cases found : table.find? k with
  | none => split <;> rfl
  | some row =>
    have keyed := (Table.find?_eq_some.mp found).2
    by_cases here : k = id
    · rw [if_pos here, Option.filter_some_neg (by simp [keyed, here])]
    · rw [if_neg here, Option.filter_some_pos (by simp [keyed, here])]

/-- `_upsert_task` succeeds, whatever is stored. -/
theorem upsertTask_saves (task : TaskObject D) (db : Database) :
    ∃ db', upsertTask db task = .ok db' ∧ Saves task db db' := by
  have rows : ∀ k, (db.upsertTaskRow (taskValues task)).tasks.find? k =
      if k = task.id then some (taskValues task) else db.tasks.find? k :=
    find?_upsertTaskRow (taskValues task) db
  cases own : task.result with
  | none =>
    have ok : upsertTask db task =
        .ok ((db.upsertTaskRow (taskValues task)).deleteResult task.id) := by
      rw [upsertTask, own]
    refine ⟨_, ok, rows, fun k => ?_, rfl, rfl, rfl⟩
    rw [own, Option.map_none]
    exact find?_deleteBy db.taskResults task.id k
  | some result =>
    have id : result.taskId = task.id := task.result_own result own
    -- the row of the task is there by now, so the foreign key holds
    have parent : (db.upsertTaskRow (taskValues task)).tasks.contains result.taskId = true := by
      rw [Table.contains_eq_isSome, rows, if_pos id]
      rfl
    have accepted : ((db.upsertTaskRow (taskValues task)).taskResults.contains result.taskId ||
        (db.upsertTaskRow (taskValues task)).tasks.contains result.taskId) = true := by
      rw [parent, Bool.or_true]
    unfold upsertTask
    rw [own]
    change ∃ db', Database.upsertResultRow (resultValues result) _ = .ok db' ∧ _
    refine ⟨_, if_pos accepted, rows, fun k => ?_, rfl, rfl, rfl⟩
    rw [own, Option.map_some, ← id]
    refine find?_upsertResult result db.taskResults _ (by intro; rfl) ?_ k
    intro old same
    rw [same]
    rfl

/-- After a save the task is stored, and other ids read as before. -/
theorem Saves.stored {task : TaskObject D} {db db' : Database} (h : Saves task db db') :
    Stored task db' :=
  ⟨by rw [h.tasks, if_pos rfl], by rw [h.taskResults, if_pos rfl]⟩

/-- Saving one task leaves what is stored of another. -/
theorem Saves.stored_other {task other : TaskObject D} {db db' : Database} (h : Saves task db db')
    (ne : other.id ≠ task.id) (stored : Stored other db) : Stored other db' :=
  ⟨by rw [h.tasks, if_neg ne, stored.taskRow], by rw [h.taskResults, if_neg ne, stored.resultRow]⟩

/-- Saving one task leaves what is read of another. -/
theorem Saves.getItem_other {task : TaskObject D} {db db' : Database} (h : Saves task db db')
    {id : TaskId} (ne : id ≠ task.id) :
    TaskCollection.getItem (D := D) id db' = TaskCollection.getItem id db :=
  getItem_congr (by rw [h.tasks, if_neg ne]) (by rw [h.taskResults, if_neg ne])

/-- Deleting a task takes its rows, its memberships and the edges at it. -/
structure Deletes (id : TaskId) (db db' : Database) : Prop where
  tasks : ∀ k, db'.tasks.find? k = if k = id then none else db.tasks.find? k
  taskResults : ∀ k, db'.taskResults.find? k = if k = id then none else db.taskResults.find? k
  graphs : db'.graphs = db.graphs
  graphTasks : db'.graphTasks.rows = db.graphTasks.rows.filter fun row => !(row.taskId == id)
  graphDependencies : db'.graphDependencies.rows =
    db.graphDependencies.rows.filter fun row => !(row.taskId == id || row.dependencyId == id)

/-- `DELETE` of a task takes its row and its result. -/
theorem deleteTask_deletes (id : TaskId) (db : Database) : Deletes id db (db.deleteTask id).1 where
  tasks := find?_deleteBy db.tasks id
  taskResults := find?_deleteBy db.taskResults id
  graphs := rfl
  graphTasks := rfl
  graphDependencies := rfl

/-- Deleting one task leaves what is read of another. -/
theorem Deletes.getItem_other {id other : TaskId} {db db' : Database} (h : Deletes id db db')
    (ne : other ≠ id) : TaskCollection.getItem (D := D) other db' = TaskCollection.getItem other db :=
  getItem_congr (by rw [h.tasks, if_neg ne]) (by rw [h.taskResults, if_neg ne])

/-- The row count of a delete by key tells whether the key was there. -/
theorem rowcount_eq_zero {ρ : Type} {key : ρ → String} (table : Table key) (id : String) :
    (table.rows.filter fun row => key row == id).length = 0 ↔ table.find? id = none := by
  rw [List.length_eq_zero_iff, List.filter_eq_nil_iff, Table.find?_eq_none, List.mem_map]
  simp

/-! ## Sessions with the collection -/

/-- The calls that write. -/
inductive TaskCall (D : Type)
  | save (task : TaskObject D)
  | setItem (taskId : TaskId) (task : TaskObject D)
  | delItem (taskId : TaskId)
  | cancel (taskId : TaskId)

namespace TaskCall

/-- The id a call is about; a `setItem` under another id than the task's is about none. -/
def About (c : TaskCall D) (id : TaskId) : Prop :=
  match c with
  | save task => id = task.id
  | setItem taskId task => id = taskId ∧ taskId = task.id
  | delItem taskId | cancel taskId => id = taskId

/-- The call on the store. -/
def run (c : TaskCall D) (db : Database) : Except StoreError Unit × Database :=
  match c with
  | save task => TaskCollection.save task db
  | setItem taskId task => TaskCollection.setItem taskId task db
  | delItem taskId => TaskCollection.delItem taskId db
  | cancel taskId => TaskCollection.cancel D taskId db

/-- What the call is for: a map from ids to snapshots, where a save keeps the task's snapshot and
`cancel` saves the stored snapshot after `Task.cancel`. -/
def meaning (c : TaskCall D) (m : TaskId → Option (TaskObject D)) :
    Except StoreError Unit × (TaskId → Option (TaskObject D)) :=
  match c with
  | save task => (.ok (), Function.update m task.id (some task.dropRaw))
  | setItem taskId task =>
    if taskId = task.id then (.ok (), Function.update m task.id (some task.dropRaw))
    else (.error (.valueError "task_id must match task.id"), m)
  | delItem taskId =>
    match m taskId with
    | none => (.error (.keyError taskId), m)
    | some _ => (.ok (), Function.update m taskId none)
  | cancel taskId =>
    match m taskId with
    | none => (.error (.keyError taskId), m)
    | some snapshot => (.ok (), Function.update m taskId (some snapshot.cancel))

end TaskCall

/-- The rows under an id are those of a snapshot, or there are none. -/
def HoldsAt (db : Database) (id : TaskId) : Option (TaskObject D) → Prop
  | none => db.tasks.find? id = none
  | some snapshot => snapshot.id = id ∧ snapshot.dropRaw = snapshot ∧ Stored snapshot db

/-- Holding no task is having no row of that id. -/
@[simp] theorem holdsAt_none {db : Database} {id : TaskId} :
    HoldsAt db id (none : Option (TaskObject D)) ↔ db.tasks.find? id = none := Iff.rfl

/-- The tables hold the snapshots of a map. -/
def Holds (db : Database) (m : TaskId → Option (TaskObject D)) : Prop := ∀ id, HoldsAt db id (m id)

namespace Holds

variable {db db' : Database} {m : TaskId → Option (TaskObject D)}

/-- The empty database holds nothing. -/
theorem empty : Holds Database.empty fun _ => (none : Option (TaskObject D)) := fun _ => rfl

/-- Reading an id is reading the map. -/
theorem getItem (h : Holds db m) (id : TaskId) : TaskCollection.getItem id db =
    match m id with
    | none => .error (.keyError id)
    | some snapshot => .ok snapshot := by
  have here := h id
  cases at_ : m id with
  | none =>
    rw [at_] at here
    exact getItem_of_none here
  | some snapshot =>
    rw [at_] at here
    obtain ⟨rfl, kept, stored⟩ := here
    rw [stored.getItem, kept]

/-- There is a row exactly for the tasks that are held. -/
theorem find?_isSome (h : Holds db m) (id : TaskId) :
    (db.tasks.find? id).isSome = (m id).isSome := by
  have here := h id
  cases at_ : m id with
  | none =>
    rw [at_] at here
    exact congrArg Option.isSome here
  | some snapshot =>
    rw [at_] at here
    obtain ⟨rfl, -, stored⟩ := here
    rw [stored.taskRow]
    rfl

/-- A save is an update of the map. -/
theorem saves {task : TaskObject D} (h : Holds db m) (saves : Saves task db db') :
    Holds db' (Function.update m task.id (some task.dropRaw)) := by
  intro id
  by_cases same : id = task.id
  · subst same
    rw [Function.update_self]
    exact ⟨rfl, task.dropRaw_dropRaw, saves.stored.dropRaw⟩
  · rw [Function.update_of_ne same]
    have old := h id
    cases at_ : m id with
    | none =>
      rw [at_] at old
      rw [holdsAt_none, saves.tasks, if_neg same]
      exact old
    | some other =>
      rw [at_] at old
      obtain ⟨rfl, kept, stored⟩ := old
      exact ⟨rfl, kept, saves.stored_other same stored⟩

/-- A delete is an update of the map. -/
theorem deletes {id : TaskId} (h : Holds db m) (deletes : Deletes id db db') :
    Holds db' (Function.update m id none) := by
  intro k
  by_cases same : k = id
  · subst same
    rw [Function.update_self, holdsAt_none, deletes.tasks, if_pos rfl]
  · rw [Function.update_of_ne same]
    have old := h k
    cases at_ : m k with
    | none =>
      rw [at_] at old
      rw [holdsAt_none, deletes.tasks, if_neg same]
      exact old
    | some other =>
      rw [at_] at old
      obtain ⟨rfl, kept, stored⟩ := old
      refine ⟨rfl, kept, ?_, ?_⟩
      · rw [deletes.tasks, if_neg same, stored.taskRow]
      · rw [deletes.taskResults, if_neg same, stored.resultRow]

end Holds

/-- Saving a task returns, and leaves it stored. -/
theorem save_saves (task : TaskObject D) (db : Database) :
    ∃ db', TaskCollection.save task db = (.ok (), db') ∧ Saves task db db' := by
  obtain ⟨db', ok, saves⟩ := upsertTask_saves task db
  refine ⟨db', ?_, saves⟩
  rw [TaskCollection.save, TaskCollection.setItem, if_neg (by simp)]
  exact connect_ok ok

/-- Deleting is refused for an id without a row, and otherwise goes through. -/
theorem delItem_eq (id : TaskId) (db : Database) : TaskCollection.delItem id db =
    if db.tasks.find? id = none then (.error (.keyError id), db)
    else (.ok (), (db.deleteTask id).1) := by
  have count : (db.deleteTask id).2 = 0 ↔ db.tasks.find? id = none := rowcount_eq_zero db.tasks id
  unfold TaskCollection.delItem
  split
  · rename_i none
    exact connect_error (if_pos (count.mpr none))
  · rename_i some
    exact connect_ok (if_neg fun zero => some (count.mp zero))

/-- One call does to the tables what its meaning does to the map. -/
theorem TaskCall.run_simulates (c : TaskCall D) (db : Database) (m : TaskId → Option (TaskObject D))
    (h : Holds db m) : (c.run db).1 = (c.meaning m).1 ∧ Holds (c.run db).2 (c.meaning m).2 := by
  cases c with
  | save task =>
    obtain ⟨db', ok, saves⟩ := save_saves task db
    rw [run, ok]
    exact ⟨rfl, h.saves saves⟩
  -- `tasks[id] = task` compares the two ids before anything else
  | setItem taskId task =>
    unfold run meaning
    by_cases same : taskId = task.id
    · subst same
      obtain ⟨db', ok, saves⟩ := save_saves task db
      change (TaskCollection.save task db).1 = _ ∧ Holds (TaskCollection.save task db).2 _
      rw [ok]
      dsimp only
      rw [if_pos rfl]
      exact ⟨rfl, h.saves saves⟩
    · dsimp only
      rw [if_neg same, TaskCollection.setItem, if_pos same]
      exact ⟨rfl, h⟩
  -- a deletion is refused for an id that has no row
  | delItem taskId =>
    have here := h taskId
    unfold run meaning
    dsimp only
    rw [delItem_eq]
    cases at_ : m taskId with
    | none =>
      rw [at_, holdsAt_none] at here
      rw [if_pos here]
      exact ⟨rfl, h⟩
    | some snapshot =>
      rw [at_] at here
      obtain ⟨rfl, -, stored⟩ := here
      rw [if_neg (by rw [stored.taskRow]; simp)]
      exact ⟨rfl, h.deletes (deleteTask_deletes _ db)⟩
  -- `cancel` loads the task, cancels it and saves it again
  | cancel taskId =>
    have here := h taskId
    have reads := h.getItem taskId
    unfold run meaning
    dsimp only
    rw [TaskCollection.cancel, reads]
    cases at_ : m taskId with
    | none => exact ⟨rfl, h⟩
    | some snapshot =>
      rw [at_] at here
      obtain ⟨rfl, kept, -⟩ := here
      obtain ⟨db', ok, saves⟩ := save_saves snapshot.cancel db
      dsimp only
      rw [ok]
      have saved := h.saves saves
      rw [TaskObject.cancel_id, TaskObject.dropRaw_cancel, kept] at saved
      exact ⟨rfl, saved⟩

omit [DateTime D] in
/-- The meaning of a call changes the map at the id it is about only. -/
theorem TaskCall.meaning_other (c : TaskCall D) (m : TaskId → Option (TaskObject D)) {id : TaskId}
    (other : ¬ c.About id) : (c.meaning m).2 id = m id := by
  cases c with
  | save task => exact Function.update_of_ne other _ _
  | setItem taskId task =>
    unfold meaning
    dsimp only
    split
    · rename_i same
      exact Function.update_of_ne (fun here => other ⟨here.trans same.symm, same⟩) _ _
    · rfl
  | delItem taskId =>
    unfold meaning
    dsimp only
    cases m taskId with
    | none => rfl
    | some _ => exact Function.update_of_ne other _ _
  | cancel taskId =>
    unfold meaning
    dsimp only
    cases m taskId with
    | none => rfl
    | some _ => exact Function.update_of_ne other _ _

/-- The iteration runs over the ids that have a row, each once. -/
theorem iter_perm (db : Database) : (TaskCollection.iter db).Perm (db.tasks.rows.map TaskRow.id) :=
  (orderBy_perm _ _).map _

/-- Over every session from an empty store, the collection has the outcomes of a map from ids to
snapshots and reads as the map does; `len`, membership and iteration are those of its ids. A further
call changes no reading but that of the id it is about. -/
theorem session_refines_map (calls : List (TaskCall D)) :
    let store := session TaskCall.run calls Database.empty
    let map := session TaskCall.meaning calls fun _ => none
    store.1 = map.1 ∧
      (∀ id, TaskCollection.getItem id store.2 =
        match map.2 id with
        | none => .error (.keyError id)
        | some snapshot => .ok snapshot) ∧
      (∀ id, TaskCollection.contains id store.2 = (map.2 id).isSome) ∧
      (∀ id, id ∈ TaskCollection.iter store.2 ↔ (map.2 id).isSome = true) ∧
      (TaskCollection.iter store.2).Nodup ∧
      TaskCollection.len store.2 = (TaskCollection.iter store.2).length ∧
      ∀ (c : TaskCall D) (id : TaskId), ¬ c.About id →
        TaskCollection.getItem (D := D) id (c.run store.2).2 =
          TaskCollection.getItem id store.2 := by
  intro store map
  obtain ⟨outcomes, holds⟩ : store.1 = map.1 ∧ Holds store.2 map.2 :=
    session_simulates TaskCall.run_simulates calls Holds.empty
  refine ⟨outcomes, holds.getItem, fun id => ?_, fun id => ?_, ?_, ?_, fun c id other => ?_⟩
  · rw [TaskCollection.contains, Table.contains_eq_isSome, holds.find?_isSome]
  · rw [(iter_perm store.2).mem_iff, Table.mem_keys_iff, holds.find?_isSome]
  · exact (iter_perm store.2).nodup_iff.mpr store.2.tasks.keys_nodup
  · rw [(iter_perm store.2).length_eq, List.length_map, TaskCollection.len]
  · rw [((c.run_simulates store.2 map.2 holds).2).getItem, holds.getItem, c.meaning_other _ other]

end TTasks.Sqlite
