import TTasks.Laws.Sqlite.Load

/-!
# A store over a history

What one client's calls make of a store: the last snapshot of each task, and of each graph the last
version with the members whose task has not been deleted since. `Represents` ties this to the
tables. Its heart is that a member that lives has its task row: then every dependency row that is
left names two members of its graph, and no graph fails to load.
-/

namespace TTasks.Sqlite

open Relational

variable {D : Type} [DateTime D]

/-! ## The calls and what they mean -/

/-- The calls that write; the graphs have all their dependencies registered. -/
inductive StoreCall (D : Type)
  | saveTask (task : TaskObject D)
  | deleteTask (id : TaskId)
  | saveGraph (g : GraphObject D) (closed : g.Registered)
  | deleteGraph (id : String)

/-- What a history leaves. -/
structure Contents (D : Type) where
  /-- The last snapshot of each stored task. -/
  tasks : TaskId → Option (TaskObject D)
  /-- Each stored graph as last saved, and which tasks have not been deleted since. -/
  graphs : String → Option (GraphObject D × (TaskId → Bool))

/-- Nothing is stored. -/
def Contents.empty : Contents D := ⟨fun _ => none, fun _ => none⟩

namespace StoreCall

/-- What a call does to the tables. -/
def run (c : StoreCall D) (db : Database) : Except StoreError Unit × Database :=
  match c with
  | saveTask task => TaskCollection.save task db
  | deleteTask id => TaskCollection.delItem id db
  | saveGraph g _ => GraphCollection.save g db
  | deleteGraph id => GraphCollection.delItem id db

/-- What a call means for the contents. -/
def meaning (c : StoreCall D) (s : Contents D) : Except StoreError Unit × Contents D :=
  match c with
  | saveTask task => (.ok (), { s with tasks := Function.update s.tasks task.id (some task.dropRaw) })
  | deleteTask id =>
    match s.tasks id with
    | none => (.error (.keyError id), s)
    | some _ =>
      (.ok (),
        { tasks := Function.update s.tasks id none
          graphs := fun k => (s.graphs k).map fun p => (p.1, fun t => p.2 t && !(t == id)) })
  | saveGraph g _ =>
    (.ok (),
      { tasks := fun t => ((g.tasks t).map TaskObject.dropRaw).or (s.tasks t)
        graphs := Function.update s.graphs g.id (some (g, fun _ => true)) })
  | deleteGraph id =>
    match s.graphs id with
    | none => (.error (.keyError id), s)
    | some _ => (.ok (), { s with graphs := Function.update s.graphs id none })

end StoreCall

/-- The tables are those of the contents. -/
structure Represents (db : Database) (s : Contents D) : Prop where
  tasks : Holds db s.tasks
  absent : ∀ k, s.graphs k = none → db.graphs.find? k = none
  id : ∀ k g lives, s.graphs k = some (g, lives) → g.id = k
  closed : ∀ k g lives, s.graphs k = some (g, lives) → g.Registered
  written : ∀ k g lives, s.graphs k = some (g, lives) → Written g lives db
  /-- A member that lives is a stored task. -/
  alive : ∀ k g lives, s.graphs k = some (g, lives) → ∀ t ∈ g.topology.keys, lives t = true →
    (s.tasks t).isSome = true

namespace Represents

variable {db db' : Database} {s : Contents D}

/-- The empty database. -/
theorem empty : Represents Database.empty (Contents.empty : Contents D) :=
  ⟨Holds.empty, fun _ _ => rfl, nofun, nofun, nofun, nofun⟩

/-- Every stored graph loads. -/
theorem getItem (h : Represents db s) {k : String} {g : GraphObject D} {lives : TaskId → Bool}
    (stored : s.graphs k = some (g, lives)) :
    ∃ loaded, GraphCollection.getItem k db = .ok loaded ∧ Restores g lives db loaded := by
  obtain rfl := h.id k g lives stored
  apply getItem_restores (h.closed _ g lives stored) (h.written _ g lives stored)
  intro t key live
  obtain ⟨snapshot, here⟩ := Option.isSome_iff_exists.mp (h.alive _ g lives stored t key live)
  have read := h.tasks.getItem t
  rw [here] at read
  exact ⟨snapshot, read, getItem_id read⟩

/-- Saving a task. -/
theorem saveTask {task : TaskObject D} (h : Represents db s) (saves : Saves task db db') :
    Represents db' { s with tasks := Function.update s.tasks task.id (some task.dropRaw) } where
  tasks := h.tasks.saves saves
  absent k none := by rw [saves.graphs, h.absent k none]
  id := h.id
  closed := h.closed
  written k g lives stored := by
    have old := h.written k g lives stored
    refine ⟨?_, ?_, ?_⟩
    · rw [saves.graphs, old.graphRow]
    · rw [saves.graphTasks, old.taskRows]
    · rw [saves.graphDependencies, old.dependencyRows]
  alive k g lives stored t key live := by
    change (Function.update s.tasks task.id _ t).isSome = true
    by_cases here : t = task.id
    · rw [here, Function.update_self]
      rfl
    · rw [Function.update_of_ne here]
      exact h.alive k g lives stored t key live

/-- The rows that are left of a graph after the cascades. -/
theorem written_of_deletes {g : GraphObject D} {lives : TaskId → Bool} {id : TaskId}
    (old : Written g lives db) (deletes : Deletes id db db') :
    Written g (fun t => lives t && !(t == id)) db' := by
  refine ⟨?_, ?_, ?_⟩
  · rw [deletes.graphs, old.graphRow]
  · rw [deletes.graphTasks, List.filter_comm, old.taskRows, List.filter_filter]
    apply List.filter_congr
    intro row _
    exact Bool.and_comm _ _
  · rw [deletes.graphDependencies, List.filter_comm, old.dependencyRows, List.filter_filter]
    apply List.filter_congr
    intro row _
    generalize lives row.taskId = a, lives row.dependencyId = b, (row.taskId == id) = c,
      (row.dependencyId == id) = d
    revert a b c d
    decide

/-- Deleting a task takes it out of every graph. -/
theorem deleteTask {id : TaskId} (h : Represents db s) (deletes : Deletes id db db') :
    Represents db'
      { tasks := Function.update s.tasks id none
        graphs := fun k => (s.graphs k).map fun p => (p.1, fun t => p.2 t && !(t == id)) } := by
  have earlier : ∀ k g lives, (s.graphs k).map (fun p => (p.1, fun t => p.2 t && !(t == id))) =
      some (g, lives) → ∃ lives₀, s.graphs k = some (g, lives₀) ∧
        lives = fun t => lives₀ t && !(t == id) := by
    intro k g lives stored
    obtain ⟨⟨g₀, lives₀⟩, old, same⟩ := Option.map_eq_some_iff.mp stored
    cases same
    exact ⟨lives₀, old, rfl⟩
  refine ⟨h.tasks.deletes deletes, fun k none => ?_, fun k g lives stored => ?_,
    fun k g lives stored => ?_, fun k g lives stored => ?_, fun k g lives stored t key live => ?_⟩
  · rw [deletes.graphs]
    exact h.absent k (Option.map_eq_none_iff.mp none)
  · obtain ⟨lives₀, old, -⟩ := earlier k g lives stored
    exact h.id k g lives₀ old
  · obtain ⟨lives₀, old, -⟩ := earlier k g lives stored
    exact h.closed k g lives₀ old
  · obtain ⟨lives₀, old, rfl⟩ := earlier k g lives stored
    exact written_of_deletes (h.written k g lives₀ old) deletes
  · obtain ⟨lives₀, old, rfl⟩ := earlier k g lives stored
    obtain ⟨lived, other⟩ := Bool.and_eq_true_iff.mp live
    have ne : t ≠ id := by simpa using other
    change (Function.update s.tasks id none t).isSome = true
    rw [Function.update_of_ne ne]
    exact h.alive k g lives₀ old t key lived

/-- Saving a graph stores its members with it. -/
theorem saveGraph {g : GraphObject D} (h : Represents db s) (writes : Writes g db db')
    (closed : g.Registered) :
    Represents db'
      { tasks := fun t => ((g.tasks t).map TaskObject.dropRaw).or (s.tasks t)
        graphs := Function.update s.graphs g.id (some (g, fun _ => true)) } := by
  have cases_ : ∀ k g' lives,
      Function.update s.graphs g.id (some (g, fun _ => true)) k = some (g', lives) →
      (k = g.id ∧ g' = g ∧ lives = fun _ => true) ∨ (k ≠ g.id ∧ s.graphs k = some (g', lives)) := by
    intro k g' lives stored
    by_cases here : k = g.id
    · rw [here, Function.update_self] at stored
      cases stored
      exact .inl ⟨here, rfl, rfl⟩
    · rw [Function.update_of_ne here] at stored
      exact .inr ⟨here, stored⟩
  refine ⟨fun t => ?_, fun k none => ?_, fun k g' lives stored => ?_, fun k g' lives stored => ?_,
    fun k g' lives stored => ?_, fun k g' lives stored t key live => ?_⟩
  -- the tasks: the members as they were saved, and the others as they were
  · change HoldsAt db' t (((g.tasks t).map TaskObject.dropRaw).or (s.tasks t))
    cases here : g.tasks t with
    | some task =>
      have id := g.tasks_id t task here
      have member : task ∈ g.members := GraphObject.mem_members.mpr (id ▸ here)
      exact ⟨id, task.dropRaw_dropRaw, (writes.stored task member).dropRaw⟩
    | none =>
      have out : t ∉ g.topology.keys := by
        rw [← g.tasks_isSome t, here]
        simp
      have old := h.tasks t
      rw [Option.map_none, Option.none_or]
      cases at_ : s.tasks t with
      | none =>
        rw [at_] at old
        exact (writes.tasks_other t out).trans old
      | some snapshot =>
        rw [at_] at old
        obtain ⟨rfl, kept, stored⟩ := old
        exact ⟨rfl, kept, (writes.tasks_other _ out).trans stored.taskRow,
          (writes.results_other _ out).trans stored.resultRow⟩
  -- a graph that is not stored is not the one just saved
  · have other : k ≠ g.id := by
      rintro rfl
      change Function.update s.graphs g.id _ g.id = _ at none
      rw [Function.update_self] at none
      cases none
    change Function.update s.graphs g.id _ k = _ at none
    rw [Function.update_of_ne other] at none
    rw [writes.graphs, if_neg other, h.absent k none]
  · rcases cases_ k g' lives stored with ⟨rfl, rfl, rfl⟩ | ⟨-, old⟩
    · rfl
    · exact h.id k g' lives old
  · rcases cases_ k g' lives stored with ⟨rfl, rfl, rfl⟩ | ⟨-, old⟩
    · exact closed
    · exact h.closed k g' lives old
  -- the rows: this graph's are new, and the others' are untouched
  · rcases cases_ k g' lives stored with ⟨rfl, rfl, rfl⟩ | ⟨other, old⟩
    · exact writes.written
    · obtain rfl := h.id k g' lives old
      have was := h.written _ g' lives old
      refine ⟨?_, ?_, ?_⟩
      · rw [writes.graphs, if_neg other, was.graphRow]
      · rw [writes.taskRows, if_neg other, was.taskRows]
      · rw [writes.dependencyRows, if_neg other, was.dependencyRows]
  -- every member of this graph lives, and a member that lived still does
  · change (((g.tasks t).map TaskObject.dropRaw).or (s.tasks t)).isSome = true
    rcases cases_ k g' lives stored with ⟨rfl, rfl, rfl⟩ | ⟨-, old⟩
    · rw [Option.isSome_or, Option.isSome_map, (g'.tasks_isSome t).mpr key]
      rfl
    · rw [Option.isSome_or, h.alive k g' lives old t key live, Bool.or_true]

/-- What deleting a graph does: its rows go, and those of other graphs and of the tasks stay. -/
theorem deleteGraph_rows (db : Database) {id k : String} (other : k ≠ id) :
    (db.deleteGraph id).1.graphs.find? k = db.graphs.find? k ∧
      ((db.deleteGraph id).1.graphTasks.rows.filter fun row => row.graphId == k) =
        (db.graphTasks.rows.filter fun row => row.graphId == k) ∧
      ((db.deleteGraph id).1.graphDependencies.rows.filter fun row => row.graphId == k) =
        (db.graphDependencies.rows.filter fun row => row.graphId == k) := by
  have kept : ∀ {ρ : Type} (graphId : ρ → String) (rows : List ρ),
      ((rows.filter fun row => !(graphId row == id)).filter fun row => graphId row == k) =
        rows.filter fun row => graphId row == k := by
    intro ρ graphId rows
    have replaced : (((rows.filter fun row => !(graphId row == id)) ++ []).filter fun row =>
        graphId row == k) = if k = id then [] else rows.filter fun row => graphId row == k :=
      filter_replaced graphId (by simp) k
    rw [List.append_nil, if_neg other] at replaced
    exact replaced
  exact ⟨(find?_deleteBy db.graphs id k).trans (if_neg other),
    kept GraphTaskRow.graphId db.graphTasks.rows,
    kept DependencyRow.graphId db.graphDependencies.rows⟩

/-- Deleting a graph leaves its tasks. -/
theorem deleteGraph {id : String} (h : Represents db s) :
    Represents (db.deleteGraph id).1 { s with graphs := Function.update s.graphs id none } := by
  have earlier : ∀ k g lives, Function.update s.graphs id none k = some (g, lives) →
      k ≠ id ∧ s.graphs k = some (g, lives) := by
    intro k g lives stored
    by_cases here : k = id
    · rw [here, Function.update_self] at stored
      cases stored
    · rw [Function.update_of_ne here] at stored
      exact ⟨here, stored⟩
  refine ⟨fun t => ?_, fun k none => ?_, fun k g lives stored => ?_, fun k g lives stored => ?_,
    fun k g lives stored => ?_, fun k g lives stored => ?_⟩
  · have old := h.tasks t
    cases at_ : s.tasks t with
    | none =>
      rw [at_] at old
      exact old
    | some snapshot =>
      rw [at_] at old
      obtain ⟨same, kept, stored⟩ := old
      exact ⟨same, kept, stored.taskRow, stored.resultRow⟩
  · by_cases here : k = id
    · exact (find?_deleteBy db.graphs id k).trans (if_pos here)
    · change Function.update s.graphs id Option.none k = _ at none
      rw [Function.update_of_ne here] at none
      rw [(deleteGraph_rows db here).1, h.absent k none]
  · exact h.id k g lives (earlier k g lives stored).2
  · exact h.closed k g lives (earlier k g lives stored).2
  · obtain ⟨other, old⟩ := earlier k g lives stored
    obtain rfl := h.id k g lives old
    have was := h.written _ g lives old
    obtain ⟨graphs, taskRows, dependencyRows⟩ := deleteGraph_rows db other
    exact ⟨graphs.trans was.graphRow, taskRows.trans was.taskRows,
      dependencyRows.trans was.dependencyRows⟩
  · exact h.alive k g lives (earlier k g lives stored).2

end Represents

/-- Deleting is refused for an id without a row, and otherwise goes through. -/
theorem graph_delItem_eq (id : String) (db : Database) : GraphCollection.delItem id db =
    if db.graphs.find? id = none then (.error (.keyError id), db)
    else (.ok (), (db.deleteGraph id).1) := by
  have count : (db.deleteGraph id).2 = 0 ↔ db.graphs.find? id = none :=
    rowcount_eq_zero db.graphs id
  unfold GraphCollection.delItem
  split
  · rename_i none
    exact connect_error (if_pos (count.mpr none))
  · rename_i some
    exact connect_ok (if_neg fun zero => some (count.mp zero))

/-- One call does to the tables what its meaning does to the contents. -/
theorem StoreCall.run_simulates (c : StoreCall D) (db : Database) (s : Contents D)
    (h : Represents db s) :
    (c.run db).1 = (c.meaning s).1 ∧ Represents (c.run db).2 (c.meaning s).2 := by
  cases c with
  | saveTask task =>
    obtain ⟨db', ok, saves⟩ := save_saves task db
    unfold run
    dsimp only
    rw [ok]
    exact ⟨rfl, h.saveTask saves⟩
  -- a deletion is refused for an id that has no row
  | deleteTask id =>
    have here := h.tasks id
    unfold run meaning
    dsimp only
    rw [delItem_eq]
    cases at_ : s.tasks id with
    | none =>
      rw [at_, holdsAt_none] at here
      rw [if_pos here]
      exact ⟨rfl, h⟩
    | some snapshot =>
      rw [at_] at here
      obtain ⟨rfl, -, stored⟩ := here
      rw [if_neg (by rw [stored.taskRow]; simp)]
      exact ⟨rfl, h.deleteTask (deleteTask_deletes _ db)⟩
  | saveGraph g closed =>
    have saves : GraphCollection.save g db = connect (GraphCollection.write g) db := by
      rw [GraphCollection.save, GraphCollection.setItem, if_neg (by simp)]
    -- a save of a registered graph goes through
    rcases write_cases g db with ⟨db', ok, writes, -⟩ | ⟨-, -, opens, -⟩
    · unfold run
      dsimp only
      rw [saves, connect_ok ok]
      exact ⟨rfl, h.saveGraph writes closed⟩
    · exact absurd closed opens
  | deleteGraph id =>
    unfold run meaning
    dsimp only
    rw [graph_delItem_eq]
    cases at_ : s.graphs id with
    | none =>
      rw [if_pos (h.absent id at_)]
      exact ⟨rfl, h⟩
    | some p =>
      obtain ⟨g, lives⟩ := p
      have there := (h.written id g lives at_).graphRow
      rw [h.id id g lives at_] at there
      rw [if_neg (by rw [there]; simp)]
      exact ⟨rfl, h.deleteGraph⟩

/-- The ids in the tables are those of the contents. -/
theorem Represents.mem_iter {db : Database} {s : Contents D} (h : Represents db s) (t : TaskId) :
    t ∈ TaskCollection.iter db ↔ (s.tasks t).isSome = true := by
  rw [(iter_perm db).mem_iff, Table.mem_keys_iff, h.tasks.find?_isSome]

/-- There is a row exactly for the graphs that are stored. -/
theorem Represents.graph_find?_isSome {db : Database} {s : Contents D} (h : Represents db s)
    (k : String) : (db.graphs.find? k).isSome = (s.graphs k).isSome := by
  cases stored : s.graphs k with
  | none =>
    rw [h.absent k stored]
    rfl
  | some p =>
    obtain ⟨g, lives⟩ := p
    have row := (h.written k g lives stored).graphRow
    rw [h.id k g lives stored] at row
    rw [row]
    rfl

/-- The graphs are iterated by their ids. -/
theorem Represents.mem_graph_iter {db : Database} {s : Contents D} (h : Represents db s)
    (k : String) : k ∈ GraphCollection.iter db ↔ (s.graphs k).isSome = true := by
  have perm : (GraphCollection.iter db).Perm (db.graphs.rows.map GraphRow.id) :=
    (orderBy_perm _ _).map _
  rw [perm.mem_iff, Table.mem_keys_iff, h.graph_find?_isSome]

/-- Over every history of a store: a graph that was never saved, or was deleted since, is not found;
every other one loads, and is the version last saved restricted to the members whose task has not
been deleted since. Deleting a graph changes no task and no other graph. -/
theorem history_restores (calls : List (StoreCall D)) :
    let store := session StoreCall.run calls Database.empty
    let contents := session StoreCall.meaning calls Contents.empty
    store.1 = contents.1 ∧
      (∀ id, contents.2.graphs id = none →
        GraphCollection.getItem (D := D) id store.2 = .error (.keyError id)) ∧
      (∀ id g lives, contents.2.graphs id = some (g, lives) →
        ∃ loaded, GraphCollection.getItem id store.2 = .ok loaded ∧
          Restores g lives store.2 loaded) ∧
      ∀ id, let after := (GraphCollection.delItem id store.2).2
        (∀ t, TaskCollection.getItem (D := D) t after = TaskCollection.getItem t store.2) ∧
          ∀ other ≠ id, GraphCollection.getItem (D := D) other after =
            GraphCollection.getItem other store.2 := by
  intro store contents
  obtain ⟨outcomes, h⟩ : store.1 = contents.1 ∧ Represents store.2 contents.2 :=
    session_simulates StoreCall.run_simulates calls Represents.empty
  refine ⟨outcomes, fun id none => ?_, fun id g lives stored => h.getItem stored, fun id => ?_⟩
  · unfold GraphCollection.getItem
    rw [h.absent id none]
  · intro after
    have deleted : (GraphCollection.delItem id store.2).2 = store.2 ∨
        (GraphCollection.delItem id store.2).2 = (store.2.deleteGraph id).1 := by
      rw [graph_delItem_eq]
      split
      · exact .inl rfl
      · exact .inr rfl
    change after = _ ∨ after = _ at deleted
    rcases deleted with same | deleted
    · rw [same]
      exact ⟨fun _ => rfl, fun _ _ => rfl⟩
    · rw [deleted]
      refine ⟨fun _ => getItem_congr rfl rfl, fun other ne => ?_⟩
      obtain ⟨graphs, taskRows, dependencyRows⟩ := Represents.deleteGraph_rows store.2 ne
      exact graph_getItem_congr graphs taskRows dependencyRows fun _ => getItem_congr rfl rfl

end TTasks.Sqlite
