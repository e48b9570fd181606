import TTasks.Laws.Sqlite.Tasks
import TTasks.Laws.Graph.Validate

/-!
# Saving a graph

`Writes` says what saving a graph does to the tables: the rows of its members and the graph's own
rows are those of this version, and no row of another graph is touched. Each loop of statements has
its lemma: it appends the rows it is there for, because their keys are free and their parents are
stored by then.
-/

namespace TTasks.Sqlite

open Relational

variable {D : Type} [DateTime D]

/-! ## Members and dependencies -/

namespace GraphObject

omit [DateTime D]

/-- Every dependency is a member. -/
def Registered (g : GraphObject D) : Prop :=
  ∀ t ∈ g.topology.keys, ∀ d ∈ g.topology.deps t, d ∈ g.topology.keys

theorem mem_members {g : GraphObject D} {task : TaskObject D} :
    task ∈ g.members ↔ g.tasks task.id = some task := by
  rw [members, List.mem_filterMap]
  constructor
  · rintro ⟨t, -, here⟩
    rw [g.tasks_id t task here, here]
  · intro here
    exact ⟨task.id, (g.tasks_isSome task.id).mp (by rw [here]; rfl), here⟩

theorem member_of_key {g : GraphObject D} {t : TaskId} (key : t ∈ g.topology.keys) :
    ∃ task ∈ g.members, task.id = t := by
  obtain ⟨task, here⟩ := Option.isSome_iff_exists.mp ((g.tasks_isSome t).mpr key)
  have id := g.tasks_id t task here
  exact ⟨task, mem_members.mpr (id ▸ here), id⟩

theorem key_of_member {g : GraphObject D} {task : TaskObject D} (member : task ∈ g.members) :
    task.id ∈ g.topology.keys :=
  (g.tasks_isSome task.id).mp (by rw [mem_members.mp member]; rfl)

/-- `dependencies` gives the objects behind the upstream ids, or raises for one that has none. -/
theorem dependencies_cases (g : GraphObject D) (task : TaskObject D) :
    (∃ deps, g.dependencies task = .ok deps ∧ deps.map (·.id) = g.topology.deps task.id ∧
      ∀ dep ∈ deps, dep ∈ g.members) ∨
    ∃ d, d ∈ g.topology.deps task.id ∧ d ∉ g.topology.keys ∧
      g.dependencies task = .error (.keyError d) := by
  have each : ∀ d ∈ g.topology.deps task.id,
      (∃ dep, g.task d = .ok dep ∧ dep.id = d ∧ dep ∈ g.members) ∨
        ∃ e, g.task d = .error e ∧
          ∃ d, d ∈ g.topology.deps task.id ∧ d ∉ g.topology.keys ∧ e = .keyError d := by
    intro d mem
    unfold GraphObject.task
    cases here : g.tasks d with
    | none =>
      have missing : d ∉ g.topology.keys := by
        rw [← g.tasks_isSome d, here]
        simp
      exact .inr ⟨_, rfl, d, mem, missing, rfl⟩
    | some dep =>
      have id := g.tasks_id d dep here
      exact .inl ⟨dep, rfl, id, mem_members.mpr (id ▸ here)⟩
  rcases mapM_cases each with ok | ⟨e, failed, d, mem, missing, rfl⟩
  · exact .inl ok
  · exact .inr ⟨d, mem, missing, failed⟩

end GraphObject

/-! ## The rows of a graph -/

namespace GraphObject

/-- The row of `graphs`. -/
def graphRow (g : GraphObject D) : GraphRow :=
  ⟨g.id, g.title, DateTime.isoformat g.createdAt⟩

/-- The rows of `graph_tasks`. -/
def memberRows (g : GraphObject D) : List GraphTaskRow :=
  g.members.zipIdx.map (GraphCollection.graphTaskRow g)

/-- The rows of `graph_dependencies` for one task. -/
def edgeRows (g : GraphObject D) (t : TaskId) : List DependencyRow :=
  (g.topology.deps t).zipIdx.map fun d => ⟨g.id, t, d.1, d.2⟩

/-- The rows of `graph_dependencies`. -/
def dependencyRows (g : GraphObject D) : List DependencyRow := g.topology.keys.flatMap g.edgeRows

end GraphObject

/-! ## The statements of a save -/

/-- `INSERT INTO graph_tasks` under a free key, with both parents there. -/
theorem insertGraphTask_ok {row : GraphTaskRow} (db : Database)
    (free : row.key ∉ db.graphTasks.rows.map GraphTaskRow.key)
    (graph : db.graphs.contains row.graphId = true) (task : db.tasks.contains row.taskId = true) :
    ∃ graphTasks : Table GraphTaskRow.key,
      db.insertGraphTask row = .ok { db with graphTasks } ∧
        graphTasks.rows = db.graphTasks.rows ++ [row] := by
  obtain ⟨graphTasks, inserted, rows⟩ := Table.insert_of_free free
  refine ⟨graphTasks, ?_, rows⟩
  unfold Database.insertGraphTask
  rw [inserted]
  exact if_pos (by rw [graph, task]; rfl)

/-- `INSERT INTO graph_dependencies` under a free key, with its three parents there. -/
theorem insertDependency_ok {row : DependencyRow} (db : Database)
    (free : row.key ∉ db.graphDependencies.rows.map DependencyRow.key)
    (graph : db.graphs.contains row.graphId = true) (task : db.tasks.contains row.taskId = true)
    (dependency : db.tasks.contains row.dependencyId = true) :
    ∃ graphDependencies : Table DependencyRow.key,
      db.insertDependency row = .ok { db with graphDependencies } ∧
        graphDependencies.rows = db.graphDependencies.rows ++ [row] := by
  obtain ⟨graphDependencies, inserted, rows⟩ := Table.insert_of_free free
  refine ⟨graphDependencies, ?_, rows⟩
  unfold Database.insertDependency
  rw [inserted]
  exact if_pos (by rw [graph, task, dependency]; rfl)

/-- The first loop stores the members and touches no other task. -/
structure SavesAll (tasks : List (TaskObject D)) (db db' : Database) : Prop where
  stored : ∀ task ∈ tasks, Stored task db'
  tasks_other : ∀ k, k ∉ tasks.map (·.id) → db'.tasks.find? k = db.tasks.find? k
  results_other : ∀ k, k ∉ tasks.map (·.id) → db'.taskResults.find? k = db.taskResults.find? k
  graphs : db'.graphs = db.graphs
  graphTasks : db'.graphTasks = db.graphTasks
  graphDependencies : db'.graphDependencies = db.graphDependencies

theorem upsertTasks_saves {tasks : List (TaskObject D)} (distinct : (tasks.map (·.id)).Nodup)
    (db : Database) : ∃ db', tasks.foldlM upsertTask db = .ok db' ∧ SavesAll tasks db db' := by
  apply foldlM_ok (P := fun done s => SavesAll done db s)
  · intro done task rest all s saved
    obtain ⟨s', ok, saves⟩ := upsertTask_saves task s
    have apart : ∀ other ∈ done, other.id ≠ task.id := by
      rw [all, List.map_append] at distinct
      intro other mem same
      exact (List.nodup_append.mp distinct).2.2 other.id (List.mem_map_of_mem mem) task.id
        (List.mem_map_of_mem List.mem_cons_self) same
    refine ⟨s', ok, ?_, fun k out => ?_, fun k out => ?_, saves.graphs.trans saved.graphs,
      saves.graphTasks.trans saved.graphTasks,
      saves.graphDependencies.trans saved.graphDependencies⟩
    · intro other mem
      rcases List.mem_append.mp mem with mem | mem
      · exact saves.stored_other (apart other mem) (saved.stored other mem)
      · exact List.mem_singleton.mp mem ▸ saves.stored
    · rw [List.map_append, List.mem_append, not_or, List.map_singleton, List.mem_singleton] at out
      rw [saves.tasks, if_neg out.2, saved.tasks_other k out.1]
    · rw [List.map_append, List.mem_append, not_or, List.map_singleton, List.mem_singleton] at out
      rw [saves.taskResults, if_neg out.2, saved.results_other k out.1]
  · exact ⟨by simp, fun _ _ => rfl, fun _ _ => rfl, rfl, rfl, rfl⟩

section Inserts

variable {g : GraphObject D} (db : Database)

omit [DateTime D]

theorem GraphObject.members_nodup (g : GraphObject D) : (g.members.map (·.id)).Nodup :=
  g.members_ids ▸ g.topology.keys_nodup

/-- No element of a list with distinct keys has the key of one before it. -/
theorem key_fresh {α κ : Type} {key : α → κ} {done rest : List α} {a : α}
    (distinct : ((done ++ a :: rest).map key).Nodup) : key a ∉ done.map key := by
  rw [List.map_append, List.map_cons] at distinct
  intro old
  exact (List.nodup_append.mp distinct).2.2 (key a) old (key a) List.mem_cons_self rfl

/-- The loop over the members appends their rows. -/
theorem insertMembers_ok (graph : db.graphs.contains g.id = true)
    (tasks : ∀ task ∈ g.members, db.tasks.contains task.id = true)
    (fresh : ∀ row ∈ db.graphTasks.rows, row.graphId ≠ g.id) :
    ∃ graphTasks : Table GraphTaskRow.key,
      g.members.zipIdx.foldlM
          (fun db member => db.insertGraphTask (GraphCollection.graphTaskRow g member)) db =
        .ok { db with graphTasks } ∧
      graphTasks.rows = db.graphTasks.rows ++ g.memberRows := by
  have distinct : (g.members.zipIdx.map fun m => m.1.id).Nodup := by
    have ids : (g.members.zipIdx.map fun m => m.1.id) = g.members.map (·.id) := by
      rw [← List.zipIdx_map_fst 0 g.members, List.map_map, List.zipIdx_map_fst]
      rfl
    exact ids ▸ g.members_nodup
  obtain ⟨s, ok, graphTasks, rfl, rows⟩ := foldlM_ok
    (f := fun (db : Database) member => db.insertGraphTask (GraphCollection.graphTaskRow g member))
    (l := g.members.zipIdx) (s := db)
    (P := fun done s => ∃ graphTasks : Table GraphTaskRow.key, s = { db with graphTasks } ∧
      graphTasks.rows = db.graphTasks.rows ++ done.map (GraphCollection.graphTaskRow g))
    (by
      rintro done member rest all _ ⟨graphTasks, rfl, rows⟩
      have mem : member.1 ∈ g.members := by
        rw [← List.zipIdx_map_fst 0 g.members, all]
        exact List.mem_map_of_mem (List.mem_append_right _ List.mem_cons_self)
      rw [all] at distinct
      have new := key_fresh distinct
      have free : (GraphCollection.graphTaskRow g member).key ∉
          graphTasks.rows.map GraphTaskRow.key := by
        rw [rows, List.map_append, List.mem_append, List.map_map]
        rintro (old | old)
        · obtain ⟨row, there, same⟩ := List.mem_map.mp old
          exact fresh row there (congrArg Prod.fst same)
        · obtain ⟨other, there, same⟩ := List.mem_map.mp old
          exact new (List.mem_map.mpr ⟨other, there, congrArg Prod.snd same⟩)
      obtain ⟨graphTasks', ok, rows'⟩ := insertGraphTask_ok
        { db with graphTasks } free graph (tasks member.1 mem)
      refine ⟨_, ok, graphTasks', rfl, ?_⟩
      rw [rows', rows, List.map_append, List.append_assoc]
      rfl)
    ⟨db.graphTasks, rfl, by simp⟩
  exact ⟨graphTasks, ok, rows⟩

/-- The rows of one task, from its dependency objects. -/
theorem edgeRows_eq {task : TaskObject D} {deps : List (TaskObject D)}
    (ids : deps.map (·.id) = g.topology.deps task.id) :
    g.edgeRows task.id = deps.zipIdx.map (GraphCollection.dependencyRow g task) := by
  rw [GraphObject.edgeRows, ← ids, List.zipIdx_map, List.map_map]
  rfl

/-- The loop over the dependencies of one task appends their rows; it raises before the first
statement when one of them is not a member. -/
theorem insertDependencies_cases {task : TaskObject D} (graph : db.graphs.contains g.id = true)
    (tasks : ∀ task ∈ g.members, db.tasks.contains task.id = true) (member : task ∈ g.members)
    (fresh : ∀ row ∈ db.graphDependencies.rows, row.graphId = g.id → row.taskId ≠ task.id) :
    (∃ graphDependencies : Table DependencyRow.key,
      GraphCollection.insertDependencies g db task = .ok { db with graphDependencies } ∧
      graphDependencies.rows = db.graphDependencies.rows ++ g.edgeRows task.id ∧
      ∀ d ∈ g.topology.deps task.id, d ∈ g.topology.keys) ∨
    ∃ d, d ∉ g.topology.keys ∧ ¬ g.Registered ∧
      GraphCollection.insertDependencies g db task = .error (.keyError d) := by
  unfold GraphCollection.insertDependencies
  rcases g.dependencies_cases task with ⟨deps, looked, ids, members⟩ | ⟨d, mem, missing, failed⟩
  · left
    rw [looked]
    -- a dependency is listed once, so its row's key is new
    have distinct : (deps.zipIdx.map fun d => d.1.id).Nodup := by
      have same : (deps.zipIdx.map fun d => d.1.id) = deps.map (·.id) := by
        rw [← List.zipIdx_map_fst 0 deps, List.map_map, List.zipIdx_map_fst]
        rfl
      rw [same, ids]
      exact TaskGraph.deps_nodup_of_mem (GraphObject.key_of_member member)
    obtain ⟨s, ok, graphDependencies, rfl, rows⟩ := foldlM_ok
      (f := fun (db : Database) dep =>
        db.insertDependency (GraphCollection.dependencyRow g task dep))
      (l := deps.zipIdx) (s := db)
      (P := fun done s => ∃ graphDependencies : Table DependencyRow.key,
        s = { db with graphDependencies } ∧ graphDependencies.rows =
          db.graphDependencies.rows ++ done.map (GraphCollection.dependencyRow g task))
      (by
        -- the rows so far are those of other tasks, and of this one's earlier dependencies
        rintro done dep rest all _ ⟨graphDependencies, rfl, rows⟩
        have mem : dep.1 ∈ g.members := by
          apply members
          rw [← List.zipIdx_map_fst 0 deps, all]
          exact List.mem_map_of_mem (List.mem_append_right _ List.mem_cons_self)
        rw [all] at distinct
        have new := key_fresh distinct
        have free : (GraphCollection.dependencyRow g task dep).key ∉
            graphDependencies.rows.map DependencyRow.key := by
          rw [rows, List.map_append, List.mem_append, List.map_map]
          rintro (old | old)
          · obtain ⟨row, there, same⟩ := List.mem_map.mp old
            exact fresh row there (congrArg Prod.fst same) (congrArg (·.2.1) same)
          · obtain ⟨other, there, same⟩ := List.mem_map.mp old
            exact new (List.mem_map.mpr ⟨other, there, congrArg (·.2.2) same⟩)
        obtain ⟨graphDependencies', ok, rows'⟩ := insertDependency_ok
          { db with graphDependencies } free graph (tasks task member) (tasks dep.1 mem)
        refine ⟨_, ok, graphDependencies', rfl, ?_⟩
        rw [rows', rows, List.map_append, List.append_assoc]
        rfl)
      ⟨db.graphDependencies, rfl, by simp⟩
    refine ⟨graphDependencies, ok, ?_, ?_⟩
    · rw [rows, edgeRows_eq ids]
    · intro d mem
      rw [← ids] at mem
      obtain ⟨dep, there, rfl⟩ := List.mem_map.mp mem
      exact GraphObject.key_of_member (members dep there)
  -- a dependency that is no member raises before anything is inserted
  · right
    rw [failed]
    refine ⟨d, missing, ?_, rfl⟩
    intro closed
    exact missing (closed task.id (GraphObject.key_of_member member) d mem)

/-- The loop over all tasks appends the rows of every edge, or raises for the first dependency that
is not a member. -/
theorem insertEdges_cases (graph : db.graphs.contains g.id = true)
    (tasks : ∀ task ∈ g.members, db.tasks.contains task.id = true)
    (fresh : ∀ row ∈ db.graphDependencies.rows, row.graphId ≠ g.id) :
    (∃ graphDependencies : Table DependencyRow.key,
      g.members.foldlM (GraphCollection.insertDependencies g) db =
        .ok { db with graphDependencies } ∧
      graphDependencies.rows = db.graphDependencies.rows ++ g.dependencyRows ∧ g.Registered) ∨
    ∃ d, d ∉ g.topology.keys ∧ ¬ g.Registered ∧
      g.members.foldlM (GraphCollection.insertDependencies g) db = .error (.keyError d) := by
  have loop := foldlM_cases (f := GraphCollection.insertDependencies g) (l := g.members) (s := db)
    (P := fun done s => ∃ graphDependencies : Table DependencyRow.key,
      s = { db with graphDependencies } ∧
      graphDependencies.rows =
        db.graphDependencies.rows ++ (done.map (·.id)).flatMap g.edgeRows ∧
      ∀ task ∈ done, ∀ d ∈ g.topology.deps task.id, d ∈ g.topology.keys)
    (Q := fun e => ∃ d, d ∉ g.topology.keys ∧ ¬ g.Registered ∧ e = .keyError d)
    (by
      -- the rows so far are of the tasks before this one
      rintro done task rest all _ ⟨graphDependencies, rfl, rows, closed⟩
      have member : task ∈ g.members := by
        rw [all]
        exact List.mem_append_right _ List.mem_cons_self
      have distinct := g.members_nodup
      rw [all] at distinct
      have new := key_fresh distinct
      have fresh' : ∀ row ∈ graphDependencies.rows, row.graphId = g.id →
          row.taskId ≠ task.id := by
        intro row mem of
        rw [rows, List.mem_append] at mem
        rcases mem with old | mem
        · exact absurd of (fresh row old)
        · obtain ⟨t, before, mem⟩ := List.mem_flatMap.mp mem
          obtain ⟨d, -, rfl⟩ := List.mem_map.mp mem
          rintro rfl
          exact new before
      rcases insertDependencies_cases { db with graphDependencies } graph tasks member
        fresh' with ⟨graphDependencies', ok, rows', here⟩ | ⟨d, missing, opens, failed⟩
      · refine .inl ⟨_, ok, graphDependencies', rfl, ?_, ?_⟩
        · rw [rows', rows, List.map_append, List.flatMap_append, List.append_assoc]
          simp
        · intro task' mem
          rcases List.mem_append.mp mem with mem | mem
          · exact closed task' mem
          · exact List.mem_singleton.mp mem ▸ here
      · exact .inr ⟨_, failed, d, missing, opens, rfl⟩)
    ⟨db.graphDependencies, rfl, by simp, by simp⟩
  rcases loop with ⟨_, ok, graphDependencies, rfl, rows, closed⟩ | ⟨_, failed, d, missing, opens, rfl⟩
  · refine .inl ⟨graphDependencies, ok, ?_, ?_⟩
    · rw [rows, g.members_ids]
      rfl
    · intro t key
      obtain ⟨task, member, rfl⟩ := GraphObject.member_of_key key
      exact closed task member
  · exact .inr ⟨d, missing, opens, failed⟩

end Inserts

/-- Saving `g` stores its members and replaces the rows of the graph by those of this version. -/
structure Writes (g : GraphObject D) (db db' : Database) : Prop where
  stored : ∀ task ∈ g.members, Stored task db'
  tasks_other : ∀ k, k ∉ g.topology.keys → db'.tasks.find? k = db.tasks.find? k
  results_other : ∀ k, k ∉ g.topology.keys → db'.taskResults.find? k = db.taskResults.find? k
  graphs : ∀ k, db'.graphs.find? k = if k = g.id then some g.graphRow else db.graphs.find? k
  graphTasks : db'.graphTasks.rows =
    (db.graphTasks.rows.filter fun row => !(row.graphId == g.id)) ++ g.memberRows
  graphDependencies : db'.graphDependencies.rows =
    (db.graphDependencies.rows.filter fun row => !(row.graphId == g.id)) ++ g.dependencyRows

theorem find?_upsertGraphRow (g : GraphObject D) (db : Database) (k : String) :
    (db.upsertGraphRow g.graphRow).graphs.find? k =
      if k = g.id then some g.graphRow else db.graphs.find? k := by
  unfold Database.upsertGraphRow
  rw [Table.find?_upsert]
  change (if k = g.id then _ else _) = _
  split
  · rename_i here
    cases found : db.graphs.find? k with
    | none => rfl
    | some old =>
      have id : old.id = g.graphRow.id := (Table.find?_eq_some.mp found).2.trans here
      rw [Option.elim_some, id]
  · rfl

/-- A save of a graph writes it when its dependencies are registered, else it raises for one that is
not. -/
theorem write_cases (g : GraphObject D) (db : Database) :
    (∃ db', GraphCollection.write g db = .ok db' ∧ Writes g db db' ∧ g.Registered) ∨
    ∃ d, d ∉ g.topology.keys ∧ ¬ g.Registered ∧
      GraphCollection.write g db = .error (.keyError d) := by
  obtain ⟨db₁, saved, all⟩ := upsertTasks_saves g.members_nodup db
  let db₂ := ((db₁.upsertGraphRow g.graphRow).deleteDependencies g.id).deleteGraphTasks g.id
  have graphs : ∀ k, db₂.graphs.find? k =
      if k = g.id then some g.graphRow else db₁.graphs.find? k := find?_upsertGraphRow g db₁
  have graph : db₂.graphs.contains g.id = true := by
    rw [Table.contains_eq_isSome, graphs, if_pos rfl]
    rfl
  have tasks : ∀ task ∈ g.members, db₂.tasks.contains task.id = true := by
    intro task member
    rw [Table.contains_eq_isSome]
    change (db₁.tasks.find? task.id).isSome = true
    rw [(all.stored task member).taskRow]
    rfl
  obtain ⟨graphTasks, members, rows⟩ := insertMembers_ok db₂ graph tasks (by
    intro row mem
    simpa using (List.mem_filter.mp mem).2)
  have edges := insertEdges_cases (g := g) { db₂ with graphTasks } graph tasks (by
    intro row mem
    simpa using (List.mem_filter.mp mem).2)
  have runs : GraphCollection.write g db =
      g.members.foldlM (GraphCollection.insertDependencies g) { db₂ with graphTasks } := by
    unfold GraphCollection.write
    rw [saved]
    change Except.bind (g.members.zipIdx.foldlM (m := Except StoreError) _ db₂) _ = _
    rw [members]
    rfl
  rw [runs]
  rcases edges with ⟨graphDependencies, ok, rows', closed⟩ | missing
  · refine .inl ⟨_, ok, ?_, closed⟩
    have ids := g.members_ids
    refine ⟨fun task member => ⟨(all.stored task member).1, (all.stored task member).2⟩,
      fun k out => all.tasks_other k (ids ▸ out), fun k out => all.results_other k (ids ▸ out),
      fun k => ?_, ?_, ?_⟩
    · rw [← all.graphs]
      exact graphs k
    · rw [← all.graphTasks]
      exact rows
    · rw [← all.graphDependencies]
      exact rows'
  · exact .inr missing

end TTasks.Sqlite
