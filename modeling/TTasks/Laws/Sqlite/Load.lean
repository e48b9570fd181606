import TTasks.Laws.Sqlite.Save

/-!
# Loading a graph

`Written` is what a database has of a graph's rows while some of the members are deleted. The loading
loop turns these rows into the graph restricted to the members that are left, with the task
snapshots of the database. With all members left this is the round trip.
-/

namespace TTasks.Sqlite

open Relational

variable {D : Type} [DateTime D]

/-! ## Reading the rows of a graph -/

section Rows

variable (g : GraphObject D) (lives : TaskId → Bool)

omit [DateTime D]

/-- Positions are ordered as the list is. -/
theorem zipIdx_ordered {α : Type} (l : List α) :
    l.zipIdx.Pairwise fun a b : α × Nat => a.2 < b.2 := by
  rw [← List.pairwise_map (f := Prod.snd) (R := (· < ·)), List.zipIdx_map_snd]
  exact List.pairwise_lt_range'

/-- A membership row for each member. -/
theorem GraphObject.memberRows_ids : g.memberRows.map GraphTaskRow.taskId = g.topology.keys := by
  rw [← g.members_ids, GraphObject.memberRows, List.map_map]
  conv_rhs => rw [← List.zipIdx_map_fst 0 g.members, List.map_map]
  rfl

/-- The membership rows are in the order of their positions. -/
theorem GraphObject.memberRows_ordered :
    g.memberRows.Pairwise fun r s => toLex (r.position, r.taskId) ≤ toLex (s.position, s.taskId) := by
  rw [GraphObject.memberRows, List.pairwise_map]
  refine (zipIdx_ordered g.members).imp ?_
  intro a b before
  exact Prod.Lex.toLex_le_toLex.mpr (.inl before)

/-- Of a list's parts only the one that is asked for. -/
theorem flatMap_only {α β : Type} [DecidableEq α] (f : α → List β) {l : List α} (nodup : l.Nodup)
    {a : α} (mem : a ∈ l) : (l.flatMap fun b => if b = a then f b else []) = f a := by
  induction l with
  | nil => cases mem
  | cons b l ih =>
    rw [List.nodup_cons] at nodup
    rw [List.flatMap_cons]
    by_cases here : b = a
    · subst here
      have rest : (l.flatMap fun c => if c = b then f c else []) = [] := by
        rw [List.flatMap_eq_nil_iff]
        intro c old
        rw [if_neg]
        rintro rfl
        exact nodup.1 old
      rw [if_pos rfl, rest, List.append_nil]
    · rw [if_neg here, List.nil_append]
      exact ih nodup.2 ((List.mem_cons.mp mem).resolve_left fun same => here same.symm)

/-- The rows of one task among those of all. -/
theorem GraphObject.dependencyRows_of {t : TaskId} (key : t ∈ g.topology.keys) :
    (g.dependencyRows.filter fun row => row.taskId == t) = g.edgeRows t := by
  have own : ∀ u, ((g.edgeRows u).filter fun row => row.taskId == t) =
      if u = t then g.edgeRows u else [] := by
    intro u
    have of : ∀ row ∈ g.edgeRows u, row.taskId = u := by
      intro row mem
      obtain ⟨d, -, rfl⟩ := List.mem_map.mp mem
      rfl
    split
    · rename_i here
      rw [List.filter_eq_self]
      intro row mem
      rw [of row mem, here, beq_self_eq_true]
    · rename_i other
      rw [List.filter_eq_nil_iff]
      intro row mem
      rw [of row mem, beq_iff_eq]
      exact other
  rw [GraphObject.dependencyRows, List.filter_flatMap]
  simp only [own]
  exact flatMap_only g.edgeRows g.topology.keys_nodup key

/-- The dependencies that are left of a surviving task, in their order. -/
theorem GraphObject.edgeRows_ids (t : TaskId) :
    ((g.edgeRows t).filter fun row => lives row.dependencyId).map DependencyRow.dependencyId =
      (g.topology.deps t).filter lives := by
  rw [GraphObject.edgeRows, List.filter_map, List.map_map]
  conv_rhs => rw [← List.zipIdx_map_fst 0 (g.topology.deps t), List.filter_map]
  rfl

/-- The rows of the edges between survivors, picked for one survivor from the ordered list. -/
theorem GraphObject.deps_of_rows {t : TaskId} (key : t ∈ g.topology.keys)
    (survives : lives t = true) :
    ((orderBy (fun row => toLex (row.taskId, toLex (row.position, row.dependencyId)))
        (g.dependencyRows.filter fun row => lives row.taskId && lives row.dependencyId)).filter
          fun row => row.taskId == t).map DependencyRow.dependencyId =
      (g.topology.deps t).filter lives := by
  have picked : ((g.dependencyRows.filter fun row =>
      lives row.taskId && lives row.dependencyId).filter fun row => row.taskId == t) =
        (g.edgeRows t).filter fun row => lives row.dependencyId := by
    rw [← g.dependencyRows_of key, List.filter_filter, List.filter_filter]
    apply List.filter_congr
    intro row _
    by_cases here : row.taskId = t
    · rw [here, survives, beq_self_eq_true, Bool.true_and, Bool.true_and, Bool.and_true]
    · rw [beq_eq_false_iff_ne.mpr here, Bool.false_and, Bool.and_false]
  have ordered : ((g.edgeRows t).filter fun row => lives row.dependencyId).Pairwise fun r s =>
      toLex (r.taskId, toLex (r.position, r.dependencyId)) ≤
        toLex (s.taskId, toLex (s.position, s.dependencyId)) := by
    apply List.Pairwise.filter
    rw [GraphObject.edgeRows, List.pairwise_map]
    refine (zipIdx_ordered _).imp ?_
    intro a b before
    exact Prod.Lex.toLex_le_toLex.mpr
      (.inr ⟨rfl, Prod.Lex.toLex_le_toLex.mpr (.inl before)⟩)
  rw [filter_orderBy _ _ (by rw [picked]; exact ordered), picked]
  exact g.edgeRows_ids lives t

end Rows

/-- The dependency rows of members are sorted into the members' lists. -/
theorem depsByTask_ok (taskRows : List GraphTaskRow) (dependencyRows : List DependencyRow)
    (known : ∀ row ∈ dependencyRows, row.taskId ∈ taskRows.map GraphTaskRow.taskId) :
    ∃ deps, GraphCollection.depsByTask taskRows dependencyRows = .ok deps ∧
      ∀ t ∈ taskRows.map GraphTaskRow.taskId, deps t =
        some ((dependencyRows.filter fun row => row.taskId == t).map DependencyRow.dependencyId) := by
  unfold GraphCollection.depsByTask
  apply foldlM_ok (P := fun done (deps : TaskId → Option (List TaskId)) =>
    ∀ t ∈ taskRows.map GraphTaskRow.taskId,
      deps t = some ((done.filter fun row => row.taskId == t).map DependencyRow.dependencyId))
  · intro done row rest all deps sorted
    have here := sorted row.taskId (known row (by rw [all]; simp))
    rw [here]
    refine ⟨_, rfl, ?_⟩
    intro t member
    rw [List.filter_append, List.map_append]
    by_cases same : t = row.taskId
    · subst same
      simp
    · have other : (row.taskId == t) = false := beq_eq_false_iff_ne.mpr fun h => same h.symm
      rw [if_neg same, sorted t member, List.filter_singleton, other]
      simp
  · intro t member
    rw [if_pos member]
    rfl

/-! ## Loading a graph -/

/-- The database has the rows of `g` for the members that live. -/
structure Written (g : GraphObject D) (lives : TaskId → Bool) (db : Database) : Prop where
  graphRow : db.graphs.find? g.id = some g.graphRow
  taskRows : (db.graphTasks.rows.filter fun row => row.graphId == g.id) =
    g.memberRows.filter fun row => lives row.taskId
  dependencyRows : (db.graphDependencies.rows.filter fun row => row.graphId == g.id) =
    g.dependencyRows.filter fun row => lives row.taskId && lives row.dependencyId

/-- `loaded` is `g` restricted to the members that live, with the task snapshots of the database. -/
structure Restores (g : GraphObject D) (lives : TaskId → Bool) (db : Database)
    (loaded : GraphObject D) : Prop where
  id : loaded.id = g.id
  title : loaded.title = g.title
  createdAt : loaded.createdAt = g.createdAt
  edges : loaded.topology.edges =
    (g.topology.edges.filter fun e => lives e.1).map fun e => (e.1, e.2.filter lives)
  isFinally : ∀ t ∈ loaded.topology.keys, (t ∈ loaded.topology.finallyIds ↔ t ∈ g.topology.finallyIds)
  isOptional : ∀ t ∈ loaded.topology.keys,
    (t ∈ loaded.topology.optionalIds ↔ t ∈ g.topology.optionalIds)
  tasks : ∀ t ∈ loaded.topology.keys, ∃ snapshot,
    TaskCollection.getItem t db = .ok snapshot ∧ loaded.tasks t = some snapshot

/-- The members that live can be read. -/
def Readable (g : GraphObject D) (lives : TaskId → Bool) (db : Database) : Prop :=
  ∀ t ∈ g.topology.keys, lives t = true → ∃ snapshot : TaskObject D,
    TaskCollection.getItem t db = .ok snapshot ∧ snapshot.id = t

/-- What the loop has rebuilt from the rows done so far. -/
structure Rebuilt (g : GraphObject D) (lives : TaskId → Bool) (db : Database)
    (done : List GraphTaskRow) (loaded : GraphObject D) : Prop where
  id : loaded.id = g.id
  title : loaded.title = g.title
  createdAt : loaded.createdAt = g.createdAt
  edges : loaded.topology.edges =
    done.map fun row => (row.taskId, (g.topology.deps row.taskId).filter lives)
  isFinally : ∀ t ∈ done.map GraphTaskRow.taskId,
    (t ∈ loaded.topology.finallyIds ↔ t ∈ g.topology.finallyIds)
  isOptional : ∀ t ∈ done.map GraphTaskRow.taskId,
    (t ∈ loaded.topology.optionalIds ↔ t ∈ g.topology.optionalIds)
  tasks : ∀ t ∈ done.map GraphTaskRow.taskId, ∃ snapshot,
    TaskCollection.getItem t db = .ok snapshot ∧ loaded.tasks t = some snapshot

omit [DateTime D] in
/-- A flag survives its column. -/
theorem toInt_ne_zero (b : Bool) : b.toInt ≠ 0 ↔ b = true := by
  cases b <;> decide

/-- A round whose lookups succeed is one call of `add`. -/
theorem addRow_eq {db : Database} {deps : TaskId → Option (List TaskId)} {row : GraphTaskRow}
    {task : TaskObject D} {ids : List TaskId} {after : List (TaskObject D)}
    (read : TaskCollection.getItem row.taskId db = .ok task)
    (of : GraphCollection.depsOf deps row.taskId = .ok ids)
    (reads : (ids.mapM fun d => TaskCollection.getItem d db) = .ok after) (g : GraphObject D) :
    GraphCollection.addRow db deps g row =
      if row.isFinally ≠ 0 then g.add task after true (row.isOptional = 0)
      else g.add task after := by
  unfold GraphCollection.addRow
  rw [read]
  change Except.bind (GraphCollection.depsOf _ _) _ = _
  rw [of]
  change Except.bind (List.mapM (m := Except StoreError) _ _) _ = _
  rw [reads]
  rfl

/-- One round: the row of a new member adds it with its surviving dependencies and its flags. -/
theorem addRow_rebuilt {g : GraphObject D} {lives : TaskId → Bool} {db : Database}
    (closed : g.Registered) (readable : Readable g lives db)
    {deps : TaskId → Option (List TaskId)} {done : List GraphTaskRow} {row : GraphTaskRow}
    (member : row ∈ g.memberRows) (survives : lives row.taskId = true)
    (after : deps row.taskId = some ((g.topology.deps row.taskId).filter lives))
    (new : row.taskId ∉ done.map GraphTaskRow.taskId) {loaded : GraphObject D}
    (h : Rebuilt g lives db done loaded) :
    ∃ loaded', GraphCollection.addRow db deps loaded row = .ok loaded' ∧
      Rebuilt g lives db (done ++ [row]) loaded' := by
  have key : row.taskId ∈ g.topology.keys := g.memberRows_ids ▸ List.mem_map_of_mem member
  obtain ⟨task, read, id⟩ := readable row.taskId key survives
  obtain ⟨afters, reads, ids⟩ : ∃ afters : List (TaskObject D),
      (((g.topology.deps row.taskId).filter lives).mapM fun d => TaskCollection.getItem d db) =
        .ok afters ∧ afters.map (·.id) = (g.topology.deps row.taskId).filter lives := by
    apply mapM_ok
    intro d mem
    obtain ⟨dep, live⟩ := List.mem_filter.mp mem
    exact readable d (closed row.taskId key d dep) live
  -- the two branches of the round, as one call of `add`
  obtain ⟨isFinally, required, runs, valid, finals, optionals⟩ : ∃ isFinally required,
      GraphCollection.addRow db deps loaded row = loaded.add task afters isFinally required ∧
      (required = false → isFinally = true) ∧
      (isFinally = true ↔ row.taskId ∈ g.topology.finallyIds) ∧
      (isFinally = true ∧ required = false ↔ row.taskId ∈ g.topology.optionalIds) := by
    obtain ⟨m, -, rfl⟩ := List.mem_map.mp member
    have final : (GraphCollection.graphTaskRow g m).isFinally ≠ 0 ↔
        (GraphCollection.graphTaskRow g m).taskId ∈ g.topology.finallyIds :=
      (toInt_ne_zero _).trans decide_eq_true_iff
    have optional : (GraphCollection.graphTaskRow g m).isOptional ≠ 0 ↔
        (GraphCollection.graphTaskRow g m).taskId ∈ g.topology.optionalIds :=
      (toInt_ne_zero _).trans decide_eq_true_iff
    rw [addRow_eq read (by rw [GraphCollection.depsOf, after]) reads]
    by_cases isFinal : (GraphCollection.graphTaskRow g m).isFinally ≠ 0
    · rw [if_pos isFinal]
      refine ⟨true, _, rfl, fun _ => rfl, ⟨fun _ => final.mp isFinal, fun _ => rfl⟩, ?_⟩
      rw [decide_eq_false_iff_not, ← optional]
      simp
    · rw [if_neg isFinal]
      refine ⟨false, true, rfl, by simp, ?_, ?_⟩
      · simpa using fun mem => isFinal (final.mpr mem)
      · simpa using fun mem => isFinal (final.mpr (g.optional_finally _ mem))
  obtain ⟨topology, added⟩ := loaded.topology.add_accepts task.id (afters.map (·.id)) valid
  obtain ⟨loaded', ok, rfl, tasks, sameId, sameTitle, sameDate⟩ := GraphObject.add_ok added
  refine ⟨loaded', runs.trans ok, sameId.trans h.id, sameTitle.trans h.title,
    sameDate.trans h.createdAt, ?_, ?_, ?_, ?_⟩
  · have fresh : task.id ∉ loaded.topology.edges.map Prod.fst := by
      rw [h.edges, List.map_map, id]
      exact new
    have nodup : ((g.topology.deps row.taskId).filter lives).Nodup :=
      (TaskGraph.deps_nodup_of_mem key).filter _
    rw [(TaskGraph.add_ok added).2.1, TaskGraph.setEdge_of_new fresh, ids,
      TaskGraph.uniqueDeps_of_nodup nodup, h.edges, List.map_append, id]
    rfl
  · intro t mem
    rw [TaskGraph.mem_finallyIds_add added, id]
    split
    · rename_i here
      exact here ▸ finals
    · rename_i other
      rw [List.map_append, List.mem_append, List.map_singleton, List.mem_singleton] at mem
      exact h.isFinally t (mem.resolve_right other)
  · intro t mem
    rw [TaskGraph.mem_optionalIds_add added, id]
    split
    · rename_i here
      exact here ▸ optionals
    · rename_i other
      rw [List.map_append, List.mem_append, List.map_singleton, List.mem_singleton] at mem
      exact h.isOptional t (mem.resolve_right other)
  · intro t mem
    rw [tasks, id]
    dsimp only
    split
    · rename_i here
      exact ⟨task, here ▸ read, rfl⟩
    · rename_i other
      rw [List.map_append, List.mem_append, List.map_singleton, List.mem_singleton] at mem
      exact h.tasks t (mem.resolve_right other)

/-- Loading what is written gives the graph restricted to the members that live. -/
theorem getItem_restores {g : GraphObject D} {lives : TaskId → Bool} {db : Database}
    (closed : g.Registered) (written : Written g lives db) (readable : Readable g lives db) :
    ∃ loaded, GraphCollection.getItem g.id db = .ok loaded ∧ Restores g lives db loaded := by
  have taskRows : orderBy (fun row => toLex (row.position, row.taskId))
      (db.graphTasks.rows.filter fun row => row.graphId == g.id) =
        g.memberRows.filter fun row => lives row.taskId := by
    rw [written.taskRows]
    exact orderBy_of_ordered _ (g.memberRows_ordered.filter _)
  have ids : (g.memberRows.filter fun row => lives row.taskId).map GraphTaskRow.taskId =
      g.topology.keys.filter lives := by
    rw [← g.memberRows_ids, List.filter_map]
    rfl
  -- the edges of the members that live, sorted by task
  obtain ⟨deps, sorted, after⟩ := depsByTask_ok
    (g.memberRows.filter fun row => lives row.taskId)
    (orderBy (fun row => toLex (row.taskId, toLex (row.position, row.dependencyId)))
      (g.dependencyRows.filter fun row => lives row.taskId && lives row.dependencyId)) (by
    intro row mem
    obtain ⟨mem, live⟩ := List.mem_filter.mp (mem_orderBy.mp mem)
    obtain ⟨t, key, mem⟩ := List.mem_flatMap.mp mem
    obtain ⟨d, -, rfl⟩ := List.mem_map.mp mem
    rw [ids]
    exact List.mem_filter.mpr ⟨key, (Bool.and_eq_true_iff.mp live).1⟩)
  rw [ids] at after
  -- the members that live are added in the order of their positions, and each finds its
  -- dependencies there
  obtain ⟨loaded, loads, rebuilt⟩ := foldlM_ok (f := GraphCollection.addRow db deps)
    (l := g.memberRows.filter fun row => lives row.taskId)
    (s := .new g.graphRow.id g.graphRow.title g.createdAt) (P := Rebuilt g lives db) (by
      intro done row rest all loaded h
      obtain ⟨member, survives⟩ := List.mem_filter.mp (by rw [all]; simp :
        row ∈ g.memberRows.filter fun row => lives row.taskId)
      have key : row.taskId ∈ g.topology.keys := g.memberRows_ids ▸ List.mem_map_of_mem member
      have distinct := g.topology.keys_nodup.filter lives
      rw [← TaskGraph.keys, ← ids, all] at distinct
      refine addRow_rebuilt closed readable member survives ?_ (key_fresh distinct) h
      rw [after row.taskId (List.mem_filter.mpr ⟨key, survives⟩), g.deps_of_rows lives key survives])
    ⟨rfl, rfl, rfl, rfl, by simp, by simp, by simp⟩
  have keys : loaded.topology.keys =
      (g.memberRows.filter fun row => lives row.taskId).map GraphTaskRow.taskId := by
    rw [TaskGraph.keys, rebuilt.edges, List.map_map]
    rfl
  refine ⟨loaded, ?_, rebuilt.id, rebuilt.title, rebuilt.createdAt, ?_,
    fun t mem => rebuilt.isFinally t (keys ▸ mem), fun t mem => rebuilt.isOptional t (keys ▸ mem),
    fun t mem => rebuilt.tasks t (keys ▸ mem)⟩
  -- the load is these two loops, on the rows that the save wrote
  · unfold GraphCollection.getItem
    rw [written.graphRow]
    have date : readDate g.graphRow.createdAt = .ok g.createdAt := readDate_isoformat _
    dsimp only
    rw [taskRows, written.dependencyRows, date]
    change Except.bind (GraphCollection.depsByTask _ _) _ = _
    rw [sorted]
    exact loads
  · rw [rebuilt.edges, g.topology.edges_eq, List.filter_map, List.map_map]
    have split : ((g.memberRows.filter fun row => lives row.taskId).map fun row =>
        (row.taskId, (g.topology.deps row.taskId).filter lives)) =
          (g.topology.keys.filter lives).map fun t => (t, (g.topology.deps t).filter lives) := by
      rw [← ids, List.map_map]
      rfl
    exact split

/-! ## Other graphs -/

/-- Loading looks at the rows of the graph and at the tasks only. -/
theorem graph_getItem_congr {db db' : Database} {id : String}
    (graphs : db'.graphs.find? id = db.graphs.find? id)
    (taskRows : (db'.graphTasks.rows.filter fun row => row.graphId == id) =
      db.graphTasks.rows.filter fun row => row.graphId == id)
    (dependencyRows : (db'.graphDependencies.rows.filter fun row => row.graphId == id) =
      db.graphDependencies.rows.filter fun row => row.graphId == id)
    (tasks : ∀ t, TaskCollection.getItem (D := D) t db' = TaskCollection.getItem t db) :
    GraphCollection.getItem (D := D) id db' = GraphCollection.getItem id db := by
  have rounds : GraphCollection.addRow (D := D) db' = GraphCollection.addRow db := by
    funext deps g row
    unfold GraphCollection.addRow
    simp only [tasks]
  unfold GraphCollection.getItem
  rw [graphs, taskRows, dependencyRows, rounds]

/-- Two graph objects that differ in their task objects at most. -/
structure SameGraph (g g' : GraphObject D) : Prop where
  id : g'.id = g.id
  title : g'.title = g.title
  createdAt : g'.createdAt = g.createdAt
  topology : g'.topology = g.topology

/-- A graph whose rows are untouched, and whose members can still be read, loads as before up to the
task snapshots. -/
theorem getItem_frame {db db' : Database} {id : String} {g : GraphObject D}
    (graphs : db'.graphs.find? id = db.graphs.find? id)
    (taskRows : (db'.graphTasks.rows.filter fun row => row.graphId == id) =
      db.graphTasks.rows.filter fun row => row.graphId == id)
    (dependencyRows : (db'.graphDependencies.rows.filter fun row => row.graphId == id) =
      db.graphDependencies.rows.filter fun row => row.graphId == id)
    (tasks : ∀ t (task : TaskObject D), TaskCollection.getItem t db = .ok task →
      ∃ task' : TaskObject D, TaskCollection.getItem t db' = .ok task' ∧ task'.id = t)
    (loads : GraphCollection.getItem id db = .ok g) :
    ∃ g', GraphCollection.getItem id db' = .ok g' ∧ SameGraph g g' := by
  unfold GraphCollection.getItem at loads ⊢
  rw [graphs, taskRows, dependencyRows]
  cases found : db.graphs.find? id with
  | none =>
    rw [found] at loads
    cases loads
  | some graphRow =>
    rw [found] at loads
    obtain ⟨createdAt, date, loads⟩ := bind_ok loads
    obtain ⟨deps, sorted, loads⟩ := bind_ok loads
    dsimp only
    rw [date]
    change ∃ g', Except.bind (GraphCollection.depsByTask _ _) _ = .ok g' ∧ _
    rw [sorted]
    refine foldlM_simulates (R := SameGraph) ?_ ⟨rfl, rfl, rfl, rfl⟩ loads
    intro row _ g₁ g₂ g₁' same added
    unfold GraphCollection.addRow at added
    obtain ⟨task, read, added⟩ := bind_ok added
    obtain ⟨ids, of, added⟩ := bind_ok added
    obtain ⟨after, reads, added⟩ := bind_ok added
    obtain ⟨task', read', id'⟩ := tasks _ _ read
    obtain ⟨after', reads', ids'⟩ : ∃ after' : List (TaskObject D),
        (ids.mapM fun d => TaskCollection.getItem d db') = .ok after' ∧ after'.map (·.id) = ids := by
      apply mapM_ok
      intro d mem
      obtain ⟨dep, there⟩ := mapM_found reads d mem
      exact tasks d dep there
    obtain ⟨again, reads₂, ids₂⟩ : ∃ again : List (TaskObject D),
        (ids.mapM fun d => TaskCollection.getItem d db) = .ok again ∧ again.map (·.id) = ids := by
      apply mapM_ok
      intro d mem
      obtain ⟨dep, there⟩ := mapM_found reads d mem
      exact ⟨dep, there, getItem_id there⟩
    rw [reads] at reads₂
    cases reads₂
    rw [addRow_eq read' of reads']
    -- the two objects are added to one topology, under one id and behind one list of ids
    have one : ∀ isFinally required, g₁.add task after isFinally required = .ok g₁' →
        ∃ g₂', g₂.add task' after' isFinally required = .ok g₂' ∧ SameGraph g₁' g₂' := by
      intro isFinally required added
      obtain ⟨accepted, idₐ, titleₐ, dateₐ⟩ := GraphObject.topology_of_add added
      rw [getItem_id read, ids₂, ← id', ← ids', ← same.topology] at accepted
      obtain ⟨g₂', ok, topology, -, idᵦ, titleᵦ, dateᵦ⟩ := GraphObject.add_ok accepted
      exact ⟨g₂', ok, idᵦ.trans (same.id.trans idₐ.symm), titleᵦ.trans (same.title.trans titleₐ.symm),
        dateᵦ.trans (same.createdAt.trans dateₐ.symm), topology⟩
    by_cases final : row.isFinally ≠ 0
    · rw [if_pos final] at added ⊢
      exact one _ _ added
    · rw [if_neg final] at added ⊢
      exact one _ _ added

/-! ## Saving and loading -/

omit [DateTime D] in
/-- The membership rows are the graph's own. -/
theorem GraphObject.memberRows_own (g : GraphObject D) : ∀ row ∈ g.memberRows, row.graphId = g.id := by
  intro row mem
  obtain ⟨_, -, rfl⟩ := List.mem_map.mp mem
  rfl

omit [DateTime D] in
/-- The dependency rows are the graph's own. -/
theorem GraphObject.dependencyRows_own (g : GraphObject D) :
    ∀ row ∈ g.dependencyRows, row.graphId = g.id := by
  intro row mem
  obtain ⟨_, -, mem⟩ := List.mem_flatMap.mp mem
  obtain ⟨_, -, rfl⟩ := List.mem_map.mp mem
  rfl

/-- A graph's rows after they were replaced: its own are the new ones, another's are the old. -/
theorem filter_replaced {ρ : Type} (graphId : ρ → String) {id : String} {old new : List ρ}
    (own : ∀ row ∈ new, graphId row = id) (k : String) :
    (((old.filter fun row => !(graphId row == id)) ++ new).filter fun row => graphId row == k) =
      if k = id then new else old.filter fun row => graphId row == k := by
  rw [List.filter_append, List.filter_filter]
  by_cases here : k = id
  · subst here
    have none_old : (old.filter fun row => (graphId row == k) && !(graphId row == k)) = [] := by
      simp
    have all_new : (new.filter fun row => graphId row == k) = new := by
      rw [List.filter_eq_self]
      intro row mem
      rw [own row mem, beq_self_eq_true]
    rw [if_pos rfl, none_old, all_new, List.nil_append]
  · have no_new : (new.filter fun row => graphId row == k) = [] := by
      rw [List.filter_eq_nil_iff]
      intro row mem
      rw [own row mem, beq_iff_eq]
      exact fun same => here same.symm
    rw [if_neg here, no_new, List.append_nil]
    apply List.filter_congr
    intro row _
    by_cases same : graphId row = k
    · rw [same, beq_self_eq_true, beq_eq_false_iff_ne.mpr here]
      rfl
    · rw [beq_eq_false_iff_ne.mpr same]
      rfl

namespace Writes

variable {g : GraphObject D} {db db' : Database}

/-- After a save the graph's membership rows are the saved ones, and the other graphs' are
untouched. -/
theorem taskRows (h : Writes g db db') (k : String) :
    (db'.graphTasks.rows.filter fun row => row.graphId == k) =
      if k = g.id then g.memberRows else db.graphTasks.rows.filter fun row => row.graphId == k := by
  rw [h.graphTasks]
  exact filter_replaced GraphTaskRow.graphId g.memberRows_own k

/-- After a save the graph's dependency rows are the saved ones, and the other graphs' are
untouched. -/
theorem dependencyRows (h : Writes g db db') (k : String) :
    (db'.graphDependencies.rows.filter fun row => row.graphId == k) =
      if k = g.id then g.dependencyRows
      else db.graphDependencies.rows.filter fun row => row.graphId == k := by
  rw [h.graphDependencies]
  exact filter_replaced DependencyRow.graphId g.dependencyRows_own k

/-- A graph that was saved has all its rows. -/
theorem written (h : Writes g db db') : Written g (fun _ => true) db' where
  graphRow := by rw [h.graphs, if_pos rfl]
  taskRows := by rw [h.taskRows, if_pos rfl, List.filter_true]
  dependencyRows := by
    rw [h.dependencyRows, if_pos rfl, Bool.and_self, List.filter_true]

/-- Its members read as their snapshots, and other tasks as before. -/
theorem getItem_member (h : Writes g db db') {task : TaskObject D} (member : task ∈ g.members) :
    TaskCollection.getItem task.id db' = .ok task.dropRaw := (h.stored task member).getItem

/-- Tasks that are no members are read as before. -/
theorem getItem_other (h : Writes g db db') {t : TaskId} (other : t ∉ g.topology.keys) :
    TaskCollection.getItem (D := D) t db' = TaskCollection.getItem t db :=
  getItem_congr (h.tasks_other t other) (h.results_other t other)

/-- What could be read before can be read after. -/
theorem still_reads (h : Writes g db db') {t : TaskId} {task : TaskObject D}
    (read : TaskCollection.getItem t db = .ok task) :
    ∃ task' : TaskObject D, TaskCollection.getItem t db' = .ok task' ∧ task'.id = t := by
  by_cases key : t ∈ g.topology.keys
  · obtain ⟨member, mem, rfl⟩ := GraphObject.member_of_key key
    exact ⟨member.dropRaw, h.getItem_member mem, rfl⟩
  · exact ⟨task, (h.getItem_other key).trans read, getItem_id read⟩

end Writes

/-- The same members in the same order, with the same edges, flags and snapshots. -/
structure RoundTrip (g loaded : GraphObject D) : Prop where
  id : loaded.id = g.id
  title : loaded.title = g.title
  createdAt : loaded.createdAt = g.createdAt
  members : loaded.members = g.members.map TaskObject.dropRaw
  edges : loaded.topology.edges = g.topology.edges
  isFinally : ∀ task ∈ g.members, loaded.isFinally task = g.isFinally task
  isOptional : ∀ task ∈ g.members, loaded.isOptional task = g.isOptional task

/-- All members live and read as their snapshots. -/
theorem Restores.roundTrip {g loaded : GraphObject D} {db : Database}
    (h : Restores g (fun _ => true) db loaded)
    (reads : ∀ task ∈ g.members, TaskCollection.getItem task.id db = .ok task.dropRaw) :
    RoundTrip g loaded := by
  have edges : loaded.topology.edges = g.topology.edges := by
    rw [h.edges, List.filter_true]
    simp
  have keys : loaded.topology.keys = g.topology.keys := congrArg (List.map Prod.fst) edges
  refine ⟨h.id, h.title, h.createdAt, ?_, edges, ?_, ?_⟩
  · rw [GraphObject.members, GraphObject.members, keys, List.map_filterMap]
    apply List.filterMap_congr
    intro t key
    obtain ⟨member, mem, rfl⟩ := GraphObject.member_of_key key
    obtain ⟨snapshot, read, here⟩ := h.tasks member.id (keys ▸ key)
    rw [reads member mem] at read
    cases read
    rw [here, GraphObject.mem_members.mp mem]
    rfl
  · intro task mem
    exact Bool.eq_iff_iff.mpr (by
      simpa [GraphObject.isFinally, TaskGraph.isFinally] using
        h.isFinally task.id (keys ▸ GraphObject.key_of_member mem))
  · intro task mem
    exact Bool.eq_iff_iff.mpr (by
      simpa [GraphObject.isOptional] using
        h.isOptional task.id (keys ▸ GraphObject.key_of_member mem))

/-- Whatever was stored before: a graph whose dependencies are registered loads as it was saved, and
every other graph keeps its topology; one with an unregistered dependency is refused, and no table
changes. -/
theorem save_then_load (g : GraphObject D) (db : Database) :
    (g.Registered → ∃ db', GraphCollection.save g db = (.ok (), db') ∧
      (∃ loaded, GraphCollection.getItem g.id db' = .ok loaded ∧ RoundTrip g loaded) ∧
      ∀ id ≠ g.id, ∀ old : GraphObject D, GraphCollection.getItem id db = .ok old →
        ∃ new, GraphCollection.getItem id db' = .ok new ∧ SameGraph old new) ∧
    (¬ g.Registered → ∃ d ∉ g.topology.keys,
      GraphCollection.save g db = (.error (.keyError d), db)) := by
  have saves : GraphCollection.save g db = connect (GraphCollection.write g) db := by
    rw [GraphCollection.save, GraphCollection.setItem, if_neg (by simp)]
  rw [saves]
  rcases write_cases g db with ⟨db', ok, writes, closed⟩ | ⟨d, missing, opens, failed⟩
  · refine ⟨fun _ => ⟨db', connect_ok ok, ?_, ?_⟩, fun opens => absurd closed opens⟩
    · have readable : Readable g (fun _ => true) db' := by
        intro t key _
        obtain ⟨member, mem, rfl⟩ := GraphObject.member_of_key key
        exact ⟨member.dropRaw, writes.getItem_member mem, rfl⟩
      obtain ⟨loaded, loads, restores⟩ := getItem_restores closed writes.written readable
      exact ⟨loaded, loads, restores.roundTrip fun _ => writes.getItem_member⟩
    · intro id other old loads
      refine getItem_frame ?_ ?_ ?_ (fun _ _ => writes.still_reads) loads
      · rw [writes.graphs, if_neg other]
      · rw [writes.taskRows, if_neg other]
      · rw [writes.dependencyRows, if_neg other]
  · exact ⟨fun closed => absurd closed opens, fun _ => ⟨d, missing, connect_error failed⟩⟩

end TTasks.Sqlite
