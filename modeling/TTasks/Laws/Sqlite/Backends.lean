import TTasks.Memory
import TTasks.Laws.Sqlite.History

/-!
# Two stores over one history

The calls of a history made alike on a `SQLiteStore` and on an `InMemoryStore`. What a history leaves
in tables (`Contents`) follows the dicts in its graphs, but it has the members of a saved graph among
its tasks, and it forgets the memberships of a deleted task. So the two stores agree as long as every
graph is saved with members that are stored already, and no stored graph loses a member.
-/

namespace TTasks.Sqlite

open Relational
open Memory (InMemoryStore)

variable {D : Type} [DateTime D]

/-! ## The calls on both stores -/

omit [DateTime D] in
/-- The call on a store in memory. -/
def StoreCall.runMemory (c : StoreCall D) (mem : InMemoryStore D) :
    Except StoreError Unit × InMemoryStore D :=
  match c with
  | saveTask task =>
    let (outcome, tasks) := Memory.TaskCollection.save task mem.tasks
    (outcome, { mem with tasks })
  | deleteTask id =>
    let (outcome, tasks) := Memory.TaskCollection.delItem id mem.tasks
    (outcome, { mem with tasks })
  | saveGraph g _ =>
    let (outcome, graphs) := Memory.GraphCollection.save g mem.graphs
    (outcome, { mem with graphs })
  | deleteGraph id =>
    let (outcome, graphs) := Memory.GraphCollection.delItem id mem.graphs
    (outcome, { mem with graphs })

/-- The member ids of a graph that was read, each with its dependency ids. -/
def readBack (read : Except StoreError (GraphObject D)) : Option (List (TaskId × List TaskId)) :=
  read.toOption.map fun g => g.topology.edges

/-- The two stores hold the same ids, and their graphs read alike. -/
structure Agree (db : Database) (mem : InMemoryStore D) : Prop where
  tasks : ∀ t, t ∈ TaskCollection.iter db ↔ t ∈ Memory.TaskCollection.iter mem.tasks
  graphs : ∀ k, k ∈ GraphCollection.iter db ↔ k ∈ Memory.GraphCollection.iter mem.graphs
  reads : ∀ k, readBack (GraphCollection.getItem (D := D) k db) =
    readBack (Memory.GraphCollection.getItem k mem.graphs)

/-- The two stores agree now and after every call of a history, and every call has the same outcome
on both. -/
def AgreeThrough (db : Database) (mem : InMemoryStore D) : List (StoreCall D) → Prop
  | [] => Agree db mem
  | c :: calls => Agree db mem ∧ (c.run db).1 = (c.runMemory mem).1 ∧
    AgreeThrough (c.run db).2 (c.runMemory mem).2 calls

omit [DateTime D] in
/-- The ids whose deletion has been called for since each graph was last saved. -/
def StoreCall.deleted (c : StoreCall D) (gone : String → List TaskId) :
    Unit × (String → List TaskId) :=
  match c with
  | saveGraph g _ => ((), Function.update gone g.id [])
  | deleteTask id => ((), fun k => id :: gone k)
  | _ => ((), gone)

omit [DateTime D] in
/-- Those of a history. -/
def deletedSince (calls : List (StoreCall D)) : String → List TaskId :=
  (session StoreCall.deleted calls fun _ => []).2

/-- The edges of a graph without some of its members. -/
def edgesWithout (gone : List TaskId) (g : TaskGraph) : List (TaskId × List TaskId) :=
  (g.edges.filter fun e => e.1 ∉ gone).map fun e => (e.1, e.2.filter (· ∉ gone))

omit [DateTime D] in
/-- The call saves a graph whose members are all stored, or deletes no member of a stored graph. -/
def StoreCall.Careful (c : StoreCall D) (mem : InMemoryStore D) : Prop :=
  match c with
  | saveGraph g _ => ∀ t ∈ g.topology.keys, t ∈ Memory.TaskCollection.iter mem.tasks
  | deleteTask id => id ∈ Memory.TaskCollection.iter mem.tasks →
    ∀ k g, mem.graphs.find? k = some g → id ∉ g.topology.keys
  | _ => True

omit [DateTime D] in
/-- Every call of a history is careful when its turn comes. -/
def CarefulThrough (mem : InMemoryStore D) : List (StoreCall D) → Prop
  | [] => True
  | c :: calls => c.Careful mem ∧ CarefulThrough (c.runMemory mem).2 calls

/-! ## What the dicts hold -/

section Dicts

variable {mem : InMemoryStore D}

omit [DateTime D]

/-- The in-memory tasks are iterated by their ids. -/
theorem mem_iter {t : TaskId} :
    t ∈ Memory.TaskCollection.iter mem.tasks ↔ (mem.tasks.find? t).isSome = true :=
  Table.mem_keys_iff

/-- The in-memory graphs are iterated by their ids. -/
theorem mem_graph_iter {k : String} :
    k ∈ Memory.GraphCollection.iter mem.graphs ↔ (mem.graphs.find? k).isSome = true :=
  Table.mem_keys_iff

/-- Saving a task in memory puts the object itself into the dict. -/
theorem runMemory_saveTask (task : TaskObject D) (mem : InMemoryStore D) :
    (StoreCall.saveTask task).runMemory mem = (.ok (), { mem with tasks := mem.tasks.put task }) := by
  simp [StoreCall.runMemory, Memory.TaskCollection.save, Memory.TaskCollection.setItem]

/-- Saving a graph in memory puts the object itself into the dict. -/
theorem runMemory_saveGraph (g : GraphObject D) (closed : g.Registered) (mem : InMemoryStore D) :
    (StoreCall.saveGraph g closed).runMemory mem =
      (.ok (), { mem with graphs := mem.graphs.put g }) := by
  simp [StoreCall.runMemory, Memory.GraphCollection.save, Memory.GraphCollection.setItem]

/-- Deleting a task in memory, which is refused for an id that is not there. -/
theorem runMemory_deleteTask (id : TaskId) (mem : InMemoryStore D) :
    (StoreCall.deleteTask id).runMemory mem = match mem.tasks.find? id with
      | none => (.error (.keyError id), mem)
      | some _ => (.ok (), { mem with tasks := mem.tasks.deleteWhere fun task => task.id == id }) := by
  simp only [StoreCall.runMemory, Memory.TaskCollection.delItem]
  cases mem.tasks.find? id <;> rfl

/-- Deleting a graph in memory, which is refused for an id that is not there. -/
theorem runMemory_deleteGraph (id : String) (mem : InMemoryStore D) :
    (StoreCall.deleteGraph (D := D) id).runMemory mem = match mem.graphs.find? id with
      | none => (.error (.keyError id), mem)
      | some _ => (.ok (), { mem with graphs := mem.graphs.deleteWhere fun g => g.id == id }) := by
  simp only [StoreCall.runMemory, Memory.GraphCollection.delItem]
  cases mem.graphs.find? id <;> rfl

end Dicts

/-! ## Every history -/

/-- The dicts hold the graphs as last saved, and no task that the tables lack. -/
structure Follows (mem : InMemoryStore D) (s : Contents D) : Prop where
  graphs : ∀ k, mem.graphs.find? k = (s.graphs k).map Prod.fst
  tasks : ∀ t, (mem.tasks.find? t).isSome = true → (s.tasks t).isSome = true

section Follows

variable {mem : InMemoryStore D} {s : Contents D} {db : Database}

omit [DateTime D]

/-- Two empty stores. -/
theorem Follows.empty : Follows ({} : InMemoryStore D) Contents.empty :=
  ⟨fun _ => rfl, fun _ there => there⟩

/-- Saving a task on both sides. -/
theorem Follows.saveTask (h : Follows mem s) (task : TaskObject D) :
    Follows { mem with tasks := mem.tasks.put task }
      { s with tasks := Function.update s.tasks task.id (some task.dropRaw) } where
  graphs := h.graphs
  tasks t there := by
    change (Function.update s.tasks task.id _ t).isSome = true
    by_cases here : t = task.id
    · rw [here, Function.update_self]
      rfl
    · rw [Function.update_of_ne here]
      rw [Table.find?_put, if_neg here] at there
      exact h.tasks t there

/-- Saving a graph on both sides; the tables take in its tasks as well. -/
theorem Follows.saveGraph (h : Follows mem s) (g : GraphObject D) :
    Follows { mem with graphs := mem.graphs.put g }
      { tasks := fun t => ((g.tasks t).map TaskObject.dropRaw).or (s.tasks t)
        graphs := Function.update s.graphs g.id (some (g, fun _ => true)) } where
  graphs k := by
    change (mem.graphs.put g).find? k = (Function.update s.graphs g.id _ k).map Prod.fst
    rw [Table.find?_put]
    by_cases here : k = g.id
    · rw [if_pos here, here, Function.update_self]
      rfl
    · rw [if_neg here, Function.update_of_ne here]
      exact h.graphs k
  tasks t there := by
    rw [Option.isSome_or, h.tasks t there, Bool.or_true]

/-- Deleting a graph on both sides. -/
theorem Follows.deleteGraph (h : Follows mem s) (id : String) :
    Follows { mem with graphs := mem.graphs.deleteWhere fun g => g.id == id }
      { s with graphs := Function.update s.graphs id none } where
  graphs k := by
    change (mem.graphs.deleteWhere fun g => g.id == id).find? k =
      (Function.update s.graphs id none k).map Prod.fst
    rw [find?_deleteBy]
    by_cases here : k = id
    · rw [if_pos here, here, Function.update_self]
      rfl
    · rw [if_neg here, Function.update_of_ne here]
      exact h.graphs k
  tasks := h.tasks

/-- A task goes from the tables, and from the dict if it is there. -/
theorem Follows.deleteTask (h : Follows mem s) (id : TaskId) {tasks : Memory.Tasks D}
    (rest : ∀ t, (tasks.find? t).isSome = true → t ≠ id ∧ (mem.tasks.find? t).isSome = true) :
    Follows { mem with tasks }
      { tasks := Function.update s.tasks id none
        graphs := fun k => (s.graphs k).map fun p => (p.1, fun t => p.2 t && !(t == id)) } where
  graphs k := by
    change mem.graphs.find? k = ((s.graphs k).map _).map Prod.fst
    rw [h.graphs k, Option.map_map]
    rfl
  tasks t there := by
    obtain ⟨other, old⟩ := rest t there
    change (Function.update s.tasks id none t).isSome = true
    rw [Function.update_of_ne other]
    exact h.tasks t old

/-- The ids that are left in the dict. -/
theorem isSome_deleteWhere (tasks : Memory.Tasks D) (id t : TaskId) :
    ((tasks.deleteWhere fun task => task.id == id).find? t).isSome = true ↔
      t ≠ id ∧ (tasks.find? t).isSome = true := by
  rw [find?_deleteBy]
  by_cases here : t = id
  · simp [here]
  · simp [here]

/-- Each call keeps the dicts in step with what the tables mean, by cases on the call. -/
theorem Follows.step (h : Follows mem s) (c : StoreCall D) :
    Follows (c.runMemory mem).2 (c.meaning s).2 := by
  cases c with
  | saveTask task =>
    rw [runMemory_saveTask]
    exact h.saveTask task
  | saveGraph g closed =>
    rw [runMemory_saveGraph]
    exact h.saveGraph g
  | deleteGraph id =>
    have same := h.graphs id
    rw [runMemory_deleteGraph]
    unfold StoreCall.meaning
    cases stored : s.graphs id with
    | none =>
      rw [stored] at same
      simp only [same, stored, Option.map_none]
      exact h
    | some p =>
      rw [stored] at same
      simp only [same, stored, Option.map_some]
      exact h.deleteGraph id
  | deleteTask id =>
    have known := h.tasks id
    rw [runMemory_deleteTask]
    unfold StoreCall.meaning
    cases there : mem.tasks.find? id with
    | none =>
      cases stored : s.tasks id with
      | none =>
        simp only [stored]
        exact h
      | some snapshot =>
        simp only [stored]
        refine h.deleteTask id fun t has => ⟨?_, has⟩
        rintro rfl
        rw [there] at has
        cases has
    | some task =>
      rw [there] at known
      obtain ⟨snapshot, stored⟩ := Option.isSome_iff_exists.mp (known rfl)
      simp only [stored]
      exact h.deleteTask id fun t has => (isSome_deleteWhere mem.tasks id t).mp has

end Follows

/-! ## Members that are gone -/

/-- A member of a stored graph lives if its deletion has not been called for since the graph was last
saved, and then it is a stored task. -/
def Lasting (s : Contents D) (gone : String → List TaskId) : Prop :=
  ∀ k g lives, s.graphs k = some (g, lives) → ∀ t ∈ g.topology.keys,
    lives t = decide (t ∉ gone k) ∧ (lives t = true → (s.tasks t).isSome = true)

section Lasting

variable {s : Contents D} {gone : String → List TaskId}

omit [DateTime D]

/-- With no graph stored, no member is gone. -/
theorem Lasting.empty : Lasting (Contents.empty : Contents D) fun _ => [] := nofun

/-- A deletion that is refused concerns no member that lives. -/
theorem Lasting.refused (h : Lasting s gone) {id : TaskId} (none : s.tasks id = none) :
    Lasting s fun k => id :: gone k := by
  intro k g lives stored t key
  obtain ⟨live, there⟩ := h k g lives stored t key
  refine ⟨?_, there⟩
  by_cases here : t = id
  · subst here
    have dead : lives t = false := by
      rw [none] at there
      exact Bool.eq_false_iff.mpr fun live => Bool.false_ne_true (there live)
    simp [dead]
  · simp [live, here]

/-- A deletion that goes through takes the task out of every graph. -/
theorem Lasting.deleteTask (h : Lasting s gone) (id : TaskId) :
    Lasting
      { tasks := Function.update s.tasks id none
        graphs := fun k => (s.graphs k).map fun p => (p.1, fun t => p.2 t && !(t == id)) }
      fun k => id :: gone k := by
  intro k g lives stored t key
  obtain ⟨⟨g', lives'⟩, old, same⟩ := Option.map_eq_some_iff.mp stored
  cases same
  obtain ⟨live, there⟩ := h k g' lives' old t key
  change (lives' t && !(t == id)) = _ ∧
    ((lives' t && !(t == id)) = true → (Function.update s.tasks id none t).isSome = true)
  by_cases here : t = id
  · simp [here]
  · rw [Function.update_of_ne here]
    simp only [beq_eq_false_iff_ne.mpr here, Bool.not_false, Bool.and_true]
    exact ⟨by simp [live, here], there⟩

/-- Saving a graph brings back all of its own members, and nobody else's. -/
theorem Lasting.saveGraph (h : Lasting s gone) (g : GraphObject D) :
    Lasting
      { tasks := fun t => ((g.tasks t).map TaskObject.dropRaw).or (s.tasks t)
        graphs := Function.update s.graphs g.id (some (g, fun _ => true)) }
      (Function.update gone g.id []) := by
  intro k g' lives stored t key
  change Function.update s.graphs g.id _ k = _ at stored
  change _ ∧ (lives t = true → (((g.tasks t).map TaskObject.dropRaw).or (s.tasks t)).isSome = true)
  by_cases here : k = g.id
  · rw [here, Function.update_self] at stored ⊢
    cases stored
    refine ⟨by simp, fun _ => ?_⟩
    rw [Option.isSome_or, Option.isSome_map, (g.tasks_isSome t).mpr key, Bool.true_or]
  · rw [Function.update_of_ne here] at stored ⊢
    obtain ⟨live, there⟩ := h k g' lives stored t key
    refine ⟨live, fun alive => ?_⟩
    rw [Option.isSome_or, there alive, Bool.or_true]

/-- Each call keeps the account of the members that are gone. -/
theorem Lasting.step (h : Lasting s gone) (c : StoreCall D) :
    Lasting (c.meaning s).2 (c.deleted gone).2 := by
  cases c with
  | saveTask task =>
    intro k g lives stored t key
    obtain ⟨live, there⟩ := h k g lives stored t key
    refine ⟨live, fun alive => ?_⟩
    change (Function.update s.tasks task.id _ t).isSome = true
    by_cases here : t = task.id
    · rw [here, Function.update_self]
      rfl
    · rw [Function.update_of_ne here]
      exact there alive
  | saveGraph g closed => exact h.saveGraph g
  | deleteTask id =>
    unfold StoreCall.meaning
    cases stored : s.tasks id with
    | none =>
      simp only [stored]
      exact h.refused stored
    | some snapshot =>
      simp only [stored]
      exact h.deleteTask id
  | deleteGraph id =>
    unfold StoreCall.meaning
    cases stored : s.graphs id with
    | none =>
      simp only [stored]
      exact h
    | some p =>
      simp only [stored]
      intro k g lives there t key
      change Function.update s.graphs id none k = _ at there
      by_cases here : k = id
      · rw [here, Function.update_self] at there
        cases there
      · rw [Function.update_of_ne here] at there
        exact h k g lives there t key

/-- So the members that live are all but those. -/
theorem Lasting.edges (h : Lasting s gone) {k : String} {g : GraphObject D} {lives : TaskId → Bool}
    (stored : s.graphs k = some (g, lives)) (closed : g.Registered) :
    ((g.topology.edges.filter fun e => lives e.1).map fun e => (e.1, e.2.filter lives)) =
      edgesWithout (gone k) g.topology := by
  have live : ∀ t ∈ g.topology.keys, lives t = decide (t ∉ gone k) := fun t key =>
    (h k g lives stored t key).1
  have members : (g.topology.edges.filter fun e => lives e.1) =
      g.topology.edges.filter fun e => e.1 ∉ gone k :=
    List.filter_congr fun e mem => live e.1 (List.mem_map_of_mem mem)
  rw [edgesWithout, members]
  apply List.map_congr_left
  intro e mem
  have edge := (List.mem_filter.mp mem).1
  rw [g.topology.edges_eq] at edge
  obtain ⟨t, key, rfl⟩ := List.mem_map.mp edge
  exact congrArg (Prod.mk t) (List.filter_congr fun d dep => live d (closed t key d dep))

end Lasting

/-! ## Careful histories -/

/-- The dicts hold the tasks that the tables hold, and no stored graph has lost a member. -/
structure Level (mem : InMemoryStore D) (s : Contents D) : Prop extends Follows mem s where
  same : ∀ t, (s.tasks t).isSome = true → (mem.tasks.find? t).isSome = true
  whole : ∀ k g lives, s.graphs k = some (g, lives) → ∀ t ∈ g.topology.keys, lives t = true

section Level

variable {mem : InMemoryStore D} {s : Contents D} {db : Database}

omit [DateTime D] in
/-- Two empty stores hold the same. -/
theorem Level.empty : Level ({} : InMemoryStore D) Contents.empty :=
  ⟨Follows.empty, fun _ there => there, nofun⟩

omit [DateTime D] in
/-- A graph none of whose members is gone is whole. -/
theorem edges_filter_whole {g : GraphObject D} (closed : g.Registered) {lives : TaskId → Bool}
    (whole : ∀ t ∈ g.topology.keys, lives t = true) :
    ((g.topology.edges.filter fun e => lives e.1).map fun e => (e.1, e.2.filter lives)) =
      g.topology.edges := by
  have kept : (g.topology.edges.filter fun e => lives e.1) = g.topology.edges := by
    rw [List.filter_eq_self]
    intro e mem
    exact whole e.1 (List.mem_map_of_mem mem)
  rw [kept, g.topology.edges_eq, List.map_map]
  apply List.map_congr_left
  intro t key
  have deps : (g.topology.deps t).filter lives = g.topology.deps t := by
    rw [List.filter_eq_self]
    exact fun d dep => whole d (closed t key d dep)
  rw [Function.comp_apply, deps]

omit [DateTime D] in
/-- A graph is read back in memory as it was saved. -/
theorem getItem_memory (h : Follows mem s) (k : String) :
    readBack (Memory.GraphCollection.getItem k mem.graphs) =
      (s.graphs k).map fun p => p.1.topology.edges := by
  unfold Memory.GraphCollection.getItem
  rw [h.graphs k]
  cases s.graphs k <;> rfl

/-- What the tables read back: the graph as last saved, without the members that are gone. -/
theorem Represents.readBack (h : Represents db s) (k : String) :
    readBack (GraphCollection.getItem (D := D) k db) = (s.graphs k).map fun p =>
      (p.1.topology.edges.filter fun e => p.2 e.1).map fun e => (e.1, e.2.filter p.2) := by
  cases stored : s.graphs k with
  | none =>
    unfold GraphCollection.getItem
    rw [h.absent k stored]
    rfl
  | some p =>
    obtain ⟨loaded, loads, restores⟩ := h.getItem stored
    rw [loads]
    exact congrArg some restores.edges

/-- The stores agree where nothing is gone. -/
theorem Level.agree (level : Level mem s) (h : Represents db s) : Agree db mem where
  tasks t := by
    rw [h.mem_iter, Sqlite.mem_iter]
    exact ⟨level.same t, level.tasks t⟩
  graphs k := by
    rw [h.mem_graph_iter, Sqlite.mem_graph_iter, level.graphs k, Option.isSome_map]
  reads k := by
    rw [h.readBack, getItem_memory level.toFollows]
    cases stored : s.graphs k with
    | none => rfl
    | some p =>
      obtain ⟨g, lives⟩ := p
      exact congrArg some (edges_filter_whole (h.closed k g lives stored) (level.whole k g lives stored))

omit [DateTime D] in
/-- A careful call has one outcome on both stores and leaves them level. -/
theorem Level.step (level : Level mem s) {c : StoreCall D} (careful : c.Careful mem) :
    (c.meaning s).1 = (c.runMemory mem).1 ∧ Level (c.runMemory mem).2 (c.meaning s).2 := by
  have follows := level.toFollows.step c
  cases c with
  -- a saved task is in both
  | saveTask task =>
    rw [runMemory_saveTask] at follows ⊢
    refine ⟨rfl, follows, fun t there => ?_, level.whole⟩
    change (Function.update s.tasks task.id _ t).isSome = true at there
    rw [Table.find?_put]
    by_cases here : t = task.id
    · rw [if_pos here]
      rfl
    · rw [if_neg here]
      rw [Function.update_of_ne here] at there
      exact level.same t there
  -- a careful save of a graph stores no member that the dict of tasks does not have already
  | saveGraph g closed =>
    rw [runMemory_saveGraph] at follows ⊢
    refine ⟨rfl, follows, fun t there => ?_, fun k g' lives stored => ?_⟩
    · change (((g.tasks t).map TaskObject.dropRaw).or (s.tasks t)).isSome = true at there
      rw [Option.isSome_or, Option.isSome_map, Bool.or_eq_true] at there
      rcases there with member | old
      · exact Sqlite.mem_iter.mp (careful t ((g.tasks_isSome t).mp member))
      · exact level.same t old
    · change Function.update s.graphs g.id _ k = _ at stored
      by_cases here : k = g.id
      · rw [here, Function.update_self] at stored
        cases stored
        exact fun _ _ => rfl
      · rw [Function.update_of_ne here] at stored
        exact level.whole k g' lives stored
  -- a graph is deleted on both sides, or refused on both
  | deleteGraph id =>
    have same := level.graphs id
    rw [runMemory_deleteGraph] at follows ⊢
    unfold StoreCall.meaning at follows ⊢
    cases stored : s.graphs id with
    | none =>
      rw [stored] at same
      simp only [same, stored, Option.map_none] at follows ⊢
      exact ⟨trivial, level⟩
    | some p =>
      rw [stored] at same
      simp only [same, stored, Option.map_some] at follows ⊢
      refine ⟨trivial, follows, level.same, fun k g lives there => ?_⟩
      change Function.update s.graphs id none k = _ at there
      by_cases here : k = id
      · rw [here, Function.update_self] at there
        cases there
      · rw [Function.update_of_ne here] at there
        exact level.whole k g lives there
  | deleteTask id =>
    rw [runMemory_deleteTask] at follows ⊢
    unfold StoreCall.meaning at follows ⊢
    cases stored : s.tasks id with
    -- what the tables do not have is not in the dict either
    | none =>
      have gone : mem.tasks.find? id = none := by
        cases there : mem.tasks.find? id with
        | none => rfl
        | some task =>
          have known := level.tasks id (by rw [there]; rfl)
          rw [stored] at known
          cases known
      simp only [gone, stored] at follows ⊢
      exact ⟨trivial, level⟩
    -- a careful deletion is of a task that is in no stored graph, so every graph stays whole
    | some snapshot =>
      have there := level.same id (by rw [stored]; rfl)
      obtain ⟨task, found⟩ := Option.isSome_iff_exists.mp there
      simp only [found, stored] at follows ⊢
      refine ⟨trivial, follows, fun t has => ?_, fun k g lives stored' t key => ?_⟩
      · change (Function.update s.tasks id none t).isSome = true at has
        by_cases here : t = id
        · rw [here, Function.update_self] at has
          cases has
        · rw [Function.update_of_ne here] at has
          exact (isSome_deleteWhere mem.tasks id t).mpr ⟨here, level.same t has⟩
      · obtain ⟨⟨g', lives'⟩, old, same⟩ := Option.map_eq_some_iff.mp stored'
        cases same
        have other : t ≠ id := by
          rintro rfl
          have inDict : mem.graphs.find? k = some g' := by
            rw [level.graphs k, old]
            rfl
          exact careful (Sqlite.mem_iter.mpr there) k g' inDict key
        have live : lives' t = true := level.whole k g' lives' old t key
        simp [live, other]

/-- A call that is not careful leaves a difference: a member that only the tables hold, or a graph
that only the tables have lost a member of. -/
theorem careful_of_agree (level : Level mem s) {c : StoreCall D}
    (h : Represents db (c.meaning s).2) (agree : Agree db (c.runMemory mem).2) :
    c.Careful mem := by
  cases c with
  | saveTask _ => trivial
  | deleteGraph _ => trivial
  | saveGraph g closed =>
    intro t key
    have stored : (((g.tasks t).map TaskObject.dropRaw).or (s.tasks t)).isSome = true := by
      rw [Option.isSome_or, Option.isSome_map, (g.tasks_isSome t).mpr key, Bool.true_or]
    have both := (agree.tasks t).mp ((h.mem_iter t).mpr stored)
    rw [runMemory_saveGraph] at both
    exact both
  | deleteTask id =>
    intro there k g inDict key
    obtain ⟨task, found⟩ := Option.isSome_iff_exists.mp (Sqlite.mem_iter.mp there)
    obtain ⟨snapshot, stored⟩ := Option.isSome_iff_exists.mp (level.tasks id (Sqlite.mem_iter.mp there))
    have before : ∃ lives, s.graphs k = some (g, lives) := by
      have same := level.graphs k
      rw [inDict] at same
      obtain ⟨⟨g', lives⟩, old, rfl⟩ := Option.map_eq_some_iff.mp same.symm
      exact ⟨lives, old⟩
    obtain ⟨lives, old⟩ := before
    have reads := agree.reads k
    have follows := level.toFollows.step (.deleteTask id)
    rw [h.readBack, getItem_memory follows] at reads
    simp only [StoreCall.meaning, stored, old, Option.map_some, Option.some.injEq] at reads
    -- the member is among the edges on one side only
    have edge : (id, g.topology.deps id) ∈ g.topology.edges := by
      rw [g.topology.edges_eq]
      exact List.mem_map_of_mem key
    rw [← reads] at edge
    obtain ⟨e, kept, same⟩ := List.mem_map.mp edge
    have alive := (List.mem_filter.mp kept).2
    rw [congrArg Prod.fst same] at alive
    simp at alive

/-- By induction on the history: careful calls keep the stores level, and the first call that is not
careful makes them differ. -/
theorem agreeThrough_iff (calls : List (StoreCall D)) (h : Represents db s) (level : Level mem s) :
    AgreeThrough db mem calls ↔ CarefulThrough mem calls := by
  induction calls generalizing db mem s with
  | nil => exact ⟨fun _ => trivial, fun _ => level.agree h⟩
  | cons c calls ih =>
    obtain ⟨outcome, h'⟩ := c.run_simulates db s h
    have first : ∀ {db mem}, AgreeThrough (D := D) db mem calls → Agree db mem := by
      intro db mem through
      cases calls with
      | nil => exact through
      | cons _ _ => exact through.1
    constructor
    · rintro ⟨-, -, through⟩
      have careful := careful_of_agree level h' (first through)
      exact ⟨careful, (ih h' (level.step careful).2).mp through⟩
    · rintro ⟨careful, through⟩
      obtain ⟨same, level'⟩ := level.step careful
      exact ⟨level.agree h, outcome.trans same, (ih h' level').mpr through⟩

end Level

/-! ## The two stores -/

/-- Over every history both stores hold the same graphs, delete graphs with the same outcome, and a
task that is in memory is in the tables; a stored graph reads from the tables as it does from
memory, but for the members whose deletion has been called for since it was last saved. The two
agree in everything after every call exactly when each call is careful: a graph is saved with
members that are stored, and no member of a stored graph is deleted. -/
theorem backends_agree_iff (calls : List (StoreCall D)) :
    let db := (session StoreCall.run calls Database.empty).2
    let mem := (session StoreCall.runMemory calls ({} : InMemoryStore D)).2
    (∀ k, k ∈ GraphCollection.iter db ↔ k ∈ Memory.GraphCollection.iter mem.graphs) ∧
      (∀ k, (GraphCollection.delItem k db).1 = (Memory.GraphCollection.delItem k mem.graphs).1) ∧
      (∀ t ∈ Memory.TaskCollection.iter mem.tasks, t ∈ TaskCollection.iter db) ∧
      (∀ k (g : GraphObject D), Memory.GraphCollection.getItem k mem.graphs = .ok g →
        ∃ loaded : GraphObject D, GraphCollection.getItem k db = .ok loaded ∧
          loaded.topology.edges = edgesWithout (deletedSince calls k) g.topology) ∧
      (AgreeThrough Database.empty ({} : InMemoryStore D) calls ↔
        CarefulThrough ({} : InMemoryStore D) calls) := by
  intro db mem
  let s := (session StoreCall.meaning calls (Contents.empty : Contents D)).2
  have h : Represents db s := (session_simulates StoreCall.run_simulates calls Represents.empty).2
  have follows : Follows mem s :=
    session_relates (R := Follows) (fun c _ _ h => h.step c) calls Follows.empty
  have lasting : Lasting s (deletedSince calls) :=
    session_relates (R := Lasting) (fun c _ _ h => h.step c) calls Lasting.empty
  refine ⟨fun k => ?_, fun k => ?_, fun t there => ?_, fun k g read => ?_, ?_⟩
  · rw [h.mem_graph_iter, Sqlite.mem_graph_iter, follows.graphs k, Option.isSome_map]
  · have rows := h.graph_find?_isSome k
    have same := follows.graphs k
    rw [graph_delItem_eq, Memory.GraphCollection.delItem]
    cases stored : s.graphs k with
    | none =>
      rw [stored] at same
      rw [if_pos (h.absent k stored), same]
      rfl
    | some p =>
      rw [stored] at same rows
      rw [if_neg (Option.isSome_iff_ne_none.mp rows), same]
      rfl
  · exact (h.mem_iter t).mpr (follows.tasks t (Sqlite.mem_iter.mp there))
  · have same := getItem_memory follows k
    rw [read] at same
    obtain ⟨⟨g', lives⟩, stored, edges⟩ := Option.map_eq_some_iff.mp same.symm
    obtain ⟨loaded, loads, restores⟩ := h.getItem stored
    refine ⟨loaded, loads, ?_⟩
    rw [restores.edges, lasting.edges stored (h.closed k g' lives stored), edgesWithout, edgesWithout,
      ← show g'.topology.edges = g.topology.edges from edges]
  · exact agreeThrough_iff calls Represents.empty Level.empty

/-- A task of a store of texts. -/
def lone : TaskObject String where
  id := "lone"
  title := ""
  payload := ""
  type := .bash
  createdAt := ""
  timeout_pos := by simp
  result_own := by simp

/-- The graph with that task for its only member. -/
def loneGraph : GraphObject String :=
  ((GraphObject.new "g" "" "").add lone []).toOption.getD (.new "g" "" "")

/-- The graph's one member is registered in it. -/
theorem loneGraph_registered : loneGraph.Registered := by
  unfold GraphObject.Registered
  decide +kernel

/-- A graph saved before its member leaves the member in the tables only; a stored member that is
deleted leaves the graph in the tables only without it. -/
theorem backends_differ :
    ¬ AgreeThrough Database.empty {} [.saveGraph loneGraph loneGraph_registered] ∧
      ¬ AgreeThrough Database.empty {}
        [.saveTask lone, .saveGraph loneGraph loneGraph_registered, .deleteTask "lone"] := by
  constructor
  · rw [agreeThrough_iff _ Represents.empty Level.empty]
    rintro ⟨careful, -⟩
    have stored := careful "lone" (by decide +kernel)
    exact absurd stored (by decide +kernel)
  · rw [agreeThrough_iff _ Represents.empty Level.empty]
    rintro ⟨-, -, careful, -⟩
    exact careful (by decide +kernel) "g" loneGraph rfl (by decide +kernel)

end TTasks.Sqlite
