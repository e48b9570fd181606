import TTasks.Sqlite.Live
import TTasks.Laws.Sqlite.Backends

/-!
# What a save accepts and a load refuses

The save of a task whose timeout the constructor accepts is the save of a `TaskObject`, so a history
of such saves is a history of `StoreCall`s and everything in it can be read. A timeout that the
constructor refuses is stored all the same, by statements that differ in one column (`Beside`), and
the row cannot be read.
-/

namespace TTasks.Sqlite

open Relational

variable {D : Type} [DateTime D]

/-! ## Timeouts that the constructor accepts -/

/-- A timeout that is not refused is kept as its column shows it. -/
theorem accepted_of_not_refused {timeout : Option PyFloat} (fine : isRefused timeout = false) :
    accepted timeout = timeout.bind PyFloat.column := by
  cases timeout with
  | none => rfl
  | some x =>
    cases x with
    | nan => rfl
    | real x =>
      have positive : 0 < x := by simpa [isRefused, PyFloat.isNonpos] using fine
      exact Option.filter_some_pos (by simpa using positive)

/-- The column that is kept of a timeout the constructor refuses. -/
theorem column_of_refused {timeout : Option PyFloat} (refused : isRefused timeout = true) :
    ∃ x, timeout.bind PyFloat.column = some x ∧ ¬ 0 < x := by
  cases timeout with
  | none => cases refused
  | some x =>
    cases x with
    | nan => cases refused
    | real x =>
      have nonpos : x ≤ 0 := by simpa [isRefused, PyFloat.isNonpos] using refused
      exact ⟨x, rfl, nonpos.not_gt⟩

/-- With such a timeout the row is the one of the stored object. -/
theorem liveValues_eq {object : TaskObject D} {timeout : Option PyFloat}
    (own : object.timeout = accepted timeout) (fine : isRefused timeout = false) :
    liveValues object timeout = taskValues object := by
  unfold liveValues
  rw [← accepted_of_not_refused fine, ← own]
  rfl

/-- So saving the live task is saving that object. -/
theorem upsertLive_eq {object : TaskObject D} {timeout : Option PyFloat}
    (own : object.timeout = accepted timeout) (fine : isRefused timeout = false) (db : Database) :
    upsertLive db object timeout = upsertTask db object := by
  unfold upsertLive
  rw [liveValues_eq own fine]
  rfl

omit [DateTime D] in
/-- The timeout of a member is the one the graph has for it. -/
theorem LiveGraph.member_timeout (g : LiveGraph D) {task : TaskObject D}
    (member : task ∈ g.graph.members) : task.timeout = accepted (g.timeouts task.id) :=
  g.tasks_timeout task.id task (GraphObject.mem_members.mp member)

/-- Saving a live graph none of whose timeouts is refused is saving the graph of its objects. -/
theorem LiveGraph.write_eq (g : LiveGraph D)
    (fine : ∀ task ∈ g.graph.members, isRefused (g.timeouts task.id) = false) (db : Database) :
    g.write db = GraphCollection.write g.graph db := by
  have members : ∀ db, g.graph.members.foldlM
      (fun db task => upsertLive db task (g.timeouts task.id)) db =
      g.graph.members.foldlM upsertTask db := by
    intro db
    apply foldlM_congr
    intro task member db
    exact upsertLive_eq (g.member_timeout member) (fine task member) db
  unfold LiveGraph.write GraphCollection.write
  rw [members]

/-! ## Timeouts that it refuses -/

/-- The same tables but for the columns of the tasks. -/
structure Beside (db db' : Database) : Prop where
  tasks : ∀ k, db'.tasks.contains k = db.tasks.contains k
  taskResults : db'.taskResults = db.taskResults
  graphs : db'.graphs = db.graphs
  graphTasks : db'.graphTasks = db.graphTasks
  graphDependencies : db'.graphDependencies = db.graphDependencies

/-- The same tables. -/
theorem Beside.refl (db : Database) : Beside db db := ⟨fun _ => rfl, rfl, rfl, rfl, rfl⟩

/-- The same task, with other columns. -/
theorem Beside.upsertTaskRow {db db' : Database} (h : Beside db db') {row row' : TaskRow}
    (id : row'.id = row.id) : Beside (db.upsertTaskRow row) (db'.upsertTaskRow row') where
  tasks k := by
    have old := h.tasks k
    rw [Table.contains_eq_isSome, Table.contains_eq_isSome] at old ⊢
    rw [find?_upsertTaskRow, find?_upsertTaskRow, id]
    split
    · rfl
    · exact old
  taskResults := h.taskResults
  graphs := h.graphs
  graphTasks := h.graphTasks
  graphDependencies := h.graphDependencies

/-- A save goes through with a refused timeout as without it, and leaves its row. -/
theorem upsertLive_beside {db db' s : Database} (h : Beside db db') (object : TaskObject D)
    (timeout : Option PyFloat) (ok : upsertTask db object = .ok s) :
    ∃ s', upsertLive db' object timeout = .ok s' ∧ Beside s s' ∧
      ∀ k, s'.tasks.find? k =
        if k = object.id then some (liveValues object timeout) else db'.tasks.find? k := by
  have rows := find?_upsertTaskRow (liveValues object timeout) db'
  have beside : Beside (db.upsertTaskRow (taskValues object))
      (db'.upsertTaskRow (liveValues object timeout)) := h.upsertTaskRow rfl
  unfold upsertTask at ok
  unfold upsertLive
  cases own : object.result with
  | none =>
    rw [own] at ok
    cases ok
    refine ⟨_, rfl, ⟨beside.tasks, ?_, h.graphs, h.graphTasks, h.graphDependencies⟩, rows⟩
    exact congrArg (Table.deleteWhere · fun row => row.taskId == object.id) h.taskResults
  | some result =>
    rw [own] at ok
    dsimp only at ok ⊢
    unfold Database.upsertResultRow at ok ⊢
    rw [beside.tasks, beside.taskResults]
    split at ok
    · rename_i parent
      cases ok
      rw [if_pos parent]
      exact ⟨_, rfl, ⟨beside.tasks, rfl, h.graphs, h.graphTasks, h.graphDependencies⟩, rows⟩
    · cases ok

/-- A membership is refused in both or in neither. -/
theorem insertGraphTask_beside {db db' s : Database} (h : Beside db db') {row : GraphTaskRow}
    (ok : db.insertGraphTask row = .ok s) :
    ∃ s', db'.insertGraphTask row = .ok s' ∧ Beside s s' ∧ s'.tasks = db'.tasks := by
  unfold Database.insertGraphTask at ok ⊢
  rw [h.graphTasks, h.graphs, h.tasks]
  split at ok
  · cases ok
  · split at ok
    · rename_i parents
      cases ok
      rw [if_pos parents]
      exact ⟨_, rfl, ⟨h.tasks, h.taskResults, rfl, rfl, h.graphDependencies⟩, rfl⟩
    · cases ok

/-- A dependency is refused in both or in neither. -/
theorem insertDependency_beside {db db' s : Database} (h : Beside db db') {row : DependencyRow}
    (ok : db.insertDependency row = .ok s) :
    ∃ s', db'.insertDependency row = .ok s' ∧ Beside s s' ∧ s'.tasks = db'.tasks := by
  unfold Database.insertDependency at ok ⊢
  rw [h.graphDependencies, h.graphs, h.tasks, h.tasks]
  split at ok
  · cases ok
  · split at ok
    · rename_i parents
      cases ok
      rw [if_pos parents]
      exact ⟨_, rfl, ⟨h.tasks, h.taskResults, rfl, h.graphTasks, rfl⟩, rfl⟩
    · cases ok

/-- A loop of inserts goes through beside one that does, and changes no task. -/
theorem inserts_beside {α : Type} {f : Database → α → Except StoreError Database} {l : List α}
    (each : ∀ a ∈ l, ∀ db db' s, Beside db db' → f db a = .ok s →
      ∃ s', f db' a = .ok s' ∧ Beside s s' ∧ s'.tasks = db'.tasks)
    {db db' s : Database} (h : Beside db db') (ok : l.foldlM f db = .ok s) :
    ∃ s', l.foldlM f db' = .ok s' ∧ Beside s s' ∧ s'.tasks = db'.tasks := by
  apply foldlM_simulates (R := fun s s' => Beside s s' ∧ s'.tasks = db'.tasks) _ ⟨h, rfl⟩ ok
  rintro a mem s₀ t₀ s₁ ⟨beside, kept⟩ goes
  obtain ⟨t₁, goes', beside', kept'⟩ := each a mem s₀ t₀ s₁ beside goes
  exact ⟨t₁, goes', beside', kept'.trans kept⟩

/-- The loop over the members, with their rows. -/
theorem upsertMembers_beside (g : LiveGraph D) {db s : Database}
    (ok : g.graph.members.foldlM upsertTask db = .ok s) :
    ∃ s', g.graph.members.foldlM (fun db task => upsertLive db task (g.timeouts task.id)) db =
        .ok s' ∧ Beside s s' ∧
      ∀ task ∈ g.graph.members,
        s'.tasks.find? task.id = some (liveValues task (g.timeouts task.id)) := by
  have distinct := g.graph.members_nodup
  have loop := foldlM_ok (l := g.graph.members) (s := db)
    (f := fun (db : Database) task => upsertLive db task (g.timeouts task.id))
    (P := fun done t => (∃ s, done.foldlM upsertTask db = .ok s ∧ Beside s t) ∧
      ∀ task ∈ done, t.tasks.find? task.id = some (liveValues task (g.timeouts task.id)))
    (by
      rintro done task rest all t ⟨⟨s, goes, beside⟩, rows⟩
      obtain ⟨s₁, first, -⟩ := upsertTask_saves task s
      obtain ⟨t₁, first', beside', tasks⟩ :=
        upsertLive_beside beside task (g.timeouts task.id) first
      rw [all] at distinct
      have new := key_fresh distinct
      refine ⟨t₁, first', ⟨s₁, ?_, beside'⟩, ?_⟩
      · rw [List.foldlM_append, goes]
        change List.foldlM upsertTask s [task] = _
        rw [List.foldlM_cons, first]
        rfl
      · intro other mem
        rw [tasks]
        rcases List.mem_append.mp mem with before | here
        · have apart : other.id ≠ task.id := fun same => new (same ▸ List.mem_map_of_mem before)
          rw [if_neg apart]
          exact rows other before
        · rw [List.mem_singleton.mp here, if_pos rfl])
    ⟨⟨db, rfl, Beside.refl db⟩, by simp⟩
  obtain ⟨s', goes', ⟨s₀, goes, beside⟩, rows⟩ := loop
  rw [ok] at goes
  cases goes
  exact ⟨s', goes', beside, rows⟩

/-- A graph is written with refused timeouts as without them, and the rows of its members are left. -/
theorem LiveGraph.write_ok (g : LiveGraph D) (closed : g.graph.Registered) (db : Database) :
    ∃ db', g.write db = .ok db' ∧ ∀ task ∈ g.graph.members,
      db'.tasks.find? task.id = some (liveValues task (g.timeouts task.id)) := by
  rcases write_cases g.graph db with ⟨s, ok, -⟩ | ⟨-, -, opens, -⟩
  · unfold GraphCollection.write at ok
    obtain ⟨s₁, tasks, ok⟩ := bind_ok ok
    obtain ⟨s₂, members, edges⟩ := bind_ok ok
    obtain ⟨t₁, tasks', beside, rows⟩ := upsertMembers_beside g tasks
    let clear (db : Database) : Database :=
      ((db.upsertGraphRow g.graph.graphRow).deleteDependencies g.graph.id).deleteGraphTasks g.graph.id
    have cleared : Beside (clear s₁) (clear t₁) := by
      refine ⟨beside.tasks, beside.taskResults, ?_, ?_, ?_⟩
      · exact congrArg (fun graphs => (({ t₁ with graphs } : Database).upsertGraphRow
          g.graph.graphRow).graphs) beside.graphs
      · exact congrArg (Table.deleteWhere · fun row => row.graphId == g.graph.id) beside.graphTasks
      · exact congrArg (Table.deleteWhere · fun row => row.graphId == g.graph.id)
          beside.graphDependencies
    obtain ⟨t₂, members', beside₂, kept₂⟩ := inserts_beside (l := g.graph.members.zipIdx)
      (f := fun db member => db.insertGraphTask (GraphCollection.graphTaskRow g.graph member))
      (fun _ _ _ _ _ h goes => insertGraphTask_beside h goes) cleared members
    have each : ∀ task ∈ g.graph.members, ∀ db db' s, Beside db db' →
        GraphCollection.insertDependencies g.graph db task = .ok s →
        ∃ s', GraphCollection.insertDependencies g.graph db' task = .ok s' ∧ Beside s s' ∧
          s'.tasks = db'.tasks := by
      intro task _ db db' s h goes
      obtain ⟨deps, looked, goes⟩ := bind_ok goes
      obtain ⟨s', goes', rest⟩ := inserts_beside (l := deps.zipIdx)
        (f := fun db dep => db.insertDependency (GraphCollection.dependencyRow g.graph task dep))
        (fun _ _ _ _ _ h goes => insertDependency_beside h goes) h goes
      refine ⟨s', ?_, rest⟩
      unfold GraphCollection.insertDependencies
      rw [looked]
      exact goes'
    obtain ⟨t₃, edges', -, kept₃⟩ := inserts_beside each beside₂ edges
    refine ⟨t₃, ?_, fun task member => ?_⟩
    · unfold LiveGraph.write
      rw [tasks']
      change Except.bind (g.graph.members.zipIdx.foldlM (m := Except StoreError) _ (clear t₁)) _ = _
      rw [members']
      exact edges'
    · rw [kept₃, kept₂]
      exact rows task member
  · exact absurd closed opens

/-- A graph that was written has all its dependencies registered. -/
theorem LiveGraph.registered_of_write (g : LiveGraph D) {db db' : Database}
    (wrote : g.write db = .ok db') : g.graph.Registered := by
  unfold LiveGraph.write at wrote
  obtain ⟨s₁, -, wrote⟩ := bind_ok wrote
  obtain ⟨s₂, -, edges⟩ := bind_ok wrote
  intro t key d dep
  obtain ⟨task, member, rfl⟩ := GraphObject.member_of_key key
  obtain ⟨s, s', inserted⟩ := foldlM_found edges task member
  obtain ⟨deps, looked, -⟩ := bind_ok inserted
  rcases g.graph.dependencies_cases task with ⟨deps', -, ids, members⟩ | ⟨_, -, -, failed⟩
  · rw [← ids] at dep
    obtain ⟨object, there, rfl⟩ := List.mem_map.mp dep
    exact GraphObject.key_of_member (members object there)
  · rw [looked] at failed
    cases failed

/-! ## Reading -/

/-- A row whose timeout is not positive cannot be read. -/
theorem getItem_refused {id : TaskId} {db : Database} {row : TaskRow}
    (found : db.tasks.find? id = some row) {x : WithBot (WithTop ℚ)} (timeout : row.timeout = some x)
    (nonpos : ¬ 0 < x) (task : TaskObject D) : TaskCollection.getItem id db ≠ .ok task := by
  have raises : ∀ result, taskFromRow row result ≠ .ok task := by
    intro result read
    unfold taskFromRow at read
    obtain ⟨type, -, read⟩ := bind_ok read
    obtain ⟨createdAt, -, read⟩ := bind_ok read
    split at read
    · rename_i positive
      exact nonpos (positive x timeout)
    · cases read
  intro read
  cases result : db.taskResults.find? id with
  | none =>
    rw [getItem_of_row found result] at read
    exact raises none read
  | some resultRow =>
    have own : resultRow.taskId = row.id :=
      (Table.find?_eq_some.mp result).2.trans (Table.find?_eq_some.mp found).2.symm
    rw [getItem_of_rows found result own] at read
    obtain ⟨r, -, read⟩ := bind_ok read
    exact raises _ read

/-- Everything stored can be read. -/
theorem Represents.reads {db : Database} {s : Contents D} (h : Represents db s) :
    (∀ t ∈ TaskCollection.iter db, ∃ task : TaskObject D, TaskCollection.getItem t db = .ok task) ∧
      ∀ k ∈ GraphCollection.iter db, ∃ g : GraphObject D, GraphCollection.getItem k db = .ok g := by
  constructor
  · intro t stored
    obtain ⟨task, at_⟩ := Option.isSome_iff_exists.mp ((h.mem_iter t).mp stored)
    have read := h.tasks.getItem t
    rw [at_] at read
    exact ⟨task, read⟩
  · intro k stored
    obtain ⟨⟨g, lives⟩, at_⟩ := Option.isSome_iff_exists.mp ((h.mem_graph_iter k).mp stored)
    obtain ⟨loaded, read, -⟩ := h.getItem at_
    exact ⟨loaded, read⟩

/-! ## The calls -/

namespace LiveCall

/-- Saving a live task returns and leaves its row, whatever its timeout is. -/
theorem run_saveTask (task : LiveTask D) (db : Database) : ∃ db',
    (saveTask task).run db = (.ok (), db') ∧
      db'.tasks.find? task.object.id = some (liveValues task.object task.timeout) := by
  obtain ⟨s, ok, -⟩ := upsertTask_saves task.object db
  obtain ⟨db', ok', -, rows⟩ := upsertLive_beside (Beside.refl db) task.object task.timeout ok
  have ran : (saveTask task).run db = (.ok (), db') :=
    @connect_ok (fun db => upsertLive db task.object task.timeout) db db' ok'
  exact ⟨db', ran, by rw [rows, if_pos rfl]⟩

/-- A call with a timeout that the constructor refuses goes through, and cannot be read back. -/
theorem not_readsBack {c : LiveCall D} (storable : c.Storable) (bad : ¬ c.Loadable) (db : Database) :
    (c.run db).1 = .ok () ∧ ¬ c.ReadsBack db := by
  unfold Loadable at bad
  push Not at bad
  obtain ⟨p, saved, refused⟩ := bad
  obtain ⟨x, column, nonpos⟩ := column_of_refused (eq_true_of_ne_false refused)
  have unread : ∀ row, (c.run db).2.tasks.find? p.1 = some row → row.timeout = p.2.bind PyFloat.column →
      ¬ c.ReadsBack db := by
    intro row found timeout reads
    obtain ⟨⟨task, read⟩, -⟩ := reads p saved
    exact getItem_refused found (timeout.trans column) nonpos task read
  cases c with
  | saveTask task =>
    obtain ⟨db', ran, found⟩ := run_saveTask task db
    rw [ran] at unread ⊢
    have here : p = (task.object.id, task.timeout) := by simpa [LiveCall.saved] using saved
    subst here
    exact ⟨rfl, unread _ found rfl⟩
  | saveGraph g =>
    obtain ⟨db', ok, rows⟩ := g.write_ok storable db
    have ran : (saveGraph g).run db = (.ok (), db') := connect_ok ok
    rw [ran] at unread ⊢
    obtain ⟨task, member, rfl⟩ := List.mem_map.mp saved
    exact ⟨rfl, unread _ (rows task member) rfl⟩
  | deleteTask id => cases saved
  | deleteGraph id => cases saved

/-- A call whose timeouts the constructor accepts is a call of the snapshots. -/
theorem run_eq {c : LiveCall D} (storable : c.Storable) (fine : c.Loadable) :
    ∃ c' : StoreCall D, ∀ db, c.run db = c'.run db := by
  cases c with
  | saveTask task =>
    have accepts : isRefused task.timeout = false := fine (task.object.id, task.timeout) (by
      simp [LiveCall.saved])
    have same : (fun db => upsertLive db task.object task.timeout) =
        fun db => upsertTask db task.object :=
      funext (upsertLive_eq task.object_timeout accepts)
    refine ⟨.saveTask task.object, fun db => ?_⟩
    unfold run StoreCall.run TaskCollection.save TaskCollection.setItem
    dsimp only
    rw [same, if_neg (by simp)]
  | deleteTask id => exact ⟨.deleteTask id, fun _ => rfl⟩
  | saveGraph g =>
    have accepts : ∀ task ∈ g.graph.members, isRefused (g.timeouts task.id) = false :=
      fun task member => fine (task.id, g.timeouts task.id) (List.mem_map_of_mem member)
    have same : g.write = GraphCollection.write g.graph := funext (g.write_eq accepts)
    refine ⟨.saveGraph g.graph storable, fun db => ?_⟩
    unfold run StoreCall.run GraphCollection.save GraphCollection.setItem
    dsimp only
    rw [same, if_neg (by simp)]
  | deleteGraph id => exact ⟨.deleteGraph id, fun _ => rfl⟩

/-- A graph with a dependency that is not a member is not written. -/
theorem run_of_not_storable {c : LiveCall D} (opens : ¬ c.Storable) (db : Database) :
    ∃ e, c.run db = (.error e, db) := by
  cases c with
  | saveGraph g =>
    cases wrote : g.write db with
    | ok db' => exact absurd (g.registered_of_write wrote) opens
    | error e => exact ⟨e, connect_error wrote⟩
  | _ => exact absurd trivial opens

/-- A call that may be stored and read keeps everything readable, and so does one that fails. -/
theorem run_represents {c : LiveCall D} (fine : c.Storable → c.Loadable) {db : Database}
    (h : ∃ s : Contents D, Represents db s) : ∃ s : Contents D, Represents (c.run db).2 s := by
  obtain ⟨s, represents⟩ := h
  by_cases storable : c.Storable
  · obtain ⟨c', same⟩ := run_eq storable (fine storable)
    rw [same]
    exact ⟨_, (c'.run_simulates db s represents).2⟩
  · obtain ⟨e, failed⟩ := run_of_not_storable storable db
    rw [failed]
    exact ⟨s, represents⟩

/-- What a call has saved is stored. -/
theorem saved_stored {c : LiveCall D} {db : Database} (ran : (c.run db).1 = .ok ()) :
    ∀ p ∈ c.saved, p.1 ∈ TaskCollection.iter (c.run db).2 := by
  have there : ∀ {db' : Database} {t : TaskId} {row : TaskRow}, db'.tasks.find? t = some row →
      t ∈ TaskCollection.iter db' := by
    intro db' t row found
    rw [(iter_perm db').mem_iff, Table.mem_keys_iff, found]
    rfl
  intro p saved
  cases c with
  | saveTask task =>
    obtain ⟨db', ran, found⟩ := run_saveTask task db
    rw [ran]
    have here : p = (task.object.id, task.timeout) := by simpa [LiveCall.saved] using saved
    subst here
    exact there found
  | saveGraph g =>
    by_cases closed : g.graph.Registered
    · obtain ⟨db', ok, rows⟩ := g.write_ok closed db
      have ran : (saveGraph g).run db = (.ok (), db') := connect_ok ok
      rw [ran]
      obtain ⟨task, member, rfl⟩ := List.mem_map.mp saved
      exact there (rows task member)
    · obtain ⟨e, failed⟩ := run_of_not_storable (c := saveGraph g) closed db
      rw [failed] at ran
      cases ran
  | deleteTask id => cases saved
  | deleteGraph id => cases saved

end LiveCall

/-! ## Histories -/

/-- After saves whose timeouts the constructor accepts, everything stored can be read. -/
theorem loadable_reads (calls : List (LiveCall D)) (fine : ∀ c ∈ calls, c.Storable → c.Loadable) :
    let db := (session LiveCall.run calls Database.empty).2
    (∀ t ∈ TaskCollection.iter db, ∃ task : TaskObject D, TaskCollection.getItem t db = .ok task) ∧
      ∀ k ∈ GraphCollection.iter db, ∃ g : GraphObject D, GraphCollection.getItem k db = .ok g := by
  have run : ∀ db, (∃ s : Contents D, Represents db s) →
      ∃ s : Contents D, Represents (session LiveCall.run calls db).2 s := by
    induction calls with
    | nil => exact fun _ h => h
    | cons c calls ih =>
      intro db h
      exact ih (fun c' mem => fine c' (List.mem_cons_of_mem _ mem)) _
        (LiveCall.run_represents (fine c List.mem_cons_self) h)
  obtain ⟨s, represents⟩ := run Database.empty ⟨Contents.empty, Represents.empty⟩
  exact represents.reads

/-- Whatever a history saves can be read, and so can the stored graphs that contain it, exactly when
no timeout is saved that the constructor refuses. -/
theorem readsBackThrough_iff (calls : List (LiveCall D)) :
    ReadsBackThrough Database.empty calls ↔ ∀ c ∈ calls, c.Storable → c.Loadable := by
  have run : ∀ db, (∃ s : Contents D, Represents db s) →
      (ReadsBackThrough db calls ↔ ∀ c ∈ calls, c.Storable → c.Loadable) := by
    induction calls with
    | nil => simp [ReadsBackThrough]
    | cons c calls ih =>
      intro db h
      rw [ReadsBackThrough, List.forall_mem_cons]
      constructor
      · rintro ⟨now, later⟩
        have fine : c.Storable → c.Loadable := by
          intro storable
          by_contra bad
          obtain ⟨ran, unread⟩ := LiveCall.not_readsBack storable bad db
          exact unread (now ran)
        exact ⟨fine, (ih _ (LiveCall.run_represents fine h)).mp later⟩
      · rintro ⟨fine, others⟩
        have after := LiveCall.run_represents fine h
        refine ⟨fun ran p saved => ?_, (ih _ after).mpr others⟩
        obtain ⟨s, represents⟩ := after
        obtain ⟨tasks, graphs⟩ := represents.reads
        exact ⟨tasks p.1 (LiveCall.saved_stored ran p saved), fun k stored _ => graphs k stored⟩
  exact run Database.empty ⟨Contents.empty, Represents.empty⟩

/-- The lone task without a timeout, in its graph. -/
def fresh : LiveTask String := ⟨lone, none, rfl⟩

/-- The timeout of the graph's one member. -/
theorem loneGraph_timeout : ∀ t, ∀ task ∈ loneGraph.tasks t, task.timeout = accepted none := by
  intro t task here
  change (if t = "lone" then some lone else none) = some task at here
  split at here
  · cases here
    rfl
  · cases here

/-- The graph with its task as the constructor made it. -/
def freshGraph : LiveGraph String := ⟨loneGraph, fun _ => none, loneGraph_timeout⟩

/-- A timeout assigned after the constructor has looked: the save goes through, the load raises, and
the graph that was stored with the task before does not load any more. -/
theorem assigned_unread : ∃ task : LiveTask String,
    LiveTask.new "lone" "" "" .bash "" none none "" = .ok fresh ∧
      fresh.assign (.timeout (some (.real 0))) = .ok task ∧ LiveTask.Reachable task ∧
      let store := session LiveCall.run [.saveGraph freshGraph, .saveTask task] Database.empty
      store.1 = [.ok (), .ok ()] ∧
        TaskCollection.getItem (D := String) "lone" store.2 =
          .error (.valueError "timeout must be greater than 0") ∧
        (GraphCollection.getItem (D := String) "g" store.2).toOption.isNone = true := by
  have made : LiveTask.new "lone" "" "" .bash "" none none "" = .ok fresh := rfl
  have assigned : fresh.assign (.timeout (some (.real 0))) =
      .ok (fresh.write (.timeout (some (.real 0)))) := rfl
  exact ⟨_, made, assigned, .assign (.new made) assigned, rfl, rfl, by decide +kernel⟩

end TTasks.Sqlite
