import TTasks.Executor
import TTasks.Dag

/-!
# The task graph

`_graph.py`: the dependency edges of a `TaskGraph`, the finally tasks, and `_validate` with Kahn's
algorithm. The task objects themselves are in the `World`, so what is kept here is `_deps`, a dict in
insertion order, which has the keys of `_tasks` as long as no `add` has raised half-way (`GraphBuild`
is about those that do).

Left out: the title, the id and the clock reading of a graph, and the type checks on arguments. The
views that only report (`succeeded`, `roots`, `ok` and their like) are in `Views`.
-/

namespace TTasks

/-- The edges of a graph and its finally tasks. -/
structure TaskGraph where
  /-- `_deps`: each task id with its upstream ids, in insertion order. -/
  edges : List (TaskId × List TaskId)
  /-- `_finally`. -/
  finallyIds : List TaskId := []
  /-- `_optional`. -/
  optionalIds : List TaskId := []
  keys_nodup : (edges.map Prod.fst).Nodup
  deps_nodup : ∀ e ∈ edges, e.2.Nodup

namespace TaskGraph

variable (g : TaskGraph)

/-- The members, in the order they were added. -/
def keys : List TaskId := g.edges.map Prod.fst

/-- `_deps[tid]`; empty for an id that is not registered. -/
def deps (t : TaskId) : List TaskId := (g.edges.lookup t).getD []

/-- The task was added with `finally_=True`. -/
def isFinally (t : TaskId) : Bool := t ∈ g.finallyIds

/-! ## Building a graph -/

/-- A new graph. -/
def empty : TaskGraph where
  edges := []
  keys_nodup := .nil
  deps_nodup := nofun

/-- `self._deps[t] = ds`: in place for a key that is there, else at the end. -/
def setEdge (t : TaskId) (ds : List TaskId) :
    List (TaskId × List TaskId) → List (TaskId × List TaskId)
  | [] => [(t, ds)]
  | e :: es => if e.1 = t then (t, ds) :: es else e :: setEdge t ds es

/-- The keys after an assignment. -/
theorem mem_setEdge_keys {t u : TaskId} {ds : List TaskId} {es : List (TaskId × List TaskId)} :
    u ∈ (setEdge t ds es).map Prod.fst ↔ u = t ∨ u ∈ es.map Prod.fst := by
  induction es with
  | nil => simp [setEdge]
  | cons e es ih =>
    unfold setEdge
    split
    · rename_i same
      simp [same]
    · simp only [List.map_cons, List.mem_cons, ih]
      tauto

/-- An assignment repeats no key. -/
theorem setEdge_keys_nodup {t : TaskId} {ds : List TaskId} {es : List (TaskId × List TaskId)}
    (h : (es.map Prod.fst).Nodup) : ((setEdge t ds es).map Prod.fst).Nodup := by
  induction es with
  | nil => simp [setEdge]
  | cons e es ih =>
    rw [List.map_cons, List.nodup_cons] at h
    unfold setEdge
    split
    · rename_i same
      rw [List.map_cons, List.nodup_cons]
      exact ⟨same ▸ h.1, h.2⟩
    · rename_i other
      rw [List.map_cons, List.nodup_cons, mem_setEdge_keys]
      refine ⟨?_, ih h.2⟩
      rintro (same | old)
      · exact other same
      · exact h.1 old

/-- The entries after an assignment. -/
theorem mem_setEdge {t : TaskId} {ds : List TaskId} {es : List (TaskId × List TaskId)}
    {e : TaskId × List TaskId} (h : e ∈ setEdge t ds es) : e = (t, ds) ∨ e ∈ es := by
  induction es with
  | nil => simpa [setEdge] using h
  | cons e' es ih =>
    unfold setEdge at h
    split at h
    · rcases List.mem_cons.mp h with h | h
      · exact .inl h
      · exact .inr (List.mem_cons_of_mem _ h)
    · rcases List.mem_cons.mp h with h | h
      · exact .inr (h ▸ List.mem_cons_self)
      · exact (ih h).imp_right (List.mem_cons_of_mem _)

/-- A lookup after an assignment. -/
theorem lookup_setEdge (t u : TaskId) (ds : List TaskId) (es : List (TaskId × List TaskId)) :
    (setEdge t ds es).lookup u = if u = t then some ds else es.lookup u := by
  have head : ∀ (v : TaskId) (x : List TaskId) (rest : List (TaskId × List TaskId)),
      ((v, x) :: rest).lookup u = if u = v then some x else rest.lookup u := by
    intro v x rest
    rw [List.lookup_cons]
    by_cases same : u = v
    · rw [if_pos same, beq_iff_eq.mpr same]
    · rw [if_neg same, beq_eq_false_iff_ne.mpr same]
  induction es with
  | nil => exact head t ds []
  | cons e es ih =>
    unfold setEdge
    by_cases same : e.1 = t
    · rw [if_pos same, head, head, same]
      split <;> rfl
    · rw [if_neg same, head, head, ih]
      by_cases here : u = e.1
      · rw [if_pos here, if_pos here, if_neg (here ▸ same)]
      · rw [if_neg here, if_neg here]

/-- A new key comes last. -/
theorem setEdge_of_new {t : TaskId} {ds : List TaskId} {es : List (TaskId × List TaskId)}
    (new : t ∉ es.map Prod.fst) : setEdge t ds es = es ++ [(t, ds)] := by
  induction es with
  | nil => rfl
  | cons e es ih =>
    rw [List.map_cons, List.mem_cons, not_or] at new
    rw [setEdge, if_neg fun same => new.1 same.symm, ih new.2]
    rfl

/-- The upstream ids without repetition, the first occurrence kept. -/
def uniqueDeps (after : List TaskId) : List TaskId :=
  after.foldl (fun deps dep => if dep ∈ deps then deps else deps ++ [dep]) []

/-- `dict.fromkeys` repeats nothing. -/
theorem uniqueDeps_nodup (after : List TaskId) : (uniqueDeps after).Nodup := by
  have grow : ∀ (after deps : List TaskId), deps.Nodup →
      (after.foldl (fun deps dep => if dep ∈ deps then deps else deps ++ [dep]) deps).Nodup := by
    intro after
    induction after with
    | nil => exact fun _ h => h
    | cons dep after ih =>
      intro deps h
      rw [List.foldl_cons]
      refine ih _ ?_
      split
      · exact h
      · rename_i new
        exact List.nodup_append.mpr ⟨h, by simp, by rintro a ha _ hb rfl; simp_all⟩
  exact grow after [] .nil

/-- Appending what is not there yet, in general. -/
theorem mem_foldl_uniqueDeps {u : TaskId} (after deps : List TaskId) :
    u ∈ after.foldl (fun deps dep => if dep ∈ deps then deps else deps ++ [dep]) deps ↔
      u ∈ deps ∨ u ∈ after := by
  induction after generalizing deps with
  | nil => simp
  | cons dep after ih =>
    rw [List.foldl_cons, ih, List.mem_cons]
    split
    · rename_i old
      constructor
      · rintro (h | h)
        · exact .inl h
        · exact .inr (.inr h)
      · rintro (h | rfl | h)
        · exact .inl h
        · exact .inl old
        · exact .inr h
    · rw [List.mem_append, List.mem_singleton, or_assoc]

/-- `dict.fromkeys` loses nothing. -/
theorem mem_uniqueDeps {u : TaskId} {after : List TaskId} : u ∈ uniqueDeps after ↔ u ∈ after := by
  rw [uniqueDeps, mem_foldl_uniqueDeps]
  simp

/-- `dict.fromkeys` leaves a list without repetitions. -/
theorem uniqueDeps_of_nodup {after : List TaskId} (nodup : after.Nodup) :
    uniqueDeps after = after := by
  have grow : ∀ (after deps : List TaskId), (deps ++ after).Nodup →
      after.foldl (fun deps dep => if dep ∈ deps then deps else deps ++ [dep]) deps =
        deps ++ after := by
    intro after
    induction after with
    | nil => intro deps _; exact (List.append_nil deps).symm
    | cons dep after ih =>
      intro deps h
      rw [← List.singleton_append, ← List.append_assoc] at h
      have new : dep ∉ deps := by
        intro old
        have apart := (List.nodup_append.mp (List.nodup_append.mp h).1).2.2
        exact apart dep old dep List.mem_cons_self rfl
      rw [List.foldl_cons, if_neg new, ih (deps ++ [dep]) h, List.append_assoc,
        List.singleton_append]
  exact grow after [] nodup

/-- `add`, for arguments of the declared types. -/
def add (t : TaskId) (after : List TaskId) (isFinally : Bool := false) (required : Bool := true) :
    Except Exc TaskGraph :=
  if !required && !isFinally then
    .error (.valueError "required=False is only valid with finally_=True")
  else
    .ok
      { edges := setEdge t (uniqueDeps after) g.edges
        finallyIds := if isFinally then t :: g.finallyIds.erase t else g.finallyIds.filter (· ≠ t)
        optionalIds :=
          if isFinally && !required then t :: g.optionalIds.erase t
          else g.optionalIds.filter (· ≠ t)
        keys_nodup := setEdge_keys_nodup g.keys_nodup
        deps_nodup := fun e he => by
          rcases mem_setEdge he with rfl | he
          · exact uniqueDeps_nodup after
          · exact g.deps_nodup e he }

/-- `add` accepts every optional task that is a finally task. -/
theorem add_accepts (g : TaskGraph) (t : TaskId) (after : List TaskId) {isFinally required : Bool}
    (valid : required = false → isFinally = true) :
    ∃ g', g.add t after isFinally required = .ok g' := by
  unfold add
  rw [if_neg]
  · exact ⟨_, rfl⟩
  · cases required with
    | true => simp
    | false => simp [valid rfl]

/-- What `add` writes, when it accepts its arguments. -/
theorem add_ok {g g' : TaskGraph} {t : TaskId} {after : List TaskId} {isFinally required : Bool}
    (added : g.add t after isFinally required = .ok g') :
    (required = false → isFinally = true) ∧ g'.edges = setEdge t (uniqueDeps after) g.edges ∧
      g'.finallyIds =
        (if isFinally then t :: g.finallyIds.erase t else g.finallyIds.filter (· ≠ t)) ∧
      g'.optionalIds =
        (if isFinally && !required then t :: g.optionalIds.erase t
          else g.optionalIds.filter (· ≠ t)) := by
  unfold add at added
  split at added
  · cases added
  · rename_i accepted
    cases added
    refine ⟨?_, rfl, rfl, rfl⟩
    rintro rfl
    simpa using accepted

/-- The members after an addition. -/
theorem add_keys {g g' : TaskGraph} {t u : TaskId} {after : List TaskId}
    {isFinally required : Bool} (added : g.add t after isFinally required = .ok g') :
    u ∈ g'.keys ↔ u = t ∨ u ∈ g.keys := by
  unfold keys
  rw [(add_ok added).2.1]
  exact mem_setEdge_keys

/-- The finally tasks after an accepted `add`. -/
theorem mem_finallyIds_add {g g' : TaskGraph} {t u : TaskId} {after : List TaskId}
    {isFinally required : Bool} (added : g.add t after isFinally required = .ok g') :
    u ∈ g'.finallyIds ↔ if u = t then isFinally = true else u ∈ g.finallyIds := by
  rw [(add_ok added).2.2.1]
  cases isFinally <;> by_cases same : u = t <;> simp [same, List.mem_erase_of_ne]

/-- The optional tasks after an addition: a task that is added again may leave them. -/
theorem mem_optionalIds_add {g g' : TaskGraph} {t u : TaskId} {after : List TaskId}
    {isFinally required : Bool} (added : g.add t after isFinally required = .ok g') :
    u ∈ g'.optionalIds ↔
      if u = t then isFinally = true ∧ required = false else u ∈ g.optionalIds := by
  rw [(add_ok added).2.2.2]
  cases isFinally <;> cases required <;> by_cases same : u = t <;>
    simp [same, List.mem_erase_of_ne]

/-! ## `_validate` -/

/-- The state of Kahn's algorithm: the open dependencies counted, the ids whose count has reached
zero (the list's head is the queue's end, where `pop` takes and `append` puts), and how many have
been visited. -/
structure Kahn where
  indeg : TaskId → Int
  queue : List TaskId
  visited : Nat

namespace Kahn

/-- `indeg[tid] -= 1`, and `queue.append(tid)` when it reaches zero. -/
def discount (cur : TaskId) (k : Kahn) (e : TaskId × List TaskId) : Kahn :=
  if cur ∈ e.2 then
    { k with
      indeg := fun u => if u = e.1 then k.indeg e.1 - 1 else k.indeg u
      queue := if k.indeg e.1 - 1 = 0 then e.1 :: k.queue else k.queue }
  else k

/-- The `while` loop, for at most so many rounds. -/
def loop (edges : List (TaskId × List TaskId)) : Nat → Kahn → Kahn
  | 0, k => k
  | fuel + 1, k =>
    match k.queue with
    | [] => k
    | cur :: queue =>
      loop edges fuel
        (edges.foldl (discount cur) { k with queue, visited := k.visited + 1 })

end Kahn

/-- The counts before the loop: `indeg` and the ids without dependencies. -/
def kahnStart : Kahn where
  indeg t := (g.deps t).length
  queue := (g.keys.filter fun t => ((g.deps t).length : Int) = 0).reverse
  visited := 0

/-- Kahn's algorithm; every round visits another id, so there is one round for each and one to find
the queue empty. -/
def kahn : Kahn := Kahn.loop g.edges (g.keys.length + 1) g.kahnStart

/-- The first dependency that is not registered, with the task that has it. -/
def unregistered : Option (TaskId × TaskId) :=
  g.edges.findSome? fun e => (e.2.find? fun d => d ∉ g.keys).map fun d => (e.1, d)

/-- `_validate`. -/
def validate (w : World) : Except Exc Unit :=
  match g.keys.find? fun t => w.status t == .running with
  | some t =>
    .error (.valueError ("task " ++ quoted (w.tasks t).title ++
      " is RUNNING; reset before run()"))
  | none =>
    match g.unregistered with
    | some (t, d) =>
      .error (.valueError ("task " ++ quoted (w.tasks t).title ++
        " depends on unregistered task id " ++ quoted d))
    | none =>
      if g.kahn.visited ≠ g.keys.length then
        .error (.valueError "TaskGraph contains a cycle")
      else .ok ()

end TaskGraph

end TTasks
