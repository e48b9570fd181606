import TTasks.Graph
import Mathlib.Data.List.Nodup
import Mathlib.Data.List.Perm.Subperm

/-!
# What `_validate` establishes

A graph that passes `_validate` has no RUNNING task, only registered dependencies, and a
topological order. The order is the list of ids that Kahn's algorithm visits: `Visiting` is the
loop's invariant, with the visited ids themselves beside their number, last visited first.
-/

namespace TTasks

namespace TaskGraph

variable {g : TaskGraph} {k : Kahn} {popped : List TaskId} {cur t : TaskId}

/-! ## Edges and dependencies -/

/-- The edge of a task is found under its id. -/
theorem lookup_of_mem {es : List (TaskId × List TaskId)} (nodup : (es.map Prod.fst).Nodup)
    {e : TaskId × List TaskId} (he : e ∈ es) : es.lookup e.1 = some e.2 := by
  induction es with
  | nil => cases he
  | cons e' es ih =>
    rw [List.map_cons, List.nodup_cons] at nodup
    rcases List.mem_cons.mp he with rfl | he
    · exact List.lookup_cons_self
    · have other : (e.1 == e'.1) = false := by
        rw [beq_eq_false_iff_ne]
        intro same
        exact nodup.1 (same ▸ List.mem_map_of_mem he)
      rw [List.lookup_cons, other]
      exact ih nodup.2 he

/-- The dependencies of a task are those of its edge. -/
theorem deps_of_mem {e : TaskId × List TaskId} (he : e ∈ g.edges) : g.deps e.1 = e.2 := by
  rw [deps, lookup_of_mem g.keys_nodup he, Option.getD_some]

/-- The edges, from the keys and their dependencies. -/
theorem edges_eq (g : TaskGraph) : g.edges = g.keys.map fun t => (t, g.deps t) := by
  have each : g.edges.map (fun e => (e.1, g.deps e.1)) = g.edges.map id :=
    List.map_congr_left fun e he => by rw [deps_of_mem he]; rfl
  rw [keys, List.map_map]
  exact (each.trans (List.map_id g.edges)).symm

/-- Every member has its edge. -/
theorem exists_edge (ht : t ∈ g.keys) : ∃ e ∈ g.edges, e.1 = t ∧ g.deps t = e.2 := by
  obtain ⟨e, he, rfl⟩ := List.mem_map.mp ht
  exact ⟨e, he, rfl, deps_of_mem he⟩

/-- No dependency is listed twice. -/
theorem deps_nodup_of_mem (ht : t ∈ g.keys) : (g.deps t).Nodup := by
  obtain ⟨e, he, -, hd⟩ := exists_edge ht
  rw [hd]
  exact g.deps_nodup e he

/-! ## One round of the loop -/

/-- What the inner `for` loop does to the counts and to the queue. -/
structure Discounted (cur : TaskId) (es : List (TaskId × List TaskId)) (k k' : Kahn) : Prop where
  indeg : ∀ u, k'.indeg u = k.indeg u - if ∃ e ∈ es, e.1 = u ∧ cur ∈ e.2 then 1 else 0
  queue : ∀ u, u ∈ k'.queue ↔ u ∈ k.queue ∨ ((∃ e ∈ es, e.1 = u ∧ cur ∈ e.2) ∧ k'.indeg u = 0)
  nodup : k.queue.Nodup → (∀ e ∈ es, cur ∈ e.2 → e.1 ∉ k.queue) → k'.queue.Nodup
  visited : k'.visited = k.visited

/-- By induction on the edges still to come; each id has one edge. -/
theorem foldl_discount (cur : TaskId) : ∀ (es : List (TaskId × List TaskId)) (k : Kahn),
    (es.map Prod.fst).Nodup → Discounted cur es k (es.foldl (Kahn.discount cur) k)
  | [], k, _ => ⟨by simp, by simp, fun h _ => h, rfl⟩
  | e :: es, k, nodup => by
    rw [List.map_cons, List.nodup_cons] at nodup
    have rest := foldl_discount cur es (k.discount cur e) nodup.2
    rw [List.foldl_cons]
    -- no later edge is of the same task, so its in-degree is not touched again
    have later : ¬ ∃ e' ∈ es, e'.1 = e.1 ∧ cur ∈ e'.2 := fun ⟨e', he', same, _⟩ =>
      nodup.1 (same ▸ List.mem_map_of_mem he')
    have other : ∀ {u}, u ≠ e.1 → ((∃ e' ∈ e :: es, e'.1 = u ∧ cur ∈ e'.2) ↔
        ∃ e' ∈ es, e'.1 = u ∧ cur ∈ e'.2) := by
      intro u ne
      simp [Ne.symm ne]
    -- `cur` is a dependency: the in-degree goes down, and at 0 the task is queued
    by_cases here : cur ∈ e.2
    · have mine : ∃ e' ∈ e :: es, e'.1 = e.1 ∧ cur ∈ e'.2 := ⟨e, List.mem_cons_self, rfl, here⟩
      have indeg : ∀ u, (k.discount cur e).indeg u =
          if u = e.1 then k.indeg e.1 - 1 else k.indeg u := by
        intro u
        rw [Kahn.discount, if_pos here]
      have queue : (k.discount cur e).queue =
          if k.indeg e.1 - 1 = 0 then e.1 :: k.queue else k.queue := by
        rw [Kahn.discount, if_pos here]
      have visited : (k.discount cur e).visited = k.visited := by
        rw [Kahn.discount, if_pos here]
      refine ⟨fun u => ?_, fun u => ?_, fun hq fresh => rest.nodup ?_ ?_,
        rest.visited.trans visited⟩
      · rw [rest.indeg, indeg]
        by_cases same : u = e.1
        · subst same
          rw [if_neg later, if_pos mine, if_pos rfl, Int.sub_zero]
        · rw [if_neg same]
          simp only [other same]
      · rw [rest.queue, queue]
        by_cases same : u = e.1
        · subst same
          have count := rest.indeg e.1
          rw [if_neg later, indeg, if_pos rfl, Int.sub_zero] at count
          rw [count]
          simp only [later, false_and, or_false, mine, true_and]
          split <;> rename_i zero <;> simp [zero]
        · have head : u ∈ (if k.indeg e.1 - 1 = 0 then e.1 :: k.queue else k.queue) ↔
              u ∈ k.queue := by
            split <;> simp [same]
          rw [head]
          simp only [other same]
      · rw [queue]
        split
        · exact List.nodup_cons.mpr ⟨fresh e List.mem_cons_self here, hq⟩
        · exact hq
      · intro e' he' there
        rw [queue]
        have old := fresh e' (List.mem_cons_of_mem e he') there
        have other : e'.1 ≠ e.1 := fun same => nodup.1 (same ▸ List.mem_map_of_mem he')
        split
        · exact List.not_mem_cons_of_ne_of_not_mem other old
        · exact old
    -- it is not, and the edge is passed over
    · have step : k.discount cur e = k := if_neg here
      rw [step] at rest ⊢
      have same : ∀ u, (∃ e' ∈ e :: es, e'.1 = u ∧ cur ∈ e'.2) ↔
          ∃ e' ∈ es, e'.1 = u ∧ cur ∈ e'.2 := by
        intro u
        simp [here]
      refine ⟨fun u => ?_, fun u => ?_, fun hq fresh => rest.nodup hq ?_, rest.visited⟩
      · rw [rest.indeg]; simp only [same]
      · rw [rest.queue]; simp only [same]
      · exact fun e' he' => fresh e' (List.mem_cons_of_mem e he')

/-! ## The loop's invariant -/

/-- The visited ids are in topological order, and an id's count is the number of its dependencies
that are not visited. -/
structure Visiting (g : TaskGraph) (k : Kahn) (popped : List TaskId) : Prop where
  sorted : Dag.Sorted g.deps popped
  keys : ∀ t ∈ popped, t ∈ g.keys
  visited : k.visited = popped.length
  nodup : k.queue.Nodup
  queue : ∀ t ∈ k.queue, t ∈ g.keys ∧ t ∉ popped
  indeg : ∀ t ∈ g.keys, k.indeg t = (((g.deps t).filter fun d => d ∉ popped).length : Int)
  ready : ∀ t ∈ k.queue, k.indeg t = 0

/-- A count of zero means that nothing counts. -/
theorem length_filter_zero {l : List TaskId} {p : TaskId → Bool}
    (h : ((l.filter p).length : Int) = 0) : ∀ d ∈ l, p d = false := by
  have empty : l.filter p = [] := List.length_eq_zero_iff.mp (by exact_mod_cast h)
  intro d hd
  have := List.filter_eq_nil_iff.mp empty d hd
  simpa using this

/-- Visiting `cur` closes one dependency of each task that has it. -/
theorem length_filter_cons {l : List TaskId} (nodup : l.Nodup) (new : cur ∉ popped) :
    ((l.filter fun d => d ∉ cur :: popped).length : Int) =
      (l.filter fun d => d ∉ popped).length - if cur ∈ l then 1 else 0 := by
  induction l with
  | nil => simp
  | cons d l ih =>
    rw [List.nodup_cons] at nodup
    have ih := ih nodup.2
    by_cases same : d = cur
    · subst same
      have tail : d ∉ l := nodup.1
      simp only [tail, if_false, Int.sub_zero] at ih
      simp [new] at ih ⊢
      exact ih
    · by_cases old : d ∈ popped
      · simpa [List.filter_cons, same, old, Ne.symm same] using ih
      · have ne : cur ≠ d := Ne.symm same
        simp only [List.filter_cons, List.mem_cons, same, old, or_self, not_false_eq_true,
          decide_true, if_true, List.length_cons, ne, false_or]
        simp only [List.mem_cons] at ih
        omega

/-- At the start no task has been visited. -/
theorem Visiting.start (g : TaskGraph) : Visiting g g.kahnStart [] where
  sorted := .nil
  keys := nofun
  visited := rfl
  nodup := List.nodup_reverse.mpr (List.Nodup.filter _ g.keys_nodup)
  queue t ht := by
    have := List.mem_filter.mp (List.mem_reverse.mp ht)
    exact ⟨this.1, List.not_mem_nil⟩
  indeg t _ := by simp [kahnStart]
  ready t ht := by
    have := (List.mem_filter.mp (List.mem_reverse.mp ht)).2
    simpa [kahnStart] using this

/-- One round: the id at the queue's end is visited. -/
theorem Visiting.round (inv : Visiting g k popped) {queue : List TaskId}
    (hq : k.queue = cur :: queue) :
    Visiting g (g.edges.foldl (Kahn.discount cur) { k with queue, visited := k.visited + 1 })
      (cur :: popped) := by
  have nodup := inv.nodup
  rw [hq, List.nodup_cons] at nodup
  have here : cur ∈ k.queue := by rw [hq]; exact List.mem_cons_self
  have tail : ∀ t ∈ queue, t ∈ k.queue := fun t ht => by rw [hq]; exact List.mem_cons_of_mem _ ht
  obtain ⟨registered, new⟩ := inv.queue cur here
  have closed : ∀ t ∈ g.keys, k.indeg t = 0 → ∀ d ∈ g.deps t, d ∈ popped := by
    intro t ht zero d hd
    rw [inv.indeg t ht] at zero
    simpa using length_filter_zero zero d hd
  have round := foldl_discount cur g.edges { k with queue, visited := k.visited + 1 }
    g.keys_nodup
  have has : ∀ t ∈ g.keys, (∃ e ∈ g.edges, e.1 = t ∧ cur ∈ e.2) ↔ cur ∈ g.deps t := by
    intro t ht
    constructor
    · rintro ⟨e, he, rfl, hc⟩
      rwa [deps_of_mem he]
    · intro hc
      obtain ⟨e, he, same, hd⟩ := exists_edge ht
      exact ⟨e, he, same, hd ▸ hc⟩
  have indeg : ∀ t ∈ g.keys,
      (g.edges.foldl (Kahn.discount cur) { k with queue, visited := k.visited + 1 }).indeg t =
        (((g.deps t).filter fun d => d ∉ cur :: popped).length : Int) := by
    intro t ht
    rw [round.indeg t, length_filter_cons (deps_nodup_of_mem ht) new]
    simp only [has t ht, inv.indeg t ht]
  -- an id that the round puts into the queue has `cur` as a dependency, so it was not there
  have fresh : ∀ e ∈ g.edges, cur ∈ e.2 → e.1 ∉ k.queue ∧ e.1 ∉ popped ∧ e.1 ≠ cur := by
    intro e he hc
    have dep : cur ∈ g.deps e.1 := by rw [deps_of_mem he]; exact hc
    have key : e.1 ∈ g.keys := List.mem_map_of_mem he
    refine ⟨fun hin => new (closed _ key (inv.ready _ hin) cur dep),
      fun hin => new (inv.sorted.closed hin dep), fun same => ?_⟩
    exact new (closed cur registered (inv.ready cur here) cur (same ▸ dep))
  refine ⟨.cons ?_ new inv.sorted, ?_, ?_, ?_, ?_, indeg, ?_⟩
  · exact closed cur registered (inv.ready cur here)
  · intro t ht
    rcases List.mem_cons.mp ht with rfl | ht
    · exact registered
    · exact inv.keys t ht
  · rw [round.visited, List.length_cons, inv.visited]
  · exact round.nodup nodup.2 fun e he hc hin => (fresh e he hc).1 (tail _ hin)
  · intro t ht
    rcases (round.queue t).mp ht with old | ⟨⟨e, he, rfl, hc⟩, -⟩
    · obtain ⟨key, notPopped⟩ := inv.queue t (tail t old)
      refine ⟨key, List.not_mem_cons_of_ne_of_not_mem ?_ notPopped⟩
      rintro rfl
      exact nodup.1 old
    · obtain ⟨-, notPopped, other⟩ := fresh e he hc
      exact ⟨List.mem_map_of_mem he, List.not_mem_cons_of_ne_of_not_mem other notPopped⟩
  · intro t ht
    rcases (round.queue t).mp ht with old | ⟨-, zero⟩
    · obtain ⟨key, -⟩ := inv.queue t (tail t old)
      have none : ¬ ∃ e ∈ g.edges, e.1 = t ∧ cur ∈ e.2 := by
        rintro ⟨e, he, rfl, hc⟩
        exact (fresh e he hc).1 (tail _ old)
      rw [round.indeg, if_neg none, Int.sub_zero]
      exact inv.ready t (tail t old)
    · exact zero

/-- The loop keeps the invariant, round by round. -/
theorem Visiting.loop (fuel : Nat) (inv : Visiting g k popped) :
    ∃ popped', Visiting g (Kahn.loop g.edges fuel k) popped' := by
  induction fuel generalizing k popped with
  | zero => exact ⟨popped, inv⟩
  | succ fuel ih =>
    unfold Kahn.loop
    split
    · exact ⟨popped, inv⟩
    · rename_i cur queue hq
      exact ih (inv.round hq)

/-! ## The result -/

/-- What a run may rely on: no task RUNNING, and a topological order of the registered ids. -/
structure Valid (g : TaskGraph) (w : World) : Prop where
  notRunning : ∀ t ∈ g.keys, w.status t ≠ .running
  order : ∃ l, Dag.Sorted g.deps l ∧ (∀ t, t ∈ l ↔ t ∈ g.keys) ∧ l.length = g.keys.length

/-- What `validate` accepts is valid: the order in which Kahn's algorithm visits the tasks is the
one that is asked for. -/
theorem valid_of_validate {w : World} (h : g.validate w = .ok ()) : Valid g w := by
  unfold validate at h
  split at h
  · cases h
  rename_i noneRunning
  split at h
  · cases h
  split at h
  · cases h
  rename_i count
  have count : g.kahn.visited = g.keys.length := by simpa using count
  constructor
  · intro t ht running
    have := List.find?_eq_none.mp noneRunning t ht
    simp [running] at this
  · obtain ⟨popped, inv⟩ := (Visiting.start g).loop (g.keys.length + 1)
    have length : popped.length = g.keys.length := inv.visited.symm.trans count
    have perm : popped.Perm g.keys :=
      (inv.sorted.nodup.subperm inv.keys).perm_of_length_le (le_of_eq length.symm)
    exact ⟨popped, inv.sorted, fun t => perm.mem_iff, length⟩

end TaskGraph

end TTasks
