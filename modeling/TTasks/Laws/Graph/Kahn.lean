import TTasks.Laws.Graph.Validate

/-!
# What `_validate` accepts

Kahn's loop comes to its end, with the queue empty, and it has visited every id exactly if no id is
on a directed cycle. One direction is the topological order of `Validate`; for the other, an id that
is never visited has an open dependency, and so have all those that it waits for (`Waiting`).
-/

namespace TTasks

namespace TaskGraph

variable {g : TaskGraph} {k : Kahn} {popped : List TaskId} {cur t : TaskId}

/-- One round of the `while` loop. -/
def Kahn.Round (edges : List (TaskId × List TaskId)) (k k' : Kahn) : Prop :=
  ∃ cur queue, k.queue = cur :: queue ∧
    k' = edges.foldl (Kahn.discount cur) { k with queue, visited := k.visited + 1 }

/-- However much fuel there is, the loop takes whole rounds. -/
theorem Kahn.loop_rounds (edges : List (TaskId × List TaskId)) (fuel : Nat) (k : Kahn) :
    Relation.ReflTransGen (Kahn.Round edges) k (Kahn.loop edges fuel k) := by
  induction fuel generalizing k with
  | zero => exact .refl
  | succ fuel ih =>
    unfold Kahn.loop
    split
    · exact .refl
    · rename_i cur queue hq
      exact .head ⟨cur, queue, hq, rfl⟩ (ih _)

/-- An id whose count is zero is in the queue, or has been visited. -/
def Waiting (g : TaskGraph) (k : Kahn) (popped : List TaskId) : Prop :=
  ∀ t ∈ g.keys, k.indeg t = 0 → t ∈ k.queue ∨ t ∈ popped

/-- At the start the tasks without dependencies are in the queue. -/
theorem waiting_start (g : TaskGraph) : Waiting g g.kahnStart [] := by
  intro t ht zero
  left
  have length : ((g.deps t).length : Int) = 0 := zero
  exact List.mem_reverse.mpr (List.mem_filter.mpr ⟨ht, by simpa using length⟩)

/-- A round takes one task out of the queue and puts those into it that have no dependency left. -/
theorem Waiting.round (waiting : Waiting g k popped) {queue : List TaskId}
    (hq : k.queue = cur :: queue) :
    Waiting g (g.edges.foldl (Kahn.discount cur) { k with queue, visited := k.visited + 1 })
      (cur :: popped) := by
  have round := foldl_discount cur g.edges { k with queue, visited := k.visited + 1 }
    g.keys_nodup
  intro t ht zero
  by_cases here : ∃ e ∈ g.edges, e.1 = t ∧ cur ∈ e.2
  · exact .inl ((round.queue t).mpr (.inr ⟨here, zero⟩))
  · have before : k.indeg t = 0 := by
      rw [round.indeg, if_neg here, Int.sub_zero] at zero
      exact zero
    rcases waiting t ht before with queued | visited
    · rw [hq] at queued
      rcases List.mem_cons.mp queued with rfl | later
      · exact .inr List.mem_cons_self
      · exact .inl ((round.queue t).mpr (.inl later))
    · exact .inr (List.mem_cons_of_mem _ visited)

/-- The ids visited so far are no more than there are. -/
theorem Visiting.length_le (inv : Visiting g k popped) : popped.length ≤ g.keys.length :=
  (inv.sorted.nodup.subperm inv.keys).length_le

/-- With a round to spare for every id and one more, the loop ends with the queue empty. -/
theorem Visiting.ends (fuel : Nat) (inv : Visiting g k popped) (waiting : Waiting g k popped)
    (spare : g.keys.length < fuel + popped.length) :
    (Kahn.loop g.edges fuel k).queue = [] ∧
      ∃ popped', Visiting g (Kahn.loop g.edges fuel k) popped' ∧
        Waiting g (Kahn.loop g.edges fuel k) popped' := by
  induction fuel generalizing k popped with
  | zero =>
    have bound := inv.length_le
    omega
  | succ fuel ih =>
    unfold Kahn.loop
    split
    · rename_i empty
      exact ⟨empty, popped, inv, waiting⟩
    · rename_i cur queue hq
      refine ih (inv.round hq) (waiting.round hq) ?_
      rw [List.length_cons]
      omega

/-- The fuel suffices: the queue is empty in the end. -/
theorem kahn_ends (g : TaskGraph) :
    g.kahn.queue = [] ∧ ∃ popped, Visiting g g.kahn popped ∧ Waiting g g.kahn popped := by
  refine (Visiting.start g).ends (g.keys.length + 1) (waiting_start g) ?_
  rw [List.length_nil]
  omega

/-- Every dependency is registered. -/
def Registered (g : TaskGraph) : Prop := ∀ t ∈ g.keys, ∀ d ∈ g.deps t, d ∈ g.keys

/-- Where no id is on a cycle, every id is visited. -/
theorem visited_of_acyclic (registered : Registered g)
    (acyclic : ∀ t ∈ g.keys, Dag.Acyclic g.deps t) : g.kahn.visited = g.keys.length := by
  obtain ⟨empty, popped, inv, waiting⟩ := kahn_ends g
  have all : ∀ t ∈ g.keys, t ∈ popped := by
    by_contra missed
    push Not at missed
    obtain ⟨t, ht, new⟩ := missed
    have rest : ∀ {u}, u ∈ g.keys.filter (· ∉ popped) ↔ u ∈ g.keys ∧ u ∉ popped := by
      simp [List.mem_filter]
    obtain ⟨b, hb, free⟩ := Dag.exists_independent (s := g.keys.filter (· ∉ popped))
      (fun u hu => acyclic u (rest.mp hu).1) (rest.mpr ⟨ht, new⟩)
    obtain ⟨key, unvisited⟩ := rest.mp hb
    have closed : (g.deps b).filter (fun d => d ∉ popped) = [] := by
      apply List.filter_eq_nil_iff.mpr
      intro d hd
      have := free d hd
      rw [rest] at this
      simpa [registered b key d hd] using this
    have zero : g.kahn.indeg b = 0 := by
      rw [inv.indeg b key, closed]
      rfl
    rcases waiting b key zero with queued | visited
    · rw [empty] at queued
      cases queued
    · exact unvisited visited
  have enough : g.keys.length ≤ popped.length := (g.keys_nodup.subperm all).length_le
  exact inv.visited.trans (le_antisymm inv.length_le enough)

/-- Where the search for an unregistered dependency finds none, there is none. -/
theorem registered_of_unregistered (h : g.unregistered = none) : Registered g := by
  intro t ht d hd
  obtain ⟨e, he, rfl, deps⟩ := exists_edge ht
  rw [deps] at hd
  have none := List.findSome?_eq_none_iff.mp h e he
  rw [Option.map_eq_none_iff, List.find?_eq_none] at none
  simpa using none d hd

/-- And it finds one where there is one. -/
theorem unregistered_of_registered (h : Registered g) : g.unregistered = none := by
  apply List.findSome?_eq_none_iff.mpr
  intro e he
  rw [Option.map_eq_none_iff, List.find?_eq_none]
  intro d hd
  have key : e.1 ∈ g.keys := List.mem_map_of_mem he
  simpa using h e.1 key d (by rw [deps_of_mem he]; exact hd)

/-- `_validate` accepts the graphs that have no RUNNING member, only registered dependencies and no
directed cycle. -/
theorem validate_ok_iff (g : TaskGraph) (w : World) : g.validate w = .ok () ↔
    (∀ t ∈ g.keys, w.status t ≠ .running) ∧ Registered g ∧
      ∀ t ∈ g.keys, Dag.Acyclic g.deps t := by
  constructor
  · intro accepted
    have valid := valid_of_validate accepted
    refine ⟨valid.notRunning, ?_, ?_⟩
    · unfold validate at accepted
      split at accepted
      · cases accepted
      split at accepted
      · cases accepted
      · rename_i none
        exact registered_of_unregistered none
    · obtain ⟨order, sorted, members, -⟩ := valid.order
      exact fun t ht => sorted.acyclic t ((members t).mpr ht)
  · rintro ⟨still, registered, acyclic⟩
    have noneRunning : g.keys.find? (fun t => w.status t == .running) = none :=
      List.find?_eq_none.mpr fun t ht => by simpa using still t ht
    unfold validate
    rw [noneRunning, unregistered_of_registered registered]
    dsimp only
    rw [if_neg (not_not_intro (visited_of_acyclic registered acyclic))]

end TaskGraph

end TTasks
