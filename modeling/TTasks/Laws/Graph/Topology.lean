import TTasks.Laws.Graph.Kahn
import TTasks.Views

/-!
# Roots and leaves

Where `_validate` accepts a graph, its edges hang together from both ends: each member rests on a
root (`exists_root`), and some leaf rests on each member (`exists_leaf`).
-/

namespace TTasks.TaskGraph

variable {g : TaskGraph} {t u : TaskId}

/-- The first task rests on the second: there is a chain of dependencies between them. -/
def RestsOn (g : TaskGraph) : TaskId → TaskId → Prop :=
  Relation.ReflTransGen fun t d => d ∈ g.deps t

/-! ## The views, by the dependencies -/

/-- The roots are the members without dependencies. -/
theorem mem_roots_iff : t ∈ g.roots ↔ t ∈ g.keys ∧ g.deps t = [] := by
  rw [mem_roots]
  constructor
  · rintro ⟨key, edge⟩
    exact ⟨key, deps_of_mem edge⟩
  · rintro ⟨key, none⟩
    obtain ⟨e, edge, rfl, deps⟩ := exists_edge key
    rw [none] at deps
    exact ⟨key, deps ▸ edge⟩

/-- The leaves are the members that no member depends on. -/
theorem mem_leaves_iff : t ∈ g.leaves ↔ t ∈ g.keys ∧ ∀ u ∈ g.keys, t ∉ g.deps u := by
  rw [mem_leaves]
  refine and_congr_right fun _ => ⟨fun none u key needs => ?_, fun none e edge needs => ?_⟩
  · obtain ⟨e, edge, -, deps⟩ := exists_edge key
    exact none e edge (deps ▸ needs)
  · exact none e.1 (List.mem_map_of_mem edge) (deps_of_mem edge ▸ needs)

/-! ## Chains to both ends -/

section Chains

variable {w : World} (valid : g.Valid w)

include valid

/-- Below every member of a valid graph there is a root, by induction along the order of the graph.
-/
theorem exists_root (member : t ∈ g.keys) : ∃ u ∈ g.roots, g.RestsOn t u := by
  obtain ⟨l, sorted, mem, -⟩ := valid.order
  refine sorted.induction (P := fun t => ∃ u ∈ g.roots, g.RestsOn t u) ?_ t ((mem t).mpr member)
  intro a ha below
  cases deps : g.deps a with
  | nil => exact ⟨a, mem_roots_iff.mpr ⟨(mem a).mp ha, deps⟩, .refl⟩
  | cons d ds =>
    have needs : d ∈ g.deps a := by
      rw [deps]
      exact List.mem_cons_self
    obtain ⟨u, root, rests⟩ := below d needs
    exact ⟨u, root, .head needs rests⟩

/-- Above every member of a valid graph there is a leaf, by induction against that order. -/
theorem exists_leaf (member : t ∈ g.keys) : ∃ u ∈ g.leaves, g.RestsOn u t := by
  obtain ⟨l, sorted, mem, -⟩ := valid.order
  refine sorted.induction_up (P := fun t => ∃ u ∈ g.leaves, g.RestsOn u t) ?_ t ((mem t).mpr member)
  intro a ha above
  by_cases needed : ∃ b ∈ l, a ∈ g.deps b
  · obtain ⟨b, hb, needs⟩ := needed
    obtain ⟨u, leaf, rests⟩ := above b hb needs
    exact ⟨u, leaf, rests.tail needs⟩
  · refine ⟨a, mem_leaves_iff.mpr ⟨(mem a).mp ha, fun b key needs => ?_⟩, .refl⟩
    exact needed ⟨b, (mem b).mpr key, needs⟩

end Chains

end TTasks.TaskGraph
