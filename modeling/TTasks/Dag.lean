import Mathlib.Data.Fintype.Card
import Mathlib.Data.List.Basic
import Mathlib.Data.Set.Finite.List
import Mathlib.Order.WellFounded
import Mathlib.Logic.Relation

/-!
# Recursion over an acyclic dependency relation

`Sorted deps l` says that the list holds every dependency of its members further down, so that it is
a topological order, last things first, and none of them is on a cycle (`Sorted.acyclic`). The other
way round, without cycles every finite collection has a member that needs none of the others
(`exists_independent`). Along such a list one may argue by induction, from the dependencies up
(`Sorted.induction`) or from what needs a member down to it (`Sorted.induction_up`), and a function
that is defined from its values at the dependencies can be computed by unrolling the definition as
often as the list is long (`unroll_eq`), which gives the only solution (`eq_unroll`).
-/

namespace TTasks.Dag

variable {α β : Type} {deps : α → List α}

/-- A topological order: the dependencies of each member come after it in the list. -/
inductive Sorted (deps : α → List α) : List α → Prop
  | nil : Sorted deps []
  | cons {a : α} {l : List α} (closed : ∀ d ∈ deps a, d ∈ l) (fresh : a ∉ l)
      (rest : Sorted deps l) : Sorted deps (a :: l)

/-- What holds of a member once it holds of its dependencies holds of all members. -/
theorem Sorted.induction {P : α → Prop} {l : List α} (sorted : Sorted deps l)
    (step : ∀ a ∈ l, (∀ d ∈ deps a, P d) → P a) : ∀ a ∈ l, P a := by
  induction sorted with
  | nil => nofun
  | @cons b l closed _ _ ih =>
    have tail := ih fun a ha => step a (List.mem_cons_of_mem b ha)
    intro a ha
    rcases List.mem_cons.mp ha with rfl | ha
    · exact step a List.mem_cons_self fun d hd => tail d (closed d hd)
    · exact tail a ha

theorem Sorted.closed {l : List α} (sorted : Sorted deps l) {a : α} (ha : a ∈ l) {d : α}
    (hd : d ∈ deps a) : d ∈ l := by
  induction sorted with
  | nil => cases ha
  | cons closed _ _ ih =>
    rcases List.mem_cons.mp ha with rfl | ha
    · exact List.mem_cons_of_mem _ (closed d hd)
    · exact List.mem_cons_of_mem _ (ih ha)

/-- What holds of a member once it holds of the members that need it holds of all members. -/
theorem Sorted.induction_up {P : α → Prop} {l : List α} (sorted : Sorted deps l)
    (step : ∀ a ∈ l, (∀ b ∈ l, a ∈ deps b → P b) → P a) : ∀ a ∈ l, P a := by
  induction sorted with
  | nil => nofun
  | @cons b l closed fresh rest ih =>
    have first : P b := by
      refine step b List.mem_cons_self fun c hc needs => absurd ?_ fresh
      rcases List.mem_cons.mp hc with rfl | hc
      · exact closed c needs
      · exact rest.closed hc needs
    have tail := ih fun a ha above => step a (List.mem_cons_of_mem b ha) fun c hc needs => by
      rcases List.mem_cons.mp hc with rfl | hc
      · exact first
      · exact above c hc needs
    intro a ha
    rcases List.mem_cons.mp ha with rfl | ha
    · exact first
    · exact tail a ha

theorem Sorted.nodup {l : List α} (sorted : Sorted deps l) : l.Nodup := by
  induction sorted with
  | nil => exact .nil
  | cons _ fresh _ ih => exact List.nodup_cons.mpr ⟨fresh, ih⟩

/-! ## Cycles -/

/-- The member is on no directed cycle. -/
def Acyclic (deps : α → List α) (a : α) : Prop :=
  ¬ Relation.TransGen (fun a d => d ∈ deps a) a a

/-- Whoever is in a topological order is on no cycle. -/
theorem Sorted.acyclic {l : List α} (sorted : Sorted deps l) : ∀ a ∈ l, Acyclic deps a := by
  have accessible : ∀ a ∈ l, Acc (fun d a => d ∈ deps a) a :=
    sorted.induction fun a _ ih => ⟨a, ih⟩
  intro a ha cycle
  have back : Relation.TransGen (fun d a => d ∈ deps a) a a := Relation.transGen_swap.mpr cycle
  have irrefl : ∀ b, Acc (Relation.TransGen fun d a => d ∈ deps a) b →
      ¬ Relation.TransGen (fun d a => d ∈ deps a) b b := by
    intro b acc
    induction acc with
    | intro b _ ih => exact fun self => ih b self self
  exact irrefl a (accessible a ha).transGen back

/-- Where nobody is on a cycle, somebody needs nobody else of a finite collection. -/
theorem exists_independent {s : List α} (acyclic : ∀ a ∈ s, Acyclic deps a) {a : α} (ha : a ∈ s) :
    ∃ b ∈ s, ∀ d ∈ deps b, d ∉ s := by
  let below : {a // a ∈ s} → {a // a ∈ s} → Prop := fun b a =>
    Relation.TransGen (fun a d => d ∈ deps a) a b
  have finite : Finite {a // a ∈ s} := s.finite_toSet
  have trans : IsTrans _ below := ⟨fun _ _ _ h h' => h'.trans h⟩
  have irrefl : Std.Irrefl below := ⟨fun a => acyclic a a.2⟩
  obtain ⟨⟨b, hb⟩, -, least⟩ := (Finite.wellFounded_of_trans_of_irrefl below).has_min Set.univ
    ⟨⟨a, ha⟩, trivial⟩
  exact ⟨b, hb, fun d hd member => least ⟨d, member⟩ trivial (.single hd)⟩

/-! ## Definitions from the values at the dependencies -/

/-- The definition looks at nothing but the dependencies. -/
def Local (deps : α → List α) (f : α → (α → β) → β) : Prop :=
  ∀ a g g', (∀ d ∈ deps a, g d = g' d) → f a g = f a g'

/-- The definition unrolled to a depth. -/
def unroll (f : α → (α → β) → β) (bottom : β) : Nat → α → β
  | 0, _ => bottom
  | n + 1, a => f a (unroll f bottom n)

variable {f : α → (α → β) → β} {bottom : β}

/-- Deeper than the order is long, unrolling changes nothing. -/
theorem unroll_stable (localf : Local deps f) {l : List α} (sorted : Sorted deps l) :
    ∀ {m n : Nat}, l.length ≤ m → l.length ≤ n → ∀ a ∈ l,
      unroll f bottom m a = unroll f bottom n a := by
  induction sorted with
  | nil => nofun
  | @cons b l closed _ _ ih =>
    intro m n hm hn a ha
    rcases List.mem_cons.mp ha with rfl | ha
    · obtain ⟨m, rfl⟩ : ∃ k, m = k + 1 := ⟨m - 1, by simp at hm; omega⟩
      obtain ⟨n, rfl⟩ : ∃ k, n = k + 1 := ⟨n - 1, by simp at hn; omega⟩
      exact localf a _ _ fun d hd =>
        ih (by simp at hm; omega) (by simp at hn; omega) d (closed d hd)
    · exact ih (by simp at hm; omega) (by simp at hn; omega) a ha

/-- The unrolled definition satisfies the definition. -/
theorem unroll_eq (localf : Local deps f) {l : List α} (sorted : Sorted deps l) {n : Nat}
    (deep : l.length ≤ n) {a : α} (ha : a ∈ l) :
    unroll f bottom n a = f a (unroll f bottom n) :=
  unroll_stable localf sorted deep (Nat.le_succ_of_le deep) a ha

/-- Whatever satisfies the definition is the unrolled one. -/
theorem eq_unroll (localf : Local deps f) {l : List α} (sorted : Sorted deps l) {n : Nat}
    (deep : l.length ≤ n) {g : α → β} (solves : ∀ a ∈ l, g a = f a g) :
    ∀ a ∈ l, g a = unroll f bottom n a :=
  sorted.induction fun a ha ih =>
    (solves a ha).trans ((localf a _ _ ih).trans (unroll_eq localf sorted deep ha).symm)

end TTasks.Dag
