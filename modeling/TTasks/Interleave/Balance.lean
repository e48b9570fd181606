import Mathlib.Algebra.BigOperators.Group.Finset.Basic
import Mathlib.Tactic.Abel
import TTasks.Interleave.Threads

/-!
# What threads still owe

An account of a run of threads: what is owed of the shared state is what has been paid there and what
the threads have still to pay, each as its program says. A step that settles for itself keeps the
account, and once no thread owes anything, all of it is paid.
-/

namespace TTasks.Interleave.Threads

variable {ι Op ε α σ M : Type} {Ans : Op → Type} [DecidableEq ι] [AddCancelCommMonoid M]
  {owed paid : σ → M} {debt : Prog Ans ε α → M} {s s' : Threads ι Ans ε α σ} {i : ι}

/-- The account is straight; only finitely many threads owe something. -/
def Balanced (owed paid : σ → M) (debt : Prog Ans ε α → M) (s : Threads ι Ans ε α σ) : Prop :=
  ∃ crew : Finset ι, (∀ i, i ∉ crew → debt (s.rest i) = 0) ∧
    owed s.shared = paid s.shared + ∑ i ∈ crew, debt (s.rest i)

omit [DecidableEq ι] in
/-- At the start nobody owes anything, so even totals are balanced. -/
theorem Balanced.of_free (free : ∀ i, debt (s.rest i) = 0) (even : owed s.shared = paid s.shared) :
    Balanced owed paid debt s := ⟨∅, fun i _ => free i, by rw [even, Finset.sum_empty, add_zero]⟩

omit [DecidableEq ι] in
/-- Once every thread's debt is paid, the totals are even again. -/
theorem Balanced.settled (h : Balanced owed paid debt s) (free : ∀ i, debt (s.rest i) = 0) :
    owed s.shared = paid s.shared := by
  obtain ⟨crew, -, account⟩ := h
  rw [account, Finset.sum_eq_zero fun i _ => free i, add_zero]

/-- One thread moves, and what becomes owed, is paid or stays to be paid is even. -/
theorem Balanced.step (h : Balanced owed paid debt s) (others : ∀ j, j ≠ i → s'.rest j = s.rest j)
    (even : owed s'.shared + paid s.shared + debt (s.rest i) =
      owed s.shared + paid s'.shared + debt (s'.rest i)) : Balanced owed paid debt s' := by
  obtain ⟨crew, free, account⟩ := h
  refine ⟨insert i crew, fun j out => ?_, ?_⟩
  · rw [Finset.mem_insert, not_or] at out
    rw [others j out.1]
    exact free j out.2
  · let all := insert i crew
    have whole : ∑ j ∈ crew, debt (s.rest j) = ∑ j ∈ all, debt (s.rest j) :=
      Finset.sum_subset (Finset.subset_insert i crew) fun j _ out => free j out
    have split : ∀ t : Threads ι Ans ε α σ,
        debt (t.rest i) + ∑ j ∈ all.erase i, debt (t.rest j) = ∑ j ∈ all, debt (t.rest j) :=
      fun t => Finset.add_sum_erase all (fun j => debt (t.rest j)) (Finset.mem_insert_self i crew)
    have same : ∑ j ∈ all.erase i, debt (s'.rest j) = ∑ j ∈ all.erase i, debt (s.rest j) :=
      Finset.sum_congr rfl fun j mem => by rw [others j (Finset.ne_of_mem_erase mem)]
    rw [whole, ← split s] at account
    rw [← split s', same]
    apply add_right_cancel (b := paid s.shared + debt (s.rest i))
    calc owed s'.shared + (paid s.shared + debt (s.rest i))
        = owed s.shared + paid s'.shared + debt (s'.rest i) := by rw [← even, add_assoc]
      _ = paid s.shared + (debt (s.rest i) + ∑ j ∈ all.erase i, debt (s.rest j)) + paid s'.shared +
          debt (s'.rest i) := by rw [account]
      _ = paid s'.shared + (debt (s'.rest i) + ∑ j ∈ all.erase i, debt (s.rest j)) +
          (paid s.shared + debt (s.rest i)) := by abel

end TTasks.Interleave.Threads
