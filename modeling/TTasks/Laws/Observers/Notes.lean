import Mathlib.Algebra.Group.Prod
import Mathlib.Algebra.Order.Group.Multiset
import TTasks.Interleave.Balance
import TTasks.Laws.Observers.Blind

/-!
# What a failed save owes

A save that fails owes an entry and an announcement, and the thread that made it has these before it
until they are there. So the notes of a run are what the saves that failed have made due, less what
the threads have still to note down; with no save in progress that is all of it.
-/

namespace TTasks

open Interleave
open Prog (Detours Rest)

namespace GraphRun

open Scheduler (Who)

/-- Entries of `persistence_errors`, announcements, and entries of `graph_persistence_errors`. -/
abbrev Notes := Multiset Exc × Multiset (Option String) × Multiset Exc

/-- What has been noted down. -/
def noted (s : Shared) : Notes :=
  (s.inner.world.persistenceErrors.map Prod.snd, s.inner.world.announcements,
    s.graphPersistenceErrors)

/-- What a save of a task and a save of the graph make due. -/
def taskDue (fails : Option Exc) : Notes :=
  (fails.toList, fails.toList.map fun e => some e.text, 0)

/-- What a save of the graph makes due. -/
def graphDue (fails : Option Exc) : Notes := (0, 0, fails.toList)

variable (r : Setup) (s₀ : Shared)

/-- What the saves since `s₀` have made due. -/
def due (s : Shared) : Notes :=
  let tasks := failures r.executor.saveFails s₀.inner.world.saves s.inner.world.saves
  let graphs := failures r.graphSaveFails s₀.graphSaves s.graphSaves
  let made : Notes := (tasks, tasks.map fun e => some e.text, graphs)
  noted s₀ + made

/-- No save has been taken back. -/
structure Later (s : Shared) : Prop where
  saves : s₀.inner.world.saves ≤ s.inner.world.saves
  graphSaves : s₀.graphSaves ≤ s.graphSaves

/-! ## What a program owes -/

/-- The announcement that comes next. -/
def announced {α : Type} : Program α → Multiset (Option String)
  | .act (.sched (.task (.deliver _ event))) _ => if event.isAnnouncement then {event.error} else 0
  | _ => 0

/-- What a program has still to note down for the save that it is in. -/
def debt {α : Type} : Program α → Notes
  | .act (.sched (.task (.recordSaveError _ e))) _ => taskDue (some e)
  | .act (.sched (.task (.status _))) k => (0, announced (k .pending), 0)
  | .act (.recordGraphError e) _ => graphDue (some e)
  | p => (0, announced p, 0)

/-- Where nothing is about to be announced, no announcement is owed. -/
theorem announced_eq_zero {α : Type} {p : Program α} (quiet : ¬ announcing p) : announced p = 0 := by
  unfold announced
  split
  · exact if_neg quiet
  · rfl

/-- Announcing is one of the steps that persisting takes. -/
theorem persisting_of_announcing {α : Type} {p : Program α} (announces : announcing p) :
    persisting p := by
  cases p with
  | act op k =>
    left
    unfold Op.ofSave
    split <;> first | rfl | exact announces
  | _ => exact announces

/-- A program that is not in a save owes nothing. -/
theorem debt_eq_zero {α : Type} {p : Program α} (home : ¬ persisting p) : debt p = 0 := by
  unfold debt
  split
  · exact absurd (.inl rfl) home
  · rename_i t k
    have quiet : ¬ announcing (k .pending) := fun announces => home (.inr ⟨rfl, _, announces⟩)
    rw [announced_eq_zero quiet]
    rfl
  · exact absurd (.inl rfl) home
  · rw [announced_eq_zero fun announces => home (persisting_of_announcing announces)]
    rfl

variable {r s₀}

/-- A program that is about to save owes nothing yet. -/
theorem debt_detoured {α : Type} {p p' : Program α} (h : Detoured r p p') : debt p = 0 := by
  induction h with
  | ret a => rfl
  | fail e => rfl
  | act onWay next _ => exact debt_eq_zero (not_persisting onWay next)
  | detour leaves _ ih =>
    obtain ⟨store, ⟨t, rfl⟩ | rfl⟩ := leaves
    · rw [persist_eq store]
      rfl
    · rw [persistGraph_eq store]
      rfl

/-! ## One step -/

/-- What a step makes due, and what it notes down. -/
structure Books (r : Setup) (s₀ s s' : Shared) (made notes : Notes) : Prop where
  later : Later s₀ s'
  due : due r s₀ s' = due r s₀ s + made
  noted : noted s' = noted s + notes

variable {s s' : Shared}

/-- A save of a task, which makes due what becomes of it. -/
theorem books_save (later : Later s₀ s) {fails : Option Exc}
    (fate : r.executor.saveFails s.inner.world.saves = fails)
    (saves : s'.inner.world.saves = s.inner.world.saves + 1)
    (graphSaves : s'.graphSaves = s.graphSaves) (same : noted s' = noted s) :
    Books r s₀ s s' (taskDue fails) 0 where
  later := ⟨saves ▸ Nat.le_succ_of_le later.saves, graphSaves ▸ later.graphSaves⟩
  due := by
    unfold due
    rw [saves, graphSaves, failures_succ _ later.saves, fate, add_assoc]
    simp [taskDue, ← Multiset.coe_add]
  noted := same.trans (add_zero _).symm

/-- A save of the graph, which makes due what becomes of it. -/
theorem books_saveGraph (later : Later s₀ s) {fails : Option Exc}
    (fate : r.graphSaveFails s.graphSaves = fails)
    (saves : s'.inner.world.saves = s.inner.world.saves)
    (graphSaves : s'.graphSaves = s.graphSaves + 1) (same : noted s' = noted s) :
    Books r s₀ s s' (graphDue fails) 0 where
  later := ⟨saves ▸ later.saves, graphSaves ▸ Nat.le_succ_of_le later.graphSaves⟩
  due := by
    unfold due
    rw [saves, graphSaves, failures_succ _ later.graphSaves, fate, add_assoc]
    simp [graphDue, ← Multiset.coe_add]
  noted := same.trans (add_zero _).symm

/-- A step that saves nothing and notes something down. -/
theorem books_note (later : Later s₀ s) (s' : Shared) (saves : s'.inner.world.saves = s.inner.world.saves)
    (graphSaves : s'.graphSaves = s.graphSaves) {notes : Notes}
    (adds : noted s' = noted s + notes) : Books r s₀ s s' 0 notes where
  later := ⟨saves ▸ later.saves, graphSaves ▸ later.graphSaves⟩
  due := by
    unfold due
    rw [saves, graphSaves, add_zero]
  noted := adds

/-- An operation on the way leaves the books as they are. -/
theorem books_onWay (who : Who) {op : Op} (onWay : op.OnWay) (later : Later s₀ s) :
    Books r s₀ s (sem r who op s).2 0 0 := by
  have of_world : ∀ s' : Shared, Unnoted s.inner.world s'.inner.world →
      s'.graphSaves = s.graphSaves → s'.graphPersistenceErrors = s.graphPersistenceErrors →
      Books r s₀ s s' 0 0 := by
    rintro s' ⟨saves, errors, announcements⟩ graphSaves graphErrors
    apply books_note later s' saves graphSaves
    unfold noted
    rw [errors, announcements, graphErrors, add_zero]
  cases op with
  | resetErrors => exact of_world _ ⟨rfl, rfl, rfl⟩ rfl rfl
  | saveGraph => exact onWay.elim
  | recordGraphError e => exact onWay.elim
  | sched o =>
    have world : Unnoted s.inner.world (o.perform r.toRun who s.inner).2.world := ?_
    · exact of_world { s with inner := (o.perform r.toRun who s.inner).2 } world rfl rfl
    cases o with
    | task o => exact o.perform_unnoted r.executor s.inner.world onWay
    | poolSubmit t upstream =>
      simp only [Scheduler.SchedOp.perform]
      split <;> exact ⟨rfl, rfl, rfl⟩
    | addDoneCallback t =>
      simp only [Scheduler.SchedOp.perform]
      split <;> exact ⟨rfl, rfl, rfl⟩
    | recordException t =>
      simp only [Scheduler.SchedOp.perform]
      split <;> exact ⟨rfl, rfl, rfl⟩
    | _ => exact ⟨rfl, rfl, rfl⟩

/-- The answer of a save that fails with the exception. -/
def answered (fails : Option Exc) : Except Exc Unit := fails.elim (.ok ()) .error

/-- `_persist` at its save. -/
theorem books_trySave (later : Later s₀ s) (who : Who) (t : TaskId) :
    let fails := r.executor.saveFails s.inner.world.saves
    (sem r who (.sched (.task (.save t))) s).1 = answered fails ∧
      Books r s₀ s (sem r who (.sched (.task (.save t))) s).2 (taskDue fails) 0 := by
  simp only [sem, Scheduler.SchedOp.perform, TaskOp.perform]
  cases fails : r.executor.saveFails s.inner.world.saves with
  | none => exact ⟨rfl, books_save later fails rfl rfl rfl⟩
  | some e => exact ⟨rfl, books_save later fails rfl rfl rfl⟩

/-- `_persist_graph` at its save. -/
theorem books_saveOfGraph (later : Later s₀ s) (who : Who) :
    let fails := r.graphSaveFails s.graphSaves
    (sem r who .saveGraph s).1 = answered fails ∧
      Books r s₀ s (sem r who .saveGraph s).2 (graphDue fails) 0 := by
  simp only [sem]
  cases fails : r.graphSaveFails s.graphSaves with
  | none => exact ⟨rfl, books_saveGraph later fails rfl rfl rfl⟩
  | some e => exact ⟨rfl, books_saveGraph later fails rfl rfl rfl⟩

/-- A step of a save, and what its thread owes before and after. -/
theorem Saving.even {op : Op} {k : op.Ans → Program Unit} (saving : Saving (.act op k))
    (later : Later s₀ s) (who : Who) {q : Program Unit} (free : debt q = 0) :
    ∃ made notes, Books r s₀ s (sem r who op s).2 made notes ∧
      made + debt (Prog.act op fun x => (k x).bind fun _ => q) =
        notes + debt ((k (sem r who op s).1).bind fun _ => q) := by
  cases saving with
  | save t =>
    obtain ⟨answer, books⟩ := books_trySave (r := r) later who t
    refine ⟨_, _, books, ?_⟩
    rw [answer]
    cases r.executor.saveFails s.inner.world.saves with
    | none => exact congrArg (0 + ·) free.symm
    | some e => exact add_comm _ _
  | record t e =>
    refine ⟨_, ({e}, 0, 0), books_note later (sem r who _ s).2 rfl rfl ?_, ?_⟩
    · simp [noted, sem, Scheduler.SchedOp.perform, TaskOp.perform, World.announcements,
        ← Multiset.coe_add]
    · rfl
  | read t e => exact ⟨_, _, books_onWay who trivial later, rfl⟩
  | announce t e status =>
    refine ⟨_, (0, {some e.text}, 0), books_note later (sem r who _ s).2 rfl rfl ?_, ?_⟩
    · simp [noted, sem, Scheduler.SchedOp.perform, TaskOp.perform, World.announcements, failureEvent,
        TaskEvent.isAnnouncement, ← Multiset.coe_add]
    · change 0 + _ = _ + debt q
      rw [free, zero_add, add_zero]
      rfl
  | saveGraph =>
    obtain ⟨answer, books⟩ := books_saveOfGraph (r := r) later who
    refine ⟨_, _, books, ?_⟩
    rw [answer]
    cases r.graphSaveFails s.graphSaves with
    | none => exact congrArg (0 + ·) free.symm
    | some e => exact add_comm _ _
  | recordGraph e =>
    refine ⟨_, (0, 0, {e}), books_note later (sem r who _ s).2 rfl rfl ?_, ?_⟩
    · simp [noted, sem, ← Multiset.coe_add]
    · change 0 + _ = _ + debt q
      rw [free, zero_add, add_zero]
      rfl

/-! ## A run -/

section Run

variable (r s₀) {α κ : Type} (o : Observers α κ)

/-- The books of a run are straight. -/
structure Account (s : Threads Who Op.Ans Exc Unit (Shared × Bus α)) : Prop where
  later : Later s₀ s.shared.1
  balanced : Threads.Balanced (fun s : Shared × Bus α => due (o.setup r) s₀ s.1)
    (fun s => noted s.1) debt s

variable {r s₀ o} {s s' : Threads Who Op.Ans Exc Unit (Shared × Bus α)}

/-- At the start nothing is due and nothing is owed. -/
theorem Account.start (s : Threads Who Op.Ans Exc Unit (Shared × Bus α))
    (free : ∀ who, debt (s.rest who) = 0) : Account r s.shared.1 o s where
  later := ⟨le_rfl, le_rfl⟩
  balanced := by
    apply Threads.Balanced.of_free free
    unfold due failures
    rw [List.Ico.self_empty, List.Ico.self_empty]
    exact add_zero _

/-- Each step keeps the books straight: a detour pays for its own save, and no other step saves. -/
theorem Account.step {t : Threads Who Op.Ans Exc Unit Shared} {who : Who} (account : Account r s₀ o s)
    (same : Threads.Match (IsSave (o.setup r)) Op.OnWay (fun s t => t = s.1.bare) s t)
    (moved : Threads.perform (beside r o) who s = some s') : Account r s₀ o s' := by
  obtain ⟨op, k, here, rfl⟩ := Threads.perform_eq_some moved
  have even : ∃ made notes, Books (o.setup r) s₀ s.shared.1 (sem (o.setup r) who op s.shared.1).2
      made notes ∧ made + debt (s.rest who) = notes + debt (k (sem (o.setup r) who op s.shared.1).1) := by
    have thread := same.rest who
    rw [here] at thread ⊢
    rcases thread.cases_act save_total with ⟨kb, q, rest, rfl, detours⟩ | ⟨onWay, k', -, next⟩
    · exact (Saving.of_rest rest).even account.later who (debt_detoured detours)
    · refine ⟨0, 0, books_onWay who onWay account.later, ?_⟩
      rw [debt_eq_zero (not_persisting onWay next), debt_detoured (next _)]
  obtain ⟨made, notes, books, even⟩ := even
  refine ⟨books.later, account.balanced.step (fun j hj => Function.update_of_ne hj _ _) ?_⟩
  dsimp only
  rw [Function.update_self]
  calc due (o.setup r) s₀ (sem (o.setup r) who op s.shared.1).2 + noted s.shared.1 + debt (s.rest who)
      = due (o.setup r) s₀ s.shared.1 + noted s.shared.1 + (made + debt (s.rest who)) := by
        rw [books.due]
        abel
    _ = due (o.setup r) s₀ s.shared.1 + noted s.shared.1 +
        (notes + debt (k (sem (o.setup r) who op s.shared.1).1)) := by rw [even]
    _ = due (o.setup r) s₀ s.shared.1 + noted (sem (o.setup r) who op s.shared.1).2 +
        debt (k (sem (o.setup r) who op s.shared.1).1) := by
        rw [books.noted]
        abel

/-- Once no thread is in a save, every save that failed has been noted down. -/
theorem Account.settled (account : Account r s₀ o s) (home : ∀ who, ¬ persisting (s.rest who)) :
    Recorded o.saveFails s₀.inner.world s.shared.1.inner.world ∧
      GraphRecorded o.graphSaveFails s₀ s.shared.1 := by
  have all := account.balanced.settled fun who => debt_eq_zero (home who)
  have errors := congrArg Prod.fst all
  have announcements := congrArg (fun notes : Notes => notes.2.1) all
  have graphs := congrArg (fun notes : Notes => notes.2.2) all
  refine ⟨⟨?_, ?_⟩, ?_⟩
  · exact (Multiset.coe_eq_coe.mp errors).symm
  · exact (Multiset.coe_eq_coe.mp announcements).symm
  · exact (Multiset.coe_eq_coe.mp graphs).symm

end Run

end GraphRun

end TTasks
