import TTasks.Laws.Autosave.Execute

/-!
# What the calls leave in the store

By the rely–guarantee rule a run of timely steps keeps the account straight. When all the calls are
over nobody owes a save and nobody holds a snapshot, so the store holds the live task.
-/

namespace TTasks

open Interleave
open Prog (Contract)

namespace Sqlite

namespace Autosave

section Runs

variable {ι : Type} [DecidableEq ι] (x : Executor) (t : TaskId)

/-- Before the calls the task is saved as it is, or it may be started and some call will. -/
def Opening (ι : Type) (t : TaskId) (w : World) : Prop :=
  Saved t w ∨ ((w.status t).canTransitionTo .running = true ∧ Nonempty ι)

/-- The account before the calls. -/
def opening (w : World) : Account ι where
  latest := w.stored t
  debt := if Saved t w then .none else .start

theorem start_sound (store : x.store = true) (calls : ι → Request) (w : World)
    (opens : Opening ι t w) :
    Threads.Sound (act x) (contract x t (w.tasks t).type) (Inv t (w.tasks t).type)
      (fun i _ q => Free t i q ∧ Begun q)
      ⟨((start x t calls w).shared, opening t w), (start x t calls w).rest⟩ where
  inv := by
    refine ⟨rfl, ?_, fun _ => rfl, ?_⟩
    · intro settled
      change (if Saved t w then Debt.none else Debt.start) = _ at settled
      split at settled
      · assumption
      · cases settled
    · intro fresh
      change (if Saved t w then Debt.none else Debt.start) = _ at fresh
      split at fresh
      · cases fresh
      · rename_i unsaved
        exact (opens.resolve_left unsaved).1
  each i := by
    apply leads_request store
    refine ⟨(fun held => by cases held), (fun runner => by cases runner), ?_, rfl⟩
    change (if Saved t w then Debt.none else Debt.start) ≠ _
    split <;> exact fun owed => by cases owed

/-- In a run of timely steps the store holds the live task once all the calls have returned or
raised. -/
theorem saved_of_timely (store : x.store = true) (calls : ι → Request) (w : World)
    (opens : Opening ι t w) (s : State ι)
    (run : (Threads.machine (sem x)).Reaches (Threads.Allows Timely) (start x t calls w) s)
    (halted : s.Over) : Saved t s.shared.world := by
  rcases isEmpty_or_nonempty ι with none | ⟨⟨someone⟩⟩
  · have saved := opens.resolve_right fun waits => none.false waits.2.some
    exact run.invariant (I := fun a => Saved t a.shared.world) saved
      fun _ i _ _ _ _ => (none.false i).elim
  obtain ⟨a, run'⟩ := Threads.reaches_annotate account (opening t w) run
  have stable : ∀ (i : ι) (r : Except Exc Unit) {p q : Noted ι}, Rely x t (w.tasks t).type i p q →
      Free t i p ∧ Begun p → Free t i q ∧ Begun q := fun i _ p q rely here =>
    ⟨Free.stable p q rely here.1, Begun.stable p q rely here.2⟩
  have fit := contracts_compatible (t := t) x stable
  have sound := (start_sound x t store calls w opens).reaches fit run'
  have ended : ∀ i, Free t i (s.shared, a) ∧ Begun (s.shared, a) := fun i =>
    (sound.post (halted i)).elim fun _ here => here
  have empty : s.shared.holder = none := by
    cases holder : s.shared.holder with
    | none => rfl
    | some i => exact absurd holder (ended i).1.empty
  have settled : a.debt = .none := by
    cases debt : a.debt with
    | none => rfl
    | owed i => exact absurd debt (ended i).1.owes
    | start => exact absurd debt (ended someone).2
  exact (sound.inv.kept empty).trans (sound.inv.settled settled)

end Runs

/-! ## Runs -/

/-- An executor with a store whose handler raises. -/
def failing : Executor where
  handlers := fun _ => true
  behaviour := fun _ _ => { outcome := .raises (.exception "e") }
  store := true

/-- An execution, and a cancel of the same task. -/
def both : Fin 2 → Request
  | 0 => .execute [] .default
  | 1 => .cancel

def fresh : World where
  tasks := fun _ => {}

/-- The execution has read the FAILED task for its last save when the cancel comes; the cancel saves
the CANCELLED task, and the execution commits what it read. -/
def overtaken : List (Fin 2) :=
  List.replicate 14 0 ++ List.replicate 12 1 ++ List.replicate 3 0

/-- The cancel finds the task RUNNING and leaves its save to the execution. -/
def handedOver : List (Fin 2) :=
  List.replicate 9 0 ++ List.replicate 6 1 ++ List.replicate 7 0

theorem over_of_two {s : State (Fin 2)} (h : ¬ (s.rest 0).Acting ∧ ¬ (s.rest 1).Acting) : s.Over
  | 0 => h.1
  | 1 => h.2

/-- A cancel of a RUNNING task that the execution saves. -/
theorem saved_of_timely_handedOver : ∃ s : State (Fin 2),
    (Threads.machine (sem failing)).Reaches (Threads.Allows Timely) (start failing "a" both fresh) s ∧
      s.Over ∧ Saved "a" s.shared.world ∧ s.shared.world.status "a" = .cancelled := by
  have ran : ∃ s ∈ (Threads.machine (sem failing)).exec (Threads.Allows Timely) handedOver
      (start failing "a" both fresh), (¬ (s.rest 0).Acting ∧ ¬ (s.rest 1).Acting) ∧
        s.shared.world.status "a" = .cancelled := by decide +kernel
  obtain ⟨s, hs, halted, cancelled⟩ := ran
  have run := Machine.reaches_of_exec hs
  have waits : (fresh.status "a").canTransitionTo .running = true := by decide
  exact ⟨s, run, over_of_two halted,
    saved_of_timely failing "a" rfl both fresh (.inr ⟨waits, ⟨0⟩⟩) s run (over_of_two halted),
    cancelled⟩

/-- A snapshot that is committed after a newer one: the task is CANCELLED, and FAILED in the store. -/
theorem overtaken_unsaved : ∃ s : State (Fin 2),
    (Threads.machine (sem failing)).Reaches (fun _ _ => True) (start failing "a" both fresh) s ∧
      s.Over ∧ ¬ Saved "a" s.shared.world ∧ s.shared.world.status "a" = .cancelled ∧
      (s.shared.world.stored "a").map Task.status = some .failed := by
  have ran : ∃ s ∈ (Threads.machine (sem failing)).exec (fun _ _ => True) overtaken
      (start failing "a" both fresh), (¬ (s.rest 0).Acting ∧ ¬ (s.rest 1).Acting) ∧
        ¬ Saved "a" s.shared.world ∧ s.shared.world.status "a" = .cancelled ∧
        (s.shared.world.stored "a").map Task.status = some .failed := by decide +kernel
  obtain ⟨s, hs, halted, unsaved, cancelled, stale⟩ := ran
  exact ⟨s, Machine.reaches_of_exec hs, over_of_two halted, unsaved, cancelled, stale⟩

end Autosave

end Sqlite

end TTasks
