import TTasks.Laws.Scheduler.Progress
import TTasks.Laws.Scheduler.Verdict

/-!
# The end of a run

What is true when the thread that called `run` is over: every submitted call is over and its
callback has begun, so that `_errors` tells which of them failed; and each task is as it was on
entry, or marked BLOCKED, or where its execution brings it (`Closed.status`).
-/

namespace TTasks.Scheduler

open Interleave

section End

variable {r : Run} {M : Mode r} {s : State} {t : TaskId}

/-- The run is over: nothing is open, and nobody holds the lock. -/
structure Closed (r : Run) (s : Shared) : Prop where
  coherent : Coherent r s
  done : ∀ t, s.stage t ≠ .absent → (s.stage t).isDone = true
  invoked : ∀ t, s.stage t ≠ .absent → s.callback t = .invoked
  free : s.lock = none

/-- A thread of the pool has nothing left to do once the pool is empty. -/
theorem worker_over (sound : Sound M s) (joined : Joined s.shared)
    (submitted : s.shared.stage t ≠ .absent) : ¬ (s.rest (.worker t)).Acting := by
  intro acting
  obtain ⟨o, k, hrest⟩ := acting.exists_act
  have ready := sound.ready (compatible M) hrest
  by_cases starts : o = .start t
  · obtain ⟨-, -, waiting⟩ := ready.start t starts
    obtain ⟨e, he⟩ := Stage.isDone_iff.mp (joined.done t submitted)
    rw [he] at waiting
    exact absurd waiting (by simp [Stage.rank])
  · have busy := ready.worker t rfl starts
    rw [joined.busy] at busy
    cases busy

theorem closed_of_halted (sound : Sound M s) (halted : ¬ (s.rest .main).Acting) :
    Closed r s.shared := by
  obtain ⟨_, joined, free, -⟩ := sound.post halted
  refine ⟨sound.inv.coherent, joined.done, fun t submitted => ?_, free⟩
  obtain ⟨_, -, -, quiet⟩ := sound.post (worker_over sound joined submitted)
  have hooked := sound.inv.coherent.hooked free t submitted
  cases h : s.shared.callback t with
  | unregistered => exact absurd h hooked
  | registered => exact absurd h quiet
  | invoked => rfl

/-- `run` has returned unless it reports that the scheduler was stuck. -/
theorem returned_of_clean (clean : M.clean) (calm : r.cancels = []) (sound : Sound M s)
    (halted : ¬ (s.rest .main).Acting) : (s.rest .main).Returned := by
  have here := sound.each .main
  cases h : s.rest .main with
  | ret a => trivial
  | act o k => rw [h] at halted; exact absurd trivial halted
  | fail e =>
    rw [h] at here
    exact absurd (sound.inv.clean clean) (here.2.2 calm)

/-- Where `run` has returned, no scheduler error was found, and the `done` event is set. -/
theorem done_of_returned (calm : r.cancels = []) (sound : Sound M s) (key : t ∈ r.graph.keys)
    (returned : (s.rest .main).Returned) :
    s.shared.done = true ∧ s.shared.schedulerErrors = [] := by
  have here := sound.each .main
  have nonempty : r.graph.keys ≠ [] := List.ne_nil_of_mem key
  cases h : s.rest .main with
  | ret a =>
    rw [h] at here
    obtain ⟨done, errors, -⟩ := here.2.2 nonempty
    exact ⟨done calm, errors⟩
  | act o k => rw [h] at returned; exact returned.elim
  | fail e => rw [h] at returned; exact returned.elim

section Closed

variable {s : Shared} (closed : Closed r s) (core : Core r s)

include closed core

/-- An executed task is where its execution brings it, and `_errors` has it unless it succeeded. -/
theorem Closed.executed (submitted : s.stage t ≠ .absent) :
    s.status t = ending r t ∧ ((s.errors t).isSome = true ↔ ending r t ≠ .succeeded) := by
  obtain ⟨e, done, errors⟩ := closed.coherent.invoked t (closed.invoked t submitted)
  obtain ⟨ended, succeeded⟩ := core.done t e done
  rw [errors, Option.isSome_iff_ne_none, ne_eq, succeeded]
  exact ⟨ended, .rfl⟩

omit core in
/-- A task that was not executed has no error. -/
theorem Closed.no_error (absent : s.stage t = .absent) : s.errors t = none := by
  apply closed.coherent.errors
  rw [closed.coherent.absent t absent]
  simp

/-- A task is as it was on entry, or it is marked BLOCKED, or it was executed. -/
theorem Closed.status (t : TaskId) :
    (s.stage t = .absent ∧ (s.status t = entered r t ∨ Marked r s t)) ∨
      (s.stage t ≠ .absent ∧ s.status t = ending r t) := by
  by_cases absent : s.stage t = .absent
  · exact .inl ⟨absent, core.absent t absent⟩
  · exact .inr ⟨absent, (closed.executed core absent).1⟩

end Closed

end End

/-! ## Two small graphs -/

/-- One task. -/
def lone : TaskGraph where
  edges := [("a", [])]
  keys_nodup := by decide
  deps_nodup := by decide

/-- A task and one that needs it. -/
def pair : TaskGraph where
  edges := [("a", []), ("b", ["a"])]
  keys_nodup := by decide
  deps_nodup := by decide

end TTasks.Scheduler
