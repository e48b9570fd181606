import TTasks.Laws.Executor.Attempt
import TTasks.Laws.Executor.Undisturbed

/-!
# Executions that leave their task RUNNING

The `except` clauses of an attempt take every exception within `Exception` whose text and process
can be read, so an attempt leaves its task RUNNING exactly if the handler ends in another one
without having cancelled the task. With retries that may happen at any attempt that the failures
before it let `execute` come to (`execute_running_iff`).
-/

namespace TTasks

open Interleave

section Escape

variable {x : Executor} {t : TaskId} {w : World} {upstream : List TaskId}

/-- An attempt that runs alone ends as its handler call does. -/
theorem run_executeOnce_ended (x : Executor) (upstream : List TaskId)
    (startable : (w.status t).canTransitionTo .running = true) :
    Ended x t w (x.run (executeOnce x t upstream) w).1 (x.run (executeOnce x t upstream) w).2 := by
  have ended : (executeOnce x t upstream).wp (TaskOp.perform x) (undisturbed x t upstream w)
    (Ended x t w) w := wp_executeOnce startable ⟨rfl, rfl, rfl⟩
  apply Prog.run_of_wp (H := fun w' => x.passes w t (w'.status t)) _ _ _ _ ended
  · intro w' passes
    exact ⟨⟨rfl, rfl⟩, passes⟩
  · exact fun _ _ => trivial
  · exact fun _ _ _ executes => executes.passes
  · exact .inl rfl

/-! ## Between two attempts -/

/-- The retry loop goes on after a failed attempt that was not the last. -/
theorem run_afterFailure_ok (policy : RetryPolicy) {e : Exc} (retryable : e.Retryable)
    (failed : w.status t = .failed) :
    x.run (afterFailure policy t false e) w = (.ok (), w) := by
  have general : ∀ e : Exc, x.run (do
      let status ← readStatus t
      if status == .cancelled then
        throw (cancelledError t)
      else if false then
        throw e
      else
        let status ← readStatus t
        if status != .failed then
          throw e
        else
          if policy.backoff ≠ 0 then
            sleep t
          let status ← readStatus t
          if status == .cancelled then
            throw (cancelledError t)
          else
            pure () : Exec Unit) w = (.ok (), w) := by
    intro e
    by_cases backoff : policy.backoff = 0 <;>
      simp [Executor.run_bind, failed, backoff]
  cases e with
  | taskCancelled m => exact retryable.elim
  | unprintableCancelled raised => exact retryable.elim
  | baseException m => exact retryable.elim
  | _ => exact general _

/-- It ends after any other attempt. -/
theorem run_afterFailure_error (x : Executor) (policy : RetryPolicy) (last : Bool) (e : Exc)
    (ends : last = true ∨ w.status t ≠ .failed) :
    ∃ e', x.run (afterFailure policy t last e) w = (.error e', w) := by
  cases e with
  | taskCancelled m => exact ⟨_, rfl⟩
  | unprintableCancelled raised => exact ⟨_, rfl⟩
  | baseException m => exact ⟨_, rfl⟩
  | _ =>
    simp only [afterFailure, Prog.bind_eq, Executor.run_bind, Executor.run_readStatus]
    by_cases cancelled : w.status t = .cancelled
    · simp [cancelled]
    · rcases ends with rfl | other
      · simp [cancelled]
      · cases last <;> simp [cancelled, other, Executor.run_bind]

/-! ## All attempts -/

/-- From the `n`-th call on, so many attempts come to a handler call that the `except` clauses do not
deal with: those before it fail. -/
def Escapes (x : Executor) (t : TaskId) (n attempts : Nat) : Prop :=
  ∃ k < attempts, (x.behaviour t (n + k)).ending = .running ∧
    ∀ j < k, (x.behaviour t (n + j)).ending = .failed

theorem escapes_zero (x : Executor) (t : TaskId) (n : Nat) : ¬ Escapes x t n 0 := by
  rintro ⟨k, none, -⟩
  omega

theorem escapes_succ_iff {n m : Nat} : Escapes x t n (m + 1) ↔
    (x.behaviour t n).ending = .running ∨
      (x.behaviour t n).ending = .failed ∧ Escapes x t (n + 1) m := by
  constructor
  · rintro ⟨k, bound, escapes, fails⟩
    cases k with
    | zero => exact .inl escapes
    | succ k =>
      refine .inr ⟨fails 0 (by omega), k, by omega, ?_, fun j hj => ?_⟩
      · rw [show n + 1 + k = n + (k + 1) by omega]
        exact escapes
      · rw [show n + 1 + j = n + (j + 1) by omega]
        exact fails (j + 1) (by omega)
  · rintro (escapes | ⟨fails, k, bound, escapes, before⟩)
    · exact ⟨0, by omega, escapes, by intro j hj; omega⟩
    · refine ⟨k + 1, by omega, ?_, fun j hj => ?_⟩
      · rw [show n + (k + 1) = n + 1 + k by omega]
        exact escapes
      · cases j with
        | zero => exact fails
        | succ j =>
          rw [show n + (j + 1) = n + 1 + j by omega]
          exact before j (by omega)

/-- The retry loop, by what its first attempt comes to. -/
theorem retryLoop_running_iff (policy : RetryPolicy) (n : Nat)
    (registered : x.handlers (w.tasks t).type = true)
    (startable : (w.status t).canTransitionTo .running = true) :
    (x.after (retryLoop x policy t upstream n) w).status t = .running ↔
      Escapes x t (w.callCount t) n := by
  induction n generalizing w with
  -- no attempts: the task is not started
  | zero =>
    refine iff_of_false (fun running => ?_) (escapes_zero x t _)
    have running : w.status t = .running := running
    rw [running] at startable
    cases startable
  | succ n ih =>
    have ended := run_executeOnce_ended x upstream startable
    have ending : x.ending w t = (x.behaviour t (w.callCount t)).ending := by
      rw [Executor.ending, if_pos registered]
    rw [escapes_succ_iff, ← ending]
    simp only [retryLoop, Executor.after, Prog.tryCatch_eq, Executor.run_tryCatch]
    generalize x.run (executeOnce x t upstream) w = after at ended ⊢
    obtain ⟨result, w'⟩ := after
    obtain ⟨⟨type, status, calls⟩, returns, retryable⟩ := ended
    simp only at type status calls returns retryable ⊢
    -- the attempt returned, and the task is SUCCEEDED
    cases result with
    | ok a =>
      have succeeded := returns.mp rfl
      simp only [status, succeeded]
      exact iff_of_false (by decide) (by rintro (h | ⟨h, -⟩) <;> cases h)
    | error e =>
      simp only [Prog.bind_eq, Executor.run_bind]
      -- it raised and the task is FAILED: the loop goes on if attempts are left
      by_cases failed : x.ending w t = .failed
      · rw [failed] at status
        have calls : w'.callCount t = w.callCount t + 1 := by
          simpa [Executor.newCalls, registered] using calls
        have more : x.ending w t ≠ .running := by rw [failed]; decide
        rw [or_iff_right more, and_iff_right failed, ← calls]
        cases n with
        | zero =>
          obtain ⟨e', stops⟩ := run_afterFailure_error (w := w') (t := t) x policy true e (.inl rfl)
          rw [show (0 == 0) = true from rfl, stops]
          simp only [status]
          exact iff_of_false (by decide) (escapes_zero x t _)
        | succ n =>
          rw [show (n + 1 == 0) = false from rfl,
            run_afterFailure_ok policy (retryable e rfl failed) status]
          refine ih (by rw [type]; exact registered) ?_
          rw [status]
          decide
      -- it raised and left any other status, from which `execute` raises at once
      · have other : w'.status t ≠ .failed := by rw [status]; exact failed
        obtain ⟨e', stops⟩ := run_afterFailure_error x policy (n == 0) e (.inr other)
        rw [stops]
        simp only [status]
        rw [or_iff_left (fun h => failed h.1)]

/-- An execution leaves its task RUNNING if and only if it starts, and one of its attempts is ended
by an exception that the `except` clauses do not deal with. -/
theorem execute_running_iff (x : Executor) (t : TaskId) (upstream : List TaskId)
    (policy : RetryPolicy) {w : World} (idle : w.status t ≠ .running) :
    (x.after (execute x t upstream policy) w).status t = .running ↔
      (w.status t).canTransitionTo .running = true ∧ x.handlers (w.tasks t).type = true ∧
        Escapes x t (w.callCount t) policy.maxAttempts := by
  -- without retries, an execution is one attempt
  have once : (w.status t).canTransitionTo .running = true →
      ((x.after (executeOnce x t upstream) w).status t = .running ↔
        x.handlers (w.tasks t).type = true ∧ Escapes x t (w.callCount t) 1) := by
    intro startable
    rw [Executor.after, (run_executeOnce_ended x upstream startable).here.status, escapes_succ_iff,
      Executor.ending]
    have none := escapes_zero x t (w.callCount t + 1)
    split <;> simp_all
  have rejected : (w.status t).canTransitionTo .running = false →
      ∃ m, x.run (executeOnce x t upstream) w = (.error (.valueError m), w) := fun h =>
    run_executeOnce_rejected x h upstream
  have typed : ∀ f : TaskType → Exec TaskResult,
      x.after (readType t >>= f) w = x.after (f (w.tasks t).type) w := by
    intro f
    simp [Executor.after, Executor.run_bind]
  unfold execute
  cases startable : (w.status t).canTransitionTo .running with
  | true =>
    rw [and_iff_right rfl]
    split
    · rename_i single
      rw [beq_iff_eq.mp single]
      exact once startable
    · rw [typed]
      cases registered : x.handlers (w.tasks t).type with
      | false =>
        have ends := once startable
        rw [registered] at ends
        simpa using ends
      | true =>
        simp only [Bool.not_true, Bool.false_eq_true, if_false, true_and]
        exact retryLoop_running_iff policy policy.maxAttempts registered startable
  | false =>
    -- a task that may not start is refused before anything is written
    refine iff_of_false ?_ (by simp)
    obtain ⟨m, refused⟩ := rejected startable
    have same : x.after (executeOnce x t upstream) w = w := by rw [Executor.after, refused]
    split
    · rw [same]
      exact idle
    · rw [typed]
      split
      · rw [same]
        exact idle
      · have other : w.status t ≠ .failed := by
          intro failed
          rw [failed] at startable
          cases startable
        cases policy.maxAttempts with
        | zero => exact idle
        | succ n =>
          obtain ⟨e', stops⟩ := run_afterFailure_error x policy (n == 0) (.valueError m)
            (.inr other)
          rw [Executor.after, retryLoop, Prog.tryCatch_eq, Executor.run_tryCatch, refused]
          simp only [Prog.bind_eq, Executor.run_bind, stops]
          exact idle

end Escape

end TTasks
