import Mathlib.Data.List.Chain
import TTasks.Laws.Executor.Attempt

/-!
# Sequences of operations on one task

The two results about a caller who issues one operation after another: the task stays `Settled`,
and the events delivered for it are a faithful log of its statuses. Both go by induction on the
calls, with `perform_advances` for one call.

A task that starts out RUNNING has no active `execute` here. Every operation on it is refused
except `cancel`, which then changes the status and leaves the event to the execute loop that does
not exist; its log stays empty, and the second result holds of it for that reason.
-/

namespace TTasks

open Interleave

variable {t : TaskId} {w : World}

/-! ## Status, result and error agree -/

/-- A settled task stays settled through any sequence of calls. -/
theorem sequence_advances (calls : List Call) (ordinary : ∀ c ∈ calls, c.Ordinary t)
    (notRunning : w.status t ≠ .running) :
    Advances (∀ c ∈ calls, c.executor.Saves) t w (sequence t calls w) := by
  induction calls generalizing w with
  | nil => exact .refl notRunning
  | cons c calls ih =>
    have first := perform_advances (ordinary c List.mem_cons_self) notRunning
    have rest := ih (fun c' h => ordinary c' (List.mem_cons_of_mem _ h)) first.notRunning
    exact (first.mono fun all => all c List.mem_cons_self).trans
      (rest.mono fun all c' h => all c' (List.mem_cons_of_mem _ h))

/-- A task that starts PENDING with no result is settled after every complete operation on it,
whatever was issued before and whether it returned or raised. -/
theorem sequence_settled (t : TaskId) (calls : List Call) (w : World)
    (ordinary : ∀ c ∈ calls, c.Ordinary t) (pending : w.status t = .pending)
    (bare : (w.tasks t).result = none) : Settled t ((sequence t calls w).tasks t) := by
  have settled : Settled t (w.tasks t) := by
    have status : (w.tasks t).status = .pending := pending
    constructor <;> simp [status, bare]
  exact (sequence_advances calls ordinary (by rw [pending]; decide)).settled settled

/-- A handler that fails on its first call and returns on its second, over a working store. -/
def flaky : Executor where
  handlers := fun _ => true
  behaviour := fun _ n => { outcome := if n = 0 then .raises (.exception "e") else .returns none }
  store := true

/-- The flaky handler raises and returns; it does nothing worse. -/
theorem flaky_ordinary (t : TaskId) (operation : Operation) :
    (Call.mk flaky operation).Ordinary t := by
  intro n
  simp only [flaky]
  split <;> rfl

/-- A refused `mark_blocked`, an execution with a retry, and a `cancel` that comes too late. -/
def flakyCalls : List Call :=
  [⟨flaky, .execute [] { maxAttempts := 2, nonneg := RetryPolicy.default.nonneg }⟩,
    ⟨flaky, .markBlocked none⟩, ⟨flaky, .cancel⟩]

/-- So each of these calls is an ordinary one. -/
theorem flakyCalls_ordinary (t : TaskId) : ∀ c ∈ flakyCalls, c.Ordinary t := by
  simp [flakyCalls, flaky_ordinary]

/-- The task of these calls is settled. -/
theorem sequence_settled_flaky :
    Settled "a" ((sequence "a" flakyCalls { tasks := fun _ => {} }).tasks "a") ∧
      (sequence "a" flakyCalls { tasks := fun _ => {} }).status "a" = .succeeded :=
  ⟨sequence_settled "a" flakyCalls _ (flakyCalls_ordinary "a") rfl rfl, by decide +kernel⟩

/-! ## The event log -/

/-- A log of lifecycle events that is a gap-free account of how a task went from the status `first`
to the status `last`. -/
structure LifecycleLog (first last : TaskStatus) (log : List TaskEvent) : Prop where
  head : ∀ e ∈ log.head?, e.previousStatus = some first
  chain : log.IsChain fun a b => b.previousStatus = some a.status
  last : ∀ e ∈ log.getLast?, e.status = last
  named : ∀ e ∈ log, e.type.status = some e.status
  closed : log.Pairwise fun a _ => a.type ≠ .succeeded ∧ a.type ≠ .cancelled

namespace Trace

variable {s s' : TaskStatus} {log : List TaskEvent}

/-- The first status was entered from where the trace begins. -/
theorem head (h : Trace s log s') : ∀ e ∈ log.head?, e.previousStatus = some s := by
  cases h with
  | nil => simp
  | cons previous _ _ _ => simpa using previous

/-- Each status was entered from the one before. -/
theorem chain (h : Trace s log s') : log.IsChain fun a b => b.previousStatus = some a.status := by
  induction h with
  | nil _ => exact .nil
  | cons _ _ _ rest ih => exact List.isChain_cons.mpr ⟨fun b hb => rest.head b hb, ih⟩

/-- The trace ends where its last entry says. -/
theorem last (h : Trace s log s') : ∀ e ∈ log.getLast?, e.status = s' := by
  induction h with
  | nil _ => simp
  | @cons s s' e es _ _ _ rest ih =>
    cases rest with
    | nil => simp
    | cons _ _ _ _ => simpa using ih

/-- Each event is named after the status that it announces. -/
theorem named (h : Trace s log s') : ∀ e ∈ log, e.type.status = some e.status := by
  induction h with
  | nil _ => simp
  | cons _ _ named _ ih =>
    rintro e (_ | ⟨_, he⟩)
    · exact named
    · exact ih e he

/-- No event follows one that reports a sink, since the next event would have to come out of it. -/
theorem closed (h : Trace s log s') :
    log.Pairwise fun a _ => a.type ≠ .succeeded ∧ a.type ≠ .cancelled := by
  induction h with
  | nil _ => exact .nil
  | @cons s s' e es _ _ named rest ih =>
    refine .cons (fun f hf => ?_) ih
    have open_ : e.status.isSink = false := by
      cases rest with
      | nil => cases hf
      | cons _ open_ _ _ => exact open_
    constructor <;> intro h <;> simp only [h, TaskEventType.status, Option.some.injEq] at named <;>
      rw [← named] at open_ <;> cases open_

/-- A trace is a log of the task's life. -/
theorem lifecycleLog (h : Trace s log s') : LifecycleLog s s' log :=
  ⟨h.head, h.chain, h.last, h.named, h.closed⟩

end Trace

section Stale

variable (x : Executor)

/-- `_execute_once` on a RUNNING task is refused. -/
theorem after_executeOnce_running (running : w.status t = .running) (upstream : List TaskId) :
    x.after (executeOnce x t upstream) w = w := by
  obtain ⟨m, rejected⟩ := run_executeOnce_rejected x (t := t) (w := w)
    (by rw [running]; decide) upstream
  rw [Executor.after, rejected]

/-- So the loop over attempts does nothing to it. -/
theorem after_retryLoop_running (running : w.status t = .running) (policy : RetryPolicy)
    (upstream : List TaskId) (n : Nat) : x.after (retryLoop x policy t upstream n) w = w := by
  induction n with
  | zero => rfl
  | succ n ih =>
    obtain ⟨m, rejected⟩ := run_executeOnce_rejected x (t := t) (w := w)
      (by rw [running]; decide) upstream
    obtain ⟨r, looked⟩ := run_afterFailure x (t := t) (w := w) policy (n == 0) (.valueError m)
    unfold Executor.after at ih ⊢
    simp only [retryLoop, Prog.tryCatch_eq, Executor.run_tryCatch, rejected, Prog.bind_eq,
      Executor.run_bind, looked]
    cases r with
    | error e => rfl
    | ok u => exact ih

/-- A task that is RUNNING with no active `execute` is only ever cancelled, and no event says
so. -/
theorem perform_running (c : Call) (running : w.status t = .running) :
    (c.perform t w).events t = w.events t ∧
      ((c.perform t w).status t = .running ∨ (c.perform t w).status t = .cancelled) := by
  obtain ⟨x, operation⟩ := c
  cases operation with
  | execute upstream policy =>
    have same : x.after (execute x t upstream policy) w = w := by
      unfold execute
      split
      · exact after_executeOnce_running x running upstream
      · have read : ∀ f : TaskType → Exec TaskResult, x.after (readType t >>= f) w =
            x.after (f (w.tasks t).type) w := fun f => by
          simp [Executor.after, Executor.run_bind]
        rw [read]
        split
        · exact after_executeOnce_running x running upstream
        · exact after_retryLoop_running x running policy upstream _
    simp only [Call.perform, same]
    exact ⟨trivial, .inl running⟩
  | cancel =>
    simp only [Call.perform, Executor.after, run_cancel_of_running x running]
    exact ⟨rfl, .inr (by simp)⟩
  | markBlocked parent =>
    obtain ⟨m, refused⟩ := Executor.run_transitionTo_of_refused x (t := t) (w := w)
      (s := .blocked) (by rw [running]; decide) none
    simp only [Call.perform, Executor.after, markBlocked, Prog.bind_eq, Executor.run_bind,
      Executor.run_readStatus, refused]
    exact ⟨trivial, .inl running⟩

/-- A RUNNING task stays as it is, whatever is called: there is nobody to end it. -/
theorem sequence_running (calls : List Call) (ordinary : ∀ c ∈ calls, c.Ordinary t)
    (running : w.status t = .running) : (sequence t calls w).events t = w.events t := by
  induction calls generalizing w with
  | nil => rfl
  | cons c calls ih =>
    obtain ⟨events, status⟩ := perform_running (t := t) c running
    have ordinary' := fun c' h => ordinary c' (List.mem_cons_of_mem c h)
    rcases status with still | cancelled
    · exact (ih ordinary' still).trans events
    · obtain ⟨new, hnew, trace, -⟩ := (sequence_advances calls ordinary'
        (w := c.perform t w) (by rw [cancelled]; decide)).events
      have none : new = [] := by
        rw [cancelled] at trace
        cases new with
        | nil => rfl
        | cons d ds => cases trace with | cons _ open_ _ _ => cases open_
      rw [none, List.append_nil] at hnew
      exact hnew.trans events

end Stale

/-- The lifecycle events of any sequence of calls are a faithful log of the task's statuses; with a
store whose saves succeed, each is delivered after the store holds the task as the event says; and
each execution attempt that is not rejected contributes exactly the events of one attempt. -/
theorem sequence_events (t : TaskId) (calls : List Call) (w : World)
    (ordinary : ∀ c ∈ calls, c.Ordinary t) :
    (∃ new, (sequence t calls w).events t = w.events t ++ new ∧
      LifecycleLog (w.status t) ((sequence t calls w).status t) (new.map Delivery.event) ∧
      ((∀ c ∈ calls, c.executor.Saves) → ∀ d ∈ new, d.Stored)) ∧
    ∀ c ∈ calls, ∀ (upstream : List TaskId) (v : World),
      (v.status t).canTransitionTo .running = true →
      ∃ new, (c.executor.after (executeOnce c.executor t upstream) v).events t =
          v.events t ++ new ∧
        AttemptEvents (c.executor.handlers (v.tasks t).type) (new.map Delivery.event) := by
  constructor
  · by_cases running : w.status t = .running
    · refine ⟨[], ?_, ?_, by simp⟩
      · rw [sequence_running calls ordinary running, List.append_nil]
      · constructor <;> simp
    · obtain ⟨new, hnew, trace, stored⟩ :=
        (sequence_advances calls ordinary running).events
      exact ⟨new, hnew, trace.lifecycleLog, stored⟩
  · intro c hc upstream v startable
    exact (executeOnce_attempts c.executor startable upstream fun _ => ordinary c hc _).2

/-- The events of these calls. -/
theorem sequence_events_flaky :
    (∃ new, (sequence "a" flakyCalls { tasks := fun _ => {} }).events "a" = new ∧
      LifecycleLog .pending .succeeded (new.map Delivery.event) ∧ ∀ d ∈ new, d.Stored) ∧
    ((sequence "a" flakyCalls { tasks := fun _ => {} }).events "a").map (fun d => d.event.type) =
      [.started, .failed, .started, .succeeded] := by
  refine ⟨?_, by decide +kernel⟩
  obtain ⟨⟨new, hnew, log, stored⟩, -⟩ := sequence_events "a" flakyCalls { tasks := fun _ => {} }
    (flakyCalls_ordinary "a")
  have status : (sequence "a" flakyCalls { tasks := fun _ => {} }).status "a" = .succeeded := by
    decide +kernel
  exact ⟨new, hnew, status ▸ log, stored (by simp [flakyCalls, Executor.Saves, flaky])⟩

end TTasks
