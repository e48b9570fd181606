import TTasks.Reference
import TTasks.Laws.Executor.Quiet

/-!
# An execution that nobody disturbs

`execute` with its default retry policy, on a task that may start, while other threads do as they
like with other tasks, the store and the log: it brings the task to `Executor.ending`, returns
exactly if that is SUCCEEDED, calls the handler once at most, and on the way the task is never in a
status other than the one it had, RUNNING and the one it comes to.
-/

namespace TTasks

open Interleave
open Prog (Contract)

/-! ## The contract -/

/-- What is known of a task at a point of its execution. -/
structure At (t : TaskId) (type : TaskType) (status : TaskStatus) (calls : Nat) (w : World) :
    Prop where
  type : (w.tasks t).type = type
  status : w.status t = status
  calls : w.callCount t = calls

/-- Other threads leave the task alone. -/
structure Untouched (t : TaskId) (w w' : World) : Prop where
  task : w'.tasks t = w.tasks t
  calls : w'.callCount t = w.callCount t

/-- The statuses of a task during an execution that found the world so. -/
def Executor.passes (x : Executor) (w₀ : World) (t : TaskId) (s : TaskStatus) : Prop :=
  s = w₀.status t ∨ s = .running ∨ s = x.ending w₀ t

/-- What an execution does: it works on its own task, and calls the handler once. -/
structure Executes (x : Executor) (t : TaskId) (upstream : List TaskId) (w₀ : World) (o : TaskOp)
    (w : World) : Prop where
  task : o.task = t
  passes : x.passes w₀ t ((o.perform x w).2.status t)
  call : ∀ u ups, o = .call u ups → ups = upstream ∧ w.callCount t = w₀.callCount t

/-- What an execution relies on, and what it does. -/
def undisturbed (x : Executor) (t : TaskId) (upstream : List TaskId) (w₀ : World) :
    Contract TaskOp World where
  rely w w' := Untouched t w w' ∧ x.passes w₀ t (w'.status t)
  guar o w := Executes x t upstream w₀ o w

/-- Operations on the task that leave its status and the number of its calls. -/
def Harmless (t : TaskId) (o : TaskOp) : Prop :=
  o.task = t ∧ (∀ u s e, o ≠ .transition u s e) ∧ ∀ u ups, o ≠ .call u ups

/-- Neither a transition nor a call. -/
def TaskOp.isPlain : TaskOp → Bool
  | .transition _ _ _ | .call _ _ => false
  | _ => true

/-- A plain operation on the task is harmless. -/
theorem harmless {t : TaskId} {o : TaskOp} (own : o.task = t) (plain : o.isPlain = true) :
    Harmless t o := by
  refine ⟨own, ?_, ?_⟩
  · rintro u s e rfl
    cases plain
  · rintro u ups rfl
    cases plain

/-- What is known of a task that is left alone. -/
theorem At.untouched {t : TaskId} {type : TaskType} {s : TaskStatus} {n : Nat} {w w' : World}
    (h : At t type s n w) (same : Untouched t w w') : At t type s n w' where
  type := by rw [same.task]; exact h.type
  status := by rw [World.status, same.task]; exact h.status
  calls := same.calls.trans h.calls

section Parts

variable {x : Executor} {t : TaskId} {upstream : List TaskId} {w₀ w : World}
  {type : TaskType} {s : TaskStatus} {n : Nat}

/-- Harmless operations may be passed over. -/
theorem undisturbedSkips (x : Executor) (t : TaskId) (upstream : List TaskId) (w₀ : World) :
    Skips x t id (TaskOp.perform x) (undisturbed x t upstream w₀) (Harmless t)
      (fun w w' => ∀ type s n, At t type s n w → At t type s n w') where
  answer _ _ := rfl
  trans h h' type s n hw := h' type s n (h type s n hw)
  rely h _ _ _ hw := hw.untouched h.1
  ready _ _ := trivial
  step {o a b} harmless h := by
    have same := TaskOp.perform_status x harmless.2.1 b t
    refine ⟨⟨harmless.1, same ▸ h.2, fun u ups call => absurd call (harmless.2.2 u ups)⟩,
      fun type s n hb => ⟨?_, same.trans hb.status, ?_⟩, same⟩
    · rw [TaskOp.perform_type]; exact hb.type
    · rw [World.callCount, TaskOp.perform_calls x harmless.2.2]; exact hb.calls
  read := harmless rfl rfl
  save := harmless rfl rfl
  record _ := harmless rfl rfl
  failed _ _ := harmless rfl rfl

/-! ## The parts of an execution -/

/-- Reading the status finds the one that is known. -/
theorem wp_status (here : At t type s n w) {Q : Except Exc TaskStatus → World → Prop}
    (next : ∀ w', At t type s n w' → Q (.ok s) w') :
    (readStatus t).wp (TaskOp.perform x) (undisturbed x t upstream w₀) Q w := by
  refine (undisturbedSkips x t upstream w₀).wp_readStatus fun w' skipped => ?_
  have here' := skipped _ _ _ here
  rw [show (id w').status t = s from here'.status]
  exact next w' here'

/-- `_emit` leaves what is known. -/
theorem wp_emit_at (here : At t type s n w) {event : TaskEventType} {previous : Option TaskStatus}
    {error : Option String} {Q : Except Exc Unit → World → Prop}
    (next : ∀ w', At t type s n w' → Q (.ok ()) w') :
    (emit x t event previous error).wp (TaskOp.perform x) (undisturbed x t upstream w₀) Q w :=
  (undisturbedSkips x t upstream w₀).wp_emit (fun _ => harmless rfl rfl)
    (fun w' skipped => next w' (skipped _ _ _ here)) fun _ _ _ h => h

/-- A transition that the table allows, to a status of the execution. -/
theorem wp_transition {target : TaskStatus} {error : Option String} (here : At t type s n w)
    (allowed : s.canTransitionTo target = true) (passes : x.passes w₀ t target)
    {Q : Except Exc Unit → World → Prop} (next : ∀ w', At t type target n w' → Q (.ok ()) w') :
    (transitionTo t target error).wp (TaskOp.perform x) (undisturbed x t upstream w₀) Q w := by
  rw [transitionTo, Prog.bind_eq, Prog.wp_bind]
  refine fun w' rely => ⟨trivial, fun _ => ?_⟩
  have here' := here.untouched rely.1
  have moved := TaskOp.perform_moved x (here'.status.symm ▸ allowed) error
  have after : At t type target n ((TaskOp.transition t target error).perform x w').2 := by
    rw [moved]
    exact ⟨by simpa [Task.enter] using here'.type, by simp, here'.calls⟩
  refine ⟨⟨rfl, after.status.symm ▸ passes, nofun⟩, ?_⟩
  have answer : ((TaskOp.transition t target error).perform x w').1 = .ok () := by rw [moved]
  show Prog.wp _ _ (orRaise ((TaskOp.transition t target error).perform x w').1) Q _
  rw [answer]
  exact next _ after

/-- Ending the attempt: the transition where it is still to be made, the result and the event. -/
theorem wp_terminalize_at {status previous : TaskStatus} {event : TaskEventType}
    {result : TaskResult} {error : Option String} (here : At t type s n w)
    (allowed : s ≠ status → s.canTransitionTo status = true) (passes : x.passes w₀ t status)
    {Q : Except Exc Unit → World → Prop} (next : ∀ w', At t type status n w' → Q (.ok ()) w') :
    (terminalize x t result status previous event error).wp (TaskOp.perform x)
      (undisturbed x t upstream w₀) Q w := by
  simp only [terminalize, Prog.bind_eq, Prog.wp_bind]
  refine (undisturbedSkips x t upstream w₀).wp_quiet (o := .setResult t result)
    (harmless rfl rfl) fun w₁ _ skipped _ => ?_
  refine wp_status (skipped _ _ _ here) fun w₂ here₂ => ?_
  show Prog.wp _ _ (if (s != status) = true then _ else _) _ _
  split
  · rename_i moves
    rw [Prog.wp_bind]
    refine wp_transition here₂ (allowed (by simpa using moves)) passes fun w₃ here₃ => ?_
    exact wp_emit_at here₃ next
  · rename_i stays
    obtain rfl : s = status := by simpa using stays
    exact wp_emit_at here₂ next

/-- A handler's cancels of its own task: the first one takes effect. -/
theorem wp_ownCancels (cancels : Nat)
    (passes : cancels ≠ 0 → x.passes w₀ t .cancelled) :
    ∀ {s : TaskStatus} {w : World}, At t type s n w → s = .running ∨ s = .cancelled →
      ∀ {Q : Except Exc Unit → World → Prop},
        (∀ w', At t type (if cancels = 0 then s else .cancelled) n w' → Q (.ok ()) w') →
        (ownCancels x t cancels).wp (TaskOp.perform x) (undisturbed x t upstream w₀) Q w := by
  -- by induction on the cancels that are left: the first moves the task, and the later ones find it
  -- CANCELLED
  induction cancels with
  | zero => exact fun here _ Q next => next _ here
  | succ k ih =>
    intro s w here active Q next
    have passes := passes (Nat.succ_ne_zero k)
    have rest : ∀ w', At t type .cancelled n w' →
        (ownCancels x t k).wp (TaskOp.perform x) (undisturbed x t upstream w₀) Q w' := by
      refine fun w' here' => ih (fun _ => passes) here' (.inr rfl) fun w'' here'' => next w'' ?_
      simpa using here''
    simp only [ownCancels, cancel, cancelPrevious, Prog.bind_eq, Prog.wp_bind]
    refine wp_status here fun w₁ here₁ => ?_
    show Prog.wp _ _ (if (s == .succeeded) = true then _ else _) _ _
    rw [if_neg (by rcases active with rfl | rfl <;> decide), Prog.wp_bind]
    refine wp_status here₁ fun w₂ here₂ => ?_
    simp only [Prog.pure_eq, Prog.wp_ret, Prog.onOk, taskCancel, Prog.bind_eq, Prog.wp_bind]
    refine wp_status here₂ fun w₃ here₃ => ?_
    have finish : ∀ w', At t type .cancelled n w' →
        (cancelFinish x t s).wp (TaskOp.perform x) (undisturbed x t upstream w₀)
          (Prog.onOk (fun _ w'' => (ownCancels x t k).wp (TaskOp.perform x)
            (undisturbed x t upstream w₀) Q w'') Q) w' := by
      intro w' here'
      simp only [cancelFinish, Prog.bind_eq, Prog.wp_bind]
      refine (undisturbedSkips x t upstream w₀).wp_terminateProcess (harmless rfl rfl)
        fun w'' skipped => ?_
      show Prog.wp _ _ (if (s == .pending || s == .failed || s == .blocked) = true then _ else _)
        _ _
      rw [if_neg (by rcases active with rfl | rfl <;> decide)]
      exact rest w'' (skipped _ _ _ here')
    -- a RUNNING task is moved, a CANCELLED one is not
    rcases active with rfl | rfl
    · show Prog.wp _ _ (if TaskStatus.running.isSink = true then _ else _) _ _
      rw [if_neg (by decide), Prog.wp_bind]
      refine (undisturbedSkips x t upstream w₀).wp_quiet (o := .error t) (harmless rfl rfl)
        fun w₄ _ skipped _ => ?_
      exact wp_transition (skipped _ _ _ here₃) (by decide) passes finish
    · show Prog.wp _ _ (if TaskStatus.cancelled.isSink = true then _ else _) _ _
      rw [if_pos (by decide)]
      exact finish _ here₃

end Parts

/-! ## The execution -/

/-- The exceptions after which `execute` may try again. -/
def Exc.Retryable : Exc → Prop
  | taskCancelled _ | unprintableCancelled _ | baseException _ => False
  | _ => True

/-- How often an execution calls the handler. -/
def Executor.newCalls (x : Executor) (w₀ : World) (t : TaskId) : Nat :=
  if x.handlers (w₀.tasks t).type then 1 else 0

/-- How an execution ends: in the status it brings the task to, by a return if that is SUCCEEDED and
by an exception otherwise, which does not rule out another attempt if the status is FAILED. -/
structure Ended (x : Executor) (t : TaskId) (w₀ : World) {α : Type} (result : Except Exc α)
    (w : World) : Prop where
  here : At t (w₀.tasks t).type (x.ending w₀ t) (w₀.callCount t + x.newCalls w₀ t) w
  returns : Prog.raised result = none ↔ x.ending w₀ t = .succeeded
  retryable : ∀ e, result = .error e → x.ending w₀ t = .failed → e.Retryable

section Execution

variable {x : Executor} {t : TaskId} {upstream : List TaskId} {w₀ w : World} {α : Type}
  {s : TaskStatus} {n : Nat}

/-- The point of an execution where it is over but for its `return` or `raise`. -/
def Closing (x : Executor) (t : TaskId) (w₀ : World) (s : TaskStatus) (w : World) : Prop :=
  At t (w₀.tasks t).type s (w₀.callCount t + x.newCalls w₀ t) w

/-- Where the status rules out a return, raising is how the execution ends. -/
theorem Closing.raised (here : Closing x t w₀ s w) (ending : x.ending w₀ t = s)
    (failed : s ≠ .succeeded) {e : Exc} (retryable : s = .failed → e.Retryable) :
    Ended x t w₀ (.error e : Except Exc α) w := by
  subst ending
  refine ⟨here, ⟨nofun, fun succeeded => absurd succeeded failed⟩, fun e' same => ?_⟩
  cases same
  exact retryable

/-- A return from SUCCEEDED. -/
theorem Closing.returned (here : Closing x t w₀ s w) (ending : x.ending w₀ t = s)
    (succeeded : s = .succeeded) (a : α) : Ended x t w₀ (.ok a) w := by
  subst ending
  exact ⟨here, iff_of_true rfl succeeded, nofun⟩

/-- `except TaskCancelled`. -/
theorem wp_exceptCancelled (here : Closing x t w₀ s w) (active : s = .running ∨ s = .cancelled)
    (ending : x.ending w₀ t = .cancelled) (e : Exc) :
    (exceptCancelled x t e).wp (TaskOp.perform x) (undisturbed x t upstream w₀)
      (Ended x t w₀) w := by
  simp only [exceptCancelled, Prog.bind_eq, Prog.wp_bind]
  refine wp_terminalize_at here ?_ (.inr (.inr ending.symm)) fun w' here' => ?_
  · rcases active with rfl | rfl <;> decide
  · exact Closing.raised here' ending (by decide) nofun

/-- `except Exception`, which makes the task FAILED unless it was cancelled meanwhile. -/
theorem wp_exceptException (here : Closing x t w₀ s w)
    (active : s = .running ∧ x.ending w₀ t = .failed ∨ s = .cancelled ∧ x.ending w₀ t = .cancelled)
    {e : Exc} (retryable : e.Retryable) :
    (exceptException x t e).wp (TaskOp.perform x) (undisturbed x t upstream w₀)
      (Ended x t w₀) w := by
  simp only [exceptException, Prog.bind_eq, Prog.wp_bind]
  refine wp_status here fun w₁ here₁ => ?_
  rcases active with ⟨rfl, ending⟩ | ⟨rfl, ending⟩
  · show Prog.wp _ _ (if (TaskStatus.running == .cancelled) = true then _ else _) _ _
    rw [if_neg (by decide), Prog.wp_bind]
    refine wp_terminalize_at here₁ (fun _ => by decide) (.inr (.inr ending.symm))
      fun w' here' => ?_
    exact Closing.raised here' ending (by decide) fun _ => retryable
  · show Prog.wp _ _ (if (TaskStatus.cancelled == .cancelled) = true then _ else _) _ _
    rw [if_pos (by decide), Prog.wp_bind]
    refine wp_terminalize_at here₁ (fun h => absurd rfl h) (.inr (.inr ending.symm))
      fun w' here' => ?_
    exact Closing.raised here' ending (by decide) nofun

/-- What is raised in an `except` clause before it has written anything leaves the task as it is. -/
theorem Closing.escaped (here : Closing x t w₀ s w) (active : s = .running ∨ s = .cancelled)
    (ending : x.ending w₀ t = s) (e : Exc) : Ended x t w₀ (.error e : Except Exc α) w := by
  refine here.raised ending ?_ fun failed => ?_ <;> rcases active with rfl | rfl
  · decide
  · decide
  · cases failed
  · cases failed

/-- An exception whose `str()` raises leaves the clause before anything is written. -/
theorem wp_exceptUnprintable (here : Closing x t w₀ s w) (active : s = .running ∨ s = .cancelled)
    (ending : x.ending w₀ t = s) (raised : Exc) :
    (exceptUnprintable t raised).wp (TaskOp.perform x) (undisturbed x t upstream w₀)
      (Ended x t w₀) w := by
  simp only [exceptUnprintable, Prog.bind_eq, Prog.wp_bind]
  exact wp_status here fun w₁ here₁ => Closing.escaped here₁ active ending raised

/-- So does one that carries no process to read from. -/
theorem wp_exceptUnreadable (here : Closing x t w₀ s w) (active : s = .running ∨ s = .cancelled)
    (ending : x.ending w₀ t = s) (message : String) (raised : Exc) :
    (exceptUnreadable x t message raised).wp (TaskOp.perform x) (undisturbed x t upstream w₀)
      (Ended x t w₀) w := by
  simp only [exceptUnreadable, Prog.bind_eq, Prog.wp_bind]
  refine wp_status here fun w₁ here₁ => ?_
  rcases active with rfl | rfl
  · show Prog.wp _ _ (if (TaskStatus.running == .cancelled) = true then _ else _) _ _
    rw [if_neg (by decide)]
    exact Closing.escaped here₁ (.inl rfl) ending raised
  · show Prog.wp _ _ (if (TaskStatus.cancelled == .cancelled) = true then _ else _) _ _
    rw [if_pos (by decide), Prog.wp_bind]
    refine wp_terminalize_at here₁ (fun h => absurd rfl h) (.inr (.inr ending.symm))
      fun w' here' => ?_
    exact Closing.escaped here' (.inr rfl) ending _

/-- The `except` clauses, after a handler call that made so many cancels and raised. -/
theorem wp_handleError {call : HandlerCall} {e : Exc} (raised : call.outcome = .raises e)
    (ending : x.ending w₀ t = call.ending)
    (here : Closing x t w₀ (if call.cancels = 0 then .running else .cancelled) w) :
    (handleError x t e).wp (TaskOp.perform x) (undisturbed x t upstream w₀) (Ended x t w₀) w := by
  by_cases cancels : call.cancels = 0
  · simp only [cancels, if_true] at here
    simp only [HandlerCall.ending, cancels, raised, ne_eq, not_true, if_false] at ending
    cases e with
    | taskCancelled m => exact wp_exceptCancelled here (.inl rfl) ending _
    | baseException m => exact here.escaped (.inl rfl) ending _
    | unprintableCancelled raised => exact here.escaped (.inl rfl) ending _
    | unprintable raised => exact wp_exceptUnprintable here (.inl rfl) ending _
    | unreadable m raised => exact wp_exceptUnreadable here (.inl rfl) ending _ _
    | _ => exact wp_exceptException here (.inl ⟨rfl, ending⟩) trivial
  · simp only [cancels, if_false] at here
    simp only [HandlerCall.ending, cancels, ne_eq, not_false_iff, if_true] at ending
    cases e with
    | taskCancelled m => exact wp_exceptCancelled here (.inr rfl) ending _
    | baseException m => exact here.escaped (.inr rfl) ending _
    | unprintableCancelled raised => exact here.escaped (.inr rfl) ending _
    | unprintable raised => exact wp_exceptUnprintable here (.inr rfl) ending _
    | unreadable m raised => exact wp_exceptUnreadable here (.inr rfl) ending _ _
    | _ => exact wp_exceptException here (.inr ⟨rfl, ending⟩) trivial

/-- The `try` statement of `_execute_once`. -/
theorem wp_attempt_at (registered : x.handlers (w₀.tasks t).type = true)
    (here : At t (w₀.tasks t).type .running (w₀.callCount t) w) :
    ((attempt x t upstream).tryCatch (handleError x t)).wp (TaskOp.perform x)
      (undisturbed x t upstream w₀) (Ended x t w₀) w := by
  have ending : x.ending w₀ t = (x.behaviour t (w₀.callCount t)).ending := by
    rw [Executor.ending, if_pos registered]
  simp only [Prog.wp_tryCatch, attempt, Prog.bind_eq, Prog.wp_bind, callHandler]
  -- the handler is entered, and its behaviour is the one at the count of calls so far
  refine fun w₁ rely => ⟨trivial, fun _ => ?_⟩
  have here₁ := here.untouched rely.1
  have after : Closing x t w₀ .running ((TaskOp.call t upstream).perform x w₁).2 := by
    refine ⟨here₁.type, here₁.status, ?_⟩
    have count := here₁.calls
    simp only [World.callCount] at count
    simp [TaskOp.perform, World.callCount, List.filter_append, count, Executor.newCalls, registered]
  refine ⟨⟨rfl, .inr (.inl here₁.status), fun u ups same => ?_⟩, ?_⟩
  · cases same
    exact ⟨rfl, here₁.calls⟩
  have answer : ((TaskOp.call t upstream).perform x w₁).1 =
      x.behaviour t (w₀.callCount t) := by rw [← here₁.calls]; rfl
  rw [answer]
  generalize x.behaviour t (w₀.callCount t) = call at ending
  refine wp_ownCancels call.cancels ?_ after (.inl rfl) fun w₂ here₂ => ?_
  · intro some
    refine .inr (.inr ?_)
    rw [ending, HandlerCall.ending, if_pos some]
  -- then its outcome: it raises into one of the clauses, or returns to the test for a cancel
  cases outcome : call.outcome with
  | raises e => exact wp_handleError outcome ending here₂
  | returns raw =>
    simp only [Prog.onOk, raiseIfCancelled, Prog.bind_eq, Prog.wp_bind]
    refine wp_status here₂ fun w₃ here₃ => ?_
    by_cases cancels : call.cancels = 0
    · simp only [cancels, if_true] at here₃ ⊢
      show Prog.wp _ _ (if (TaskStatus.running == .cancelled) = true then _ else _) _ _
      rw [if_neg (by decide)]
      have ending' : x.ending w₀ t = .succeeded := by
        simpa [HandlerCall.ending, cancels, outcome] using ending
      simp only [Prog.pure_eq, Prog.wp_ret, Prog.onOk]
      refine wp_terminalize_at here₃ (fun _ => by decide) (.inr (.inr ending'.symm))
        fun w' here' => ?_
      exact Closing.returned here' ending' rfl _
    · simp only [cancels, if_false] at here₃ ⊢
      show Prog.wp _ _ (if (TaskStatus.cancelled == .cancelled) = true then _ else _) _ _
      rw [if_pos (by decide)]
      have ending' : x.ending w₀ t = .cancelled := by
        simpa [HandlerCall.ending, cancels] using ending
      exact wp_exceptCancelled here₃ (.inr rfl) ending' _

/-- A task without a handler is made FAILED. -/
theorem wp_missingHandler (missing : x.handlers (w₀.tasks t).type = false)
    (here : At t (w₀.tasks t).type s (w₀.callCount t) w)
    (startable : s.canTransitionTo .running = true) (type' : TaskType) :
    (missingHandler x t type').wp (TaskOp.perform x) (undisturbed x t upstream w₀)
      (Ended x t w₀) w := by
  have ending : x.ending w₀ t = .failed := by simp [Executor.ending, missing]
  have here : Closing x t w₀ s w := by
    simpa [Closing, Executor.newCalls, missing] using here
  have fails : ∀ {s w}, Closing x t w₀ s w → s.canTransitionTo .failed = true → ∀ (m : String) r p,
      ((terminalize x t r .failed p .failed (some m)).bind fun _ =>
        (.fail (.valueError m) : Exec TaskResult)).wp (TaskOp.perform x)
          (undisturbed x t upstream w₀) (Ended x t w₀) w := by
    intro s w here allowed m r p
    rw [Prog.wp_bind]
    refine wp_terminalize_at here (fun _ => allowed) (.inr (.inr ending.symm)) fun w' here' => ?_
    exact Closing.raised here' ending (by decide) fun _ => trivial
  simp only [missingHandler, Prog.bind_eq, Prog.wp_bind]
  refine wp_status here fun w₁ here₁ => ?_
  refine wp_status here₁ fun w₂ here₂ => ?_
  show Prog.wp _ _ (if (!s.canTransitionTo .failed) = true then _ else _) _ _
  split
  · rw [Prog.wp_bind]
    refine wp_transition here₂ startable (.inr (.inl rfl)) fun w₃ here₃ => ?_
    exact fails here₃ (by decide) _ _ _
  · rename_i direct
    exact fails here₂ (by simpa using direct) _ _ _

/-- One attempt on a task that may start. -/
theorem wp_executeOnce (startable : (w₀.status t).canTransitionTo .running = true)
    (here : At t (w₀.tasks t).type (w₀.status t) (w₀.callCount t) w) :
    (executeOnce x t upstream).wp (TaskOp.perform x) (undisturbed x t upstream w₀)
      (Ended x t w₀) w := by
  simp only [executeOnce, Prog.bind_eq, Prog.wp_bind]
  refine wp_status here fun w₁ here₁ => ?_
  show Prog.wp _ _ (if (!(w₀.status t).canTransitionTo .running) = true then _ else _) _ _
  rw [if_neg (by simp [startable]), Prog.wp_bind]
  refine (undisturbedSkips x t upstream w₀).wp_quiet (o := .type t) (harmless rfl rfl)
    fun w₂ rely skipped _ => ?_
  have here₂ := skipped _ _ _ here₁
  have answer : ((TaskOp.type t).perform x (id w₂)).1 = (w₀.tasks t).type :=
    (here₁.untouched rely.1).type
  rw [answer]
  show Prog.wp _ _ (if (!x.handlers (w₀.tasks t).type) = true then _ else _) _ _
  split
  · rename_i missing
    exact wp_missingHandler (by simpa using missing) here₂ startable _
  · rename_i registered
    simp only [Prog.wp_bind]
    refine wp_status here₂ fun w₃ here₃ => ?_
    refine wp_transition here₃ startable (.inr (.inl rfl)) fun w₄ here₄ => ?_
    refine wp_emit_at here₄ fun w₅ here₅ => ?_
    exact wp_attempt_at (by simpa using registered) here₅

/-- The execution of a task that may start, without retries. -/
theorem wp_execute (startable : (w₀.status t).canTransitionTo .running = true)
    (here : At t (w₀.tasks t).type (w₀.status t) (w₀.callCount t) w) :
    (execute x t upstream).wp (TaskOp.perform x) (undisturbed x t upstream w₀) (Ended x t w₀) w :=
  wp_executeOnce startable here

end Execution

end TTasks
