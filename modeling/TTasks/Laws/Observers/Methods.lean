import TTasks.Observers

/-!
# The executor's methods are the bare ones with saves put in

An executor without a store has the same methods, but for the saves: a save is a detour, it comes
back with nothing and raises nothing. One lemma for each method, in the order of the code.
-/

namespace TTasks

open Interleave
open Prog (Detours)

/-- The executor without its store. -/
def Executor.bare (x : Executor) : Executor := { x with store := false, saveFails := fun _ => none }

/-- The operation has nothing to do with a save. -/
def TaskOp.OnWay : TaskOp → Prop
  | .save _ | .recordSaveError _ _ => False
  | .deliver _ event => event.isAnnouncement = false
  | _ => True

/-- The detours: auto-saves of an executor that has a store. -/
def IsSave (x : Executor) (b : Exec Unit) : Prop := x.store = true ∧ ∃ t, b = persist x t

/-- The methods with saves and without. -/
abbrev Detoured (x : Executor) {α : Type} (p p' : Exec α) : Prop :=
  Detours (IsSave x) TaskOp.OnWay p p'

/-- What follows the failure of a save, after its record. -/
def announce (t : TaskId) (e : Exc) : Exec Unit := do
  let status ← readStatus t
  deliver t
    { type := .persistenceFailed, taskId := t, previousStatus := none, status, error := some e.text }

/-- What follows the answer of a save. -/
def afterSave (t : TaskId) : Except Exc Unit → Exec Unit
  | .ok () => .ret ()
  | .error e => (recordSaveError t e).bind fun _ => announce t e

/-- With a store, `_persist` saves and looks at how that went. -/
theorem persist_eq {x : Executor} (store : x.store = true) (t : TaskId) :
    persist x t = .act (.save t) (afterSave t) := by
  unfold persist
  rw [if_pos store]
  apply congrArg (Prog.act (TaskOp.save t))
  funext answer
  rcases answer with e | ⟨⟨⟩⟩ <;> rfl

/-- A save never raises. -/
theorem persist_total {x : Executor} (b : Exec Unit) (save : IsSave x b) : b.Total := by
  obtain ⟨store, t, rfl⟩ := save
  rw [persist_eq store]
  refine ⟨trivial, fun answer => ?_⟩
  rcases answer with e | ⟨⟨⟩⟩
  · exact ⟨trivial, fun _ => ⟨trivial, fun _ => ⟨trivial, fun _ => trivial⟩⟩⟩
  · trivial

section Methods

variable (x : Executor) (t : TaskId)

/-- One operation on the way is no detour. -/
theorem detoured_op {o : TaskOp} (onWay : o.OnWay) :
    Detoured x (Prog.op o : Exec o.Ans) (Prog.op o) := .act onWay fun _ => .ret _

/-- Reading the status is on the way. -/
theorem detoured_readStatus : Detoured x (readStatus t) (readStatus t) := detoured_op x trivial

/-- Handing out an answer performs nothing. -/
theorem detoured_orRaise : ∀ answer, Detoured x (orRaise answer) (orRaise answer)
  | .ok () => .ret ()
  | .error e => .fail e

/-- A transition is on the way. -/
theorem detoured_transitionTo (status : TaskStatus) (error : Option String) :
    Detoured x (transitionTo t status error) (transitionTo t status error) :=
  .bind (detoured_op x trivial) (detoured_orRaise x)

/-- `_persist` is a detour: without a store nothing is performed. -/
theorem detoured_persist : Detoured x (persist x t) (persist x.bare t) := by
  cases store : x.store with
  | true => exact .of_leaves ⟨store, t, rfl⟩
  | false =>
    unfold persist
    rw [store]
    exact .ret ()

variable {x t}

/-- An event of the task's life is on the way. -/
theorem detoured_emit {type : TaskEventType} (lifecycle : type ≠ .persistenceFailed)
    (previous : Option TaskStatus) (error : Option String) :
    Detoured x (emit x t type previous error) (emit x.bare t type previous error) := by
  refine .bind (detoured_persist x t) fun _ => .bind (detoured_readStatus x t) fun status => ?_
  apply detoured_op
  exact beq_false_of_ne lifecycle

/-- Ending an attempt takes one detour, its save. -/
theorem detoured_terminalize {type : TaskEventType} (lifecycle : type ≠ .persistenceFailed)
    (result : TaskResult) (status previous : TaskStatus) (error : Option String) :
    Detoured x (terminalize x t result status previous type error)
      (terminalize x.bare t result status previous type error) := by
  refine .bind (detoured_op x trivial) fun _ => .bind (detoured_readStatus x t) fun current => ?_
  split
  · exact .bind (detoured_transitionTo x t _ _) fun _ => detoured_emit lifecycle _ _
  · exact detoured_emit lifecycle _ _

/-- `mark_blocked` takes one detour, its save. -/
theorem detoured_markBlocked (parent : Option TaskId) :
    Detoured x (markBlocked x t parent) (markBlocked x.bare t parent) :=
  .bind (detoured_readStatus x t) fun _ => .bind (detoured_transitionTo x t _ _) fun _ =>
    .bind (detoured_op x trivial) fun _ => detoured_emit (by decide) _ _

/-- `cancel` takes the detours of the saves on its branches. -/
theorem detoured_cancel : Detoured x (cancel x t) (cancel x.bare t) := by
  refine .bind (.bind (detoured_readStatus x t) fun status => ?_) fun previous => ?_
  · split
    · exact .ret _
    · exact .bind (detoured_readStatus x t) fun _ => .ret _
  · cases previous with
    | none => exact .ret _
    | some previous =>
      refine .bind (.bind (detoured_readStatus x t) fun status => ?_) fun _ => ?_
      · split
        · exact .ret _
        · exact .bind (detoured_op x trivial) fun _ => detoured_transitionTo x t _ _
      · refine .bind (detoured_op x trivial) fun _ => ?_
        split
        · exact detoured_terminalize (by decide) _ _ _ _
        · exact .ret _

/-- A handler that cancels its own task takes the detours of those cancels. -/
theorem detoured_ownCancels : ∀ n, Detoured x (ownCancels x t n) (ownCancels x.bare t n)
  | 0 => .ret _
  | n + 1 => .bind detoured_cancel fun _ => detoured_ownCancels n

/-- The test for a cancel is on the way. -/
theorem detoured_raiseIfCancelled :
    Detoured x (raiseIfCancelled t) (raiseIfCancelled t) := by
  refine .bind (detoured_readStatus x t) fun status => ?_
  split
  · exact .fail _
  · exact .ret _

/-- An attempt takes the detours of its end and of its handler's cancels. -/
theorem detoured_attempt (upstream : List TaskId) :
    Detoured x (attempt x t upstream) (attempt x.bare t upstream) := by
  refine .bind (.bind (detoured_op x trivial) fun call =>
    .bind (detoured_ownCancels _) fun _ => ?_) fun raw => ?_
  · split
    · exact .ret _
    · exact .fail _
  · exact .bind detoured_raiseIfCancelled fun _ =>
      .bind (detoured_terminalize (by decide) _ _ _ _) fun _ => .ret _

/-- Each except clause takes the detour of its save. -/
theorem detoured_handleError (e : Exc) :
    Detoured x (handleError x t e) (handleError x.bare t e) := by
  have finishes : ∀ {type : TaskEventType} (result : TaskResult) (status : TaskStatus)
      (error : Option String) (e' : Exc), type ≠ .persistenceFailed →
      Detoured x
        ((terminalize x t result status .running type error).bind fun _ => (.fail e' : Exec TaskResult))
        ((terminalize x.bare t result status .running type error).bind fun _ => .fail e') :=
    fun _ _ _ _ lifecycle => .bind (detoured_terminalize lifecycle _ _ _ _) fun _ => .fail _
  have general : Detoured x (exceptException x t e) (exceptException x.bare t e) := by
    refine .bind (detoured_readStatus x t) fun status => ?_
    split
    · exact finishes _ _ _ _ (by decide)
    · exact finishes _ _ _ _ (by decide)
  cases e with
  | taskCancelled m => exact finishes _ _ _ _ (by decide)
  | baseException | unprintableCancelled => exact .fail _
  | unprintable raised => exact .bind (detoured_readStatus x t) fun _ => .fail _
  | unreadable m raised =>
    refine .bind (detoured_readStatus x t) fun status => ?_
    split
    · exact finishes _ _ _ _ (by decide)
    · exact .fail _
  | _ => exact general

/-- `_execute_once` takes the detours of the start and of the attempt. -/
theorem detoured_executeOnce (upstream : List TaskId) :
    Detoured x (executeOnce x t upstream) (executeOnce x.bare t upstream) := by
  refine .bind (detoured_readStatus x t) fun status => ?_
  split
  · exact .bind (detoured_readStatus x t) fun _ => .fail _
  · refine .bind (detoured_op x trivial) fun type => ?_
    by_cases missing : (!x.handlers type) = true
    · rw [if_pos missing, if_pos (show (!x.bare.handlers type) = true from missing)]
      refine .bind (detoured_readStatus x t) fun _ => .bind (detoured_readStatus x t) fun current => ?_
      split
      · exact .bind (detoured_transitionTo x t _ _) fun _ =>
          .bind (detoured_terminalize (by decide) _ _ _ _) fun _ => .fail _
      · exact .bind (detoured_terminalize (by decide) _ _ _ _) fun _ => .fail _
    · rw [if_neg missing, if_neg (show ¬ (!x.bare.handlers type) = true from missing)]
      refine .bind (detoured_readStatus x t) fun _ => .bind (detoured_transitionTo x t _ _) fun _ => ?_
      refine .bind (detoured_emit (by decide) _ _) fun _ => ?_
      exact .tryCatch persist_total (detoured_attempt upstream) detoured_handleError

/-- What is decided after a failure is on the way. -/
theorem detoured_afterFailure (policy : RetryPolicy) (lastAttempt : Bool) (e : Exc) :
    Detoured x (afterFailure policy t lastAttempt e) (afterFailure policy t lastAttempt e) := by
  unfold afterFailure
  split
  · exact .fail _
  · exact .fail _
  · exact .fail _
  · refine .bind (detoured_readStatus x t) fun status => ?_
    split
    · exact .fail _
    · split
      · exact .fail _
      · refine .bind (detoured_readStatus x t) fun status => ?_
        split
        · exact .fail _
        · split
          · exact .bind (detoured_op x trivial) fun _ => detoured_raiseIfCancelled
          · exact detoured_raiseIfCancelled

/-- The loop over attempts takes their detours, attempt by attempt. -/
theorem detoured_retryLoop (policy : RetryPolicy) (upstream : List TaskId) :
    ∀ n, Detoured x (retryLoop x policy t upstream n) (retryLoop x.bare policy t upstream n)
  | 0 => .fail _
  | n + 1 => .tryCatch persist_total (detoured_executeOnce upstream) fun e =>
    .bind (detoured_afterFailure policy _ e) fun _ => detoured_retryLoop policy upstream n

/-- `execute` takes the detours of its attempts. -/
theorem detoured_execute (upstream : List TaskId) (policy : RetryPolicy) :
    Detoured x (execute x t upstream policy) (execute x.bare t upstream policy) := by
  unfold execute
  split
  · exact detoured_executeOnce upstream
  · refine .bind (detoured_op x trivial) fun type => ?_
    by_cases missing : (!x.handlers type) = true
    · rw [if_pos missing, if_pos (show (!x.bare.handlers type) = true from missing)]
      exact detoured_executeOnce upstream
    · rw [if_neg missing, if_neg (show ¬ (!x.bare.handlers type) = true from missing)]
      exact detoured_retryLoop policy upstream _

/-- Every operation of a client takes the detours of its saves and no others. -/
theorem detoured_program (operation : Operation) :
    Detoured x (operation.program x t) (operation.program x.bare t) := by
  cases operation with
  | execute upstream policy => exact .bind (detoured_execute upstream policy) fun _ => .ret _
  | cancel => exact .bind detoured_cancel fun _ => .ret _
  | markBlocked parent => exact .bind (detoured_markBlocked parent) fun _ => .ret _

end Methods

end TTasks
