import TTasks.Futures
import TTasks.Laws.Executor.Quiet
import TTasks.Laws.Executor.Replay

/-!
# A task that one thread works on

What the other threads do with other tasks is nothing to a task (`Alone.other`). So a call that one
thread makes on a task is over as if nothing else had run (`AsAlone`), whichever call it is: here the
submitted execution, retries included, and the cancel.
-/

namespace TTasks

open Interleave
open Prog (Contract)

/-! ## Other tasks -/

/-- An operation on another task changes nothing for this one. -/
theorem Alone.other {x : Executor} {t u : TaskId} {n : Nat} {w ws : World} (h : Alone t n w ws)
    {o : TaskOp} (own : o.IsOf u) (other : t ≠ u) : Alone t n (o.perform x w).2 ws := by
  obtain ⟨task, events⟩ := own
  subst task
  -- a write of another task's record
  have write : ∀ record, Alone t n (w.setTask o.task record) ws := by
    intro record
    refine ⟨?_, h.calls, h.stored, h.long, h.events⟩
    rw [World.setTask_tasks, if_neg other]
    exact h.task
  cases o with
  | transition u target message =>
    simp only [TaskOp.perform]
    split
    · exact write _
    · exact h
  | setResult u result => exact write _
  | setBlockedBy u parent => exact write _
  | save u =>
    simp only [TaskOp.perform]
    split
    · exact ⟨h.task, h.calls, h.stored, h.long, h.events⟩
    · refine ⟨h.task, h.calls, ?_, h.long, h.events⟩
      rw [h.stored]
      exact (if_neg other).symm
  | recordSaveError u e => exact ⟨h.task, h.calls, h.stored, h.long, h.events⟩
  | deliver u e =>
    have elsewhere : e.taskId ≠ t := fun here => other (here.symm.trans (events u e rfl))
    refine ⟨h.task, h.calls, h.stored, ?_, ?_⟩
    · have long := h.long
      simp only [TaskOp.perform, List.length_append]
      omega
    · rw [h.events]
      simp only [TaskOp.perform]
      rw [List.drop_append_of_le_length h.long, List.filter_append]
      simp [elsewhere]
  | call u ups =>
    refine ⟨h.task, ?_, h.stored, h.long, h.events⟩
    have calls := h.calls
    simp only [World.callCount] at calls
    have elsewhere : ¬ u = t := fun here => other here.symm
    simp [TaskOp.perform, World.callCount, List.filter_append, calls, elsewhere]
  | status u => exact h
  | error u => exact h
  | type u => exact h
  | terminateProcess u => exact h
  | sleep u => exact h

/-- What is done with another task calls no handler for the task. -/
theorem callCount_other (x : Executor) {t u : TaskId} {o : TaskOp} (own : o.IsOf u) (other : t ≠ u)
    (w : World) : (o.perform x w).2.callCount t = w.callCount t := by
  have here := (alone_start t w).other (x := x) own other
  exact here.calls.symm.trans (alone_start t w).calls

/-! ## One call on a task -/

/-- What has been done with the task since `w₀` is one call, and came to what the call comes to when
it runs alone, with some answers of the store. -/
def AsAlone {α : Type} (x : Executor) (w₀ : World) (t : TaskId) (p : Executor → Exec α)
    (r : Except Exc α) (w : World) : Prop :=
  ∃ answers ws, Alone t w₀.deliveries.length w ws ∧
    (x.withSaves answers).run (p (x.withSaves answers)) w₀.alone = (r, ws) ∧
      (x.Saves → (x.withSaves answers).Saves)

/-- What has come of a task as if alone is still so after an operation on another. -/
theorem AsAlone.other {α : Type} {x : Executor} {w₀ w : World} {t u : TaskId}
    {p : Executor → Exec α} {r : Except Exc α} (h : AsAlone x w₀ t p r w) {o : TaskOp}
    (own : o.IsOf u) (other : t ≠ u) : AsAlone x w₀ t p r (o.perform x w).2 := by
  obtain ⟨answers, ws, alone, rest⟩ := h
  exact ⟨answers, ws, alone.other own other, rest⟩

/-- The program is told only that others leave the task alone, and tells of its operations what kind
they are of. -/
def leftAlone (w₀ : World) (t : TaskId) (kind : TaskOp → Prop) : Contract TaskOp World where
  rely a b := ∀ ws, Alone t w₀.deliveries.length a ws → Alone t w₀.deliveries.length b ws
  guar o _ := kind o

/-- A program that keeps to its own task comes to what it would come to alone, whatever the saves
answer. -/
theorem wp_asAlone {α : Type} {x : Executor} {w₀ w : World} {t : TaskId} {p : Executor → Exec α}
    {kind : TaskOp → Prop} (same : ∀ answers, p (x.withSaves answers) = p x)
    (own : ∀ o, kind o → o.IsOf t) (uses : (p x).Uses kind)
    (untouched : Alone t w₀.deliveries.length w w₀.alone) :
    (p x).wp (TaskOp.perform x) (leftAlone w₀ t kind) (AsAlone x w₀ t p) w := by
  have replayed : (p x).wp (TaskOp.perform x) (leftAlone w₀ t fun _ => True) (AsAlone x w₀ t p) w := by
    refine Prog.wp_mono (wp_replay ?_ (fun _ _ _ => ⟨trivial, fun _ => trivial⟩) (uses.mono own)
      untouched (.start ..)) ?_
    · intro a b ws moved alone
      exact moved ws alone
    · rintro r b ⟨answers, ws, alone, ran, saves⟩
      refine ⟨answers, ws, alone, ?_, saves⟩
      rw [same]
      exact ran
  apply Prog.wp_of_contract (P := kind) ?_ ?_ ?_ ?_ uses replayed
  · exact fun h => h
  · exact fun _ => trivial
  · exact fun _ _ => trivial
  · exact fun here _ _ => here

/-! ## The calls -/

section Calls

variable (x : Executor) (t : TaskId)

/-- Not a call of the handler. -/
def TaskOp.isCall : TaskOp → Bool
  | .call _ _ => true
  | _ => false

/-- Only entering the handler counts as a call. -/
theorem TaskOp.callCount_of_not_isCall {o : TaskOp} (quiet : o.isCall = false) (w : World) :
    (o.perform x w).2.callCount t = w.callCount t := by
  have still : ∀ u ups, o ≠ .call u ups := by
    rintro u ups rfl
    cases quiet
  simp only [World.callCount, TaskOp.perform_calls x still w]

/-- The operation works on the task and calls no handler. -/
def TaskOp.Spares (o : TaskOp) : Prop := o.IsOf t ∧ o.isCall = false

/-- A quiet operation on the task that enters no handler. -/
theorem spares_plain {o : TaskOp} (own : o.task = t) (quiet : o.isQuiet = true)
    (silent : o.isCall = false) : o.Spares t := by
  refine ⟨.plain own ?_, silent⟩
  rintro u e rfl
  cases quiet

/-- A delivery enters no handler. -/
theorem spares_deliver {e : TaskEvent} (own : e.taskId = t) : (TaskOp.deliver t e).Spares t :=
  ⟨.deliver own, rfl⟩

/-- Reading the status enters no handler. -/
theorem spares_readStatus : (readStatus t).Uses (TaskOp.Spares t) := .op (spares_plain t rfl rfl rfl)

/-- A transition enters no handler. -/
theorem spares_transitionTo (status : TaskStatus) (error : Option String) :
    (transitionTo t status error).Uses (TaskOp.Spares t) := by
  refine .bind (.op (spares_plain t rfl rfl rfl)) fun answer => ?_
  cases answer <;> trivial

/-- Emitting enters no handler. -/
theorem spares_emit (type : TaskEventType) (previous : Option TaskStatus) (error : Option String) :
    (emit x t type previous error).Uses (TaskOp.Spares t) := by
  refine .bind ?_ fun _ => .bind (spares_readStatus t) fun _ => .op (spares_deliver t rfl)
  unfold persist
  split
  · refine .tryCatch (.bind (.op (spares_plain t rfl rfl rfl)) fun answer => ?_) fun e => ?_
    · cases answer <;> trivial
    · refine .bind (.op (spares_plain t rfl rfl rfl)) fun _ => ?_
      exact .bind (spares_readStatus t) fun _ => .op (spares_deliver t rfl)
  · trivial

/-- A cancel calls no handler. -/
theorem spares_cancel : (cancel x t).Uses (TaskOp.Spares t) := by
  refine .bind (.bind (spares_readStatus t) fun status => ?_) fun previous => ?_
  · split
    · trivial
    · exact .bind (spares_readStatus t) fun _ => trivial
  · cases previous with
    | none => trivial
    | some previous =>
      refine .bind (.bind (spares_readStatus t) fun status => ?_) fun _ => ?_
      · split
        · trivial
        · exact .bind (.op (spares_plain t rfl rfl rfl)) fun _ => spares_transitionTo t _ _
      · refine .bind (.op (spares_plain t rfl rfl rfl)) fun _ => ?_
        split
        · refine .bind (.op (spares_plain t rfl rfl rfl)) fun _ => ?_
          refine .bind (spares_readStatus t) fun current => ?_
          split
          · exact .bind (spares_transitionTo t _ _) fun _ => spares_emit x t _ _ _
          · exact spares_emit x t _ _ _
        · trivial

/-- What is decided after a failure keeps to the task. -/
theorem uses_afterFailure {kind : TaskEventType → Prop} (policy : RetryPolicy) (last : Bool)
    (e : Exc) : (afterFailure policy t last e).Uses (TaskOp.Speaks t kind) := by
  unfold afterFailure
  split
  · trivial
  · trivial
  · trivial
  · refine .bind (uses_readStatus t) fun status => ?_
    split
    · trivial
    · split
      · trivial
      · refine .bind (uses_readStatus t) fun status => ?_
        split
        · trivial
        · have last : ((readStatus t).bind fun status =>
              if status == .cancelled then .fail (cancelledError t)
              else .ret () : Exec Unit).Uses (TaskOp.Speaks t kind) := by
            refine .bind (uses_readStatus t) fun status => ?_
            split <;> trivial
          split
          · exact .bind (.op (speaks_plain t rfl rfl)) fun _ => last
          · exact last

/-- The loop over attempts keeps to the task. -/
theorem uses_retryLoop {kind : TaskEventType → Prop} (all : ∀ type, kind type)
    (policy : RetryPolicy) (upstream : List TaskId) :
    ∀ n, (retryLoop x policy t upstream n).Uses (TaskOp.Speaks t kind)
  | 0 => trivial
  | n + 1 => by
    refine .tryCatch (uses_executeOnce x t all upstream) fun e => ?_
    exact .bind (uses_afterFailure t policy _ e) fun _ => uses_retryLoop all policy upstream n

/-- `execute` keeps to its own task. -/
theorem uses_execute {kind : TaskEventType → Prop} (all : ∀ type, kind type)
    (upstream : List TaskId) (policy : RetryPolicy) :
    (execute x t upstream policy).Uses (TaskOp.Speaks t kind) := by
  unfold execute
  split
  · exact uses_executeOnce x t all upstream
  · refine .bind (.op (speaks_plain t rfl rfl)) fun type => ?_
    split
    · exact uses_executeOnce x t all upstream
    · exact uses_retryLoop x t all policy upstream _

/-- The loop over attempts is the same program whatever the saves answer. -/
theorem retryLoop_withSaves (answers : Nat → Option Exc) (policy : RetryPolicy)
    (upstream : List TaskId) :
    ∀ n, retryLoop (x.withSaves answers) policy t upstream n = retryLoop x policy t upstream n
  | 0 => rfl
  | n + 1 => by
    unfold retryLoop
    rw [executeOnce_withSaves, retryLoop_withSaves answers policy upstream n]

/-- `execute` is the same program whatever the saves answer. -/
theorem execute_withSaves (answers : Nat → Option Exc) (upstream : List TaskId)
    (policy : RetryPolicy) :
    execute (x.withSaves answers) t upstream policy = execute x t upstream policy := by
  unfold execute
  rw [executeOnce_withSaves, retryLoop_withSaves]
  rfl

end Calls

namespace Futures

variable (x : Executor)

/-- A submitted call keeps to its own task. -/
theorem uses_executeSubmitted (item : WorkItem) :
    (executeSubmitted x item).Uses (TaskOp.IsOf item.task) := by
  refine Prog.Uses.mono (P := TaskOp.Speaks item.task fun _ => True) (fun o h => h.1) ?_
  refine .bind (uses_readStatus item.task) fun status => ?_
  split
  · trivial
  · exact uses_execute x item.task (fun _ => trivial) _ _

/-- A submitted call is the same program whatever the saves answer. -/
theorem executeSubmitted_withSaves (answers : Nat → Option Exc) (item : WorkItem) :
    executeSubmitted (x.withSaves answers) item = executeSubmitted x item := by
  unfold executeSubmitted
  rw [execute_withSaves]

/-- A cancel that runs alone returns. -/
theorem run_cancel_ok (t : TaskId) (w : World) : (x.run (cancel x t) w).1 = .ok () := by
  cases status : w.status t with
  | succeeded => rw [run_cancel_of_sink x (by rw [status]; rfl)]
  | cancelled => rw [run_cancel_of_sink x (by rw [status]; rfl)]
  | running => rw [run_cancel_of_running x status]
  | pending => rw [run_cancel_of_idle x (.inl status)]
  | failed => rw [run_cancel_of_idle x (.inr (.inl status))]
  | blocked => rw [run_cancel_of_idle x (.inr (.inr status))]

end Futures

end TTasks
