import TTasks.Reference

/-!
# What the scheduler's predicates say of one state

The predicates of `_run_inner` are programs: they read one thing after another while other threads
move. Here is what each of them answers when nothing moves, as a function of the state; `decisionAt`
is the decision of the `for` loop about a task.
-/

namespace TTasks.Scheduler

open Interleave
open Prog (Answers)

section Snapshot

variable (r : Run) (s : Shared)

/-- `retryable_this_run`, of the state as it is. -/
def retryableAt (t : TaskId) : Bool :=
  s.stage t == .absent &&
    ((s.status t).canTransitionTo .running && (s.status t != .blocked || entering r t))

/-- `inactive`, of the state as it is. -/
def inactiveAt (t : TaskId) : Bool :=
  if s.stage t != .absent then (s.stage t).isDone
  else ((s.status t).isTerminal && !retryableAt r s t) || (s.errors t).isSome

/-- `ready`, of the state as it is. -/
def readyAt (t : TaskId) : Bool :=
  if r.graph.isFinally t then (r.graph.deps t).all (inactiveAt r s)
  else (r.graph.deps t).all fun d => s.status d == .succeeded

/-- The parent stands in the way of its dependents. -/
def badAt (d : TaskId) : Bool :=
  !(s.stage d != .absent && !(s.stage d).isDone) &&
    ((s.errors d).isSome || ((s.status d).isBad && !retryableAt r s d))

/-- `finished`, of the state as it is. -/
def finishedAt (t : TaskId) : Bool :=
  (s.status t).isTerminal || (s.stage t != .absent && (s.stage t).isDone)

/-- The decision about a task that no parent blocks. -/
def decisionReadyAt (t : TaskId) : Decision :=
  if readyAt r s t && (s.status t).canTransitionTo .running then .submit else .skip

/-- What `schedule` decides about the task, of the state as it is. -/
def decisionAt (t : TaskId) : Decision :=
  if s.stage t != .absent then .skip
  else if (s.status t).isSink then .skip
  else if s.status t == .blocked && !entering r t then .skip
  else if r.graph.isFinally t then decisionReadyAt r s t
  else
    match (r.graph.deps t).find? (badAt r s) with
    | some bad => if s.status t == .pending then .block bad else .skip
    | none => decisionReadyAt r s t

/-! ## The programs give these answers -/

variable (who : Who)

/-- A test of the status. -/
theorem answers_statusIs (p : TaskStatus → Bool) (t : TaskId) :
    Answers (SchedOp.perform r who) (statusIs p t) s (p (s.status t)) := rfl

/-- Whether a future was created. -/
theorem answers_inFutures (t : TaskId) :
    Answers (SchedOp.perform r who) (inFutures t) s (s.stage t != .absent) := rfl

/-- Whether a future is done. -/
theorem answers_futureDone (t : TaskId) :
    Answers (SchedOp.perform r who) (futureDone t) s (s.stage t).isDone := rfl

/-- Whether an exception was recorded. -/
theorem answers_inErrors (t : TaskId) :
    Answers (SchedOp.perform r who) (inErrors t) s (s.errors t).isSome := rfl

/-- Read without interruption, `retryable_this_run` answers for the state. -/
theorem answers_retryable (t : TaskId) :
    Answers (SchedOp.perform r who) (retryableThisRun r t) s (retryableAt r s t) := by
  have first : (!(s.stage t != .absent)) = (s.stage t == .absent) := by simp [bne]
  rw [retryableAt, ← first]
  exact (answers_inFutures r s who t).not.and
    ((answers_statusIs r s who _ t).and ((answers_statusIs r s who _ t).or (.ret _)))

/-- Read without interruption, `inactive` answers for the state. -/
theorem answers_inactive (t : TaskId) :
    Answers (SchedOp.perform r who) (inactive r t) s (inactiveAt r s t) := by
  refine (answers_inFutures r s who t).bind ?_
  unfold inactiveAt
  split
  · exact answers_futureDone r s who t
  · exact ((answers_statusIs r s who _ t).and (answers_retryable r s who t).not).or
      (answers_inErrors r s who t)

/-- Read without interruption, `ready` answers for the state. -/
theorem answers_ready (t : TaskId) :
    Answers (SchedOp.perform r who) (ready r t) s (readyAt r s t) := by
  unfold ready readyAt
  split
  · exact .all (answers_inactive r s who) _
  · exact .all (fun d => answers_statusIs r s who _ d) _

/-- `first_bad_parent` is a search through the dependencies. -/
theorem answers_firstBadParent : ∀ ds : List TaskId,
    Answers (SchedOp.perform r who) (firstBadParent r ds) s (ds.find? (badAt r s))
  | [] => rfl
  | d :: ds => by
    refine ((answers_inFutures r s who d).and (answers_futureDone r s who d).not).bind ?_
    rw [List.find?_cons]
    split
    · rename_i undone
      rw [show badAt r s d = false by simp [badAt, undone]]
      exact answers_firstBadParent ds
    · rename_i decided
      refine (answers_inErrors r s who d).bind ?_
      split
      · rename_i failed
        rw [show badAt r s d = true by simp only [badAt, decided, failed, Bool.true_or]; rfl]
        rfl
      · rename_i quiet
        refine ((answers_statusIs r s who _ d).and (answers_retryable r s who d).not).bind ?_
        split
        · rename_i bad
          rw [show badAt r s d = true by simp only [badAt, decided, bad, Bool.or_true]; rfl]
          rfl
        · rename_i fine
          rw [show badAt r s d = false by simp only [badAt, quiet, fine, Bool.or_false, Bool.and_false]]
          exact answers_firstBadParent ds

/-- Read without interruption, `finished` answers for the state. -/
theorem answers_finished (t : TaskId) :
    Answers (SchedOp.perform r who) (finished t) s (finishedAt s t) :=
  Answers.or (rfl : Answers (SchedOp.perform r who) (once (.terminal t)) s (s.status t).isTerminal)
    ((answers_inFutures r s who t).and (answers_futureDone r s who t))

/-- The end of a decision answers for the state. -/
theorem answers_decideReady (t : TaskId) :
    Answers (SchedOp.perform r who) (decideReady r t) s (decisionReadyAt r s t) := by
  refine ((answers_ready r s who t).and (answers_statusIs r s who _ t)).bind ?_
  unfold decisionReadyAt
  split <;> exact .ret _

/-- Read without interruption, a decision is the one that the state calls for. -/
theorem answers_decide (t : TaskId) :
    Answers (SchedOp.perform r who) (decide r t) s (decisionAt r s t) := by
  refine (answers_inFutures r s who t).bind ?_
  unfold decisionAt
  split
  · exact .ret _
  refine (answers_statusIs r s who _ t).bind ?_
  split
  · exact .ret _
  refine ((answers_statusIs r s who _ t).and (.ret _)).bind ?_
  split
  · exact .ret _
  split
  · exact answers_decideReady r s who t
  refine (answers_firstBadParent r s who _).bind ?_
  cases (r.graph.deps t).find? (badAt r s) with
  | none => exact answers_decideReady r s who t
  | some bad =>
    refine (answers_statusIs r s who _ t).bind ?_
    show Answers _ (if (s.status t == .pending) = true then _ else _) s
      (if (s.status t == .pending) = true then _ else _)
    split <;> exact .ret _

end Snapshot

end TTasks.Scheduler
