import TTasks.Sequence

/-!
# What each executor method does when it runs alone

One lemma for each of the helpers that the executor's operations are made of: `persist`, `emit`,
`_terminalize`, the cancels inside a handler. A helper that cannot raise is given as the state it
leaves (`World.persisted`, `World.emitted`), and the lemmas about those say what they keep: saving
and announcing touch no task and no handler call, and an announcement adds one event.
-/

namespace TTasks

open Interleave

variable (x : Executor) {α β : Type} {t : TaskId} {w : World}

namespace Executor

/-! ## The program combinators -/

/-- A returned method leaves the world. -/
@[simp] theorem run_ret (a : α) (w : World) : x.run (.ret a) w = (.ok a, w) := rfl

/-- A raised method leaves the world. -/
@[simp] theorem run_fail (e : Exc) (w : World) :
    x.run (.fail e : Exec α) w = (.error e, w) := rfl

/-- One operation's run is what it performs. -/
@[simp] theorem run_op (o : TaskOp) (w : World) :
    x.run (.op o) w = (.ok (o.perform x w).1, (o.perform x w).2) := rfl

/-- A sequence runs its second part in the world that the first one left. -/
theorem run_bind (p : Exec α) (f : α → Exec β) (w : World) :
    x.run (p.bind f) w = match x.run p w with
      | (.ok a, w') => x.run (f a) w'
      | (.error e, w') => (.error e, w') := by
  unfold run
  rw [Prog.run_bind]
  rcases p.run (TaskOp.perform x) w with ⟨_ | _, _⟩ <;> rfl

/-- An except clause runs in the world that its body left. -/
theorem run_tryCatch (p : Exec α) (h : Exc → Exec α) (w : World) :
    x.run (p.tryCatch h) w = match x.run p w with
      | (.ok a, w') => (.ok a, w')
      | (.error e, w') => x.run (h e) w' := by
  unfold run
  rw [Prog.run_tryCatch]
  rcases p.run (TaskOp.perform x) w with ⟨_ | _, _⟩ <;> rfl

/-! ## Single operations -/

/-- Reading the status. -/
@[simp] theorem run_readStatus (t : TaskId) (w : World) :
    x.run (readStatus t) w = (.ok (w.status t), w) := rfl

/-- Reading the error. -/
@[simp] theorem run_readError (t : TaskId) (w : World) :
    x.run (readError t) w = (.ok (w.tasks t).error, w) := rfl

/-- Reading the task's type. -/
@[simp] theorem run_readType (t : TaskId) (w : World) :
    x.run (readType t) w = (.ok (w.tasks t).type, w) := rfl

/-- Terminating the process of a task changes nothing that is modelled. -/
@[simp] theorem run_terminateProcess (t : TaskId) (w : World) :
    x.run (terminateProcess t) w = (.ok (), w) := rfl

/-- Sleeping changes nothing that is modelled. -/
@[simp] theorem run_sleep (t : TaskId) (w : World) : x.run (sleep t) w = (.ok (), w) := rfl

/-- Calling the handler counts the call, and the handler then does what it does at that call. -/
@[simp] theorem run_enterHandler (t : TaskId) (upstream : List TaskId) (w : World) :
    x.run (enterHandler t upstream) w =
      (.ok (x.behaviour t (w.callCount t)), { w with calls := w.calls ++ [(t, upstream)] }) := rfl

/-- Writing `_blocked_by`. -/
@[simp] theorem run_setBlockedBy (t : TaskId) (parent : Option TaskId) (w : World) :
    x.run (setBlockedBy t parent) w =
      (.ok (), w.setTask t { w.tasks t with blockedBy := parent }) := rfl

/-- Storing a result. -/
@[simp] theorem run_setResult (t : TaskId) (result : TaskResult) (w : World) :
    x.run (setResult t result) w =
      (.ok (), w.setTask t { w.tasks t with result := some result }) := rfl

/-- Handing an event to the bus. -/
@[simp] theorem run_deliver (t : TaskId) (event : TaskEvent) (w : World) :
    x.run (deliver t event) w =
      (.ok (), { w with deliveries := w.deliveries ++ [⟨event, w.tasks t, w.stored t⟩] }) := rfl

/-- A transition with its `ValueError` as a value. -/
theorem run_tryTransition (t : TaskId) (status : TaskStatus) (error : Option String) (w : World) :
    x.run (tryTransition t status error) w =
      match (w.tasks t).transitionTo status error with
      | .ok task => (.ok (.ok ()), w.setTask t task)
      | .error e => (.ok (.error e), w) := by
  show (Except.ok ((TaskOp.transition t status error).perform x w).1,
    ((TaskOp.transition t status error).perform x w).2) = _
  simp only [TaskOp.perform]
  cases (w.tasks t).transitionTo status error <;> rfl

/-- A save with its exception as a value; it is counted either way. -/
theorem run_trySave (t : TaskId) (w : World) :
    x.run (trySave t) w =
      match x.saveFails w.saves with
      | some e => (.ok (.error e), { w with saves := w.saves + 1 })
      | none => (.ok (.ok ()), { w.setStored t (w.tasks t) with saves := w.saves + 1 }) := by
  show (Except.ok ((TaskOp.save t).perform x w).1, ((TaskOp.save t).perform x w).2) = _
  simp only [TaskOp.perform]
  cases x.saveFails w.saves <;> rfl

/-- A transition that the table allows. -/
theorem run_transitionTo_of_allowed {s : TaskStatus}
    (allowed : (w.status t).canTransitionTo s = true) (error : Option String) :
    x.run (transitionTo t s error) w =
      (.ok (), w.setTask t ((w.tasks t).enter s error)) := by
  have ok : (w.tasks t).transitionTo s error = .ok ((w.tasks t).enter s error) :=
    if_pos allowed
  simp only [transitionTo, Prog.bind_eq, run_bind, run_tryTransition, ok, orRaise, run_ret]

/-- A transition that the table refuses raises, and leaves the world. -/
theorem run_transitionTo_of_refused {s : TaskStatus}
    (refused : (w.status t).canTransitionTo s = false) (error : Option String) :
    ∃ m, x.run (transitionTo t s error) w = (.error (.valueError m), w) := by
  have failed : ∃ m, (w.tasks t).transitionTo s error = .error (.valueError m) := by
    unfold Task.transitionTo
    rw [if_neg (by rw [show (w.tasks t).status = w.status t from rfl, refused]; simp)]
    exact ⟨_, rfl⟩
  obtain ⟨m, failed⟩ := failed
  refine ⟨m, ?_⟩
  simp only [transitionTo, Prog.bind_eq, run_bind, run_tryTransition, failed, orRaise, run_fail]

end Executor

/-! ## Saving and announcing -/

namespace World

/-- The state after `persist`. -/
def persisted (w : World) (x : Executor) (t : TaskId) : World :=
  if x.store then
    match x.saveFails w.saves with
    | none => { w.setStored t (w.tasks t) with saves := w.saves + 1 }
    | some e =>
      { w with
        saves := w.saves + 1
        persistenceErrors := w.persistenceErrors ++ [(t, e)]
        deliveries := w.deliveries ++
          [⟨{ type := .persistenceFailed, taskId := t, previousStatus := none,
              status := w.status t, error := some e.text }, w.tasks t, w.stored t⟩] }
  else
    w

/-- The delivery that `emit` makes after persisting. -/
def announcement (w : World) (x : Executor) (t : TaskId) (type : TaskEventType)
    (previous : Option TaskStatus) (error : Option String) : Delivery where
  event := { type, taskId := t, previousStatus := previous, status := w.status t, error }
  live := w.tasks t
  stored := (w.persisted x t).stored t

/-- The state after `emit`. -/
def emitted (w : World) (x : Executor) (t : TaskId) (type : TaskEventType)
    (previous : Option TaskStatus) (error : Option String) : World :=
  { w.persisted x t with
    deliveries := (w.persisted x t).deliveries ++ [w.announcement x t type previous error] }

/-- Persisting leaves the tasks as they are. -/
@[simp] theorem persisted_tasks (w : World) (x : Executor) (t : TaskId) :
    (w.persisted x t).tasks = w.tasks := by
  unfold persisted
  split
  · split <;> rfl
  · rfl

/-- Persisting calls no handler. -/
@[simp] theorem persisted_calls (w : World) (x : Executor) (t : TaskId) :
    (w.persisted x t).calls = w.calls := by
  unfold persisted
  split
  · split <;> rfl
  · rfl

/-- A refused save is announced, but not as a lifecycle event. -/
@[simp] theorem persisted_events (w : World) (x : Executor) (t u : TaskId) :
    (w.persisted x t).events u = w.events u := by
  unfold persisted
  split
  · split
    · rfl
    · simp [events, TaskEventType.status]
  · rfl

/-- A store that accepts the save holds the task as it is. -/
theorem persisted_stored {x : Executor} (w : World) (t : TaskId) (store : x.store = true)
    (accepts : ∀ n, x.saveFails n = none) : (w.persisted x t).stored t = some (w.tasks t) := by
  unfold persisted
  rw [if_pos store, accepts]
  simp [setStored]

/-- Emitting leaves the tasks as they are. -/
@[simp] theorem emitted_tasks (w : World) (x : Executor) (t : TaskId) (type : TaskEventType)
    (previous : Option TaskStatus) (error : Option String) :
    (w.emitted x t type previous error).tasks = w.tasks := persisted_tasks w x t

/-- Emitting calls no handler. -/
@[simp] theorem emitted_calls (w : World) (x : Executor) (t : TaskId) (type : TaskEventType)
    (previous : Option TaskStatus) (error : Option String) :
    (w.emitted x t type previous error).calls = w.calls := persisted_calls w x t

/-- A lifecycle announcement adds itself to the task's events. -/
theorem emitted_events (w : World) (x : Executor) (t : TaskId) {type : TaskEventType}
    {s : TaskStatus} (lifecycle : type.status = some s) (previous : Option TaskStatus)
    (error : Option String) :
    (w.emitted x t type previous error).events t =
      w.events t ++ [w.announcement x t type previous error] := by
  have keep := persisted_events w x t t
  simp only [events] at keep
  simp [events, emitted, List.filter_append, keep, announcement, lifecycle]

/-- Of two writes to one task the second stands. -/
@[simp] theorem setTask_setTask (w : World) (t : TaskId) (a b : Task) :
    (w.setTask t a).setTask t b = w.setTask t b := by
  simp only [setTask, mk.injEq, and_true]
  funext u
  split <;> rfl

/-- Writing back what is there changes nothing. -/
theorem setTask_same (w : World) (t : TaskId) : w.setTask t (w.tasks t) = w := by
  have same : (fun u => if u = t then w.tasks t else w.tasks u) = w.tasks := by
    funext u
    split
    · subst u; rfl
    · rfl
  rw [setTask, same]

end World

namespace Executor

/-- `_persist` returns, whether or not the save fails. -/
theorem run_persist (t : TaskId) (w : World) :
    x.run (persist x t) w = (.ok (), w.persisted x t) := by
  unfold persist World.persisted
  cases x.store with
  | false => rfl
  | true =>
    simp only [if_true, Prog.tryCatch_eq, run_tryCatch, save, Prog.bind_eq, run_bind, run_trySave]
    cases x.saveFails w.saves <;> rfl

/-- `_emit` returns, whatever the subscribers do. -/
theorem run_emit (t : TaskId) (type : TaskEventType) (previous : Option TaskStatus)
    (error : Option String) (w : World) :
    x.run (emit x t type previous error) w = (.ok (), w.emitted x t type previous error) := by
  simp only [emit, Prog.bind_eq, run_bind, run_persist, run_readStatus, run_deliver]
  simp [World.emitted, World.announcement, World.status]

/-! ## Terminal writes -/

/-- `_terminalize` on a task that is already in the status: result and event. -/
theorem run_terminalize_of_same {s : TaskStatus} (same : w.status t = s)
    (result : TaskResult) (previous : TaskStatus) (type : TaskEventType) (error : Option String) :
    x.run (terminalize x t result s previous type error) w =
      (.ok (), (w.setTask t { w.tasks t with result := some result }).emitted x t type
        (some previous) error) := by
  subst same
  simp [terminalize, run_bind, run_emit, World.status]

/-- `_terminalize` with a transition that the table allows: result, transition and event. -/
theorem run_terminalize_of_allowed {status : TaskStatus}
    (allowed : (w.status t).canTransitionTo status = true) (other : w.status t ≠ status)
    (result : TaskResult) (previous : TaskStatus) (type : TaskEventType) (error : Option String) :
    x.run (terminalize x t result status previous type error) w =
      (.ok (), (w.setTask t ({ w.tasks t with result := some result }.enter status error)).emitted
        x t type (some previous) error) := by
  have moved := run_transitionTo_of_allowed x (t := t) (s := status)
    (w := w.setTask t { w.tasks t with result := some result })
    (by simpa [World.status] using allowed) error
  have differs : (w.tasks t).status ≠ status := other
  simp [terminalize, run_bind, run_emit, moved, differs, World.status]

end Executor

end TTasks
