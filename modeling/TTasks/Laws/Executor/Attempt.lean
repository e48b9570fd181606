import TTasks.Laws.Executor.Run

/-!
# Complete operations

What one complete operation does to its task when nothing runs beside it. `Settled` is the agreement
of status, result and error that a task is left in; `Trace` is the log of lifecycle events that
leads from one status to another. `Advances` puts the two together, and each operation has one
lemma: from a task that is not RUNNING it advances. The retry loop then composes attempts with
`Advances.trans`.
-/

namespace TTasks

open Interleave

/-! ## The invariants -/

/-- The agreement of a task's status with its result and its error while no operation is under
way. -/
structure Settled (t : TaskId) (task : Task) : Prop where
  notRunning : task.status ≠ .running
  noResult : task.result = none ↔ task.status = .pending ∨ task.status = .blocked
  taskId : ∀ r ∈ task.result, r.taskId = t
  status : ∀ r ∈ task.result, r.status = task.status
  succeeded : ∀ r ∈ task.result, r.terminationReason = none ↔ task.status = .succeeded
  cancelled : ∀ r ∈ task.result,
    r.terminationReason = some .cancelled ↔ task.status = .cancelled
  failed : ∀ r ∈ task.result,
    (r.terminationReason = some .exitCode ∨ r.terminationReason = some .timeout ∨
      r.terminationReason = some .handler) ↔ task.status = .failed
  error : task.status = .succeeded → task.error = none

/-- Lifecycle events that lead from one status to another: each says where it comes from, which is
never a sink, and its type is the status it reports. -/
inductive Trace : TaskStatus → List TaskEvent → TaskStatus → Prop
  | nil (s : TaskStatus) : Trace s [] s
  | cons {s s' : TaskStatus} {e : TaskEvent} {es : List TaskEvent}
      (previous : e.previousStatus = some s) (open_ : s.isSink = false)
      (named : e.type.status = some e.status) (rest : Trace e.status es s') : Trace s (e :: es) s'

/-- Two stretches of statuses and events, one after the other. -/
theorem Trace.append {a b c : TaskStatus} {es fs : List TaskEvent} (h : Trace a es b)
    (h' : Trace b fs c) : Trace a (es ++ fs) c := by
  induction h with
  | nil _ => exact h'
  | cons previous open_ named _ ih => exact .cons previous open_ named (ih h')

/-- The store had the task, as it then was, when the event was delivered. -/
def Delivery.Stored (d : Delivery) : Prop :=
  ∃ snapshot, d.stored = some snapshot ∧ snapshot.status = d.event.status ∧
    snapshot.result = d.live.result ∧ snapshot.blockedBy = d.live.blockedBy

/-- There is a store and it refuses no save. -/
def Executor.Saves (x : Executor) : Prop := x.store = true ∧ ∀ n, x.saveFails n = none

/-- What an operation does to its task: it leaves it settled if it found it so, and the events it
adds lead from the old status to the new one, each delivered after its save. -/
structure Advances (saves : Prop) (t : TaskId) (w w' : World) : Prop where
  notRunning : w'.status t ≠ .running
  settled : Settled t (w.tasks t) → Settled t (w'.tasks t)
  events : ∃ new, w'.events t = w.events t ++ new ∧
    Trace (w.status t) (new.map Delivery.event) (w'.status t) ∧ (saves → ∀ d ∈ new, d.Stored)

namespace Advances

variable {saves : Prop} {t : TaskId} {a b c : World}

/-- A task that nothing was done to, and that is not RUNNING. -/
theorem refl (h : a.status t ≠ .running) : Advances saves t a a where
  notRunning := h
  settled := id
  events := ⟨[], by simp, .nil _, by simp⟩

/-- Two operations, one after the other. -/
theorem trans (h : Advances saves t a b) (h' : Advances saves t b c) : Advances saves t a c where
  notRunning := h'.notRunning
  settled := h'.settled ∘ h.settled
  events := by
    obtain ⟨new, hnew, htrace, hstored⟩ := h.events
    obtain ⟨new', hnew', htrace', hstored'⟩ := h'.events
    refine ⟨new ++ new', by rw [hnew', hnew, List.append_assoc], ?_, ?_⟩
    · rw [List.map_append]
      exact htrace.append htrace'
    · intro hs d hd
      rcases List.mem_append.mp hd with hd | hd
      · exact hstored hs d hd
      · exact hstored' hs d hd

/-- The condition on the saves may be strengthened. -/
theorem mono {saves' : Prop} (h : Advances saves t a b) (imp : saves' → saves) :
    Advances saves' t a b where
  notRunning := h.notRunning
  settled := h.settled
  events :=
    let ⟨new, hnew, htrace, hstored⟩ := h.events
    ⟨new, hnew, htrace, fun hs => hstored (imp hs)⟩

end Advances

/-- An announcement of the status a task is in, from a status that was open. -/
theorem trace_announcement {x : Executor} {t : TaskId} {w : World} {type : TaskEventType}
    {s : TaskStatus} (open_ : s.isSink = false) (named : type.status = some (w.status t))
    (error : Option String) :
    Trace s [(w.announcement x t type (some s) error).event] (w.status t) :=
  .cons rfl open_ named (.nil _)

/-- An event that is emitted after a successful save finds the task stored. -/
theorem announcement_stored {x : Executor} (saves : x.Saves) (w : World) (t : TaskId)
    (type : TaskEventType) (previous : Option TaskStatus) (error : Option String) :
    (w.announcement x t type previous error).Stored :=
  ⟨w.tasks t, w.persisted_stored t saves.1 saves.2, rfl, rfl, rfl⟩

/-! ## Cancelling and blocking -/

section Operations

variable (x : Executor) {t : TaskId} {w : World}

/-- Cancelling a task that is over does nothing. -/
theorem run_cancel_of_sink (sink : (w.status t).isSink = true) :
    x.run (cancel x t) w = (.ok (), w) := by
  cases hs : w.status t <;> simp [hs, TaskStatus.isSink] at sink <;>
    simp [cancel, cancelPrevious, taskCancel, cancelFinish, Executor.run_bind, hs,
      TaskStatus.isSink]

/-- Cancelling a RUNNING task only changes its status: the event is left to the active
`execute`. -/
theorem run_cancel_of_running (running : w.status t = .running) :
    x.run (cancel x t) w =
      (.ok (), w.setTask t ((w.tasks t).enter .cancelled (w.tasks t).error)) := by
  have moved := Executor.run_transitionTo_of_allowed x (t := t) (s := .cancelled) (w := w)
    (by rw [running]; decide) (w.tasks t).error
  simp [cancel, cancelPrevious, taskCancel, cancelFinish, Executor.run_bind, running, moved,
    TaskStatus.isSink]

/-- Cancelling an idle task moves it, writes the result and emits the event. -/
theorem run_cancel_of_idle
    (idle : w.status t = .pending ∨ w.status t = .failed ∨ w.status t = .blocked) :
    x.run (cancel x t) w =
      (.ok (), (w.setTask t { (w.tasks t).enter .cancelled (w.tasks t).error with
        result := some (cancelResult t) }).emitted x t .cancelled (some (w.status t))
        (some "cancelled")) := by
  have allowed : (w.status t).canTransitionTo .cancelled = true := by
    rcases idle with h | h | h <;> rw [h] <;> decide
  have moved := Executor.run_transitionTo_of_allowed x allowed (w.tasks t).error
  have written := Executor.run_terminalize_of_same x (t := t) (s := .cancelled)
    (w := w.setTask t ((w.tasks t).enter .cancelled (w.tasks t).error)) (by simp)
    (cancelResult t) (w.status t) .cancelled (some "cancelled")
  rcases idle with h | h | h <;>
    simp [cancel, cancelPrevious, taskCancel, cancelFinish, Executor.run_bind, h, moved,
      TaskStatus.isSink, cancelResult] at written ⊢ <;> exact written

/-- One announced status change, from an open status to one that is not RUNNING. -/
theorem advances_announced {task : Task} {type : TaskEventType}
    (open_ : (w.status t).isSink = false) (notRunning : task.status ≠ .running)
    (settled : Settled t (w.tasks t) → Settled t task) (named : type.status = some task.status)
    (error : Option String) :
    Advances x.Saves t w ((w.setTask t task).emitted x t type (some (w.status t)) error) where
  notRunning := by simpa [World.status] using notRunning
  settled := by simpa using settled
  events := by
    refine ⟨[_], World.emitted_events _ x t named _ error, ?_, ?_⟩
    · have named' : type.status = some ((w.setTask t task).status t) := by simpa using named
      simpa [World.status] using trace_announcement (x := x) open_ named' error
    · simpa using fun saves => announcement_stored saves _ t type _ error

/-- `cancel` between attempts. -/
theorem cancel_advances (notRunning : w.status t ≠ .running) :
    Advances x.Saves t w (x.after (cancel x t) w) := by
  unfold Executor.after
  by_cases sink : (w.status t).isSink = true
  · rw [run_cancel_of_sink x sink]
    exact .refl notRunning
  · have idle : w.status t = .pending ∨ w.status t = .failed ∨ w.status t = .blocked := by
      cases hs : w.status t <;> simp_all [TaskStatus.isSink]
    rw [run_cancel_of_idle x idle]
    refine advances_announced x (by simpa using sink) (by simp) (fun _ => ?_) rfl _
    constructor <;> simp [cancelResult]

/-- `mark_blocked` between attempts. -/
theorem markBlocked_advances (notRunning : w.status t ≠ .running) (parent : Option TaskId) :
    Advances x.Saves t w (x.after (markBlocked x t parent) w) := by
  unfold Executor.after
  cases allowed : (w.status t).canTransitionTo .blocked with
  | false =>
    obtain ⟨m, refused⟩ := Executor.run_transitionTo_of_refused x allowed none
    simp only [markBlocked, Prog.bind_eq, Executor.run_bind, Executor.run_readStatus, refused]
    exact .refl notRunning
  | true =>
    have pending : w.status t = .pending := by
      cases hs : w.status t <;> simp_all [TaskStatus.canTransitionTo,
        TaskStatus.allowedTransitions]
    have moved := Executor.run_transitionTo_of_allowed x allowed none
    simp only [markBlocked, Prog.bind_eq, Executor.run_bind, Executor.run_readStatus, moved,
      Executor.run_setBlockedBy, Executor.run_emit, World.setTask_setTask]
    refine advances_announced x (by rw [pending]; rfl) (by simp) (fun h => ?_) (by simp; rfl) none
    have bare : (w.tasks t).result = none := h.noResult.mpr (.inl pending)
    constructor <;> simp [Task.enter, bare]

end Operations

/-! ## One attempt -/

section Attempt

variable (x : Executor) {t : TaskId} {w : World}

/-- The cancels of a handler on its own RUNNING task: the first one takes effect, the others find a
sink. -/
theorem run_ownCancels (running : w.status t = .running) (n : Nat) :
    x.run (ownCancels x t n) w = (.ok (), if n = 0 then w else
      w.setTask t ((w.tasks t).enter .cancelled (w.tasks t).error)) := by
  have onSink : ∀ (n : Nat) (w : World), (w.status t).isSink = true →
      x.run (ownCancels x t n) w = (.ok (), w) := by
    intro n
    induction n with
    | zero => intro w _; rfl
    | succ n ih =>
      intro w sink
      simp only [ownCancels, Prog.bind_eq, Executor.run_bind, run_cancel_of_sink x sink, ih w sink]
  cases n with
  | zero => rfl
  | succ n =>
    simp only [ownCancels, Prog.bind_eq, Executor.run_bind, run_cancel_of_running x running]
    rw [onSink n _ (by simp [TaskStatus.isSink])]
    simp

/-- An attempt's last step: the result, the status and the event of one terminal status. -/
structure Ends (t : TaskId) (w w' : World) : Prop where
  settled : Settled t (w'.tasks t)
  event : ∃ (task : Task) (type : TaskEventType) (error : Option String),
    (type = .succeeded ∨ type = .failed ∨ type = .cancelled) ∧
      type.status = some task.status ∧
        w' = (w.setTask t task).emitted x t type (some .running) error

/-- Writing the task first makes no difference to how an attempt ends. -/
theorem Ends.of_setTask {x : Executor} {task : Task} {w' : World}
    (h : Ends x t (w.setTask t task) w') : Ends x t w w' where
  settled := h.settled
  event := by
    obtain ⟨task', type, error, terminal, named, rfl⟩ := h.event
    exact ⟨task', type, error, terminal, named, by rw [World.setTask_setTask]⟩

/-- A terminal write by the active attempt ends it. -/
theorem terminalize_ends (status : TaskStatus) (type : TaskEventType) (result : TaskResult)
    (error : Option String)
    (at_ : w.status t = .running ∨ (w.status t = .cancelled ∧ status = .cancelled))
    (named : type.status = some status)
    (settled : Settled t ({ w.tasks t with result := some result }.enter status error))
    (keep : w.status t = .cancelled →
      Settled t { w.tasks t with result := some result }) :
    ∃ w', x.run (terminalize x t result status .running type error) w = (.ok (), w') ∧
      Ends x t w w' := by
  have terminal : status = .succeeded ∨ status = .failed ∨ status = .cancelled := by
    have := settled.notRunning
    have := settled.noResult
    cases status <;> simp_all [Task.enter]
  have ended : type = .succeeded ∨ type = .failed ∨ type = .cancelled := by
    rcases terminal with rfl | rfl | rfl <;> cases type <;> simp_all [TaskEventType.status]
  rcases at_ with running | ⟨cancelled, rfl⟩
  · have allowed : (w.status t).canTransitionTo status = true := by
      rw [running]; rcases terminal with rfl | rfl | rfl <;> decide
    have other : w.status t ≠ status := by
      rw [running]; rcases terminal with rfl | rfl | rfl <;> decide
    refine ⟨_, Executor.run_terminalize_of_allowed x allowed other result _ type error, ?_, ?_⟩
    · simpa using settled
    · exact ⟨_, type, error, ended, named, rfl⟩
  · refine ⟨_, Executor.run_terminalize_of_same x cancelled result _ type error, ?_, ?_⟩
    · simpa using keep cancelled
    · exact ⟨_, type, error, ended,
        named.trans (by simpa [World.status] using cancelled.symm), rfl⟩

/-- The handler's part of an attempt: the call is counted, and the task is still RUNNING unless
the handler cancelled it. -/
theorem run_callHandler (running : w.status t = .running) (upstream : List TaskId) :
    ∃ w', (w'.status t = .running ∨ w'.status t = .cancelled) ∧
      (∃ task, w' = { w with calls := w.calls ++ [(t, upstream)] }.setTask t task) ∧
      x.run (callHandler x t upstream) w =
        (match (x.behaviour t (w.callCount t)).outcome with
          | .returns raw => (.ok raw, w')
          | .raises e => (.error e, w')) := by
  let called : World := { w with calls := w.calls ++ [(t, upstream)] }
  have own := run_ownCancels x (w := called) running (x.behaviour t (w.callCount t)).cancels
  have same : called = called.setTask t (called.tasks t) := (called.setTask_same t).symm
  by_cases none : (x.behaviour t (w.callCount t)).cancels = 0
  · rw [if_pos none] at own
    refine ⟨called, .inl running, ⟨_, same⟩, ?_⟩
    simp only [callHandler, Prog.bind_eq, Executor.run_bind, Executor.run_enterHandler, own,
      called]
    cases (x.behaviour t (w.callCount t)).outcome <;> rfl
  · rw [if_neg none] at own
    refine ⟨called.setTask t ((called.tasks t).enter .cancelled (called.tasks t).error),
      .inr (by simp), ⟨_, rfl⟩, ?_⟩
    simp only [callHandler, Prog.bind_eq, Executor.run_bind, Executor.run_enterHandler, own,
      called]
    cases (x.behaviour t (w.callCount t)).outcome <;> rfl

/-- A cancelled attempt leaves a settled task, whether or not its status is already CANCELLED. -/
theorem exceptCancelled_ends (at_ : w.status t = .running ∨ w.status t = .cancelled) (e : Exc) :
    ∃ w', x.run (terminalize x t (cancelledResult t e) .cancelled .running .cancelled
      (some e.text)) w = (.ok (), w') ∧ Ends x t w w' := by
  refine terminalize_ends x .cancelled .cancelled (cancelledResult t e) (some e.text)
    (at_.imp_right fun h => ⟨h, rfl⟩) rfl ?_ fun cancelled => ?_
  · constructor <;> simp [cancelledResult, Task.enter]
  · have status : (w.tasks t).status = .cancelled := cancelled
    constructor <;> simp [cancelledResult, status]

/-- A failure's result says FAILED. -/
theorem failedResult_status (t : TaskId) (e : Exc) : (failedResult t e).status = .failed := by
  unfold failedResult; split <;> rfl

/-- A failure's result is the task's own. -/
theorem failedResult_taskId (t : TaskId) (e : Exc) : (failedResult t e).taskId = t := by
  unfold failedResult; split <;> rfl

/-- A failed attempt's result says how it failed. -/
theorem failedResult_reason (t : TaskId) (e : Exc) :
    (failedResult t e).terminationReason = some .exitCode ∨
      (failedResult t e).terminationReason = some .timeout ∨
      (failedResult t e).terminationReason = some .handler := by
  unfold failedResult; split <;> simp

/-- The `except` clauses end the attempt for every ordinary exception. -/
theorem handleError_ends (at_ : w.status t = .running ∨ w.status t = .cancelled) {e : Exc}
    (ordinary : e.isOrdinary = true) :
    ∃ r w', x.run (handleError x t e) w = (r, w') ∧ Ends x t w w' := by
  have general : ∃ r w', x.run (exceptException x t e) w = (r, w') ∧ Ends x t w w' := by
    rcases at_ with running | cancelled
    · obtain ⟨w', written, ends⟩ := terminalize_ends x (t := t) (w := w) .failed .failed
        (failedResult t e) (some e.text) (.inl running) rfl
        (by
          have reason := failedResult_reason t e
          constructor <;>
            rcases reason with reason | reason | reason <;>
              simp [failedResult_status, failedResult_taskId, reason, Task.enter])
        (by rw [running]; simp)
      refine ⟨.error e, w', ?_, ends⟩
      simp only [exceptException, Prog.bind_eq, Executor.run_bind, Executor.run_readStatus,
        running]
      rw [if_neg (by decide)]
      simp only [Executor.run_bind, written, Prog.throw_eq, Executor.run_fail]
    · obtain ⟨w', written, ends⟩ := exceptCancelled_ends x (t := t) (.inr cancelled) e
      refine ⟨.error (cancelledError t), w', ?_, ends⟩
      simp only [exceptException, Prog.bind_eq, Executor.run_bind, Executor.run_readStatus,
        cancelled]
      rw [if_pos (by decide)]
      simp only [Executor.run_bind, written, Prog.throw_eq, Executor.run_fail]
  cases e with
  | taskCancelled m =>
    obtain ⟨w', written, ends⟩ := exceptCancelled_ends x (t := t) at_ (.taskCancelled m)
    refine ⟨.error (.taskCancelled m), w', ?_, ends⟩
    simp only [handleError, exceptCancelled, Prog.bind_eq, Executor.run_bind, written,
      Prog.throw_eq, Executor.run_fail]
  | baseException | unprintable | unprintableCancelled | unreadable => cases ordinary
  | _ => exact general

/-- The `try` statement of an attempt ends it, for every ordinary end of the handler call. -/
theorem attempt_ends (running : w.status t = .running) (upstream : List TaskId)
    (ordinary : (x.behaviour t (w.callCount t)).outcome.isOrdinary = true) :
    ∃ r w', x.run ((attempt x t upstream).tryCatch (handleError x t)) w = (r, w') ∧
      Ends x t { w with calls := w.calls ++ [(t, upstream)] } w' := by
  obtain ⟨w₁, at_, ⟨task, rfl⟩, call⟩ := run_callHandler x running upstream
  cases outcome : (x.behaviour t (w.callCount t)).outcome with
  | raises e =>
    rw [outcome] at ordinary
    simp only [outcome] at call
    obtain ⟨r, w', handled, ends⟩ := handleError_ends x at_ (e := e) ordinary
    refine ⟨r, w', ?_, ends.of_setTask⟩
    simp only [Executor.run_tryCatch, attempt, Prog.bind_eq, Executor.run_bind, call, handled]
  | returns raw =>
    simp only [outcome] at call
    rcases at_ with running' | cancelled
    · obtain ⟨w', written, ends⟩ := terminalize_ends x .succeeded .succeeded
        (TaskResult.fromRaw t raw .succeeded) none (.inl running') rfl
        (by constructor <;> simp [Task.enter]) (by rw [running']; simp)
      refine ⟨.ok (TaskResult.fromRaw t raw .succeeded), w', ?_, ends.of_setTask⟩
      simp only [Executor.run_tryCatch, attempt, Prog.bind_eq, Executor.run_bind, call,
        raiseIfCancelled, Executor.run_readStatus, running']
      rw [if_neg (by decide)]
      simp only [Prog.pure_eq, Executor.run_ret, written]
    · obtain ⟨w', written, ends⟩ := exceptCancelled_ends x (t := t) (.inr cancelled)
        (cancelledError t)
      refine ⟨.error (cancelledError t), w', ?_, ends.of_setTask⟩
      simp only [Executor.run_tryCatch, attempt, Prog.bind_eq, Executor.run_bind, call,
        raiseIfCancelled, Executor.run_readStatus, cancelled]
      rw [if_pos (by decide)]
      simp only [Prog.throw_eq, Executor.run_fail, handleError, cancelledError, exceptCancelled,
        Prog.bind_eq, Executor.run_bind] at written ⊢
      simp only [written]

end Attempt

/-! ## A whole execution -/

/-- The events of one execution attempt: exactly one terminal event, after STARTED where a handler
is registered. -/
def AttemptEvents (registered : Bool) (events : List TaskEvent) : Prop :=
  ∃ last : TaskEvent, (last.type = .succeeded ∨ last.type = .failed ∨ last.type = .cancelled) ∧
    if registered then ∃ started : TaskEvent, started.type = .started ∧ events = [started, last]
    else events = [last]

section Execute

variable (x : Executor) {t : TaskId} {w : World}

/-- A task that may not start is refused, and nothing has happened. -/
theorem run_executeOnce_rejected (rejected : (w.status t).canTransitionTo .running = false)
    (upstream : List TaskId) :
    ∃ m, x.run (executeOnce x t upstream) w = (.error (.valueError m), w) := by
  refine ⟨"Cannot execute task with status '" ++ (w.status t).value ++ "'", ?_⟩
  simp [executeOnce, Executor.run_bind, rejected]

/-- An attempt on a task type without a handler: FAILED, by way of RUNNING where FAILED cannot be
entered directly. -/
theorem run_missingHandler (startable : (w.status t).canTransitionTo .running = true)
    (type : TaskType) :
    ∃ (m : String) (task : Task), Settled t task ∧ task.status = .failed ∧
      x.run (missingHandler x t type) w = (.error (.valueError m),
        (w.setTask t task).emitted x t .failed (some (w.status t)) (some m)) := by
  let m := "No handler registered for task type '" ++ type.value ++ "'"
  let result : TaskResult :=
    { taskId := t, status := .failed, error := some m, terminationReason := some .handler }
  have written : ∀ w' : World, (w'.status t).canTransitionTo .failed = true →
      w'.status t ≠ .failed → ∃ task : Task, Settled t task ∧ task.status = .failed ∧
        x.run (terminalize x t result .failed (w.status t) .failed (some m)) w' =
          (.ok (), (w'.setTask t task).emitted x t .failed (some (w.status t)) (some m)) := by
    intro w' allowed other
    refine ⟨_, ?_, rfl, Executor.run_terminalize_of_allowed x allowed other result _ _ _⟩
    constructor <;> simp [result, Task.enter]
  refine ⟨m, ?_⟩
  cases direct : (w.status t).canTransitionTo .failed with
  | true =>
    have other : w.status t ≠ .failed := by
      intro h; rw [h] at direct; exact absurd direct (by decide)
    obtain ⟨task, settled, failed, ran⟩ := written w direct other
    refine ⟨task, settled, failed, ?_⟩
    simp [missingHandler, Executor.run_bind, direct, m, result] at ran ⊢
    simp [ran]
  | false =>
    have moved := Executor.run_transitionTo_of_allowed x startable none
    obtain ⟨task, settled, failed, ran⟩ := written
      (w.setTask t ((w.tasks t).enter .running none)) (by simp; decide) (by simp)
    refine ⟨task, settled, failed, ?_⟩
    simp [missingHandler, Executor.run_bind, direct, m, result, moved] at ran ⊢
    simp [ran]

/-- STARTED and then the end of the attempt. -/
theorem ends_advances {x : Executor} {w' : World} (open_ : (w.status t).isSink = false)
    {upstream : List TaskId}
    (ends : Ends x t
      (let w₁ := (w.setTask t ((w.tasks t).enter .running none)).emitted x t .started
        (some (w.status t)) none
      { w₁ with calls := w₁.calls ++ [(t, upstream)] }) w') :
    Advances x.Saves t w w' ∧ ∃ new, w'.events t = w.events t ++ new ∧
      AttemptEvents true (new.map Delivery.event) := by
  obtain ⟨settled, task, type, error, terminal, named, rfl⟩ := ends
  let w₀ := w.setTask t ((w.tasks t).enter .running none)
  let w₁ : World := { w₀.emitted x t .started (some (w.status t)) none with
    calls := (w₀.emitted x t .started (some (w.status t)) none).calls ++ [(t, upstream)] }
  let started := w₀.announcement x t .started (some (w.status t)) none
  let ended := (w₁.setTask t task).announcement x t type (some .running) error
  have events : ((w₁.setTask t task).emitted x t type (some .running) error).events t =
      w.events t ++ [started, ended] := by
    rw [World.emitted_events _ x t named, World.setTask_events]
    show (w₀.emitted x t .started (some (w.status t)) none).events t ++ [ended] = _
    rw [World.emitted_events w₀ x t (s := .running) rfl]
    simp [w₀, started]
  have settled' : Settled t task := by simpa using settled
  refine ⟨⟨by simpa [World.status] using settled'.notRunning, fun _ => settled, _, events, ?_, ?_⟩,
    _, events, ended.event, terminal, started.event, rfl, rfl⟩
  · refine .cons rfl open_ (by simp [w₀, started, World.announcement, TaskEventType.status]) ?_
    refine .cons ?_ ?_ (by simp [ended, World.announcement, named]) ?_
    · simp [w₀, started, ended, World.announcement]
    · simp [w₀, started, World.announcement, TaskStatus.isSink]
    · rw [show ((w₁.setTask t task).emitted x t type (some .running) error).status t =
        ended.event.status by simp [ended, World.announcement, World.status]]
      exact .nil _
  · intro saves d hd
    rcases List.mem_cons.mp hd with rfl | hd
    · exact announcement_stored saves w₀ t _ _ _
    · rw [List.mem_singleton] at hd
      subst hd
      exact announcement_stored saves (w₁.setTask t task) t _ _ _

/-- An attempt that is not rejected advances its task by the events of one attempt. -/
theorem executeOnce_attempts (startable : (w.status t).canTransitionTo .running = true)
    (upstream : List TaskId) (ordinary : x.handlers (w.tasks t).type = true →
      (x.behaviour t (w.callCount t)).outcome.isOrdinary = true) :
    Advances x.Saves t w (x.after (executeOnce x t upstream) w) ∧
      ∃ new, (x.after (executeOnce x t upstream) w).events t = w.events t ++ new ∧
        AttemptEvents (x.handlers (w.tasks t).type) (new.map Delivery.event) := by
  have open_ : (w.status t).isSink = false := by
    cases h : w.status t <;> simp_all [TaskStatus.isSink, TaskStatus.canTransitionTo,
      TaskStatus.allowedTransitions]
  cases registered : x.handlers (w.tasks t).type with
  | false =>
    obtain ⟨m, task, settled, failed, ran⟩ :=
      run_missingHandler x startable (w.tasks t).type
    have after : x.after (executeOnce x t upstream) w =
        (w.setTask t task).emitted x t .failed (some (w.status t)) (some m) := by
      simp [Executor.after, executeOnce, Executor.run_bind, startable, registered, ran]
    rw [after]
    refine ⟨advances_announced x open_ settled.notRunning (fun _ => settled)
      (by rw [failed]; rfl) _, [_], World.emitted_events _ x t rfl _ _, ?_⟩
    exact ⟨_, .inr (.inl rfl), rfl⟩
  | true =>
    have moved := Executor.run_transitionTo_of_allowed x startable none
    obtain ⟨r, w', ran, ends⟩ := attempt_ends x (t := t)
      (w := (w.setTask t ((w.tasks t).enter .running none)).emitted x t .started
        (some (w.status t)) none) (by simp [World.status]) upstream
      (by simpa [World.callCount] using ordinary registered)
    have after : x.after (executeOnce x t upstream) w = w' := by
      simp only [Executor.after, executeOnce, Prog.bind_eq, Executor.run_bind,
        Executor.run_readStatus, Executor.run_readType, startable, registered, Bool.not_true,
        Bool.false_eq_true, if_false, moved, Executor.run_emit, Prog.tryCatch_eq, ran]
    rw [after]
    exact ends_advances open_ ends

/-- `_execute_once` from one status that is not RUNNING to the next. -/
theorem executeOnce_advances (notRunning : w.status t ≠ .running) (upstream : List TaskId)
    (ordinary : ∀ n, (x.behaviour t n).outcome.isOrdinary = true) :
    Advances x.Saves t w (x.after (executeOnce x t upstream) w) := by
  cases startable : (w.status t).canTransitionTo .running with
  | false =>
    obtain ⟨m, rejected⟩ := run_executeOnce_rejected x startable upstream
    rw [Executor.after, rejected]
    exact .refl notRunning
  | true => exact (executeOnce_attempts x startable upstream fun _ => ordinary _).1

/-- Between two attempts the retry loop only looks at the task. -/
theorem run_afterFailure (policy : RetryPolicy) (last : Bool) (e : Exc) :
    ∃ r, x.run (afterFailure policy t last e) w = (r, w) := by
  cases e <;> unfold afterFailure
  case taskCancelled m => exact ⟨_, rfl⟩
  case unprintableCancelled raised => exact ⟨_, rfl⟩
  case baseException m => exact ⟨_, rfl⟩
  all_goals
    simp only [Prog.bind_eq, Executor.run_bind, Executor.run_readStatus]
    split
    · exact ⟨_, rfl⟩
    · split
      · exact ⟨_, rfl⟩
      · simp only [Executor.run_bind, Executor.run_readStatus]
        split
        · exact ⟨_, rfl⟩
        · split <;> simp only [Executor.run_bind, Executor.run_readStatus, Executor.run_sleep] <;>
            split <;> exact ⟨_, rfl⟩

/-- By induction on the attempts left: each attempt advances the task, and so does the rest of the
loop after it. -/
theorem retryLoop_advances (policy : RetryPolicy) (upstream : List TaskId)
    (ordinary : ∀ n, (x.behaviour t n).outcome.isOrdinary = true) (n : Nat)
    (notRunning : w.status t ≠ .running) :
    Advances x.Saves t w (x.after (retryLoop x policy t upstream n) w) := by
  induction n generalizing w with
  | zero => exact .refl notRunning
  | succ n ih =>
    have once := executeOnce_advances x notRunning upstream ordinary
    unfold Executor.after at once ih ⊢
    simp only [retryLoop, Prog.tryCatch_eq, Executor.run_tryCatch]
    obtain ⟨r, ran⟩ : ∃ r, x.run (executeOnce x t upstream) w = r := ⟨_, rfl⟩
    rw [ran] at once ⊢
    obtain ⟨r | e, w'⟩ := r
    · obtain ⟨r', looked⟩ := run_afterFailure x (t := t) (w := w') policy (n == 0) r
      simp only [Prog.bind_eq, Executor.run_bind, looked]
      cases r' with
      | error e => exact once
      | ok u => exact once.trans (ih once.notRunning)
    · exact once

/-- `execute` with all its attempts, from one status that is not RUNNING to the next. -/
theorem execute_advances (notRunning : w.status t ≠ .running) (upstream : List TaskId)
    (policy : RetryPolicy) (ordinary : ∀ n, (x.behaviour t n).outcome.isOrdinary = true) :
    Advances x.Saves t w (x.after (execute x t upstream policy) w) := by
  unfold execute
  split
  · exact executeOnce_advances x notRunning upstream ordinary
  · have read : ∀ f : TaskType → Exec TaskResult, x.after (readType t >>= f) w =
        x.after (f (w.tasks t).type) w := fun f => by
      simp [Executor.after, Executor.run_bind]
    rw [read]
    split
    · exact executeOnce_advances x notRunning upstream ordinary
    · exact retryLoop_advances x policy upstream ordinary _ notRunning

/-- Every complete operation advances a task that is not RUNNING. -/
theorem perform_advances {c : Call} (ordinary : c.Ordinary t)
    (notRunning : w.status t ≠ .running) :
    Advances c.executor.Saves t w (c.perform t w) := by
  obtain ⟨x, operation⟩ := c
  cases operation with
  | execute upstream policy => exact execute_advances x notRunning upstream policy ordinary
  | cancel => exact cancel_advances x notRunning
  | markBlocked parent => exact markBlocked_advances x notRunning parent

end Execute

end TTasks
