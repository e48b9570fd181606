import TTasks.Interleave.Duty
import TTasks.Laws.Scheduler.Blame
import TTasks.Laws.Scheduler.Workers

/-!
# Why a task is blocked

`mark_blocked` writes `blocked_by` directly after the transition to BLOCKED, so that when a run is
over every task that it has marked names a blocker (`named_of_halted`). With what `Blame` knows of
blockers this makes the names a trail: from a task that the run has marked, following `blocked_by`
from task to task comes, after finitely many, to the one task that is to blame, whose exception is in
`errors` or which entered the run CANCELLED (`blame_ends`).
-/

namespace TTasks

open Interleave
open Prog (Duty Dutiful)

/-- A transition to BLOCKED, or a note of what blocks the task. -/
def TaskOp.isMark : TaskOp → Bool
  | .transition _ .blocked _ | .setBlockedBy _ _ => true
  | _ => false

/-- Whether a transition to BLOCKED has been carried out. -/
def TaskOp.blocks : (o : TaskOp) → o.Ans → Bool
  | .transition _ .blocked _, answer =>
    match answer with
    | .ok _ => true
    | .error _ => false
  | _, _ => false

/-- The task that is marked is told its blocker next, and a blocker is always told. -/
def TaskOp.marking : Duty TaskOp.Ans where
  permits o := ∀ t, o ≠ .setBlockedBy t none
  arises o x := o.blocks x = true
  meets o o' := ∃ p, o' = .setBlockedBy o.task (some p)

/-! ## The executor's methods -/

section Methods

variable (x : Executor) (t : TaskId)

/-- What is not a mark leaves no duty. -/
theorem marking_free {o : TaskOp} (other : o.isMark = false) :
    TaskOp.marking.permits o ∧ ∀ a, ¬ TaskOp.marking.arises o a := by
  refine ⟨?_, fun a arises => ?_⟩
  · rintro u rfl
    cases other
  · have carried : o.blocks a = true := arises
    unfold TaskOp.blocks at carried
    split at carried
    · cases other
    · cases carried

/-- A transition to another status marks nothing. -/
theorem unmarked_transitionTo {status : TaskStatus} (other : status ≠ .blocked)
    (error : Option String) : (transitionTo t status error).Uses fun o => o.isMark = false := by
  refine .bind (.op ?_) fun answer => ?_
  · cases status with
    | blocked => exact absurd rfl other
    | _ => rfl
  · cases answer <;> trivial

/-- Saving marks nothing. -/
theorem unmarked_persist : (persist x t).Uses fun o => o.isMark = false := by
  unfold persist
  split
  · refine .tryCatch (.bind (.op rfl) fun answer => ?_) fun e => ?_
    · cases answer <;> trivial
    · exact .bind (.op rfl) fun _ => .bind (.op rfl) fun _ => .op rfl
  · trivial

/-- Emitting marks nothing. -/
theorem unmarked_emit (type : TaskEventType) (previous : Option TaskStatus)
    (error : Option String) : (emit x t type previous error).Uses fun o => o.isMark = false :=
  .bind (unmarked_persist x t) fun _ => .bind (.op rfl) fun _ => .op rfl

/-- Ending an attempt marks nothing. -/
theorem unmarked_terminalize (result : TaskResult) {status : TaskStatus} (other : status ≠ .blocked)
    (previous : TaskStatus) (type : TaskEventType) (error : Option String) :
    (terminalize x t result status previous type error).Uses fun o => o.isMark = false := by
  refine .bind (.op rfl) fun _ => .bind (.op rfl) fun current => ?_
  split
  · exact .bind (unmarked_transitionTo t other _) fun _ => unmarked_emit x t _ _ _
  · exact unmarked_emit x t _ _ _

/-- `cancel` marks nothing. -/
theorem unmarked_cancel : (cancel x t).Uses fun o => o.isMark = false := by
  refine .bind (.bind (.op rfl) fun status => ?_) fun previous => ?_
  · split
    · trivial
    · exact .bind (.op rfl) fun _ => trivial
  · cases previous with
    | none => trivial
    | some previous =>
      refine .bind (.bind (.op rfl) fun status => ?_) fun _ => ?_
      · split
        · trivial
        · exact .bind (.op rfl) fun _ => unmarked_transitionTo t (by simp) _
      · refine .bind (.op rfl) fun _ => ?_
        split
        · exact unmarked_terminalize x t _ (by simp) _ _ _
        · trivial

/-- A handler that cancels its own task marks nothing. -/
theorem unmarked_ownCancels : ∀ n, (ownCancels x t n).Uses fun o => o.isMark = false
  | 0 => trivial
  | n + 1 => .bind (unmarked_cancel x t) fun _ => unmarked_ownCancels n

/-- The except clauses mark nothing. -/
theorem unmarked_handleError (e : Exc) : (handleError x t e).Uses fun o => o.isMark = false := by
  have finishes : ∀ result {status : TaskStatus} (_ : status ≠ .blocked) previous type error e',
      ((terminalize x t result status previous type error).bind fun _ =>
        (.fail e' : Exec TaskResult)).Uses fun o => o.isMark = false :=
    fun _ _ other _ _ _ _ => .bind (unmarked_terminalize x t _ other _ _ _) fun _ => trivial
  have general : (exceptException x t e).Uses fun o => o.isMark = false := by
    refine .bind (.op rfl) fun status => ?_
    split
    · exact finishes _ (by simp) _ _ _ _
    · exact finishes _ (by simp) _ _ _ _
  cases e with
  | taskCancelled m => exact finishes _ (by simp) _ _ _ _
  | baseException | unprintableCancelled => trivial
  | unprintable raised => exact .bind (.op rfl) fun _ => trivial
  | unreadable m raised =>
    refine .bind (.op rfl) fun status => ?_
    split
    · exact finishes _ (by simp) _ _ _ _
    · trivial
  | _ => exact general

/-- An attempt marks nothing. -/
theorem unmarked_attempt (upstream : List TaskId) :
    (attempt x t upstream).Uses fun o => o.isMark = false := by
  refine .bind (.bind (.op rfl) fun call => .bind (unmarked_ownCancels x t _) fun _ => ?_)
    fun raw => ?_
  · split <;> trivial
  · refine .bind (.bind (.op rfl) fun status => ?_) fun _ => ?_
    · split <;> trivial
    · exact .bind (unmarked_terminalize x t _ (by simp) _ _ _) fun _ => trivial

/-- `_execute_once` marks nothing. -/
theorem unmarked_executeOnce (upstream : List TaskId) :
    (executeOnce x t upstream).Uses fun o => o.isMark = false := by
  refine .bind (.op rfl) fun status => ?_
  split
  · exact .bind (.op rfl) fun _ => trivial
  · refine .bind (.op rfl) fun type => ?_
    split
    · refine .bind (.op rfl) fun _ => .bind (.op rfl) fun current => ?_
      split
      · exact .bind (unmarked_transitionTo t (by simp) _) fun _ =>
          .bind (unmarked_terminalize x t _ (by simp) _ _ _) fun _ => trivial
      · exact .bind (unmarked_terminalize x t _ (by simp) _ _ _) fun _ => trivial
    · refine .bind (.op rfl) fun _ => .bind (unmarked_transitionTo t (by simp) _) fun _ => ?_
      exact .bind (unmarked_emit x t _ _ _) fun _ =>
        .tryCatch (unmarked_attempt x t upstream) (unmarked_handleError x t)

/-- `mark_blocked` writes the blocker directly after the transition. -/
theorem dutiful_markBlocked (parent : TaskId) :
    (markBlocked x t (some parent)).Dutiful TaskOp.marking := by
  have rest : (setBlockedBy t (some parent)).Dutiful TaskOp.marking :=
    .op (by intro u; simp) (by simp [TaskOp.marking, TaskOp.blocks])
  refine .bind (.op (marking_free rfl).1 (marking_free rfl).2) fun previous => ?_
  refine ⟨by intro u; simp, fun answer => ?_⟩
  cases answer with
  | error e => exact ⟨by simp [TaskOp.marking, TaskOp.blocks], trivial⟩
  | ok _ =>
    refine ⟨fun _ => ⟨_, rfl, parent, rfl⟩, ?_⟩
    exact rest.bind fun _ => .of_uses (fun _ => marking_free) (unmarked_emit x t _ _ _)

end Methods

namespace Scheduler

/-! ## The threads of a run -/

/-- The same of the operations of the threads. -/
def marking : Duty SchedOp.Ans where
  permits o := ∀ o', o = .task o' → TaskOp.marking.permits o'
  arises
    | .task o, x => TaskOp.marking.arises o x
    | _, _ => False
  meets o o' := ∃ p q, o = .task p ∧ o' = .task q ∧ TaskOp.marking.meets p q

section Walk

variable (r : Run)

/-- The executor's methods are as dutiful inside the scheduler. -/
theorem dutiful_liftTask {α : Type} {p : Exec α} (h : p.Dutiful TaskOp.marking) :
    (liftTask p).Dutiful marking := by
  refine h.lift ?_ (fun _ _ => id) fun o o' meets => ⟨o, o', rfl, rfl, meets⟩
  rintro o permitted o' ⟨⟩
  exact permitted

/-- The scheduler's own operations mark nothing. -/
theorem marking_internal {o : SchedOp} (internal : Internal o) :
    marking.permits o ∧ ∀ x, ¬ marking.arises o x := by
  cases o with
  | task o =>
    cases o with
    | status u =>
      refine ⟨?_, fun _ => (marking_free rfl).2 _⟩
      rintro o' ⟨⟩
      exact (marking_free rfl).1
    | _ => exact internal.elim
  | start u => exact internal.elim
  | finish u e => exact internal.elim
  | _ => exact ⟨fun o' is => (by cases is), fun _ => id⟩

/-- One operation of the scheduler's own. -/
theorem dutiful_once (o : SchedOp) (internal : Internal o) : (once o).Dutiful marking :=
  .op (marking_internal internal).1 (marking_internal internal).2

/-- A predicate of the scheduler marks nothing. -/
theorem dutiful_only {α : Type} {p : Sched α} {P : SchedOp → Prop} (only : p.Only P)
    (inner : ∀ o, P o → Inner o) : p.Dutiful marking :=
  .of_uses (fun o ho => marking_internal (internal_of_inner (inner o ho))) (.of_only only)

/-- The callback of a future is as dutiful as the `schedule` it calls. -/
theorem dutiful_onFinish {schedule : Sched Unit} (h : schedule.Dutiful marking) (t : TaskId) :
    (onFinish schedule t).Dutiful marking :=
  (dutiful_once (.recordException t) trivial).bind fun _ => h

/-- Acting on a decision: only the marking has a duty, and `mark_blocked` meets it. -/
theorem dutiful_act {schedule : Sched Unit} (h : schedule.Dutiful marking) (t : TaskId)
    (decision : Decision) : (act r schedule t decision).Dutiful marking := by
  cases decision with
  | skip => exact .ret _
  | block bad =>
    exact (dutiful_liftTask (dutiful_markBlocked r.executor t bad)).bind fun _ => .ret _
  | submit =>
    refine .bind (.bind (dutiful_once (.poolSubmit t (r.graph.deps t)) trivial) fun answer => ?_)
      fun _ => .ret _
    cases answer with
    | error e => exact .fail e
    | ok _ =>
      refine .bind (dutiful_once (.addDoneCallback t) trivial) fun done => ?_
      split
      · exact (dutiful_onFinish h t).swallow
      · exact .ret ()

/-- One pass over the tasks is dutiful, action by action. -/
theorem dutiful_pass {schedule : Sched Unit} (h : schedule.Dutiful marking) :
    ∀ (ts : List TaskId) (changed : Bool), (pass r schedule changed ts).Dutiful marking
  | [], changed => .ret changed
  | t :: ts, changed => by
    refine .bind (dutiful_only (only_decide t) fun _ looks => inner_of_reads looks.reads)
      fun decision => ?_
    exact .bind (dutiful_act r h t decision) fun acted => dutiful_pass h ts _

/-- Closing the run marks nothing. -/
theorem dutiful_close : (close r).Dutiful marking := by
  have tested : (Prog.all finished r.graph.keys).Dutiful marking :=
    dutiful_only (.all (fun _ => only_finished (P := Reads) trivial trivial trivial) _)
      fun _ => inner_of_reads
  have live : ∀ ts, (Prog.any (fun t => once (.live t)) ts).Dutiful marking := by
    intro ts
    induction ts with
    | nil => exact .ret _
    | cons t ts ih =>
      refine .bind (dutiful_once (.live t) trivial) fun found => ?_
      split
      · exact .ret _
      · exact ih
  refine .bind tested fun all => ?_
  split
  · exact dutiful_once .setDone trivial
  · refine .bind (dutiful_once .futures trivial) fun futures => .bind (live futures) fun found => ?_
    split
    · exact .ret ()
    · refine .bind (dutiful_only (only_stuck _) fun _ => inner_of_reads) fun titles => ?_
      exact .bind (dutiful_once (.appendError _) trivial) fun _ => dutiful_once .setDone trivial

/-- Counting a call of `schedule` in and out marks nothing. -/
theorem dutiful_inSchedule {body : Sched Unit} (h : body.Dutiful marking) :
    (inSchedule body).Dutiful marking :=
  (dutiful_once .beginSchedule trivial).bind fun _ =>
    h.finallyDo (dutiful_once .endSchedule trivial)

/-- The loop of `schedule` is dutiful, round by round. -/
theorem dutiful_scheduleLoop : ∀ n, (scheduleLoop r n).Dutiful marking
  | 0 => dutiful_once .outOfFuel trivial
  | n + 1 => by
    refine .bind (dutiful_pass r (dutiful_inSchedule (dutiful_scheduleLoop n)) _ _)
      fun changed => ?_
    split
    · exact dutiful_scheduleLoop n
    · exact dutiful_close r

/-- Taking and releasing the lock marks nothing. -/
theorem dutiful_withLock {body : Sched Unit} (h : body.Dutiful marking) :
    (withLock body).Dutiful marking :=
  (dutiful_once .acquire trivial).bind fun _ => h.finallyDo (dutiful_once .release trivial)

/-- Every thread of a run writes a blocker directly after a mark. -/
theorem dutiful_start (who : Who) : ((start r).rest who).Dutiful marking := by
  have schedules : (schedule r).Dutiful marking := dutiful_inSchedule (dutiful_scheduleLoop r _)
  cases who with
  | main =>
    show (main r).Dutiful marking
    unfold main
    split
    · exact .ret ()
    · refine .bind (.finallyDo ?_ ?_) fun _ => .bind (dutiful_once .schedulerErrors trivial) ?_
      · exact (dutiful_withLock schedules).bind fun _ => dutiful_once .waitDone trivial
      · exact (dutiful_once .shutdown trivial).bind fun _ => dutiful_once .join trivial
      · intro errors
        cases errors with
        | nil => exact .ret ()
        | cons e es => exact .fail e
  | worker t =>
    have executes : ∀ upstream, (liftTask (execute r.executor t upstream)).Dutiful marking :=
      fun upstream => dutiful_liftTask
        (.of_uses (fun _ => marking_free) (unmarked_executeOnce r.executor t upstream))
    have plain : ∀ o : SchedOp, (∀ o', o ≠ .task o') → (once o).Dutiful marking := by
      intro o other
      refine .op (fun o' is => absurd is (other o')) fun x => ?_
      cases o with
      | task o => exact absurd rfl (other o)
      | _ => exact id
    refine .bind (plain (.start t) (by simp)) fun upstream => ?_
    refine .bind (executes upstream).caught fun exception => ?_
    refine .bind (plain (.finish t exception) (by simp)) fun registered => ?_
    refine .bind ?_ fun _ => plain (.leave t) (by simp)
    unfold callbacks
    split
    · exact (dutiful_withLock (dutiful_onFinish schedules t)).swallow
    · exact .ret ()
  | outside i =>
    show (canceller r i).Dutiful marking
    unfold canceller
    split
    · exact dutiful_liftTask (.of_uses (fun _ => marking_free) (unmarked_cancel r.executor _))
    · exact .ret ()

end Walk

/-! ## Every mark names a blocker -/

section Named

variable {r : Run} {s s' : State} {t p : TaskId}

/-- A task that the run has marked says what blocks it. -/
def Named (r : Run) (s : Shared) (t : TaskId) : Prop :=
  NewlyBlocked r s t → ∃ p, (s.world.tasks t).blockedBy = some p

/-- Each thread is on its way to write the blocker of a task that it has marked, and all other
marked tasks are named. -/
structure Naming (r : Run) (s : State) : Prop where
  dutiful : ∀ who, (s.rest who).Dutiful marking
  named : ∀ t, Named r s.shared t ∨
    ∃ who p, (s.rest who).next = some (.task (.setBlockedBy t (some p)))

/-- Whatever is no carried-out mark leaves a named task named. -/
theorem perform_named (x : Executor) {o : TaskOp} {w : World}
    (other : ∀ message, o = .transition t .blocked message →
      o.blocks (o.perform x w).1 = false)
    (permits : TaskOp.marking.permits o) (blocked : (o.perform x w).2.status t = .blocked) :
    (∃ p, ((o.perform x w).2.tasks t).blockedBy = some p) ∨
      w.status t = .blocked ∧ ((o.perform x w).2.tasks t).blockedBy = (w.tasks t).blockedBy := by
  cases o with
  | transition u target message =>
    cases allowed : (w.status u).canTransitionTo target with
    | false =>
      obtain ⟨m, refused⟩ := TaskOp.perform_refused x allowed message
      rw [refused] at blocked ⊢
      exact .inr ⟨blocked, rfl⟩
    -- a transition that is carried out is not the mark of this task, so it is another's, or to
    -- another status
    | true =>
      have moved := TaskOp.perform_moved x allowed message
      rw [moved] at blocked ⊢
      rw [moved_status] at blocked
      by_cases same : t = u
      · subst same
        rw [if_pos rfl] at blocked
        subst blocked
        have none := other message rfl
        rw [moved] at none
        cases none
      · rw [if_neg same] at blocked
        rw [World.setTask_tasks, if_neg same]
        exact .inr ⟨blocked, rfl⟩
  -- the blocker is written for the task, and the marking writes no `None`
  | setBlockedBy u q =>
    by_cases same : t = u
    · subst same
      left
      cases q with
      | none => exact absurd rfl (permits t)
      | some p => exact ⟨p, by simp [TaskOp.perform, World.setTask_tasks]⟩
    · right
      simp only [TaskOp.perform, World.status, World.setTask_tasks, if_neg same] at blocked ⊢
      exact ⟨blocked, trivial⟩
  | setResult u result =>
    right
    by_cases same : t = u
    · subst same
      simp only [TaskOp.perform, World.status, World.setTask_tasks, if_true] at blocked ⊢
      exact ⟨blocked, trivial⟩
    · simp only [TaskOp.perform, World.status, World.setTask_tasks, if_neg same] at blocked ⊢
      exact ⟨blocked, trivial⟩
  | save u =>
    right
    simp only [TaskOp.perform] at blocked ⊢
    split at blocked <;> exact ⟨blocked, rfl⟩
  | _ => exact .inr ⟨blocked, rfl⟩

/-- One operation: the task is named as before, or the thread has marked it. -/
theorem Named.perform {a : Shared} {who : Who} {o : SchedOp} (named : Named r a t)
    (permits : marking.permits o) : Named r (SchedOp.perform r who o a).2 t ∨
      ∃ message, o = .task (.transition t .blocked message) ∧
        marking.arises o (SchedOp.perform r who o a).1 := by
  rcases perform_world r who o a with same | ⟨o', rfl, performs⟩
  · left
    unfold Named NewlyBlocked Shared.status
    rw [same]
    exact named
  · by_cases mark : ∃ message, o' = .transition t .blocked message ∧
        o'.blocks (o'.perform r.executor a.world).1 = true
    · obtain ⟨message, is, carried⟩ := mark
      exact .inr ⟨message, congrArg SchedOp.task is, carried⟩
    · left
      rintro ⟨blocked, entered⟩
      have other : ∀ message, o' = .transition t .blocked message →
          o'.blocks (o'.perform r.executor a.world).1 = false := by
        intro message is
        rw [← Bool.not_eq_true]
        exact fun carried => mark ⟨message, is, carried⟩
      rcases perform_named r.executor other (permits o' rfl) blocked with named | ⟨before, same⟩
      · exact named
      · obtain ⟨p, has⟩ := named ⟨before, entered⟩
        exact ⟨p, same.trans has⟩

/-- In every step the marked tasks keep their blockers, and a thread that has marked one is about to
write its blocker. -/
theorem Naming.step {who : Who} (naming : Naming r s) (moved : (machine r).step who s = some s') :
    Naming r s' := by
  obtain ⟨dutiful, o, next, shared, permits, meets, others⟩ :=
    Threads.dutiful_step naming.dutiful moved
  refine ⟨dutiful, fun t => ?_⟩
  rw [shared]
  rcases naming.named t with named | ⟨writer, p, writes⟩
  · refine (named.perform permits).imp_right fun ⟨message, is, arises⟩ => ?_
    obtain ⟨o', next', meets⟩ := meets arises
    obtain ⟨q, q', isq, rfl, p, rfl⟩ := meets
    rw [isq] at is
    cases is
    exact ⟨who, p, next'⟩
  · by_cases same : writer = who
    · subst same
      rw [writes] at next
      cases next
      left
      intro _
      exact ⟨p, by simp [SchedOp.perform, TaskOp.perform, World.setTask_tasks]⟩
    · exact .inr ⟨writer, p, by rw [others writer same]; exact writes⟩

/-- In every state of a run, whatever its steps are. -/
theorem naming_of_reaches {allow : State → Who → Prop} (run : (machine r).Reaches allow (start r) s) :
    Naming r s := by
  refine run.invariant ⟨dutiful_start r, fun t => .inl ?_⟩ fun _ _ _ naming _ moved =>
    naming.step moved
  rintro ⟨blocked, other⟩
  exact absurd blocked other

/-- When a run is over, every task that it has marked says what blocks it. -/
theorem named_of_halted (calm : r.cancels = []) (run : Reachable r anyTime s)
    (halted : ¬ (s.rest .main).Acting) (t : TaskId) : Named r s.shared t := by
  refine ((naming_of_reaches run).named t).resolve_right ?_
  rintro ⟨who, p, next⟩
  cases rest : s.rest who with
  | act o k =>
    rw [rest] at next
    cases next
    have able : ∃ s', (machine r).step who s = some s' := by
      simp only [machine, Threads.machine, Threads.perform, rest]
      exact ⟨_, rfl⟩
    obtain ⟨s', moved⟩ := able
    refine still_of_halted (M := Mode.anyTime calm) calm run halted ⟨who, fun o' k' next' => ?_, moved⟩
    rw [rest] at next'
    cases next'
    exact ⟨rfl, trivial⟩
  | ret a => rw [rest] at next; cases next
  | fail e => rw [rest] at next; cases next

end Named

/-! ## The trail of blockers -/

section Trail

variable {r : Run} {s : Shared} {t p c : TaskId}

/-- The run has marked the first task, and says that the second blocks it. -/
structure Points (r : Run) (s : Shared) (t p : TaskId) : Prop where
  marked : NewlyBlocked r s t
  names : (s.world.tasks t).blockedBy = some p
  parent : p ∈ r.graph.deps t

/-- The run has executed the task and kept its exception, or the task entered CANCELLED. -/
def Cause (r : Run) (s : Shared) (c : TaskId) : Prop :=
  (s.errors c).isSome = true ∨ ¬ Submitted s c ∧ entered r c = .cancelled

/-- What is past hope and has not been marked is a cause. -/
theorem cause_of_hopeless (closed : Closed r s) (core : Core r s) (hopeless : Hopeless r s c)
    (unmarked : ¬ NewlyBlocked r s c) : Cause r s c := by
  obtain ⟨fixed, bad⟩ := hopeless
  by_cases absent : s.stage c = .absent
  · right
    refine ⟨fun submitted => (submitted_iff closed.coherent).mp submitted absent, ?_⟩
    have same : s.status c = entered r c := by
      refine (core.absent c absent).resolve_right fun marked => unmarked ⟨marked.blocked, ?_⟩
      rw [marked.pending]
      decide
    rcases fixed with done | sink | ⟨-, blocked, pending⟩
    · rw [absent] at done
      cases done
    · rw [same] at sink bad
      revert sink bad
      cases entered r c <;> decide
    · rw [same, pending] at blocked
      cases blocked
  · left
    obtain ⟨ended, failed⟩ := closed.executed core absent
    rw [ended] at bad
    exact failed.mpr bad

/-- A task that the run has marked is no cause. -/
theorem not_marked_of_cause (closed : Closed r s) (core : Core r s) (cause : Cause r s c) :
    ¬ NewlyBlocked r s c := by
  intro marked
  obtain ⟨absent, marks⟩ := marked_of_newlyBlocked core marked
  rcases cause with error | ⟨-, cancelled⟩
  · rw [closed.no_error absent] at error
    cases error
  · rw [marks.pending] at cancelled
    cases cancelled

/-- Every trail from a task leads to the same end. -/
theorem cause_unique {d : TaskId} (first : Relation.ReflTransGen (Points r s) t c)
    (second : Relation.ReflTransGen (Points r s) t d) (ends : ¬ NewlyBlocked r s c)
    (ends' : ¬ NewlyBlocked r s d) : c = d := by
  have one : Relator.RightUnique (Points r s) := fun a b b' h h' =>
    Option.some.inj (h.names.symm.trans h'.names)
  have stuck : ∀ {a b}, ¬ NewlyBlocked r s a → Relation.ReflTransGen (Points r s) a b → b = a := by
    intro a b halted trail
    rcases Relation.ReflTransGen.cases_head trail with rfl | ⟨x, points, -⟩
    · rfl
    · exact absurd points.marked halted
  rcases Relation.ReflTransGen.total_of_right_unique one first second with further | further
  · exact (stuck ends further).symm
  · exact stuck ends' further

end Trail

/-- When a run that nobody cancelled from outside is over, `blocked_by` explains every task that the
run has marked BLOCKED: it names a dependency, and followed from task to task it leads, by way of
marked tasks only, to exactly one that the run has not marked. That one was executed and its
exception is in `errors`, or it entered the run CANCELLED. No task may enter with a blocker but a
BLOCKED or CANCELLED one, as no operation leaves one otherwise. -/
theorem blame_ends (r : Run) (calm : r.cancels = []) (validates : r.graph.validate r.world = .ok ())
    (entry : ∀ t ∈ r.graph.keys, ∀ p, (r.world.tasks t).blockedBy = some p →
      entered r t = .blocked ∨ entered r t = .cancelled)
    {s : State} (run : Reachable r anyTime s) (halted : ¬ (s.rest .main).Acting) :
    ∀ t ∈ r.graph.keys, NewlyBlocked r s.shared t →
      ∃ c, Relation.TransGen (Points r s.shared) t c ∧ Cause r s.shared c ∧
        ∀ d, Relation.ReflTransGen (Points r s.shared) t d → ¬ NewlyBlocked r s.shared d → d = c := by
  have sound : Sound (Mode.anyTime calm) s := sound_of_reachable run
  have core := sound.inv.core calm
  have closed := closed_of_halted sound halted
  have accounted := accounted_of_reachable calm entry run
  obtain ⟨l, sorted, mem, -⟩ := (TaskGraph.valid_of_validate validates).order
  -- one step of the trail, from a task that the run has marked
  have points : ∀ t ∈ r.graph.keys, NewlyBlocked r s.shared t →
      ∃ p, Points r s.shared t p ∧ Hopeless r s.shared p := by
    intro t key marked
    obtain ⟨p, names⟩ := named_of_halted calm run halted t marked
    rcases accounted t key p names with ⟨carried, -⟩ | blames
    · have pending := (marked_of_newlyBlocked core marked).2.pending
      rcases entry t key p carried with h | h
      · rw [pending] at h; cases h
      · rw [pending] at h; cases h
    · exact ⟨p, ⟨marked, names, blames.parent⟩, blames.hopeless⟩
  have trail : ∀ t ∈ l, NewlyBlocked r s.shared t →
      ∃ c, Relation.TransGen (Points r s.shared) t c ∧ Cause r s.shared c := by
    refine sorted.induction fun t ht below marked => ?_
    obtain ⟨p, points, hopeless⟩ := points t ((mem t).mp ht) marked
    by_cases further : NewlyBlocked r s.shared p
    · obtain ⟨c, rest, cause⟩ := below p points.parent further
      exact ⟨c, .head points rest, cause⟩
    · exact ⟨p, .single points, cause_of_hopeless closed core hopeless further⟩
  intro t key marked
  obtain ⟨c, leads, cause⟩ := trail t ((mem t).mpr key) marked
  refine ⟨c, leads, cause, fun d leads' ends => ?_⟩
  exact cause_unique leads' leads.to_reflTransGen ends (not_marked_of_cause closed core cause)

/-- `a` fails, and `b` needs it. -/
def failing : Run where
  graph := pair
  executor :=
    { handlers := fun _ => true
      behaviour := fun _ _ => { outcome := .raises (.exception "e") } }
  world := { tasks := fun _ => {} }

/-- `b` is marked because of `a`, whose handler raises; the main thread has returned. -/
theorem blame_ends_failing : ∃ s, Reachable failing anyTime s ∧ ¬ (s.rest .main).Acting ∧
    NewlyBlocked failing s.shared "b" ∧
      ∃ c, Relation.TransGen (Points failing s.shared) "b" c ∧ Cause failing s.shared c := by
  have ran : ∃ s ∈ (machine failing).exec (Steps failing anyTime)
      (List.replicate 28 .main ++ List.replicate 41 (.worker "a") ++ List.replicate 4 .main)
      (start failing), ¬ (s.rest .main).Acting ∧ s.shared.status "b" = .blocked := by
    decide +kernel
  obtain ⟨s, hs, halted, blocked⟩ := ran
  have reachable := Machine.reaches_of_exec hs
  have marked : NewlyBlocked failing s.shared "b" := ⟨blocked, by simp [entered, failing, World.status]⟩
  obtain ⟨c, leads, cause, -⟩ := blame_ends failing rfl rfl (fun _ _ _ has => (by cases has)) reachable
    halted "b" (by decide) marked
  exact ⟨s, reachable, halted, marked, c, leads, cause⟩

end Scheduler

end TTasks
