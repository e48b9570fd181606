import TTasks.Laws.Observers.Methods
import TTasks.Laws.Scheduler.Schedule

/-!
# The threads of a run are the bare ones with saves put in

The scheduler looks at nothing that a save leaves, so its programs are the same with a store and
without, but for the methods of the executor in them; `run` has the saves of the graph beside these.
-/

namespace TTasks

open Interleave
open Prog (Detours)

/-! ## The scheduler -/

namespace Scheduler

/-- The run with its executor's store left out. -/
def Run.bare (r : Run) : Run := { r with executor := r.executor.bare }

/-- The scheduler's operations that are on the way with and without observers. -/
def SchedOp.OnWay : SchedOp → Prop
  | .task o => o.OnWay
  | _ => True

/-- An auto-save, called by a thread of the run. -/
def IsSave (x : Executor) (b : Sched Unit) : Prop := ∃ c, TTasks.IsSave x c ∧ b = liftTask c

/-- A save never raises: `_persist` swallows what it raises. -/
theorem save_total {x : Executor} (b : Sched Unit) (save : IsSave x b) : b.Total := by
  obtain ⟨c, save, rfl⟩ := save
  exact (persist_total c save).lift fun _ _ => trivial

variable (r : Run)

/-- The programs with saves and without. -/
abbrev Detoured {α : Type} (p p' : Sched α) : Prop :=
  Detours (IsSave r.executor) SchedOp.OnWay p p'

variable {r}

/-- What decisions look at is on the way. -/
theorem Looks.onWay {o : SchedOp} (h : Looks o) : o.OnWay := by
  cases o with
  | task o =>
    cases o with
    | status _ => trivial
    | _ => exact h.elim
  | _ => trivial

/-- What a thread reads is on the way. -/
theorem Reads.onWay {o : SchedOp} (h : Reads o) : o.OnWay := by
  cases o with
  | task o =>
    cases o with
    | status _ => trivial
    | _ => exact h.elim
  | _ => trivial

/-- A program of reads takes no detour. -/
theorem detoured_reads {α : Type} {p : Sched α} (only : p.Only Reads) : Detoured r p p :=
  .refl (.mono (fun _ => Reads.onWay) (.of_only only))

/-- A program that only looks takes no detour. -/
theorem detoured_looks {α : Type} {p : Sched α} (only : p.Only Looks) : Detoured r p p :=
  .refl (.mono (fun _ => Looks.onWay) (.of_only only))

/-- One operation on the way is no detour. -/
theorem detoured_once {o : SchedOp} (onWay : o.OnWay) : Detoured r (once o) (once o) :=
  .act onWay fun _ => .ret _

/-- The executor's methods take their detours inside the scheduler's as well. -/
theorem detoured_liftTask {α : Type} {p p' : Exec α} (h : TTasks.Detoured r.executor p p') :
    Detoured r (liftTask p) (liftTask p') :=
  h.lift (fun b save => ⟨b, save, rfl⟩) fun _ onWay => onWay

/-- The callback of a future takes the detours of the `schedule` it calls. -/
theorem detoured_onFinish {schedule schedule' : Sched Unit} (h : Detoured r schedule schedule')
    (t : TaskId) : Detoured r (onFinish schedule t) (onFinish schedule' t) :=
  .bind (detoured_once trivial) fun _ => h

/-- Acting on a decision takes the detours of the marking's save and of the worker's `schedule`. -/
theorem detoured_act {schedule schedule' : Sched Unit} (h : Detoured r schedule schedule') (t : TaskId)
    (decision : Decision) : Detoured r (act r schedule t decision) (act r.bare schedule' t decision) := by
  cases decision with
  | skip => exact .ret _
  | block bad => exact .bind (detoured_liftTask (detoured_markBlocked _)) fun _ => .ret _
  | submit =>
    refine .bind (.bind (detoured_once trivial) fun answer => ?_) fun _ => .ret _
    rcases answer with e | ⟨⟨⟩⟩
    · exact .fail _
    · refine .bind (detoured_once trivial) fun now => ?_
      cases now with
      | true => exact (detoured_onFinish h t).swallow save_total
      | false => exact .ret _

/-- `first_bad_parent` reads nothing of the observers. -/
theorem firstBadParent_bare : ∀ ds : List TaskId, firstBadParent r.bare ds = firstBadParent r ds
  | [] => rfl
  | d :: ds => by
    unfold firstBadParent
    rw [firstBadParent_bare ds]
    rfl

/-- A decision reads nothing of the observers. -/
theorem decide_bare (t : TaskId) : decide r.bare t = decide r t := by
  unfold decide
  rw [firstBadParent_bare]
  rfl

/-- One pass over the tasks takes the detours of its actions. -/
theorem detoured_pass {schedule schedule' : Sched Unit} (h : Detoured r schedule schedule') :
    ∀ (ts : List TaskId) (changed : Bool),
      Detoured r (pass r schedule changed ts) (pass r.bare schedule' changed ts)
  | [], _ => .ret _
  | t :: ts, _ => by
    refine .bind ?_ fun decision => .bind (detoured_act h t decision) fun _ => detoured_pass h ts _
    rw [decide_bare]
    exact detoured_looks (only_decide t)

/-- Closing the run takes the detours of the markings that it saves. -/
theorem detoured_close : Detoured r (close r) (close r.bare) := by
  refine .bind (detoured_reads (.all (fun _ => only_finished trivial trivial trivial) _))
    fun complete => ?_
  cases complete with
  | true => exact detoured_once trivial
  | false =>
    refine .bind (detoured_once trivial) fun futures => .bind ?_ fun live => ?_
    · have each : ∀ fs : List TaskId, (Prog.any (fun t => once (.live t)) fs : Sched Bool).Uses
          SchedOp.OnWay := by
        intro fs
        induction fs with
        | nil => trivial
        | cons f fs ih =>
          refine .bind (.op trivial) fun found => ?_
          cases found with
          | true => trivial
          | false => exact ih
      exact .refl (each futures)
    · cases live with
      | true => exact .ret _
      | false =>
        exact .bind (detoured_reads (only_stuck _)) fun _ =>
          .bind (detoured_once trivial) fun _ => detoured_once trivial

/-- Counting a call of `schedule` in and out takes no further detour. -/
theorem detoured_inSchedule {body body' : Sched Unit} (h : Detoured r body body') :
    Detoured r (inSchedule body) (inSchedule body') :=
  .bind (detoured_once trivial) fun _ => h.finallyDo save_total (detoured_once trivial)

/-- The loop of `schedule` takes the detours of its passes, round by round. -/
theorem detoured_scheduleLoop : ∀ n, Detoured r (scheduleLoop r n) (scheduleLoop r.bare n)
  | 0 => detoured_once trivial
  | n + 1 => by
    refine .bind (detoured_pass (detoured_inSchedule (detoured_scheduleLoop n)) _ _) fun changed => ?_
    cases changed with
    | true => exact detoured_scheduleLoop n
    | false => exact detoured_close

/-- `schedule` takes the detours of its loop. -/
theorem detoured_schedule : Detoured r (schedule r) (schedule r.bare) :=
  detoured_inSchedule (detoured_scheduleLoop _)

/-- Taking and releasing the lock takes no further detour. -/
theorem detoured_withLock {body body' : Sched Unit} (h : Detoured r body body') :
    Detoured r (withLock body) (withLock body') :=
  .bind (detoured_once trivial) fun _ => h.finallyDo save_total (detoured_once trivial)

/-- A worker takes the detours of its task's execution and of its callback. -/
theorem detoured_worker (t : TaskId) : Detoured r (worker r t) (worker r.bare t) := by
  refine .bind (detoured_once trivial) fun upstream => .bind ?_ fun exception =>
    .bind (detoured_once trivial) fun registered => .bind ?_ fun _ => detoured_once trivial
  · exact (detoured_liftTask (detoured_execute upstream _)).caught save_total
  · cases registered with
    | true => exact (detoured_withLock (detoured_onFinish detoured_schedule t)).swallow save_total
    | false => exact .ret _

/-- The main thread takes the detours of its calls of `schedule`. -/
theorem detoured_main : Detoured r (main r) (main r.bare) := by
  unfold main
  by_cases empty : r.graph.keys.isEmpty = true
  · rw [if_pos empty, if_pos (show r.bare.graph.keys.isEmpty = true from empty)]
    exact .ret _
  · rw [if_neg empty, if_neg (show ¬ r.bare.graph.keys.isEmpty = true from empty)]
    refine .bind (.finallyDo save_total (.bind (detoured_withLock detoured_schedule) fun _ =>
      detoured_once trivial) (.bind (detoured_once trivial) fun _ => detoured_once trivial))
      fun _ => .bind (detoured_once trivial) fun errors => ?_
    cases errors with
    | nil => exact .ret _
    | cons e es => exact .fail _

end Scheduler

/-! ## `run` -/

namespace GraphRun

/-- The call of `run` on an executor without a store. -/
def Setup.bare (r : Setup) : Setup :=
  { r with executor := r.executor.bare, graphSaveFails := fun _ => none }

/-- The operations of `run()` that are on the way with and without observers. -/
def Op.OnWay : Op → Prop
  | .sched o => o.OnWay
  | .resetErrors => True
  | .saveGraph | .recordGraphError _ => False

/-- A save of a task or of the graph. -/
def IsSave (r : Setup) (b : Program Unit) : Prop :=
  r.executor.store = true ∧
    ((∃ t, b = within (Scheduler.liftTask (persist r.executor t))) ∨ b = persistGraph r)

variable {r : Setup}

/-- What follows the answer of a save of the graph. -/
def afterGraphSave : Except Exc Unit → Program Unit
  | .ok () => .ret ()
  | .error e => Prog.op (Op.recordGraphError e)

/-- With a store, `_persist_graph` saves the graph and looks at how that went. -/
theorem persistGraph_eq (store : r.executor.store = true) :
    persistGraph r = .act .saveGraph afterGraphSave := by
  unfold persistGraph
  rw [if_pos store]
  apply congrArg (Prog.act Op.saveGraph)
  funext answer
  rcases answer with e | ⟨⟨⟩⟩ <;> rfl

/-- A save never raises, whether it is of a task or of the graph. -/
theorem save_total (b : Program Unit) (save : IsSave r b) : b.Total := by
  obtain ⟨store, ⟨t, rfl⟩ | rfl⟩ := save
  · exact (Scheduler.save_total _ ⟨_, ⟨store, t, rfl⟩, rfl⟩).lift fun _ _ => trivial
  · rw [persistGraph_eq store]
    refine ⟨trivial, fun answer => ?_⟩
    rcases answer with e | ⟨⟨⟩⟩
    · exact ⟨trivial, fun _ => trivial⟩
    · trivial

variable (r)

/-- The programs with saves and without. -/
abbrev Detoured {α : Type} (p p' : Program α) : Prop := Detours (IsSave r) Op.OnWay p p'

variable {r}

/-- The scheduler's detours are detours of `run()`. -/
theorem detoured_within {α : Type} {p p' : Scheduler.Sched α}
    (h : Scheduler.Detoured r.toRun p p') : Detoured r (within p) (within p') := by
  refine h.lift ?_ fun _ onWay => onWay
  rintro _ ⟨_, ⟨store, t, rfl⟩, rfl⟩
  exact ⟨store, .inl ⟨t, rfl⟩⟩

/-- Saving the graph is a detour. -/
theorem detoured_persistGraph : Detoured r (persistGraph r) (persistGraph r.bare) := by
  cases store : r.executor.store with
  | true => exact .of_leaves ⟨store, .inr rfl⟩
  | false =>
    unfold persistGraph
    rw [store]
    exact .ret ()

/-- Looking for a running task takes no detour. -/
theorem detoured_noneRunning : ∀ ts : List TaskId,
    Scheduler.Detoured r.toRun (noneRunning ts) (noneRunning ts)
  | [] => .ret _
  | t :: ts => by
    refine .bind (.act trivial fun _ => .ret _) fun status => ?_
    split
    · exact .bind (Scheduler.detoured_once trivial) fun _ => .fail _
    · exact detoured_noneRunning ts

/-- `validate` takes no detour. -/
theorem detoured_validate (g : TaskGraph) :
    Scheduler.Detoured r.toRun (validate g) (validate g) := by
  refine .bind (detoured_noneRunning _) fun _ => ?_
  split
  · exact .bind (Scheduler.detoured_once trivial) fun _ => .fail _
  · split
    · exact .fail _
    · exact .ret _

/-- `run()` takes the detours of its saves and no others. -/
theorem detoured_run : Detoured r (run r) (run r.bare) := by
  unfold run
  by_cases none : r.maxWorkers = 0
  · rw [if_pos none, if_pos (show r.bare.maxWorkers = 0 from none)]
    exact .fail _
  · rw [if_neg none, if_neg (show ¬ r.bare.maxWorkers = 0 from none)]
    refine .bind (detoured_within (detoured_validate _)) fun _ => .bind detoured_persistGraph fun _ => ?_
    refine .finallyDo save_total (.bind (.act trivial fun _ => .ret _) fun _ => ?_) detoured_persistGraph
    exact detoured_within Scheduler.detoured_main

/-- Every thread of a run. -/
theorem detoured_start (s s' : Shared) (who : Scheduler.Who) :
    Detoured r ((start r s).rest who) ((start r.bare s').rest who) := by
  cases who with
  | main => exact detoured_run
  | worker t => exact detoured_within (Scheduler.detoured_worker t)
  | outside i => exact .ret _

end GraphRun

end TTasks
