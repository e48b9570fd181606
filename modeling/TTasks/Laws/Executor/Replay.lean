import TTasks.Laws.Executor.Sequence
import TTasks.Interleave.Keep

/-!
# An execution under interference is an execution alone

The methods of the executor look at one task, at the record of its handler calls, its stored
snapshot and its events, and at the answers of the store. As long as other threads leave these
alone, a method does in the middle of a run what it does when nothing else runs
(`wp_replay`), under an executor whose store gives the answers that it got (`Executor.withSaves`).
So what is known of the complete operations carries over to a run.
-/

namespace TTasks

open Interleave
open Prog (Contract)

/-! ## What the methods look at -/

/-- The operation is about the task, and so is the event that it delivers. -/
def TaskOp.IsOf (t : TaskId) (o : TaskOp) : Prop :=
  o.task = t ∧ ∀ u e, o = .deliver u e → e.taskId = t

namespace TaskOp.IsOf

variable {t : TaskId} {o : TaskOp}

/-- Delivering an event about the task is an operation on it. -/
theorem deliver {e : TaskEvent} (own : e.taskId = t) : (TaskOp.deliver t e).IsOf t := by
  refine ⟨rfl, ?_⟩
  rintro u e' ⟨⟩
  exact own

/-- So is any operation that names the task and delivers nothing. -/
theorem plain (own : o.task = t) (silent : ∀ u e, o ≠ .deliver u e) : o.IsOf t :=
  ⟨own, fun u e is => absurd is (silent u e)⟩

end TaskOp.IsOf

/-- Operations on the task, but for those that say what blocks it, whose events have types of the
kind. -/
def TaskOp.Speaks (t : TaskId) (kind : TaskEventType → Prop) (o : TaskOp) : Prop :=
  o.IsOf t ∧ (∀ u e, o = .deliver u e → kind e.type) ∧ ∀ u p, o ≠ .setBlockedBy u p

section Uses

variable (x : Executor) (t : TaskId) {kind : TaskEventType → Prop}

/-- Neither an event nor a note of what blocks the task. -/
def TaskOp.isQuiet : TaskOp → Bool
  | .deliver _ _ | .setBlockedBy _ _ => false
  | _ => true

/-- A quiet operation on the task speaks of nothing. -/
theorem speaks_plain {o : TaskOp} (own : o.task = t) (quiet : o.isQuiet = true) :
    o.Speaks t kind := by
  have silent : ∀ u e, o ≠ .deliver u e := by
    rintro u e rfl
    cases quiet
  refine ⟨.plain own silent, fun u e is => absurd is (silent u e), ?_⟩
  rintro u p rfl
  cases quiet

/-- A delivery speaks of its event's type. -/
theorem speaks_deliver {e : TaskEvent} (own : e.taskId = t) (ok : kind e.type) :
    (TaskOp.deliver t e).Speaks t kind := by
  refine ⟨.deliver own, ?_, by simp⟩
  rintro u e' ⟨⟩
  exact ok

/-- Reading the status is quiet. -/
theorem uses_readStatus : (readStatus t).Uses (TaskOp.Speaks t kind) :=
  .op (speaks_plain t rfl rfl)

/-- A transition is quiet. -/
theorem uses_transitionTo (status : TaskStatus) (error : Option String) :
    (transitionTo t status error).Uses (TaskOp.Speaks t kind) := by
  refine .bind (.op (speaks_plain t rfl rfl)) fun answer => ?_
  cases answer <;> trivial

/-- `_persist` speaks of failed saves only. -/
theorem uses_persist (failed : kind .persistenceFailed) :
    (persist x t).Uses (TaskOp.Speaks t kind) := by
  unfold persist
  split
  · refine .tryCatch (.bind (.op (speaks_plain t rfl rfl)) fun answer => ?_)
      fun e => ?_
    · cases answer <;> trivial
    · refine .bind (.op (speaks_plain t rfl rfl)) fun _ => ?_
      exact .bind (uses_readStatus t) fun _ => .op (speaks_deliver t rfl failed)
  · trivial

/-- `_emit` speaks of its own type, and of failed saves. -/
theorem uses_emit (failed : kind .persistenceFailed) {type : TaskEventType} (ok : kind type)
    (previous : Option TaskStatus) (error : Option String) :
    (emit x t type previous error).Uses (TaskOp.Speaks t kind) := by
  refine .bind (uses_persist x t failed) fun _ => ?_
  exact .bind (uses_readStatus t) fun _ => .op (speaks_deliver t rfl ok)

/-- Ending an attempt speaks of its terminal event, and of failed saves. -/
theorem uses_terminalize (failed : kind .persistenceFailed) {type : TaskEventType} (ok : kind type)
    (result : TaskResult) (status previous : TaskStatus) (error : Option String) :
    (terminalize x t result status previous type error).Uses (TaskOp.Speaks t kind) := by
  refine .bind (.op (speaks_plain t rfl rfl)) fun _ => ?_
  refine .bind (uses_readStatus t) fun current => ?_
  split
  · exact .bind (uses_transitionTo t _ _) fun _ => uses_emit x t failed ok _ _
  · exact uses_emit x t failed ok _ _

/-- `cancel` keeps to its own task. -/
theorem uses_cancel (all : ∀ type, kind type) : (cancel x t).Uses (TaskOp.Speaks t kind) := by
  refine .bind (.bind (uses_readStatus t) fun status => ?_) fun previous => ?_
  · split
    · trivial
    · exact .bind (uses_readStatus t) fun _ => trivial
  · cases previous with
    | none => trivial
    | some previous =>
      refine .bind (.bind (uses_readStatus t) fun status => ?_) fun _ => ?_
      · split
        · trivial
        · exact .bind (.op (speaks_plain t rfl rfl)) fun _ =>
            uses_transitionTo t _ _
      · refine .bind (.op (speaks_plain t rfl rfl)) fun _ => ?_
        split
        · exact uses_terminalize x t (all _) (all _) _ _ _ _
        · trivial

/-- A handler that cancels its own task keeps to that task. -/
theorem uses_ownCancels (all : ∀ type, kind type) :
    ∀ n, (ownCancels x t n).Uses (TaskOp.Speaks t kind)
  | 0 => trivial
  | n + 1 => .bind (uses_cancel x t all) fun _ => uses_ownCancels all n

/-- The except clauses keep to their own task. -/
theorem uses_handleError (all : ∀ type, kind type) (e : Exc) :
    (handleError x t e).Uses (TaskOp.Speaks t kind) := by
  have finishes : ∀ result status previous type error e',
      ((terminalize x t result status previous type error).bind fun _ =>
        (.fail e' : Exec TaskResult)).Uses (TaskOp.Speaks t kind) :=
    fun _ _ _ _ _ _ => .bind (uses_terminalize x t (all _) (all _) _ _ _ _) fun _ => trivial
  have general : (exceptException x t e).Uses (TaskOp.Speaks t kind) := by
    refine .bind (uses_readStatus t) fun status => ?_
    split <;> exact finishes _ _ _ _ _ _
  cases e with
  | taskCancelled m => exact finishes _ _ _ _ _ _
  | baseException | unprintableCancelled => trivial
  | unprintable raised => exact .bind (uses_readStatus t) fun _ => trivial
  | unreadable m raised =>
    refine .bind (uses_readStatus t) fun status => ?_
    split
    · exact finishes _ _ _ _ _ _
    · trivial
  | _ => exact general

/-- An attempt keeps to its own task. -/
theorem uses_attempt (all : ∀ type, kind type) (upstream : List TaskId) :
    (attempt x t upstream).Uses (TaskOp.Speaks t kind) := by
  refine .bind (.bind (.op (speaks_plain t rfl rfl)) fun call =>
    .bind (uses_ownCancels x t all _) fun _ => ?_) fun raw => ?_
  · split <;> trivial
  · refine .bind (.bind (uses_readStatus t) fun status => ?_) fun _ => ?_
    · split <;> trivial
    · exact .bind (uses_terminalize x t (all _) (all _) _ _ _ _) fun _ => trivial

/-- `_execute_once` keeps to its own task. -/
theorem uses_executeOnce (all : ∀ type, kind type) (upstream : List TaskId) :
    (executeOnce x t upstream).Uses (TaskOp.Speaks t kind) := by
  refine .bind (uses_readStatus t) fun status => ?_
  split
  · exact .bind (uses_readStatus t) fun _ => trivial
  · refine .bind (.op (speaks_plain t rfl rfl)) fun type => ?_
    split
    · refine .bind (uses_readStatus t) fun _ => .bind (uses_readStatus t) fun current => ?_
      split
      · exact .bind (uses_transitionTo t _ _) fun _ =>
          .bind (uses_terminalize x t (all _) (all _) _ _ _ _) fun _ => trivial
      · exact .bind (uses_terminalize x t (all _) (all _) _ _ _ _) fun _ => trivial
    · refine .bind (uses_readStatus t) fun _ => .bind (uses_transitionTo t _ _) fun _ => ?_
      exact .bind (uses_emit x t (all _) (all _) _ _) fun _ =>
        .tryCatch (uses_attempt x t all upstream) (uses_handleError x t all)

end Uses

/-! ## The task's part of the world -/

/-- From the `n`-th delivery on, a world and the world of an execution alone agree about the
task. -/
structure Alone (t : TaskId) (n : Nat) (w ws : World) : Prop where
  task : ws.tasks t = w.tasks t
  calls : ws.callCount t = w.callCount t
  stored : ws.stored t = w.stored t
  long : n ≤ w.deliveries.length
  events : ws.events t =
    (w.deliveries.drop n).filter fun d => d.event.taskId == t && d.event.type.status.isSome

/-- The executor with other answers from its store. -/
def Executor.withSaves (x : Executor) (answers : Nat → Option Exc) : Executor :=
  { x with saveFails := answers }

/-- A handler's own cancels are the same program whatever the saves answer. -/
theorem ownCancels_withSaves (x : Executor) (answers : Nat → Option Exc) (t : TaskId) :
    ∀ n, ownCancels (x.withSaves answers) t n = ownCancels x t n
  | 0 => rfl
  | n + 1 => by
    show Prog.bind (cancel x t) (fun _ => ownCancels (x.withSaves answers) t n) = _
    rw [ownCancels_withSaves x answers t n]
    rfl

/-- An attempt is the same program whatever the saves answer. -/
theorem attempt_withSaves (x : Executor) (answers : Nat → Option Exc) (t : TaskId)
    (upstream : List TaskId) :
    attempt (x.withSaves answers) t upstream = attempt x t upstream := by
  have calls : callHandler (x.withSaves answers) t upstream = callHandler x t upstream := by
    unfold callHandler
    simp only [ownCancels_withSaves]
  unfold attempt
  rw [calls]
  rfl

/-- The methods look at whether there is a store, not at its answers. -/
theorem executeOnce_withSaves (x : Executor) (answers : Nat → Option Exc) (t : TaskId)
    (upstream : List TaskId) :
    executeOnce (x.withSaves answers) t upstream = executeOnce x t upstream := by
  unfold executeOnce
  rw [attempt_withSaves]
  rfl
/-- The world in which an execution alone begins. -/
def World.alone (w : World) : World := { tasks := w.tasks, stored := w.stored, calls := w.calls }

/-- Nothing has happened to the task yet. -/
theorem alone_start (t : TaskId) (w : World) : Alone t w.deliveries.length w w.alone where
  task := rfl
  calls := rfl
  stored := rfl
  long := le_refl _
  events := by simp [World.alone, World.events]

/-- Only a save looks at the answers of the store, and at one of them. -/
theorem TaskOp.perform_withSaves (x : Executor) {f g : Nat → Option Exc} (o : TaskOp) (w : World)
    (same : ∀ u, o = .save u → g w.saves = f w.saves) :
    o.perform (x.withSaves g) w = o.perform (x.withSaves f) w := by
  cases o with
  | save u => simp only [TaskOp.perform, Executor.withSaves, same u rfl]
  | _ => rfl

/-- The store counts its saves. -/
theorem TaskOp.perform_saves (x : Executor) (o : TaskOp) (w : World) :
    w.saves ≤ (o.perform x w).2.saves ∧
      ∀ u, o = .save u → w.saves < (o.perform x w).2.saves := by
  cases o with
  | transition t target message =>
    simp only [TaskOp.perform]
    split <;> simp
  | save t =>
    simp only [TaskOp.perform]
    split <;> simp
  | _ => exact ⟨le_refl _, by simp⟩

/-- An operation on the task does the same in both worlds. -/
theorem Alone.perform {x : Executor} {t : TaskId} {n : Nat} {w ws : World} (h : Alone t n w ws)
    {f : Nat → Option Exc} {o : TaskOp} (own : o.IsOf t)
    (answer : ∀ u, o = .save u → f ws.saves = x.saveFails w.saves) :
    (o.perform (x.withSaves f) ws).1 = (o.perform x w).1 ∧
      Alone t n (o.perform x w).2 (o.perform (x.withSaves f) ws).2 := by
  obtain ⟨own, -⟩ := own
  -- a write of the task's record
  have write : ∀ task, Alone t n (w.setTask t task) (ws.setTask t task) := by
    intro task
    refine ⟨?_, h.calls, h.stored, h.long, h.events⟩
    rw [World.setTask_tasks, World.setTask_tasks, if_pos rfl, if_pos rfl]
  cases o with
  | status u =>
    obtain rfl : u = t := own
    exact ⟨congrArg Task.status h.task, h⟩
  | error u =>
    obtain rfl : u = t := own
    exact ⟨congrArg Task.error h.task, h⟩
  | type u =>
    obtain rfl : u = t := own
    exact ⟨congrArg Task.type h.task, h⟩
  | transition u target message =>
    obtain rfl : u = t := own
    simp only [TaskOp.perform]
    rw [h.task]
    cases (w.tasks u).transitionTo target message with
    | error e => exact ⟨rfl, h⟩
    | ok task => exact ⟨rfl, write task⟩
  | setResult u result =>
    obtain rfl : u = t := own
    refine ⟨rfl, ?_⟩
    simp only [TaskOp.perform]
    rw [h.task]
    exact write _
  | setBlockedBy u parent =>
    obtain rfl : u = t := own
    refine ⟨rfl, ?_⟩
    simp only [TaskOp.perform]
    rw [h.task]
    exact write _
  | save u =>
    obtain rfl : u = t := own
    simp only [TaskOp.perform, Executor.withSaves, answer u rfl]
    cases x.saveFails w.saves with
    | some e => exact ⟨rfl, h.task, h.calls, h.stored, h.long, h.events⟩
    | none =>
      refine ⟨rfl, h.task, h.calls, ?_, h.long, h.events⟩
      simp only [World.setStored, if_pos, h.task]
  | recordSaveError u e => exact ⟨rfl, h.task, h.calls, h.stored, h.long, h.events⟩
  | deliver u e =>
    obtain rfl : u = t := own
    refine ⟨rfl, h.task, h.calls, h.stored, ?_, ?_⟩
    · have long := h.long
      simp only [TaskOp.perform, List.length_append]
      omega
    · have events := h.events
      simp only [World.events] at events
      simp only [TaskOp.perform, World.events, List.filter_append,
        List.drop_append_of_le_length h.long, events, h.task, h.stored]
  | call u ups =>
    obtain rfl : u = t := own
    have calls := h.calls
    simp only [World.callCount] at calls
    refine ⟨congrArg (x.behaviour u) h.calls, h.task, ?_, h.stored, h.long, h.events⟩
    simp [TaskOp.perform, World.callCount, List.filter_append, calls]
  | terminateProcess u => exact ⟨rfl, h⟩
  | sleep u => exact ⟨rfl, h⟩

/-! ## Replaying -/

/-- The program, begun alone in the one world, has come to the rest of it in the other, whatever
the store answers to the saves that are still to come. -/
structure Replays {α : Type} (x : Executor) (answers : Nat → Option Exc) (whole : Exec α)
    (ws₀ : World) (rest : Exec α) (ws : World) : Prop where
  run : ∀ g, (∀ i < ws.saves, g i = answers i) →
    (x.withSaves g).run whole ws₀ = (x.withSaves g).run rest ws
  saves : x.Saves → (x.withSaves answers).Saves

/-- At the start the two runs are at the same place. -/
theorem Replays.start {α : Type} (x : Executor) (whole : Exec α) (ws₀ : World) :
    Replays x x.saveFails whole ws₀ whole ws₀ where
  run _ _ := rfl
  saves h := h

/-- The next operation, with the answer that the store gives in the run. -/
theorem Replays.step {α : Type} {x : Executor} {t : TaskId} {n : Nat} {answers : Nat → Option Exc}
    {whole : Exec α} {ws₀ ws w : World} {o : TaskOp} {k : o.Ans → Exec α} (own : o.IsOf t)
    (alone : Alone t n w ws) (replays : Replays x answers whole ws₀ (.act o k) ws) :
    ∃ answers' ws', Alone t n (o.perform x w).2 ws' ∧
      Replays x answers' whole ws₀ (k (o.perform x w).1) ws' := by
  let answers' := Function.update answers ws.saves (x.saveFails w.saves)
  have here : answers' ws.saves = x.saveFails w.saves := Function.update_self ..
  obtain ⟨answer, alone'⟩ := alone.perform (x := x) (f := answers') own fun _ _ => here
  refine ⟨answers', _, alone', ?_, ?_⟩
  · intro g agrees
    have before : ∀ i < ws.saves, g i = answers i := by
      intro i below
      rw [agrees i (lt_of_lt_of_le below (TaskOp.perform_saves _ o ws).1)]
      exact Function.update_of_ne (Nat.ne_of_lt below) ..
    have same : o.perform (x.withSaves g) ws = o.perform (x.withSaves answers') ws := by
      apply TaskOp.perform_withSaves x o ws
      intro u saves
      exact agrees _ ((TaskOp.perform_saves _ o ws).2 u saves)
    rw [replays.run g before]
    show (x.withSaves g).run (k (o.perform (x.withSaves g) ws).1) (o.perform (x.withSaves g) ws).2 = _
    rw [same, answer]
  · intro saves
    have none := replays.saves saves
    refine ⟨saves.1, fun i => ?_⟩
    show Function.update answers ws.saves (x.saveFails w.saves) i = _
    by_cases same : i = ws.saves
    · subst same
      rw [Function.update_self]
      exact saves.2 _
    · rw [Function.update_of_ne same]
      exact none.2 i

/-- The rely–guarantee form: a program that works on one task does under interference what it does
alone, if other threads leave the task's part of the world alone; and each of its operations is one
of the execution alone. -/
theorem wp_replay {α : Type} {x : Executor} {t : TaskId} {n : Nat} {whole : Exec α} {ws₀ : World}
    {C : Contract TaskOp World}
    (rely : ∀ {a b ws}, C.rely a b → Alone t n a ws → Alone t n b ws)
    (meets : ∀ {answers o k b ws}, o.IsOf t → Alone t n b ws →
      Replays x answers whole ws₀ (.act o k) ws → C.ready o b ∧ (C.allow o b → C.guar o b))
    {p : Exec α} (uses : p.Uses (TaskOp.IsOf t)) {answers : Nat → Option Exc} {w ws : World}
    (alone : Alone t n w ws) (replays : Replays x answers whole ws₀ p ws) :
    p.wp (TaskOp.perform x) C (fun res b => ∃ answers ws, Alone t n b ws ∧
      (x.withSaves answers).run whole ws₀ = (res, ws) ∧
        (x.Saves → (x.withSaves answers).Saves)) w := by
  induction p generalizing answers w ws with
  | ret a => exact ⟨answers, ws, alone, replays.run _ fun _ _ => rfl, replays.saves⟩
  | fail e => exact ⟨answers, ws, alone, replays.run _ fun _ _ => rfl, replays.saves⟩
  | act o k ih =>
    intro b moved
    have alone := rely moved alone
    obtain ⟨ready, guar⟩ := meets uses.1 alone replays
    obtain ⟨answers', ws', alone', replays'⟩ := replays.step uses.1 alone
    exact ⟨ready, fun allowed => ⟨guar allowed, ih _ (uses.2 _) alone' replays'⟩⟩

/-! ## What the events of an execution say -/

/-- No operation takes an event back. -/
theorem events_of_run (x : Executor) (t : TaskId) {α : Type} (p : Exec α) (w : World) :
    w.events t <+: (x.run p w).2.events t := by
  have step : ∀ (o : TaskOp) (w : World), w.events t <+: (o.perform x w).2.events t := by
    intro o w
    cases o with
    | transition u target message =>
      simp only [TaskOp.perform]
      split <;> exact List.prefix_refl _
    | save u =>
      simp only [TaskOp.perform]
      split <;> exact List.prefix_refl _
    | deliver u e =>
      simp only [TaskOp.perform, World.events, List.filter_append]
      exact List.prefix_append ..
    | _ => exact List.prefix_refl _
  induction p generalizing w with
  | ret a => exact List.prefix_refl _
  | fail e => exact List.prefix_refl _
  | act o k ih => exact (step o w).trans (ih _ _)

/-- What is true of all events that an execution delivers. -/
structure Telling (saves : Prop) (t : TaskId) (w : World) : Prop where
  named : ∀ d ∈ w.events t, d.event.type.status = some d.event.status
  stored : saves → ∀ d ∈ w.events t, d.Stored
  last : ∃ d ∈ w.events t, d.event.status = w.status t

/-- An attempt that starts, and whose handler ends in a way that the executor deals with, tells how
it ends. -/
theorem telling_executeOnce (x : Executor) {t : TaskId} {w : World} (upstream : List TaskId)
    (fresh : w.events t = []) (startable : (w.status t).canTransitionTo .running = true)
    (ordinary : x.handlers (w.tasks t).type = true →
      (x.behaviour t (w.callCount t)).outcome.isOrdinary = true) :
    Telling x.Saves t (x.after (executeOnce x t upstream) w) := by
  obtain ⟨advances, new', events', last, -, attempt⟩ := executeOnce_attempts x startable upstream ordinary
  obtain ⟨new, events, trace, stored⟩ := advances.events
  rw [fresh, List.nil_append] at events events'
  have nonempty : new.getLast? ≠ none := by
    rw [← events, events', ne_eq, List.getLast?_eq_none_iff]
    rintro rfl
    split at attempt
    · obtain ⟨started, -, none⟩ := attempt
      cases none
    · cases attempt
  refine ⟨?_, ?_, ?_⟩
  · rw [events]
    intro d hd
    exact trace.named _ (List.mem_map_of_mem hd)
  · rw [events]
    exact stored
  · rw [events]
    obtain ⟨d, hd⟩ := Option.ne_none_iff_exists'.mp nonempty
    refine ⟨d, List.mem_of_getLast? hd, ?_⟩
    apply trace.last
    simp [List.getLast?_map, hd]

end TTasks
