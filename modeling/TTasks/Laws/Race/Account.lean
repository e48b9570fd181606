import TTasks.Race
import TTasks.Laws.Executor.Attempt
import TTasks.Laws.Executor.Quiet

/-!
# The account of an attempt and its cancels

The argument about an attempt against concurrent cancels keeps an account beside the shared state:
which terminal status the attempt still owes an event for, and which cancel still owes its result
or its event. `Balanced` says that the events so far and the events owed are together one for each
terminal status entered. Each thread relies on the others not to touch what it owes (`AttemptRely`,
`CancelRely`), which is what the others guarantee (`MovedByCancel`, `MovedByAttempt`).

The account is part of the proof only; no operation reads it. Most operations are `Quiet`: they
touch neither the task nor its terminal events, and a program of quiet operations leaves every
assertion of either thread standing (`Skips`).
-/

namespace TTasks

open Interleave
open Prog (Contract)

namespace Race

variable {n : Nat}

/-! ## The account -/

/-- What the threads of a race have noted about it: what each still owes, and what it has read. -/
structure Account (n : Nat) where
  /-- The terminal status the attempt has to announce. -/
  attemptOwes : Option TaskStatus := none
  /-- The cancel that moved an idle task to CANCELLED, and whether it has written the result. -/
  cancelOwes : Option (Fin n × Bool) := none

/-- The world with the account beside it. -/
abbrev Noted (n : Nat) := Shared n × Account n

namespace Noted

/-- The task's status. -/
def status (t : TaskId) (p : Noted n) : TaskStatus := p.1.world.status t

/-- The task's stored result. -/
def result (t : TaskId) (p : Noted n) : Option TaskResult := (p.1.world.tasks t).result

end Noted

/-- The event is one of SUCCEEDED, FAILED and CANCELLED. -/
def isTerminalEvent (e : TaskEvent) : Bool := e.type.status.any isFinal

section Defs

variable (x : Executor) (t : TaskId)

/-- How an operation changes the account. -/
def note (who : Who n) (o : TaskOp) (s : Shared n) (a : Account n) : Account n :=
  let s' := (sem x t who o s).2
  let moved := s'.world.status t ≠ s.world.status t
  match who, o with
  | .attempt, .transition _ _ _ =>
    if moved ∧ isFinal (s'.world.status t) = true then
      { a with attemptOwes := some (s'.world.status t) }
    else a
  | .attempt, .deliver _ e => if isTerminalEvent e then { a with attemptOwes := none } else a
  | .cancel i, .transition _ _ _ =>
    if moved then
      if s.world.status t = .running then { a with attemptOwes := some .cancelled }
      else { a with cancelOwes := some (i, false) }
    else a
  | .cancel i, .setResult _ _ => { a with cancelOwes := some (i, true) }
  | .cancel _, .deliver _ e => if isTerminalEvent e then { a with cancelOwes := none } else a
  | _, _ => a

/-- One operation of one thread, with the account kept. -/
abbrev act (who : Who n) (o : TaskOp) (p : Noted n) : o.Ans × Noted n :=
  Threads.annotate (sem x t) (note x t) who o p

/-- Events and debts together are one for each terminal status entered, and the result is the
status's own unless somebody still owes it. -/
structure Balanced (p : Noted n) : Prop where
  events : ∀ s, isFinal s = true → reported p.1.world t s +
    (if p.2.attemptOwes = some s then 1 else 0) +
    (if s = .cancelled ∧ p.2.cancelOwes.isSome then 1 else 0) = p.1.entered.count s
  result : ∀ s, isFinal s = true → p.status t = s → (∃ r, p.result t = some r ∧ r.status = s) ∨
    (s = .cancelled ∧ ((∃ i, p.2.cancelOwes = some (i, false)) ∨
      p.2.attemptOwes = some .cancelled))
  cancelOwes : p.2.cancelOwes.isSome → p.status t = .cancelled ∧ p.2.attemptOwes ≠ some .cancelled
  attemptOwes : ∀ s, p.2.attemptOwes = some s → isFinal s = true ∧
    (p.status t = s ∨ (s = .failed ∧ p.status t = .cancelled))
  succeeded : .succeeded ∈ p.1.entered → p.status t = .succeeded

/-- What the attempt may see the cancels do. -/
structure AttemptRely (p p' : Noted n) : Prop where
  status : p'.status t = p.status t ∨ p'.status t = .cancelled
  sink : (p.status t).isSink = true → p'.status t = p.status t
  result : p'.result t = p.result t ∨ p'.status t = .cancelled
  owes : p.2.attemptOwes.isSome → p'.2.attemptOwes = p.2.attemptOwes
  active : p.status t = .running → p.2.attemptOwes = none → p'.result t = p.result t ∧
    ((p'.status t = .running ∧ p'.2.attemptOwes = none) ∨
      (p'.status t = .cancelled ∧ p'.2.attemptOwes = some .cancelled))
  idle : p.status t ≠ .running → p.2.attemptOwes = none → p'.2.attemptOwes = none
  kept : p.2.attemptOwes = some .cancelled → p'.result t = p.result t
  started : .running ∈ p'.1.entered ↔ .running ∈ p.1.entered

/-- What a cancel may see the others do, and what its own reads and saves do. -/
structure CancelRely (i : Fin n) (p p' : Noted n) : Prop where
  sink : (p.status t).isSink = true → p'.status t = p.status t
  back : p'.status t = .pending ∨ p'.status t = .blocked → p.status t = p'.status t
  mine : ∀ b, p'.2.cancelOwes = some (i, b) ↔ p.2.cancelOwes = some (i, b)
  kept : p.2.cancelOwes = some (i, true) → p'.result t = p.result t

/-- What the attempt does to the others. -/
structure MovedByAttempt (p p' : Noted n) : Prop where
  cancelOwes : p'.2.cancelOwes = p.2.cancelOwes
  kept : (∃ i, p.2.cancelOwes = some (i, true)) → p'.result t = p.result t
  sink : (p.status t).isSink = true → p'.status t = p.status t
  back : p'.status t = .pending ∨ p'.status t = .blocked → p.status t = p'.status t
  reads : p'.1.reads = p.1.reads

/-- What a cancel does to the others. -/
structure MovedByCancel (j : Fin n) (p p' : Noted n) : Prop where
  cancelOwes : p'.2.cancelOwes = p.2.cancelOwes ∨
    (p.2.cancelOwes = none ∨ ∃ b, p.2.cancelOwes = some (j, b)) ∧
      (p'.2.cancelOwes = none ∨ ∃ b, p'.2.cancelOwes = some (j, b))
  result : p'.result t = p.result t ∨ p.2.cancelOwes = some (j, false)
  status : p'.status t = p.status t ∨
    (p'.status t = .cancelled ∧ (p.status t).isSink = false)
  attemptOwes : p'.2.attemptOwes = p.2.attemptOwes ∨
    (p.status t = .running ∧ p'.2.attemptOwes = some .cancelled)
  running : p.status t = .running → p'.status t = .running ∨
    (p'.status t = .cancelled ∧ p'.2.attemptOwes = some .cancelled)
  started : .running ∈ p'.1.entered ↔ .running ∈ p.1.entered
  reads : ∀ i, i ≠ j → p'.1.reads i = p.1.reads i

/-- What the attempt relies on and keeps to. -/
def attemptContract : Contract TaskOp (Noted n) where
  rely p p' := Balanced t p' ∧ AttemptRely t p p'
  allow o p := Fresh t .attempt o p.1
  guar o p := Balanced t (act x t .attempt o p).2 ∧
    MovedByAttempt t p (act x t .attempt o p).2

/-- What one cancelling thread relies on and keeps to. -/
def cancelContract (i : Fin n) : Contract TaskOp (Noted n) where
  rely p p' := Balanced t p' ∧ CancelRely t i p p' ∧ p'.1.reads i = p.1.reads i
  allow o p := Fresh t (.cancel i) o p.1
  guar o p := Balanced t (act x t (.cancel i) o p).2 ∧
    MovedByCancel t i p (act x t (.cancel i) o p).2

end Defs

/-! ## Relations between the contracts -/

section Relations

variable {t : TaskId} {i j : Fin n} {p q r : Noted n}

/-- Nothing has moved yet. -/
theorem AttemptRely.refl (p : Noted n) : AttemptRely t p p where
  status := .inl rfl
  sink _ := rfl
  result := .inl rfl
  owes _ := rfl
  active h h' := ⟨rfl, .inl ⟨h, h'⟩⟩
  idle _ h := h
  kept _ := rfl
  started := .rfl

/-- Two stretches of moves by the others are one, for the attempt. -/
theorem AttemptRely.trans (h : AttemptRely t p q) (h' : AttemptRely t q r) :
    AttemptRely t p r := by
  have cancelled : q.status t = .cancelled → r.status t = .cancelled := fun hq =>
    (h'.sink (by rw [hq]; rfl)).trans hq
  constructor
  · rcases h'.status with hr | hr
    · rw [hr]; exact h.status
    · exact .inr hr
  · intro sink
    have hq := h.sink sink
    exact (h'.sink (by rw [hq]; exact sink)).trans hq
  · rcases h'.result with hr | hr
    · rcases h.result with hq | hq
      · exact .inl (hr.trans hq)
      · exact .inr (cancelled hq)
    · exact .inr hr
  · intro owed
    have hq := h.owes owed
    exact (h'.owes (by rw [hq]; exact owed)).trans hq
  · intro running none
    obtain ⟨hr, ⟨hs, ho⟩ | ⟨hs, ho⟩⟩ := h.active running none
    · exact (h'.active hs ho).imp_left fun hr' => hr'.trans hr
    · exact ⟨(h'.kept ho).trans hr, .inr ⟨cancelled hs, (h'.owes (by rw [ho]; rfl)).trans ho⟩⟩
  · intro notRunning none
    have hq := h.idle notRunning none
    refine h'.idle ?_ hq
    rcases h.status with hs | hs
    · rw [hs]; exact notRunning
    · rw [hs]; decide
  · intro owed
    have hq := h.owes (by rw [owed]; rfl)
    exact (h'.kept (hq.trans owed)).trans (h.kept owed)
  · exact h'.started.trans h.started

/-- Nothing has moved yet. -/
theorem CancelRely.refl (p : Noted n) : CancelRely t i p p where
  sink _ := rfl
  back _ := rfl
  mine _ := .rfl
  kept _ := rfl

/-- Two stretches of moves by the others are one, for a cancelling thread. -/
theorem CancelRely.trans (h : CancelRely t i p q) (h' : CancelRely t i q r) :
    CancelRely t i p r := by
  constructor
  · intro sink
    have hq := h.sink sink
    exact (h'.sink (by rw [hq]; exact sink)).trans hq
  · intro early
    have hq := h'.back early
    exact (h.back (by rw [hq]; exact early)).trans hq
  · exact fun b => (h'.mine b).trans (h.mine b)
  · intro written
    exact (h'.kept ((h.mine true).mpr written)).trans (h.kept written)

/-- The attempt leaves the cancels what they rely on. -/
theorem MovedByAttempt.cancelRely (h : MovedByAttempt t p q) (i : Fin n) :
    CancelRely t i p q where
  sink := h.sink
  back := h.back
  mine b := by rw [h.cancelOwes]
  kept written := h.kept ⟨i, written⟩

/-- A cancel leaves the other cancels what they rely on. -/
theorem MovedByCancel.cancelRely (h : MovedByCancel t j p q) (other : i ≠ j) :
    CancelRely t i p q where
  sink sink := by
    rcases h.status with hs | ⟨-, hs⟩
    · exact hs
    · rw [sink] at hs; cases hs
  back early := by
    rcases h.status with hs | ⟨hs, -⟩
    · exact hs.symm
    · rw [hs] at early; rcases early with early | early <;> cases early
  mine b := by
    rcases h.cancelOwes with hs | ⟨hp, hq⟩
    · rw [hs]
    · constructor <;> intro owed
      · rcases hq with hq | ⟨b', hq⟩ <;> rw [hq] at owed <;> cases owed
        exact absurd rfl other
      · rcases hp with hp | ⟨b', hp⟩ <;> rw [hp] at owed <;> cases owed
        exact absurd rfl other
  kept written := by
    rcases h.result with hr | hr
    · exact hr
    · rw [written] at hr; cases hr

/-- A cancel leaves the attempt what it relies on. -/
theorem MovedByCancel.attemptRely (h : MovedByCancel t j p q) (balanced : Balanced t p)
    (balanced' : Balanced t q) : AttemptRely t p q where
  status := h.status.imp_right fun hs => hs.1
  sink sink := by
    rcases h.status with hs | ⟨-, hs⟩
    · exact hs
    · rw [sink] at hs; cases hs
  result := by
    refine h.result.imp_right fun owed => ?_
    have cancelled := (balanced.cancelOwes (by rw [owed]; rfl)).1
    rcases h.status with hs | hs
    · exact hs.trans cancelled
    · exact hs.1
  owes owed := by
    rcases h.attemptOwes with hs | ⟨running, -⟩
    · exact hs
    · obtain ⟨s, hs⟩ := Option.isSome_iff_exists.mp owed
      obtain ⟨final, here⟩ := balanced.attemptOwes s hs
      rw [running] at here
      rcases here with rfl | ⟨-, here⟩
      · cases final
      · cases here
  active running none := by
    refine ⟨?_, (h.running running).imp_left fun still => ⟨still, ?_⟩⟩
    · rcases h.result with hr | owed
      · exact hr
      · have := (balanced.cancelOwes (by rw [owed]; rfl)).1
        rw [running] at this; cases this
    rcases h.attemptOwes with hs | ⟨-, owed⟩
    · exact hs.trans none
    · obtain ⟨final, here⟩ := balanced'.attemptOwes _ owed
      rw [still] at here
      rcases here with here | ⟨here, -⟩ <;> cases here
  idle notRunning none := by
    rcases h.attemptOwes with hs | ⟨running, -⟩
    · exact hs.trans none
    · exact absurd running notRunning
  kept owed := by
    rcases h.result with hr | hr
    · exact hr
    · exact absurd owed (balanced.cancelOwes (by rw [hr]; rfl)).2
  started := h.started

end Relations

/-! ## Operations that touch neither the task nor its terminal events -/

/-- The operations that write no task and deliver no terminal event. -/
def Quiet : TaskOp → Prop
  | .transition _ _ _ => False
  | .setResult _ _ => False
  | .setBlockedBy _ _ => False
  | .deliver _ e => isTerminalEvent e = false
  | _ => True

section QuietOps

variable (x : Executor) {t : TaskId} {o : TaskOp}

/-- A quiet operation leaves every task as it is. -/
theorem quiet_tasks (quiet : Quiet o) (w : World) : (o.perform x w).2.tasks = w.tasks := by
  cases o with
  | transition _ _ _ => exact quiet.elim
  | setResult _ _ => exact quiet.elim
  | setBlockedBy _ _ => exact quiet.elim
  | save u =>
    simp only [TaskOp.perform]
    split <;> rfl
  | _ => rfl

/-- A delivery counts for the status its event names, and for the task it is about. -/
theorem reported_deliver (w : World) (u : TaskId) (e : TaskEvent) (s : TaskStatus) :
    reported ((TaskOp.deliver u e).perform x w).2 t s =
      reported w t s + if e.taskId = t ∧ e.type.status = some s then 1 else 0 := by
  simp only [reported, World.events, TaskOp.perform, List.filter_append, List.countP_append,
    Nat.add_left_cancel_iff]
  by_cases id : e.taskId = t
  · cases hs : e.type.status with
    | none => simp [id, hs]
    | some s' => by_cases eq : s' = s <;> simp [id, hs, eq]
  · simp [id]

/-- A quiet operation reports no final status. -/
theorem quiet_reported (quiet : Quiet o) (w : World) {s : TaskStatus} (final : isFinal s = true) :
    reported (o.perform x w).2 t s = reported w t s := by
  cases o with
  | transition _ _ _ => exact quiet.elim
  | setResult _ _ => exact quiet.elim
  | setBlockedBy _ _ => exact quiet.elim
  | save u =>
    simp only [TaskOp.perform]
    split <;> rfl
  | deliver u e =>
    rw [reported_deliver, if_neg, Nat.add_zero]
    rintro ⟨-, named⟩
    simp only [Quiet, isTerminalEvent, named, Option.any_some] at quiet
    rw [final] at quiet
    cases quiet
  | _ => rfl

/-- The parts of the state that the contracts speak of are the same. -/
structure SameView (t : TaskId) (p q : Noted n) : Prop where
  tasks : q.1.world.tasks = p.1.world.tasks
  reported : ∀ s, isFinal s = true → reported q.1.world t s = reported p.1.world t s
  entered : q.1.entered = p.1.entered
  account : q.2 = p.2

/-- A quiet operation leaves the view of the task as it is. -/
theorem act_quiet (quiet : Quiet o) (who : Who n) (p : Noted n) :
    SameView t p (act x t who o p).2 where
  tasks := quiet_tasks x quiet p.1.world
  reported _ final := quiet_reported x quiet p.1.world final
  entered := by
    have same : (o.perform x p.1.world).2.status t = p.1.world.status t := by
      simp only [World.status, quiet_tasks x quiet]
    simp only [act, Threads.annotate, sem, newlyEntered, if_pos same, List.append_nil]
  account := by
    cases who <;> cases o <;>
      first
        | exact quiet.elim
        | rfl
        | (simp only [Quiet] at quiet
           simp only [act, Threads.annotate, note, quiet, Bool.false_eq_true, if_false])

namespace SameView

variable {p q : Noted n}

/-- Views that agree show one status. -/
theorem status (h : SameView t p q) : q.status t = p.status t := by
  simp only [Noted.status, World.status, h.tasks]

/-- Views that agree show one result. -/
theorem result (h : SameView t p q) : q.result t = p.result t := by
  simp only [Noted.result, h.tasks]

/-- The balance is a matter of the view. -/
theorem balanced (h : SameView t p q) (balanced : Balanced t p) : Balanced t q where
  events s final := by rw [h.reported s final, h.account, h.entered]; exact balanced.events s final
  result := by rw [h.status, h.result, h.account]; exact balanced.result
  cancelOwes := by rw [h.status, h.account]; exact balanced.cancelOwes
  attemptOwes := by rw [h.status, h.account]; exact balanced.attemptOwes
  succeeded := by rw [h.status, h.entered]; exact balanced.succeeded

/-- The attempt does not notice a move that leaves the view as it is. -/
theorem attemptRely (h : SameView t p q) : AttemptRely t p q where
  status := .inl h.status
  sink _ := h.status
  result := .inl h.result
  owes _ := by rw [h.account]
  active hs ho := ⟨h.result, .inl ⟨h.status.trans hs, by rw [h.account]; exact ho⟩⟩
  idle _ ho := by rw [h.account]; exact ho
  kept _ := h.result
  started := by rw [h.entered]

/-- A cancelling thread does not notice a move that leaves the view as it is. -/
theorem cancelRely (h : SameView t p q) (i : Fin n) : CancelRely t i p q where
  sink _ := h.status
  back _ := h.status.symm
  mine b := by rw [h.account]
  kept _ := h.result

/-- A step of the attempt that leaves the view as it is keeps to the attempt's guarantee. -/
theorem movedByAttempt (h : SameView t p q) (reads : q.1.reads = p.1.reads) :
    MovedByAttempt t p q where
  cancelOwes := by rw [h.account]
  kept _ := h.result
  sink _ := h.status
  back _ := h.status.symm
  reads := reads

/-- A step of a cancelling thread that leaves the view as it is keeps to its guarantee. -/
theorem movedByCancel (h : SameView t p q) {j : Fin n}
    (reads : ∀ i, i ≠ j → q.1.reads i = p.1.reads i) : MovedByCancel t j p q where
  cancelOwes := .inl (by rw [h.account])
  result := .inl h.result
  status := .inl h.status
  attemptOwes := .inl (by rw [h.account])
  running hs := .inl (h.status.trans hs)
  started := by rw [h.entered]
  reads := reads

end SameView

end QuietOps

/-! ## Transitions, results and terminal events -/

section Acts

variable (x : Executor) {t : TaskId} {p q : Noted n}

/-- No status can be entered from itself. -/
theorem canTransitionTo_irrefl (s : TaskStatus) : s.canTransitionTo s = false := by
  cases s <;> rfl

/-- The state after an accepted transition. -/
def Noted.moved (p : Noted n) (t : TaskId) (target : TaskStatus) (error : Option String)
    (a : Account n) : Noted n :=
  ({ p.1 with
      world := p.1.world.setTask t ((p.1.world.tasks t).enter target error)
      entered := p.1.entered ++ [target] }, a)

/-- The state after a result is written. -/
def Noted.written (p : Noted n) (t : TaskId) (r : TaskResult) (a : Account n) : Noted n :=
  ({ p.1 with world := p.1.world.setTask t { p.1.world.tasks t with result := some r } }, a)

/-- A transition shows its target. -/
@[simp] theorem moved_status (target : TaskStatus) (error : Option String) (a : Account n) :
    (p.moved t target error a).status t = target := by simp [Noted.moved, Noted.status]

/-- Entering RUNNING clears the result, and no other transition touches it. -/
@[simp] theorem moved_result (target : TaskStatus) (error : Option String) (a : Account n) :
    (p.moved t target error a).result t = if target = .running then none else p.result t := by
  simp [Noted.moved, Noted.result, Task.enter]

/-- Storing a result leaves the status. -/
@[simp] theorem written_status (r : TaskResult) (a : Account n) :
    (p.written t r a).status t = p.status t := by
  simp [Noted.written, Noted.status, World.status]

/-- Storing a result shows that result. -/
@[simp] theorem written_result (r : TaskResult) (a : Account n) :
    (p.written t r a).result t = some r := by
  simp [Noted.written, Noted.result]

/-- A refused transition raises, and nothing is changed. -/
theorem act_refused {target : TaskStatus} (refused : (p.status t).canTransitionTo target = false)
    (who : Who n) (error : Option String) :
    (∃ m, (act x t who (.transition t target error) p).1 = .error (.valueError m)) ∧
      (act x t who (.transition t target error) p).2 = p := by
  have failed : (p.1.world.tasks t).transitionTo target error = .error _ :=
    if_neg (by rw [show (p.1.world.tasks t).status = p.status t from rfl, refused]; decide)
  constructor
  · exact ⟨_, by simp only [act, Threads.annotate, sem, TaskOp.perform, failed]; rfl⟩
  · cases who <;>
      simp [act, Threads.annotate, sem, note, TaskOp.perform, failed, newlyEntered, statusRead]

/-- An allowed transition moves the task, and whoever makes it owes the event of the new status. -/
theorem act_moved {target : TaskStatus} (allowed : (p.status t).canTransitionTo target = true)
    (who : Who n) (error : Option String) :
    (act x t who (.transition t target error) p).1 = .ok () ∧
      (act x t who (.transition t target error) p).2 = p.moved t target error
        (match who with
          | .attempt =>
            if isFinal target then { p.2 with attemptOwes := some target } else p.2
          | .cancel i =>
            if p.status t = .running then { p.2 with attemptOwes := some .cancelled }
            else { p.2 with cancelOwes := some (i, false) }) := by
  have ok : (p.1.world.tasks t).transitionTo target error =
      .ok ((p.1.world.tasks t).enter target error) := if_pos allowed
  have other : ¬ target = p.1.world.status t := by
    rintro rfl
    exact absurd allowed (by rw [Noted.status, canTransitionTo_irrefl]; decide)
  constructor
  · simp only [act, Threads.annotate, sem, TaskOp.perform, ok]
  · cases who with
    | attempt =>
      simp [act, Threads.annotate, sem, note, TaskOp.perform, ok, newlyEntered, other,
        Noted.moved]
    | cancel i =>
      simp [act, Threads.annotate, sem, note, TaskOp.perform, ok, newlyEntered, statusRead,
        other, Noted.moved, Noted.status]
      rfl

/-- Storing a result as the account has it. -/
theorem act_written (who : Who n) (r : TaskResult) :
    (act x t who (.setResult t r) p).2 = p.written t r
      (match who with
        | .attempt => p.2
        | .cancel i => { p.2 with cancelOwes := some (i, true) }) := by
  have same : (p.1.world.setTask t { p.1.world.tasks t with result := some r }).status t =
      p.1.world.status t := by simp [World.status]
  cases who <;>
    simp [act, Threads.annotate, sem, note, TaskOp.perform, newlyEntered, statusRead, same,
      Noted.written]

/-- The state after a terminal event is delivered. -/
structure Announced (t : TaskId) (s : TaskStatus) (a : Account n) (p q : Noted n) : Prop where
  tasks : q.1.world.tasks = p.1.world.tasks
  reported : ∀ s', reported q.1.world t s' = reported p.1.world t s' + if s = s' then 1 else 0
  entered : q.1.entered = p.1.entered
  account : q.2 = a

/-- Delivering the event of a final status pays what the thread owes for it. -/
theorem act_announced {e : TaskEvent} {s : TaskStatus} (own : e.taskId = t)
    (named : e.type.status = some s) (final : isFinal s = true) (who : Who n) :
    Announced t s (match who with
      | .attempt => { p.2 with attemptOwes := none }
      | .cancel _ => { p.2 with cancelOwes := none }) p (act x t who (.deliver t e) p).2 where
  tasks := rfl
  reported s' := by
    show reported ((TaskOp.deliver t e).perform x p.1.world).2 t s' = _
    rw [reported_deliver]
    simp [own, named]
  entered := by
    simp [act, Threads.annotate, sem, newlyEntered, TaskOp.perform, World.status]
  account := by
    have terminal : isTerminalEvent e = true := by
      simp only [isTerminalEvent, named, Option.any_some, final]
    cases who <;> simp [act, Threads.annotate, note, terminal]

/-- An announcement leaves the status. -/
theorem Announced.status {s : TaskStatus} {a : Account n} (h : Announced t s a p q) :
    q.status t = p.status t := by simp only [Noted.status, World.status, h.tasks]

/-- An announcement leaves the result. -/
theorem Announced.result {s : TaskStatus} {a : Account n} (h : Announced t s a p q) :
    q.result t = p.result t := by simp only [Noted.result, h.tasks]

/-- Only a status that is not a sink allows a transition. -/
theorem not_sink_of_allowed {s target : TaskStatus} (h : s.canTransitionTo target = true) :
    s.isSink = false := by
  cases sink : s.isSink with
  | false => rfl
  | true => rw [TaskStatus.canTransitionTo_of_isSink sink] at h; cases h

/-- Where no cancel holds the task, none owes anything for it. -/
theorem Balanced.cancelOwes_none (balanced : Balanced t p) (h : p.status t ≠ .cancelled) :
    p.2.cancelOwes = none := by
  cases owed : p.2.cancelOwes with
  | none => rfl
  | some _ => exact absurd (balanced.cancelOwes (by rw [owed]; rfl)).1 h

end Acts

end Race

end TTasks
