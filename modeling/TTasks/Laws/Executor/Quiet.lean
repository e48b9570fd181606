import TTasks.Executor

/-!
# Saving and announcing under interference

What one operation does to a task's type and status, to the calls and, for a transition, to the
task. `_persist` and `_emit` read the task, save it and publish an event, whatever other threads do in
between. `Skips` says of a thread's contract that a kind of operations may always be taken and
leads along a relation; what `_persist` and `_emit` are made of being of that kind, each of them is
one step along the relation.
-/

namespace TTasks

open Interleave
open Prog (Contract)

/-! ## Single operations -/

/-- No operation changes the type of a task. -/
theorem TaskOp.perform_type (x : Executor) (o : TaskOp) (w : World) (u : TaskId) :
    ((o.perform x w).2.tasks u).type = (w.tasks u).type := by
  cases o with
  | transition t target e =>
    simp only [TaskOp.perform]
    cases moved : (w.tasks t).transitionTo target e with
    | error _ => rfl
    | ok task =>
      obtain ⟨-, rfl⟩ := Task.transitionTo_ok moved
      show (if u = t then _ else _ : Task).type = _
      split
      · rename_i same; subst same; rfl
      · rfl
  | setResult t r =>
    show (if u = t then _ else _ : Task).type = _
    split
    · rename_i same; subst same; rfl
    · rfl
  | setBlockedBy t p =>
    show (if u = t then _ else _ : Task).type = _
    split
    · rename_i same; subst same; rfl
    · rfl
  | save t =>
    simp only [TaskOp.perform]
    split <;> rfl
  | _ => rfl

/-- Only a transition changes a status. -/
theorem TaskOp.perform_status (x : Executor) {o : TaskOp} (still : ∀ u s e, o ≠ .transition u s e)
    (w : World) (u : TaskId) : (o.perform x w).2.status u = w.status u := by
  cases o with
  | transition t target e => exact absurd rfl (still t target e)
  | setResult t r =>
    show (if u = t then _ else _ : Task).status = (w.tasks u).status
    split
    · rename_i same; subst same; rfl
    · rfl
  | setBlockedBy t p =>
    show (if u = t then _ else _ : Task).status = (w.tasks u).status
    split
    · rename_i same; subst same; rfl
    · rfl
  | save t =>
    simp only [TaskOp.perform]
    split <;> rfl
  | _ => rfl

/-- Only a call changes the record of calls. -/
theorem TaskOp.perform_calls (x : Executor) {o : TaskOp} (still : ∀ u ups, o ≠ .call u ups)
    (w : World) : (o.perform x w).2.calls = w.calls := by
  cases o with
  | call t ups => exact absurd rfl (still t ups)
  | transition t target e =>
    simp only [TaskOp.perform]
    split <;> rfl
  | save t =>
    simp only [TaskOp.perform]
    split <;> rfl
  | _ => rfl

/-- Neither a call nor a write to a task. -/
def TaskOp.isSilent : TaskOp → Bool
  | .transition _ _ _ | .setResult _ _ | .setBlockedBy _ _ | .call _ _ => false
  | _ => true

theorem TaskOp.perform_silent (x : Executor) {o : TaskOp} (silent : o.isSilent = true) (w : World) :
    (o.perform x w).2.tasks = w.tasks ∧ (o.perform x w).2.calls = w.calls := by
  cases o with
  | transition _ _ _ | setResult _ _ | setBlockedBy _ _ | call _ _ => cases silent
  | save t =>
    simp only [TaskOp.perform]
    split <;> exact ⟨rfl, rfl⟩
  | _ => exact ⟨rfl, rfl⟩

/-- A transition that the table allows. -/
theorem TaskOp.perform_moved (x : Executor) {w : World} {t : TaskId} {target : TaskStatus}
    (allowed : (w.status t).canTransitionTo target = true) (error : Option String) :
    (TaskOp.transition t target error).perform x w =
      (.ok (), w.setTask t ((w.tasks t).enter target error)) := by
  have moved : (w.tasks t).transitionTo target error = .ok ((w.tasks t).enter target error) :=
    if_pos allowed
  simp only [TaskOp.perform, moved]

/-- A transition that the table refuses. -/
theorem TaskOp.perform_refused (x : Executor) {w : World} {t : TaskId} {target : TaskStatus}
    (refused : (w.status t).canTransitionTo target = false) (error : Option String) :
    ∃ m, (TaskOp.transition t target error).perform x w = (.error (.valueError m), w) := by
  have kept : ∃ m, (w.tasks t).transitionTo target error = .error (.valueError m) :=
    ⟨_, if_neg (by rw [World.status] at refused; simp [refused])⟩
  obtain ⟨m, kept⟩ := kept
  exact ⟨m, by simp only [TaskOp.perform, kept]⟩

/-! ## Programs of quiet operations -/

/-- A contract under which the quiet operations may always be taken and lead along `skip`. The
state may hold more than the `World` that the operations work on. -/
structure Skips {σ : Type} (x : Executor) (t : TaskId) (world : σ → World)
    (sem : (o : TaskOp) → σ → o.Ans × σ) (C : Contract TaskOp σ) (quiet : TaskOp → Prop)
    (skip : σ → σ → Prop) : Prop where
  answer : ∀ o a, (sem o a).1 = (o.perform x (world a)).1
  trans : ∀ {a b c}, skip a b → skip b c → skip a c
  rely : ∀ {a b}, C.rely a b → skip a b
  ready : ∀ {o a b}, quiet o → C.rely a b → C.ready o b
  step : ∀ {o a b}, quiet o → C.rely a b → C.guar o b ∧ skip b (sem o b).2 ∧
    (world (sem o b).2).status t = (world b).status t
  read : quiet (.status t)
  save : quiet (.save t)
  record : ∀ e, quiet (.recordSaveError t e)
  failed : ∀ e : TaskEvent, e.type = .persistenceFailed → quiet (.deliver t e)

namespace Skips

variable {σ : Type} {x : Executor} {t : TaskId} {world : σ → World}
  {sem : (o : TaskOp) → σ → o.Ans × σ} {C : Contract TaskOp σ} {quiet : TaskOp → Prop}
  {skip : σ → σ → Prop} (S : Skips x t world sem C quiet skip) {p : σ}

include S

theorem wp_quiet {o : TaskOp} (ho : quiet o) {α : Type} {k : o.Ans → Exec α}
    {Q : Except Exc α → σ → Prop}
    (next : ∀ b, C.rely p b → skip p (sem o b).2 →
      (world (sem o b).2).status t = (world b).status t →
      (k (o.perform x (world b)).1).wp sem C Q (sem o b).2) :
    (Prog.act o k).wp sem C Q p := by
  intro b rely
  refine ⟨S.ready ho rely, fun _ => ?_⟩
  obtain ⟨guar, skipped, same⟩ := S.step ho rely
  rw [S.answer]
  exact ⟨guar, next b rely (S.trans (S.rely rely) skipped) same⟩

theorem wp_readStatus {Q : Except Exc TaskStatus → σ → Prop}
    (next : ∀ q, skip p q → Q (.ok ((world q).status t)) q) : (readStatus t).wp sem C Q p :=
  S.wp_quiet (o := .status t) S.read fun _ _ skipped same =>
    (congrArg (fun s => Q (.ok s) _) same.symm).mpr (next _ skipped)

theorem wp_deliver {e : TaskEvent} (ho : quiet (.deliver t e)) {Q : Except Exc Unit → σ → Prop}
    (next : ∀ q, skip p q → Q (.ok ()) q) : (deliver t e).wp sem C Q p :=
  S.wp_quiet (o := .deliver t e) ho fun _ _ skipped _ => next _ skipped

theorem wp_readType (ho : quiet (.type t)) {Q : Except Exc TaskType → σ → Prop}
    (next : ∀ q type, skip p q → Q (.ok type) q) : (readType t).wp sem C Q p :=
  S.wp_quiet (o := .type t) ho fun _ _ skipped _ => next _ _ skipped

theorem wp_terminateProcess (ho : quiet (.terminateProcess t)) {Q : Except Exc Unit → σ → Prop}
    (next : ∀ q, skip p q → Q (.ok ()) q) : (terminateProcess t).wp sem C Q p :=
  S.wp_quiet (o := .terminateProcess t) ho fun _ _ skipped _ => next _ skipped

theorem wp_persist {Q : Except Exc Unit → σ → Prop} (next : ∀ q, skip p q → Q (.ok ()) q)
    (stay : skip p p) : (persist x t).wp sem C Q p := by
  unfold persist
  split
  · simp only [Prog.tryCatch_eq, Prog.wp_tryCatch, TTasks.save, Prog.bind_eq, Prog.wp_bind]
    refine S.wp_quiet (o := .save t) S.save fun b _ skipped _ => ?_
    simp only [Prog.wp_ret, Prog.onOk]
    cases ((TaskOp.save t).perform x (world b)).1 with
    | ok _ => exact next _ skipped
    | error e =>
      refine S.wp_quiet (o := .recordSaveError t e) (S.record e) fun _ _ skipped' _ => ?_
      simp only [Prog.wp_ret, Prog.onOk]
      refine S.wp_readStatus fun q skipped'' => ?_
      refine S.wp_deliver (S.failed _ rfl) fun _ skipped''' => ?_
      exact next _ (S.trans (S.trans (S.trans skipped skipped') skipped'') skipped''')
  · exact next p stay

/-- An event that is quiet to deliver, whatever status it reports. -/
theorem wp_emit {type : TaskEventType} {previous : Option TaskStatus} {error : Option String}
    (ho : ∀ s, quiet (.deliver t { type, taskId := t, previousStatus := previous, status := s, error }))
    {Q : Except Exc Unit → σ → Prop} (next : ∀ q, skip p q → Q (.ok ()) q) (stay : skip p p) :
    (emit x t type previous error).wp sem C Q p := by
  simp only [emit, Prog.bind_eq, Prog.wp_bind]
  refine S.wp_persist (fun q skipped => ?_) stay
  refine S.wp_readStatus fun r skipped' => ?_
  exact S.wp_deliver (ho _) fun _ skipped'' => next _ (S.trans (S.trans skipped skipped') skipped'')

end Skips

end TTasks
