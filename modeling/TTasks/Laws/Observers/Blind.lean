import TTasks.Laws.Observers.Bare
import TTasks.Laws.Observers.Threads

/-!
# A run is blind to its saves

What is left of a save has one of few forms (`Saving`). Its steps are never held up and do not show
in the bare state, and the operations on the way do the same with a store and without: so a run with
observers is a run of the bare system that has saves put in.
-/

namespace TTasks

open Interleave
open Prog (Detours Rest)

namespace GraphRun

open Scheduler (Who)

variable {r : Setup}

/-! ## What is left of a save -/

/-- The announcement of a failed save. -/
def failureEvent (t : TaskId) (e : Exc) (status : TaskStatus) : TaskEvent :=
  { type := .persistenceFailed, taskId := t, previousStatus := none, status, error := some e.text }

inductive Saving : Program Unit → Prop
  | save (t : TaskId) : Saving (.act (.sched (.task (.save t))) fun answer =>
      within (Scheduler.liftTask (afterSave t answer)))
  | record (t : TaskId) (e : Exc) : Saving (.act (.sched (.task (.recordSaveError t e))) fun _ =>
      within (Scheduler.liftTask (announce t e)))
  | read (t : TaskId) (e : Exc) : Saving (.act (.sched (.task (.status t))) fun status =>
      within (Scheduler.liftTask (deliver t (failureEvent t e status))))
  | announce (t : TaskId) (e : Exc) (status : TaskStatus) :
      Saving (.act (.sched (.task (.deliver t (failureEvent t e status)))) fun _ => .ret ())
  | saveGraph : Saving (.act .saveGraph afterGraphSave)
  | recordGraph (e : Exc) : Saving (.act (.recordGraphError e) fun _ => .ret ())
  | back : Saving (.ret ())

theorem Saving.of_rest {b : Program Unit} (rest : Rest (IsSave r) b) : Saving b := by
  induction rest with
  | start leaves =>
    obtain ⟨store, ⟨t, rfl⟩ | rfl⟩ := leaves
    · rw [persist_eq store]
      exact .save t
    · rw [persistGraph_eq store]
      exact .saveGraph
  | back => exact .back
  | on _ x ih =>
    cases ih with
    | save t =>
      rcases x with e | ⟨⟨⟩⟩
      · exact .record t e
      · exact .back
    | record t e => exact .read t e
    | read t e => exact .announce t e x
    | announce t e status => exact .back
    | saveGraph =>
      rcases x with e | ⟨⟨⟩⟩
      · exact .recordGraph e
      · exact .back
    | recordGraph e => exact .back

/-- A step of a save is never held up. -/
theorem Saving.enabled {op : Op} {k : op.Ans → Program Unit} (saving : Saving (.act op k))
    (s : Shared) : op.enabled r s = true := by
  cases saving <;> rfl

/-- It does not show in the bare state. -/
theorem Saving.unseen {op : Op} {k : op.Ans → Program Unit} (saving : Saving (.act op k))
    (who : Who) (s : Shared) : (sem r who op s).2.bare = s.bare := by
  have world : ∀ {o : TaskOp}, o.OfSave → (sem r who (.sched (.task o)) s).2.bare = s.bare := by
    intro o save
    exact congrArg (fun w => ({ inner := { s.inner with world := w } } : Shared))
      (TaskOp.perform_unseen save r.executor s.inner.world)
  cases saving with
  | save t => exact world (o := .save t) trivial
  | record t e => exact world (o := .recordSaveError t e) trivial
  | read t e => exact world (o := .status t) trivial
  | announce t e status => exact world (o := .deliver t (failureEvent t e status)) rfl
  | saveGraph =>
    unfold sem
    dsimp only
    cases r.graphSaveFails s.graphSaves <;> rfl
  | recordGraph e => rfl

/-- Its thread shows that it is there. -/
theorem Saving.away {op : Op} {k : op.Ans → Program Unit} (saving : Saving (.act op k))
    (q : Program Unit) : persisting (Prog.act op fun x => (k x).bind fun _ => q) := by
  cases saving with
  | read t e => exact .inr ⟨rfl, .pending, rfl⟩
  | save t => exact .inl rfl
  | record t e => exact .inl rfl
  | announce t e status => exact .inl rfl
  | saveGraph => exact .inl rfl
  | recordGraph e => exact .inl rfl

/-! ## The way -/

theorem Op.not_announces {op : Op} (onWay : op.OnWay) : op.announces = false := by
  cases op with
  | sched o =>
    cases o with
    | task o =>
      cases o with
      | deliver t event => exact onWay
      | _ => rfl
    | _ => rfl
  | _ => rfl

theorem Op.not_ofSave {op : Op} (onWay : op.OnWay) : op.ofSave = false := by
  have quiet := Op.not_announces onWay
  cases op with
  | sched o =>
    cases o with
    | task o =>
      cases o with
      | save t => exact onWay.elim
      | recordSaveError t e => exact onWay.elim
      | _ => exact quiet
    | _ => exact quiet
  | resetErrors => rfl
  | saveGraph => exact onWay.elim
  | recordGraphError e => exact onWay.elim

/-- A program on its way is not at an announcement. -/
theorem not_announcing {α : Type} {p p' : Program α} (h : Detoured r p p') : ¬ announcing p := by
  induction h with
  | ret a => exact id
  | fail e => exact id
  | act onWay _ _ =>
    change ¬ _ = true
    rw [Op.not_announces onWay]
    exact Bool.false_ne_true
  | detour leaves _ ih =>
    obtain ⟨store, ⟨t, rfl⟩ | rfl⟩ := leaves
    · rw [persist_eq store]
      exact Bool.false_ne_true
    · rw [persistGraph_eq store]
      exact Bool.false_ne_true

theorem not_persisting {α : Type} {op : Op} {k k' : op.Ans → Program α} (onWay : op.OnWay)
    (next : ∀ x, Detoured r (k x) (k' x)) : ¬ persisting (Prog.act op k) := by
  rintro (save | ⟨-, x, announces⟩)
  · rw [Op.not_ofSave onWay] at save
    cases save
  · exact not_announcing (next x) announces

/-- The operations on the way wait for the same things. -/
theorem Op.enabled_bare (op : Op) (s : Shared) : op.enabled r.bare s.bare = op.enabled r s := by
  cases op with
  | sched o => cases o <;> rfl
  | _ => rfl

theorem sem_bare {op : Op} (onWay : op.OnWay) (who : Who) (s : Shared) :
    sem r.bare who op s.bare = ((sem r who op s).1, (sem r who op s).2.bare) := by
  cases op with
  | saveGraph => exact onWay.elim
  | recordGraphError e => exact onWay.elim
  | resetErrors => rfl
  | sched o =>
    cases o with
    | task o =>
      have world := o.perform_bare r.executor s.inner.world onWay
      exact congrArg (fun p : o.Ans × World =>
        (p.1, ({ inner := { s.inner with world := p.2 } } : Shared))) world
    | poolSubmit t upstream =>
      obtain ⟨inner, _, _, _⟩ := s
      obtain ⟨_, _, _, _, _, _, _, _, _, _, shutdown⟩ := inner
      cases shutdown <;> rfl
    | addDoneCallback t =>
      cases stage : s.inner.stage t <;>
        simp [sem, Scheduler.SchedOp.perform, Shared.bare, Scheduler.Shared.setCallback,
          Scheduler.Stage.isDone, stage]
    | recordException t =>
      cases stage : s.inner.stage t <;>
        simp [sem, Scheduler.SchedOp.perform, Shared.bare, Scheduler.Shared.setCallback, stage]
    | _ => rfl

section Blind

variable (r) {α κ : Type} (o : Observers α κ)

/-- One operation of one thread, with the bus beside it. -/
abbrev beside (who : Who) : (op : Op) → Shared × Bus α → op.Ans × (Shared × Bus α) :=
  emitting o.subscribers Op.event? (sem (o.setup r) who)

/-- The run with observers is blind to its saves. -/
theorem blind : Threads.Blind (α := Unit) (beside r o)
    (fun _ op s => op.enabled r s.1 = true) (sem r.bare)
    (fun _ op t => op.enabled r.bare t = true) persisting (IsSave (o.setup r)) Op.OnWay
    (fun s t => t = s.1.bare) where
  total := save_total
  enabled := by
    rintro _ op s _ - rfl
    rw [Op.enabled_bare]
  answer := by
    rintro who op s _ onWay rfl
    exact (congrArg Prod.fst (sem_bare (r := o.setup r) onWay who s.1)).symm
  effect := by
    rintro who op s _ onWay rfl
    exact congrArg Prod.snd (sem_bare (r := o.setup r) onWay who s.1)
  free := by
    intro _ op k s rest
    exact (Saving.of_rest rest).enabled s.1
  unseen := by
    rintro who op k s _ rest rfl
    exact ((Saving.of_rest rest).unseen who s.1).symm
  away op k q rest := (Saving.of_rest rest).away q
  onWay _ _ _ onWay next := not_persisting onWay next
  halted p here := by
    cases p with
    | act op k => trivial
    | _ => exact here

end Blind

end GraphRun

end TTasks
