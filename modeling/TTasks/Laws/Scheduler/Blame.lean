import TTasks.Laws.Scheduler.Beside
import TTasks.Laws.Scheduler.Escape

/-!
# What a task says that it is blocked by

`blocked_by` through one run, at any interleaving: a task that has a blocker either entered the run
with it, and is BLOCKED or CANCELLED, or was marked BLOCKED in the run, and then the blocker is a
dependency of the task that is past hope (`accounted_of_reachable`).
-/

namespace TTasks.Scheduler

open Interleave
open Prog (Contract Keeps OpKeeps)

section Definitions

variable (r : Run)

/-- The run has marked the task on account of a dependency that will not become SUCCEEDED. -/
structure Blames (s : Shared) (t p : TaskId) : Prop where
  absent : s.stage t = .absent
  blocked : s.status t = .blocked
  pending : entered r t = .pending
  parent : p ∈ r.graph.deps t
  hopeless : Hopeless r s p

/-- The task has the blocker that it entered with. -/
def Carries (s : Shared) (t p : TaskId) : Prop :=
  (r.world.tasks t).blockedBy = some p ∧ (s.status t = .blocked ∨ s.status t = .cancelled)

/-- Every blocker is accounted for: it was there on entry, or this run has put it there. -/
def Accounted (s : Shared) : Prop :=
  ∀ t ∈ r.graph.keys, ∀ p, (s.world.tasks t).blockedBy = some p → Carries r s t p ∨ Blames r s t p

/-- Blockers, beside the first contracts. -/
def blame : Beside where
  inv := Accounted r
  rely _ _ _ := True
  guar _ o s := ∀ t p, o = .task (.setBlockedBy t p) → ∃ q, p = some q ∧ Blames r s t q

end Definitions

/-- An operation that leaves a task with a blocker has set it, or the task had it before and does not
enter RUNNING. -/
theorem perform_blockedBy (x : Executor) {o : TaskOp} {w : World} {t p : TaskId}
    (has : ((o.perform x w).2.tasks t).blockedBy = some p) :
    o = .setBlockedBy t (some p) ∨ (w.tasks t).blockedBy = some p ∧
      ((o.perform x w).2.status t = w.status t ∨
        (w.status t).canTransitionTo ((o.perform x w).2.status t) = true ∧
          (o.perform x w).2.status t ≠ .running) := by
  cases o with
  | transition u target message =>
    cases allowed : (w.status u).canTransitionTo target with
    | false =>
      obtain ⟨m, refused⟩ := TaskOp.perform_refused x allowed message
      rw [refused] at has ⊢
      exact .inr ⟨has, .inl rfl⟩
    | true =>
      rw [TaskOp.perform_moved x allowed message] at has ⊢
      right
      rw [moved_status]
      by_cases same : t = u
      · subst same
        rw [World.setTask_tasks, if_pos rfl] at has
        have other : target ≠ .running := by
          rintro rfl
          cases has
        simp only [Task.enter, if_neg other] at has
        rw [if_pos rfl]
        exact ⟨has, .inr ⟨allowed, other⟩⟩
      · rw [World.setTask_tasks, if_neg same] at has
        rw [if_neg same]
        exact ⟨has, .inl rfl⟩
  | setBlockedBy u q =>
    by_cases same : t = u
    · subst same
      left
      simp only [TaskOp.perform, World.setTask_tasks, if_true] at has
      rw [has]
    · right
      simp only [TaskOp.perform, World.setTask_tasks, if_neg same] at has
      exact ⟨has, .inl (TaskOp.perform_status x (by simp) w t)⟩
  | setResult u result =>
    right
    refine ⟨?_, .inl (TaskOp.perform_status x (by simp) w t)⟩
    by_cases same : t = u
    · subst same
      simpa only [TaskOp.perform, World.setTask_tasks, if_true] using has
    · simpa only [TaskOp.perform, World.setTask_tasks, if_neg same] using has
  | save u =>
    right
    refine ⟨?_, .inl (TaskOp.perform_status x (by simp) w t)⟩
    simp only [TaskOp.perform] at has
    split at has <;> exact has
  | _ => exact .inr ⟨has, .inl rfl⟩

section Blame

variable {r : Run} {M : Mode r} {s s' : Shared} {t p : TaskId} {who : Who} {o : SchedOp}

/-- The blame stays. -/
theorem Blames.forward (calm : r.cancels = []) (forward : Forward r s s') (h : Blames r s t p) :
    Blames r s' t p := by
  have fixed : Fixed r s t := .inr (.inr ⟨h.absent, h.blocked, h.pending⟩)
  obtain ⟨-, status, absent⟩ := forward.fixed calm t fixed
  exact ⟨absent h.absent, status.trans h.blocked, h.pending, h.parent,
    h.hopeless.forward calm forward⟩

/-- A task that is BLOCKED or CANCELLED and does not enter RUNNING is still one of the two. -/
theorem stays_of_moves {status status' : TaskStatus}
    (before : status = .blocked ∨ status = .cancelled)
    (moves : status' = status ∨ status.canTransitionTo status' = true ∧ status' ≠ .running) :
    status' = .blocked ∨ status' = .cancelled := by
  rcases moves with same | ⟨allowed, other⟩
  · rw [same]
    exact before
  · revert allowed other
    rcases before with h | h <;> rw [h] <;> cases status' <;> decide

/-- What an operation does to a task's record is what its executor operation does. -/
theorem perform_world (r : Run) (who : Who) (o : SchedOp) (s : Shared) :
    (SchedOp.perform r who o s).2.world = s.world ∨
      ∃ o', o = .task o' ∧
        (SchedOp.perform r who o s).2.world = (o'.perform r.executor s.world).2 := by
  cases o with
  | task o => exact .inr ⟨o, rfl, rfl⟩
  | poolSubmit u upstream =>
    simp only [SchedOp.perform]
    split <;> exact .inl rfl
  | addDoneCallback u =>
    simp only [SchedOp.perform]
    split <;> exact .inl rfl
  | recordException u =>
    simp only [SchedOp.perform]
    split <;> exact .inl rfl
  | _ => exact .inl rfl

/-- Each operation keeps the blockers accounted for. -/
theorem Accounted.step (calm : r.cancels = []) (h : Accounted r s)
    (moved : Moved M who s (SchedOp.perform r who o s).2) (guar : (blame r).guar who o s) :
    Accounted r (SchedOp.perform r who o s).2 := by
  intro t key p has
  rcases perform_world r who o s with same | ⟨o', rfl, performs⟩
  · rw [same] at has
    rcases h t key p has with ⟨carried, status⟩ | blames
    · refine .inl ⟨carried, ?_⟩
      rw [Shared.status, same]
      exact status
    · exact .inr (blames.forward calm moved.forward)
  · rw [performs] at has
    rcases perform_blockedBy r.executor has with rfl | ⟨before, moves⟩
    · obtain ⟨q, is, blames⟩ := guar t (some p) rfl
      cases is
      exact .inr (blames.forward calm moved.forward)
    · rcases h t key p before with ⟨carried, status⟩ | blames
      · exact .inl ⟨carried, stays_of_moves status moves⟩
      · exact .inr (blames.forward calm moved.forward)

/-! ## The threads -/

variable (calm : r.cancels = [])

/-- The operations that set no blocker. -/
def Blameless (o : SchedOp) : Prop := ∀ t p, o ≠ .task (.setBlockedBy t p)

/-- An operation that writes no blocker keeps to the contract, and whatever else it keeps. -/
theorem keeps_blameless (B : Shared → Prop) (o : SchedOp) (blameless : Blameless o)
    (stays : ∀ a b, B a → Env (Mode.anyTime calm) who a b → B b)
    (step : ∀ a, B a → Moved (Mode.anyTime calm) who a (SchedOp.perform r who o a).2 →
      B (SchedOp.perform r who o a).2) :
    OpKeeps (SchedOp.perform r who) ((blame r).contract (Mode.anyTime calm) who) B o := by
  rintro a b h ⟨env, -⟩
  refine ⟨trivial, ?_⟩
  rintro ⟨-, -, moved⟩
  have here := stays a b h env
  exact ⟨⟨moved, fun t p is => absurd is (blameless t p)⟩, step b here moved⟩

/-- The scheduler's own operations write no blocker. -/
theorem blameless_of_internal {o : SchedOp} (internal : Internal o) : Blameless o := by
  rintro t p rfl
  exact internal

/-- An internal operation under the lock keeps to the contract. -/
theorem keeps_inner (who : Who) (o : SchedOp) (inner : Inner o) :
    OpKeeps (SchedOp.perform r who) ((blame r).contract (Mode.anyTime calm) who)
      (Locked (Mode.anyTime calm) who) o :=
  keeps_blameless calm _ o (blameless_of_internal (internal_of_inner inner))
    (fun _ _ h env => h.env env) fun a h moved => ⟨moved.inv, (lock_of_inner inner a).trans h.2⟩

/-- What the scheduler is about to say, or has said: the parent is a dependency past hope. -/
def Hopes (r : Run) (t bad : TaskId) (s : Shared) : Prop :=
  bad ∈ r.graph.deps t ∧ Hopeless r s bad

/-- The scheduler's code keeps to the contract: it marks a task for the parent it has decided on. -/
theorem code_blame (who : Who) :
    Code r who ((blame r).contract (Mode.anyTime calm) who) (Locked (Mode.anyTime calm) who)
      (Hopes r) where
  outer o internal _ := keeps_blameless calm _ o (blameless_of_internal internal)
    (fun _ _ _ _ => trivial) fun _ _ _ => trivial
  inner o inner := keeps_inner calm who o inner
  acquired a b _ allowed := ⟨allowed.2.2.inv, rfl⟩
  -- `decide` answers with its grounds, as it does without the account
  decide t s locked := by
    have holds : Holds (Mode.anyTime calm) who s.scheduling s := ⟨locked.1, locked.2, rfl⟩
    have grounds : (Scheduler.decide r t).wp (SchedOp.perform r who)
        ((blame r).contract (Mode.anyTime calm) who)
        (Seen (Mode.anyTime calm) who s.scheduling s (Grounds r t)) s := by
      refine Prog.wp_of_contract ?_ ?_ (fun _ _ => trivial) ?_ (.of_only (only_decide t))
        (wp_grounds calm holds)
      · rintro a b ⟨env, -⟩
        exact env
      · rintro o a ⟨allowed, -⟩
        exact allowed
      · rintro o a looks ⟨-, -, moved⟩ -
        exact ⟨moved, fun t p is =>
          absurd is (blameless_of_internal (internal_of_inner (inner_of_reads looks.reads)) t p)⟩
    refine Prog.wp_mono grounds ?_
    rintro (e | d) b seen
    · exact seen.elim
    · obtain ⟨holds, -, grounds⟩ := seen
      refine ⟨⟨holds.inv, holds.mine⟩, ?_⟩
      rintro _ ⟨⟩ bad rfl
      obtain ⟨-, -, parent, hopeless⟩ := grounds.block bad rfl
      exact ⟨parent, hopeless⟩
  -- `mark_blocked` puts down the parent that was decided on; between its two operations `Blames`
  -- holds already
  mark t bad s locked known := by
    have keeps : (liftTask (markBlocked r.executor t (some bad))).wp (SchedOp.perform r who)
        ((blame r).contract (Mode.anyTime calm) who)
        (fun _ s' => Locked (Mode.anyTime calm) who s' ∧ Hopes r t bad s') s := by
      have stays : ∀ a b, Locked (Mode.anyTime calm) who a ∧ Hopes r t bad a →
          Env (Mode.anyTime calm) who a b → Locked (Mode.anyTime calm) who b ∧ Hopes r t bad b :=
        fun a b h env => ⟨h.1.env env, h.2.1, h.2.2.forward calm env.forward⟩
      have step : ∀ a (o : TaskOp), Locked (Mode.anyTime calm) who a ∧ Hopes r t bad a →
          Moved (Mode.anyTime calm) who a (SchedOp.perform r who (.task o) a).2 →
          Locked (Mode.anyTime calm) who (SchedOp.perform r who (.task o) a).2 ∧
            Hopes r t bad (SchedOp.perform r who (.task o) a).2 :=
        fun a o h moved => ⟨⟨moved.inv, h.1.2⟩, h.2.1, h.2.2.forward calm moved.forward⟩
      have imp : ∀ s, (Locked (Mode.anyTime calm) who s ∧ Hopes r t bad s) ∧ Blames r s t bad →
          Locked (Mode.anyTime calm) who s ∧ Hopes r t bad s := fun _ h => h.1
      refine wp_markBlocked_parts ⟨locked, known⟩ ?_ ?_ ?_ imp
      · exact keeps_blameless calm _ _ (by intro t p; simp) stays fun a => step a _
      · rintro a b h ⟨env, -⟩
        refine ⟨trivial, ?_⟩
        rintro ⟨-, inv, moved⟩
        have here := step b _ (stays a b h env) moved
        refine ⟨⟨moved, by simp [blame]⟩, here, fun ok => ⟨here, ?_⟩⟩
        obtain ⟨absent, blocked, pending⟩ := marked_of_ok calm inv moved ok
        exact ⟨absent, blocked, pending, here.2.1, here.2.2⟩
      · rintro o marks a b ⟨h, blames⟩ ⟨env, -⟩
        refine ⟨trivial, ?_⟩
        rintro ⟨-, -, moved⟩
        have blames := blames.forward calm env.forward
        refine ⟨⟨moved, ?_⟩, step b o (stays a b h env) moved, blames.forward calm moved.forward⟩
        rintro u q ⟨⟩
        obtain ⟨rfl, rfl⟩ := marks
        exact ⟨bad, rfl, blames⟩
    exact Prog.wp_mono keeps fun _ _ h => h.1
  close := keeps_close (fun o inner => keeps_inner calm who o inner)
    (keeps_blameless calm _ .setDone (blameless_of_internal trivial) (fun _ _ h env => h.env env)
      fun _ h moved => ⟨moved.inv, h.2⟩)

/-- A worker writes no blocker but in its calls of `schedule`. -/
theorem wp_worker_blame : (worker r t).wp (SchedOp.perform r (.worker t))
    ((blame r).contract (Mode.anyTime calm) (.worker t)) (fun _ _ => True) s := by
  have blameless : ∀ o, Blameless o → OpKeeps (SchedOp.perform r (.worker t))
      ((blame r).contract (Mode.anyTime calm) (.worker t)) (fun _ => True) o := fun o blameless =>
    keeps_blameless calm _ o blameless (fun _ _ _ _ => trivial) fun _ _ _ => trivial
  have executes : ∀ upstream, Keeps (SchedOp.perform r (.worker t))
      ((blame r).contract (Mode.anyTime calm) (.worker t)) (fun _ => True)
      (liftTask (execute r.executor t upstream)) := by
    intro upstream
    have uses : (executeOnce r.executor t upstream).Uses (TaskOp.Speaks t fun _ => True) :=
      uses_executeOnce r.executor t (fun _ => trivial) upstream
    refine Keeps.of_uses (P := Blameless) blameless (uses.lift ?_)
    rintro o ⟨-, -, none⟩ u p is
    cases is
    exact none u p rfl
  have whole : Keeps (SchedOp.perform r (.worker t))
      ((blame r).contract (Mode.anyTime calm) (.worker t)) (fun _ => True) (worker r t) := by
    refine Keeps.bind (.op (blameless _ (by intro u p; simp))) fun upstream => ?_
    refine Keeps.bind (executes upstream).caught fun exception => ?_
    refine Keeps.bind (.op (blameless _ (by intro u p; simp))) fun registered => ?_
    have code := code_blame calm (.worker t)
    exact (code.callbacks t registered).bind fun _ => code.out (.leave t) trivial
  exact whole s trivial

include calm

/-- The threads keep the second contracts. -/
theorem fits_blame (entry : ∀ t ∈ r.graph.keys, ∀ p, (r.world.tasks t).blockedBy = some p →
    entered r t = .blocked ∨ entered r t = .cancelled) : (blame r).Fits (Mode.anyTime calm) where
  start t key p has := .inl ⟨has, entry t key p has⟩
  refl _ _ := trivial
  trans _ _ _ _ _ _ _ := trivial
  inv _ _ _ _ accounted moved guar := accounted.step calm moved guar
  rely _ _ _ _ _ _ _ _ := trivial
  each who := by
    cases who with
    | main => exact (code_blame calm .main).main _ trivial
    | worker t => exact wp_worker_blame calm
    | outside i =>
      have none : r.cancels[i]? = none := by rw [calm]; rfl
      show (canceller r i).wp _ _ _ _
      unfold canceller
      rw [none]
      trivial

/-- Whatever a task says that it is blocked by, it has entered with, or the run has marked it on
account of that dependency. -/
theorem accounted_of_reachable (entry : ∀ t ∈ r.graph.keys, ∀ p,
    (r.world.tasks t).blockedBy = some p → entered r t = .blocked ∨ entered r t = .cancelled)
    {s : State} (run : Reachable r anyTime s) : Accounted r s.shared :=
  (fits_blame calm entry).reachable run

end Blame

end TTasks.Scheduler
