import TTasks.Laws.Scheduler.Escape

/-!
# Which tasks are submitted, and when

In every interleaving of a run that nobody cancels. `Orderly` says of one state that each task has
been submitted at most once, with its dependencies for upstream ids, and that a task has been marked
BLOCKED only for a reason. `Lasting` says of a state and any later one that what the scheduler has
acted on does not change any more. So a task that has succeeded is not executed again, in this run
or in any later one (`run_orderly`).
-/

namespace TTasks.Scheduler

open Interleave

section Once

variable {r : Run} {s s' : Shared} {t : TaskId}

/-- The task has been submitted. -/
def Submitted (s : Shared) (t : TaskId) : Prop := t ∈ s.submitted.map Prod.fst

/-- The task has been marked BLOCKED in this run. -/
def NewlyBlocked (r : Run) (s : Shared) (t : TaskId) : Prop :=
  s.status t = .blocked ∧ entered r t ≠ .blocked

/-- The submissions and the marks of a run so far. -/
structure Orderly (r : Run) (s : Shared) : Prop where
  once : (s.submitted.map Prod.fst).Nodup
  upstream : ∀ p ∈ s.submitted, p.2 = r.graph.deps p.1
  normal : ∀ p ∈ s.submitted, r.graph.isFinally p.1 = false →
    ∀ d ∈ r.graph.deps p.1, s.status d = .succeeded
  blocked : ∀ t, NewlyBlocked r s t →
    entered r t = .pending ∧ r.graph.isFinally t = false ∧ ¬ Submitted s t
  calls : ∃ new, s.world.calls = r.world.calls ++ new ∧ (new.map Prod.fst).Nodup ∧
    ∀ c ∈ new, c.2 = r.graph.deps c.1 ∧ Submitted s c.1

/-- What a later state of the run has not changed. -/
structure Lasting (r : Run) (s s' : Shared) : Prop where
  skipped : ∀ t, ¬ Submitted s t → (s.status t).isSink = true ∨ NewlyBlocked r s t →
    ¬ Submitted s' t
  finally_ : ∀ p ∈ s.submitted, r.graph.isFinally p.1 = true →
    ∀ d ∈ r.graph.deps p.1, s'.status d = s.status d

/-! ## One run -/

theorem submitted_iff (coherent : Coherent r s) : Submitted s t ↔ s.stage t ≠ .absent :=
  coherent.mem t

/-- A submitted task is not brought to BLOCKED. -/
theorem marked_of_newlyBlocked (core : Core r s) (blocked : NewlyBlocked r s t) :
    s.stage t = .absent ∧ Marked r s t := by
  have notEnding : ending r t ≠ .blocked := by
    have range : ending r t = .succeeded ∨ ending r t = .failed ∨ ending r t = .cancelled ∨
      ending r t = .running := r.executor.ending_cases r.world t
    intro h
    rw [h] at range
    simp at range
  obtain ⟨now, before⟩ := blocked
  cases stage : s.stage t with
  | absent =>
    refine ⟨rfl, (core.absent t stage).resolve_left fun same => ?_⟩
    exact before (same.symm.trans now)
  | queued => exact absurd ((core.queued t stage).symm.trans now) before
  | running =>
    rcases core.running t stage with same | running | ended
    · exact absurd (same.symm.trans now) before
    · rw [now] at running
      cases running
    · exact absurd (ended.symm.trans now) notEnding
  | done e => exact absurd ((core.done t e stage).1.symm.trans now) notEnding

theorem orderly (coherent : Coherent r s) (core : Core r s) : Orderly r s where
  once := coherent.nodup
  upstream p hp := (core.submitted p hp).1
  normal p hp normal := (core.submitted p hp).2.2.normal normal
  blocked t blocked := by
    obtain ⟨absent, marked⟩ := marked_of_newlyBlocked core blocked
    exact ⟨marked.pending, marked.normal, fun submitted => (submitted_iff coherent).mp submitted absent⟩
  calls := by
    obtain ⟨new, calls, nodup, each⟩ := core.calls
    refine ⟨new, calls, nodup, fun c hc => ⟨(each c hc).1, ?_⟩⟩
    rw [submitted_iff coherent]
    intro absent
    have started := (each c hc).2
    rw [absent] at started
    exact absurd started (by decide)

theorem lasting (calm : r.cancels = []) (coherent : Coherent r s) (core : Core r s)
    (coherent' : Coherent r s') (forward : Forward r s s') : Lasting r s s' where
  skipped t absent settled submitted := by
    rw [submitted_iff coherent, not_not] at absent
    have fixed : Fixed r s t := by
      rcases settled with sink | blocked
      · exact .inr (.inl sink)
      · have marked := (marked_of_newlyBlocked core blocked).2
        exact .inr (.inr ⟨absent, marked.blocked, marked.pending⟩)
    exact (submitted_iff coherent').mp submitted ((forward.fixed calm t fixed).2.2 absent)
  finally_ p hp final d hd :=
    (forward.fixed calm d ((core.submitted p hp).2.2.finally_ final d hd)).2.1

/-- A blocked task has a dependency that never becomes SUCCEEDED. -/
theorem hopeless_of_newlyBlocked (calm : r.cancels = []) (core : Core r s)
    (blocked : NewlyBlocked r s t) :
    ∃ d ∈ r.graph.deps t, ∀ s', Forward r s s' → s'.status d ≠ .succeeded := by
  obtain ⟨d, hd, hopeless⟩ := (marked_of_newlyBlocked core blocked).2.parent
  exact ⟨d, hd, fun s' forward => (hopeless.forward calm forward).2⟩

/-- A run leads forward. -/
theorem forward_of_reaches {M : Mode r} {a b : State} (sound : Sound M a)
    (run : (machine r).Reaches (Steps r M.allow) a b) : Forward r a.shared b.shared :=
  sound.along (compatible M) (Forward.refl r) Forward.trans (fun _ _ _ _ moved => moved.forward) run

/-! ## One run after another -/

/-- A world that one run, of any graph and under any executor, brings another world to. -/
def Leads (w w' : World) : Prop :=
  ∃ (r : Run) (s : State), r.world = w ∧ r.cancels = [] ∧ Reachable r anyTime s ∧
    s.shared.world = w'

/-- A run does not execute a task that enters it SUCCEEDED. -/
theorem not_submitted_of_succeeded (calm : r.cancels = []) {s : State}
    (run : Reachable r anyTime s) (succeeded : r.world.status t = .succeeded) :
    ¬ Submitted s.shared t ∧ s.shared.status t = .succeeded ∧
      s.shared.world.callCount t = r.world.callCount t := by
  have sound : Sound (Mode.anyTime calm) s := sound_of_reachable run
  have coherent := sound.inv.coherent
  have core := sound.inv.core calm
  have sink : (entered r t).isSink = true := by
    rw [show entered r t = .succeeded from succeeded]
    rfl
  have absent : s.shared.stage t = .absent := by
    by_contra submitted
    have open_ := TaskStatus.isSink_of_canTransitionTo
      (startable_of_submitted coherent core submitted).1
    rw [sink] at open_
    cases open_
  refine ⟨fun submitted => (submitted_iff coherent).mp submitted absent, ?_, ?_⟩
  · rcases core.absent t absent with same | marked
    · exact same.trans succeeded
    · have pending : r.world.status t = .pending := marked.pending
      rw [succeeded] at pending
      cases pending
  · obtain ⟨new, calls, -, each⟩ := core.calls
    have none : new.filter (fun c => c.1 == t) = [] := by
      rw [List.filter_eq_nil_iff]
      intro c hc same
      have started := (each c hc).2
      rw [beq_iff_eq.mp same, absent] at started
      exact absurd started (by decide)
    rw [World.callCount, calls, List.filter_append, none, List.append_nil, World.callCount]

theorem succeeded_of_leads {w w' : World} (runs : Relation.ReflTransGen Leads w w')
    (succeeded : w.status t = .succeeded) :
    w'.status t = .succeeded ∧ w'.callCount t = w.callCount t := by
  induction runs with
  | refl => exact ⟨succeeded, rfl⟩
  | tail _ last ih =>
    obtain ⟨r, s, rfl, calm, run, rfl⟩ := last
    obtain ⟨-, still, calls⟩ := not_submitted_of_succeeded calm run ih.1
    exact ⟨still, calls.trans ih.2⟩

/-- In every interleaving of a run: the submissions and marks are orderly, what they rest on lasts
to every later state of the run, a blocked task has a dependency that never succeeds, and a task
that has succeeded is not executed in any run that follows. -/
theorem run_orderly (r : Run) (calm : r.cancels = []) {s : State} (run : Reachable r anyTime s) :
    Orderly r s.shared ∧
      (∀ s' : State, (machine r).Reaches (Steps r anyTime) s s' → Lasting r s.shared s'.shared) ∧
      (∀ t, NewlyBlocked r s.shared t → ∃ d ∈ r.graph.deps t, ∀ s' : State,
        (machine r).Reaches (Steps r anyTime) s s' → s'.shared.status d ≠ .succeeded) ∧
      ∀ t, s.shared.status t = .succeeded → ∀ w, Relation.ReflTransGen Leads s.shared.world w →
        ∀ r' : Run, r'.world = w → r'.cancels = [] → ∀ s' : State, Reachable r' anyTime s' →
          ¬ Submitted s'.shared t ∧ s'.shared.world.callCount t = s.shared.world.callCount t := by
  have sound : Sound (Mode.anyTime calm) s := sound_of_reachable run
  have coherent := sound.inv.coherent
  have core := sound.inv.core calm
  refine ⟨orderly coherent core, fun s' run' => ?_, fun t blocked => ?_, ?_⟩
  · have sound' : Sound (Mode.anyTime calm) s' := sound_of_reachable (run.trans run')
    exact lasting calm coherent core sound'.inv.coherent (forward_of_reaches sound run')
  · obtain ⟨d, hd, never⟩ := hopeless_of_newlyBlocked calm core blocked
    exact ⟨d, hd, fun s' run' => never _ (forward_of_reaches sound run')⟩
  · rintro t succeeded w runs r' rfl calm' s' run'
    obtain ⟨still, calls⟩ := succeeded_of_leads runs succeeded
    obtain ⟨none, -, calls'⟩ := not_submitted_of_succeeded calm' run' still
    exact ⟨none, calls'.trans calls⟩

/-- `returning`, whose task has succeeded, is run again. -/
theorem run_orderly_returning : ∃ s : State, Reachable returning anyTime s ∧
    s.shared.status "a" = .succeeded ∧ Orderly returning s.shared ∧
      ∀ s', Reachable { returning with world := s.shared.world } anyTime s' →
        ¬ Submitted s'.shared "a" := by
  have ran : ∃ s ∈ (machine returning).exec (Steps returning anyTime) (inTurn 24)
      (start returning), s.shared.status "a" = .succeeded := by decide +kernel
  obtain ⟨s, hs, succeeded⟩ := ran
  have reachable := Machine.reaches_of_exec hs
  obtain ⟨orderly, -, -, never⟩ := run_orderly returning rfl reachable
  refine ⟨s, reachable, succeeded, orderly, fun s' run' => ?_⟩
  exact (never "a" succeeded _ .refl _ rfl rfl s' run').1

end Once

end TTasks.Scheduler
