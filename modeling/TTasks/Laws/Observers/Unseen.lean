import TTasks.Laws.Observers.Notes

/-!
# Observers are not seen

Whatever store an executor has, whatever that refuses to save, and whatever its subscribers raise: the
values and exceptions of its operations, the tasks, the errors of the graph and the other events are
the same. The run of a graph with observers is the bare run with saves put in, so with other
observers the same bare run has other saves put in.
-/

namespace TTasks

open Interleave

namespace GraphRun

open Scheduler (Who)

/-! ## The bare run -/

theorem announcing_raising {α : Type} (p : Program α) : announcing p.raising ↔ announcing p := by
  cases p <;> exact Iff.rfl

/-- A program shows that it is in a save whether or not its operations may raise. -/
theorem persisting_raising {α : Type} (p : Program α) : persisting p.raising ↔ persisting p := by
  cases p with
  | act op k =>
    apply or_congr Iff.rfl
    apply and_congr Iff.rfl
    constructor
    · rintro ⟨_ | x, announces⟩
      · exact announces.elim
      · exact ⟨x, (announcing_raising (k x)).mp announces⟩
    · rintro ⟨x, announces⟩
      exact ⟨.ok x, (announcing_raising (k x)).mpr announces⟩
  | _ => exact Iff.rfl

section Run

variable {α κ : Type} (o : Observers α κ) (r : Setup) (s₀ : Shared) (bus : Bus α)

abbrev RunState (α : Type) := Threads Who Op.Ans Exc Unit (Shared × Bus α)

/-- `run` is about to begin, with the bus beside it. -/
def outset : RunState α := ⟨(s₀, bus), (start (o.setup r) s₀).rest⟩

/-- The steps of a run, which no subscriber disturbs. -/
abbrev Quietly (schedule : List Who) : RunState α → RunState α → Prop :=
  Threads.Goes (beside r o) (fun _ op s => op.enabled r s.1 = true) persisting schedule

/-- The steps of a run without observers. -/
abbrev Barely (schedule : List Who) : State → State → Prop :=
  Threads.Goes (sem r.bare) (fun _ op s => op.enabled r.bare s = true) Threads.never schedule

/-- The first run is the second with saves put in. -/
abbrev SavesIn : RunState α → State → Prop :=
  Threads.Match (IsSave (o.setup r)) Op.OnWay (fun s t => t = s.1.bare)

theorem savesIn_outset : SavesIn o r (outset o r s₀ bus) (start r.bare s₀.bare) where
  shared := rfl
  rest who := .of_detours (detoured_start (r := o.setup r) s₀ s₀.bare who)

/-- What every run keeps. -/
structure Kept (s : RunState α) : Prop where
  bare : ∃ t, SavesIn o r s t
  account : Account r s₀ o s
  hears : Hears s₀.inner.world s.shared.1.inner.world bus s.shared.2

variable {o r s₀ bus} {schedule : List Who} {s : RunState α}

/-- The operations of subscribers that raise whatever they like. -/
theorem runs_iff {x : Observers.RunState α} :
    o.Runs r schedule (o.start r s₀ bus) x ↔
      ∃ s, x = s.raising ∧ Quietly o r schedule (outset o r s₀ bus) s := by
  have calm := fun who =>
    calm_publishing o.subscribers Op.event? (sem (o.setup r) who)
  constructor
  · intro runs
    exact Threads.Goes.of_raising calm persisting_raising runs
  · rintro ⟨s, rfl, goes⟩
    exact goes.raising calm persisting_raising

/-- Every delivery of a run goes to the bus. -/
theorem sem_deliveries (who : Who) (op : Op) (s : Shared) :
    (sem r who op s).2.inner.world.deliveries.map Delivery.event =
      s.inner.world.deliveries.map Delivery.event ++ op.event?.toList := by
  cases op with
  | saveGraph =>
    simp only [sem]
    cases r.graphSaveFails s.graphSaves <;> exact (List.append_nil _).symm
  | resetErrors => exact (List.append_nil _).symm
  | recordGraphError e => exact (List.append_nil _).symm
  | sched op =>
    cases op with
    | task op => exact op.perform_deliveries r.executor s.inner.world
    | poolSubmit t upstream =>
      simp only [sem, Scheduler.SchedOp.perform]
      split <;> exact (List.append_nil _).symm
    | addDoneCallback t =>
      simp only [sem, Scheduler.SchedOp.perform]
      split <;> exact (List.append_nil _).symm
    | recordException t =>
      simp only [sem, Scheduler.SchedOp.perform]
      split <;> exact (List.append_nil _).symm
    | _ => exact (List.append_nil _).symm

theorem quietly_keeps (goes : Quietly o r schedule (outset o r s₀ bus) s) :
    Kept o r s₀ bus s := by
  have start : Account r s₀ o (outset o r s₀ bus) :=
    Account.start (outset o r s₀ bus) fun who =>
      debt_detoured (detoured_start (r := o.setup r) s₀ s₀.bare who)
  apply goes.invariant _ ⟨⟨_, savesIn_outset o r s₀ bus⟩, start, .refl _ _⟩
  rintro who a b ⟨⟨t, same⟩, account, hears⟩ allowed moved
  refine ⟨?_, account.step same moved, ?_⟩
  · rcases same.step (blind r o) allowed moved with ⟨-, same'⟩ | ⟨-, t', -, -, same'⟩
    · exact ⟨t, same'⟩
    · exact ⟨t', same'⟩
  · obtain ⟨op, k, -, rfl⟩ := Threads.perform_eq_some moved
    exact hears.step (fun s : Shared => s.inner.world) (sem_deliveries who op a.shared.1)

/-- With the observers, the bare run has saves put in. -/
theorem quietly_of_barely (o : Observers α κ) (bus : Bus α) {t : State}
    (goes : Barely r schedule (start r.bare s₀.bare) t) :
    ∃ s, Quietly o r schedule (outset o r s₀ bus) s ∧ SavesIn o r s t ∧
      ∀ who, ¬ persisting (s.rest who) := by
  obtain ⟨s, first, same, main, others⟩ := (savesIn_outset o r s₀ bus).comeBack (blind r o) .main
  have home : ∀ who, ¬ persisting (s.rest who) := by
    intro who
    by_cases caller : who = .main
    · rw [caller]
      exact main
    · rw [others who caller]
      cases who with
      | main => exact absurd rfl caller
      | worker t =>
        rintro (save | ⟨read, -⟩)
        · cases save
        · cases read
      | outside i => exact id
  obtain ⟨s', goes', same', home'⟩ := goes.insert (blind r o) same home
  exact ⟨s', first.trans goes', same', home'⟩

/-! ## Two runs -/

theorem acting_of_outcome {p : Program Unit} {v : Except Exc Unit} (ended : p.outcome = some v) :
    ¬ p.Acting := by
  intro acting
  rw [Prog.outcome_of_acting acting] at ended
  cases ended

variable {α' κ' : Type} {o' : Observers α' κ'} {bus' : Bus α'} {s' : RunState α'}

/-- Two runs that take the same steps, but for their saves, come to the same. -/
theorem quietly_agree (goes : Quietly o r schedule (outset o r s₀ bus) s)
    (goes' : Quietly o' r schedule (outset o' r s₀ bus') s') :
    s.shared.1.bare = s'.shared.1.bare ∧ ∀ who v v', (s.rest who).outcome = some v →
      (s'.rest who).outcome = some v' → v = v' := by
  obtain ⟨t, bare, same⟩ := goes.drop (blind r o) (savesIn_outset o r s₀ bus)
  obtain ⟨t', bare', same'⟩ := goes'.drop (blind r o') (savesIn_outset o' r s₀ bus')
  obtain rfl := bare.unique bare'
  refine ⟨same.shared.symm.trans same'.shared, fun who v v' ended ended' => ?_⟩
  have here := same.rest_eq (blind r o) (acting_of_outcome ended)
  have there := same'.rest_eq (blind r o') (acting_of_outcome ended')
  rw [← here] at ended
  rw [← there, ended] at ended'
  exact Option.some.inj ended'

/-- With other observers there is such a run. -/
theorem quietly_with (goes : Quietly o r schedule (outset o r s₀ bus) s) (o' : Observers α' κ')
    (bus' : Bus α') : ∃ s', Quietly o' r schedule (outset o' r s₀ bus') s' ∧
      (∀ who, ¬ persisting (s'.rest who)) ∧
      ∀ who v, (s.rest who).outcome = some v → (s'.rest who).outcome = some v := by
  obtain ⟨t, bare, same⟩ := goes.drop (blind r o) (savesIn_outset o r s₀ bus)
  obtain ⟨s', goes', same', home⟩ := quietly_of_barely o' bus' bare
  refine ⟨s', goes', home, fun who v ended => ?_⟩
  have here := same.rest_eq (blind r o) (acting_of_outcome ended)
  rw [← here] at ended
  rw [same'.rest_home (blind r o') (home who) (acting_of_outcome ended)]
  exact ended

end Run

end GraphRun

namespace Observers

open GraphRun (persisting)

/-- Observers are not seen. Of operations one after another, and of the runs of a graph in which the
threads take the same steps but for their saves, the outcomes, the tasks, the errors and the other
events are the same with any two sets of observers; each run with one has a run with the other; and
every save that failed is noted down once. -/
theorem observers_unseen {α α' κ κ' : Type} (o : Observers α κ) (o' : Observers α' κ') :
    (∀ (calls : List (TaskId × Call)) (w : World) (bus : Bus α) (bus' : Bus α'),
      let s := o.requests calls (w, bus)
      let s' := o'.requests calls (w, bus')
      s.1 = s'.1 ∧ s.2.1.bare = s'.2.1.bare ∧ Recorded o.saveFails w s.2.1 ∧
        Heard w s.2.1 bus s.2.2) ∧
    ∀ (r : GraphRun.Setup) (s₀ : GraphRun.Shared) (bus : Bus α) (bus' : Bus α')
      (schedule : List Scheduler.Who) (s : RunState α), o.Runs r schedule (o.start r s₀ bus) s →
      (∀ s', o'.Runs r schedule (o'.start r s₀ bus') s' →
        s.shared.1.bare = s'.shared.1.bare ∧ ∀ who v v', (s.rest who).outcome = some v →
          (s'.rest who).outcome = some v' → v = v') ∧
      (∃ s', o'.Runs r schedule (o'.start r s₀ bus') s' ∧ (∀ who, ¬ persisting (s'.rest who)) ∧
        ∀ who v, (s.rest who).outcome = some v → (s'.rest who).outcome = some v) ∧
      Heard s₀.inner.world s.shared.1.inner.world bus s.shared.2 ∧
      ((∀ who, ¬ persisting (s.rest who)) →
        Recorded o.saveFails s₀.inner.world s.shared.1.inner.world ∧
          GraphRecorded o.graphSaveFails s₀ s.shared.1) := by
  constructor
  · intro calls w bus bus'
    obtain ⟨values, bare, noted, hears⟩ := o.requests_bare calls w bus
    obtain ⟨values', bare', -, -⟩ := o'.requests_bare calls w bus'
    exact ⟨values.trans values'.symm, bare.symm.trans bare', noted.recorded, hears.heard⟩
  · intro r s₀ bus bus' schedule _ runs
    obtain ⟨s, rfl, goes⟩ := GraphRun.runs_iff.mp runs
    obtain ⟨-, account, hears⟩ := GraphRun.quietly_keeps goes
    refine ⟨?_, ?_, hears.heard, ?_⟩
    · intro _ runs'
      obtain ⟨s', rfl, goes'⟩ := GraphRun.runs_iff.mp runs'
      obtain ⟨bare, values⟩ := GraphRun.quietly_agree goes goes'
      refine ⟨bare, fun who v v' ended ended' => values who v v' ?_ ?_⟩
      · rw [← Prog.outcome_raising]
        exact ended
      · rw [← Prog.outcome_raising]
        exact ended'
    · obtain ⟨s', goes', home, values⟩ := GraphRun.quietly_with goes o' bus'
      refine ⟨s'.raising, GraphRun.runs_iff.mpr ⟨s', rfl, goes'⟩, fun who here => ?_,
        fun who v ended => ?_⟩
      · exact home who ((GraphRun.persisting_raising _).mp here)
      · apply (Prog.outcome_raising _).trans
        apply values who v
        rw [← Prog.outcome_raising]
        exact ended
    · intro home
      exact account.settled fun who here => home who ((GraphRun.persisting_raising _).mpr here)

end Observers

end TTasks
