import TTasks.Laws.Graph.Run
import TTasks.Laws.Scheduler.Workers
import TTasks.Observers

/-!
# `run` refines its scheduler

What is known of `_run_inner` is known of `run`. Until the checks and the first save of the graph are
over, no thread but the caller's moves; then the whole goes step for step as the scheduler does in a
world whose store has the graph; and when the scheduler is over no thread of the pool moves again, so
that the last save finds the tasks as the scheduler left them. The three stages are `Early`, `Inside`
and `Late`; `run_refines` puts them together.
-/

namespace TTasks

open Interleave

namespace Scheduler

/-! ## The scheduler does not look at the store -/

section Stored

/-- The run, on a store with other rows. -/
def Run.withStored (r : Run) (stored : TaskId → Option Task) : Run :=
  { r with world := { r.world with stored } }

variable (r : Run) (stored : TaskId → Option Task)

/-- `first_bad_parent` reads no rows. -/
theorem firstBadParent_withStored : ∀ ds : List TaskId,
    firstBadParent (r.withStored stored) ds = firstBadParent r ds
  | [] => rfl
  | d :: ds => by
    rw [firstBadParent, firstBadParent, firstBadParent_withStored ds]
    rfl

/-- Decisions read no rows. -/
theorem decide_withStored (t : TaskId) : decide (r.withStored stored) t = decide r t := by
  have bad : firstBadParent (r.withStored stored) = firstBadParent r :=
    funext (firstBadParent_withStored r stored)
  unfold decide
  rw [bad]
  rfl

/-- Submitting is the same program, whatever the rows are. -/
theorem submit_withStored (schedule : Sched Unit) (t : TaskId) :
    submit (r.withStored stored) schedule t = submit r schedule t := by
  show Prog.bind _ _ = Prog.bind _ _
  congr 1
  funext answer
  cases answer <;> rfl

/-- Acting on a decision is the same program, whatever the rows are. -/
theorem act_withStored (schedule : Sched Unit) (t : TaskId) (decision : Decision) :
    act (r.withStored stored) schedule t decision = act r schedule t decision := by
  cases decision with
  | submit => simp only [act, submit_withStored]
  | _ => rfl

/-- A pass is the same program, whatever the rows are. -/
theorem pass_withStored (schedule : Sched Unit) : ∀ (ts : List TaskId) (changed : Bool),
    pass (r.withStored stored) schedule changed ts = pass r schedule changed ts
  | [], _ => rfl
  | t :: ts, changed => by
    simp only [pass, decide_withStored, act_withStored, pass_withStored schedule ts]

/-- The loop of `schedule` is the same program, whatever the rows are. -/
theorem scheduleLoop_withStored : ∀ n, scheduleLoop (r.withStored stored) n = scheduleLoop r n
  | 0 => rfl
  | n + 1 => by
    simp only [scheduleLoop, pass_withStored, scheduleLoop_withStored n]
    rfl

/-- `schedule` is the same program, whatever the rows are. -/
theorem schedule_withStored : schedule (r.withStored stored) = schedule r := by
  unfold schedule
  rw [scheduleLoop_withStored]
  rfl

/-- The main thread's program is the same, whatever the rows are. -/
theorem main_withStored : main (r.withStored stored) = main r := by
  unfold main
  rw [schedule_withStored]
  rfl

/-- A worker's program is the same, whatever the rows are. -/
theorem worker_withStored (t : TaskId) : worker (r.withStored stored) t = worker r t := by
  have calls : ∀ registered,
      callbacks (r.withStored stored) t registered = callbacks r t registered := by
    intro registered
    unfold callbacks
    rw [schedule_withStored]
  simp only [worker, calls]
  rfl

end Stored

end Scheduler

namespace GraphRun

open Scheduler (Who SchedOp Sched)

/-! ## The whole run -/

section Refine

variable (r : Setup)

/-- A step of `run` beside its threads: no thread passes where it has to wait. -/
def Steps : State → Who → Prop := Threads.Allows fun _ o s => o.enabled r s = true

instance (s : State) (who : Who) : Decidable (Steps r s who) :=
  inferInstanceAs (Decidable (Threads.Allows _ s who))

/-- A state that a call of `run` reaches. -/
def Reaches (s₀ : Shared) : State → Prop :=
  (Threads.machine (sem r)).Reaches (Steps r) (start r s₀)

/-- The checks and the first save. -/
def opening : Program Unit := (within (validate r.graph)).bind fun _ => persistGraph r

/-- What follows them. -/
def body : Program Unit :=
  Prog.finallyDo (do
    Prog.op Op.resetErrors
    within (Scheduler.main r.toRun)) (persistGraph r)

variable {r}

/-- Where there are workers, `run()` is its opening and then its body. -/
theorem run_eq (workers : r.maxWorkers ≠ 0) :
    run r = (opening r).bind fun _ => body r := by
  unfold run opening body
  rw [if_neg workers]
  simp only [Prog.bind_eq, Prog.bind_assoc]

/-- What a save of the graph comes to. -/
def afterPersist (r : Setup) (s : Shared) : Shared :=
  if r.executor.store then
    match r.graphSaveFails s.graphSaves with
    | some e =>
      { s with
        graphSaves := s.graphSaves + 1
        graphPersistenceErrors := s.graphPersistenceErrors ++ [e] }
    | none =>
      { s with
        inner := { s.inner with world := saveMembers r.graph s.inner.world }
        storedGraph := some r.graph
        graphSaves := s.graphSaves + 1 }
  else s

/-- A save of the graph alone, which returns whether or not it succeeds. -/
theorem run_persistGraph (who : Who) (s : Shared) :
    (persistGraph r).run (sem r who) s = (.ok (), afterPersist r s) := by
  unfold persistGraph afterPersist
  split
  · cases fails : r.graphSaveFails s.graphSaves with
    | none => simp [saveGraph, Prog.run_tryCatch, Prog.run_bind, sem, fails]
    | some e => simp [saveGraph, Prog.run_tryCatch, Prog.run_bind, sem, fails]
  · rfl

/-- The opening alone, where the graph is valid. -/
theorem run_opening (s : Shared) (validates : r.graph.validate s.inner.world = .ok ()) :
    (opening r).run (sem r .main) s = (.ok (), afterPersist r s) := by
  rw [opening, Prog.run_bind, run_within, run_validate, validates]
  exact run_persistGraph .main s

end Refine

/-! ## The three stages -/

section Stages

variable (r : Setup) (s₀ : Shared)

/-- The run of the scheduler that is inside: the store has seen the first save. -/
def entry : Scheduler.Run := r.toRun.withStored (afterPersist r s₀).inner.world.stored

/-- The operations of the checks and of a save of the graph. -/
def Opens : Op → Prop
  | .sched (.task (.status _)) | .sched (.title _) => True
  | .saveGraph | .recordGraphError _ => True
  | _ => False

/-- The caller checks and saves, and nobody else has begun. -/
structure Early (s : State) : Prop where
  program : ∃ p : Program Unit, s.rest .main = (p.bind fun _ => body r) ∧ p.Uses Opens ∧
    p.run (sem r .main) s.shared = (.ok (), afterPersist r s₀)
  inner : s.shared.inner = { s₀.inner with world := s.shared.inner.world }
  others : ∀ who, who ≠ .main → s.rest who = (start r s₀).rest who

/-- The whole stands where the scheduler does. -/
structure Inside (f : Scheduler.State) (s : State) : Prop where
  reachable : Scheduler.Reachable (entry r s₀) Scheduler.anyTime f
  shared : s.shared = { afterPersist r s₀ with inner := f.shared }
  main : s.rest .main = (within (f.rest .main)).finallyDo (persistGraph r)
  others : ∀ who, who ≠ .main → s.rest who = within (f.rest who)

/-- The scheduler is over, and the caller saves. -/
structure Late (f : Scheduler.State) (s : State) : Prop where
  reachable : Scheduler.Reachable (entry r s₀) Scheduler.anyTime f
  halted : ¬ (f.rest .main).Acting
  program : (s.rest .main).Uses Opens ∧ (s.rest .main).run (sem r .main) s.shared =
    ((within (f.rest .main)).finallyDo (persistGraph r)).run (sem r .main)
      { afterPersist r s₀ with inner := f.shared }
  inner : s.shared.inner = { f.shared with world := s.shared.inner.world }
  others : ∀ who, who ≠ .main → s.rest who = within (f.rest who)

/-- A run is before its scheduler, inside it or after it. -/
def Staged (s : State) : Prop :=
  Early r s₀ s ∨ (∃ f, Inside r s₀ f s) ∨ ∃ f, Late r s₀ f s

variable {r s₀} {s s' : State} {f : Scheduler.State} {who : Who}

/-- Saving the graph is one of the operations of the first and the last part. -/
theorem opens_persistGraph : (persistGraph r).Uses Opens := by
  unfold persistGraph
  split
  · refine .tryCatch (.bind (.op trivial) fun answer => ?_) fun e => .op trivial
    cases answer <;> trivial
  · trivial

/-- The opening performs the operations of the first part only. -/
theorem opens_opening : (opening r).Uses Opens := by
  have loop : ∀ ts, (noneRunning ts).Uses fun o => Opens (.sched o) := by
    intro ts
    induction ts with
    | nil => trivial
    | cons t ts ih =>
      refine .bind (.bind (.op trivial) fun _ => trivial) fun status => ?_
      split
      · exact .bind (.op trivial) fun _ => trivial
      · exact ih
  have checks : (validate r.graph).Uses fun o => Opens (.sched o) := by
    refine .bind (loop _) fun _ => ?_
    split
    · exact .bind (.op trivial) fun _ => trivial
    · split <;> trivial
  exact .bind (checks.lift fun _ => id) fun _ => opens_persistGraph

/-- Such an operation touches nothing of the scheduler's but the rows of the store. -/
theorem inner_of_opens {o : Op} (opens : Opens o) (s : Shared) :
    (sem r who o s).2.inner = { s.inner with world := (sem r who o s).2.inner.world } := by
  cases o with
  | sched o =>
    cases o with
    | task o => cases o <;> rfl
    | title t => rfl
    | _ => exact opens.elim
  | saveGraph =>
    simp only [sem]
    split <;> rfl
  | recordGraphError e => rfl
  | resetErrors => exact opens.elim

/-- A run begins before its scheduler. -/
theorem early_start (fresh : s₀.inner.world = r.world) (workers : r.maxWorkers ≠ 0)
    (validates : r.graph.validate r.world = .ok ()) : Early r s₀ (start r s₀) where
  program := ⟨opening r, run_eq workers, opens_opening, run_opening s₀ (fresh ▸ validates)⟩
  inner := rfl
  others _ _ := rfl

/-- The scheduler that is inside takes the step. -/
theorem inner_step (allowed : s.Allows (fun _ o s => o.enabled r s = true) who)
    (rest : s.rest who = within (f.rest who)) (same : ∀ o : SchedOp, o.enabled r.toRun f.shared =
      o.enabled r.toRun s.shared.inner) (acting : (s.rest who).Acting) :
    ∃ f', (Scheduler.machine (entry r s₀)).Via
      (Scheduler.Steps (entry r s₀) Scheduler.anyTime) f f' := by
  cases next : f.rest who with
  | act o k =>
    have able : ∃ f', (Scheduler.machine (entry r s₀)).step who f = some f' := by
      simp only [Scheduler.machine, Threads.machine, Threads.perform, next]
      exact ⟨_, rfl⟩
    obtain ⟨f', moved⟩ := able
    refine ⟨f', who, fun o' k' next' => ⟨?_, trivial⟩, moved⟩
    rw [next] at next'
    cases next'
    rw [next] at rest
    have enabled := allowed _ _ rest
    exact (same o).trans enabled
  | ret a => rw [rest, next] at acting; exact acting.elim
  | fail e => rw [rest, next] at acting; exact acting.elim

/-- What another call of `run` may have left: the tasks are as `r` has them, nothing is going on. -/
def Fresh (r : Setup) (s₀ : Shared) : Prop :=
  ∃ errors, s₀.inner = { world := r.world, errors }

/-- The first save changes rows of the store, and nothing else of the world. -/
theorem entry_world (fresh : Fresh r s₀) : (afterPersist r s₀).inner.world = (entry r s₀).world := by
  obtain ⟨errors, same⟩ := fresh
  have world : s₀.inner.world = r.world := by rw [same]
  unfold entry Scheduler.Run.withStored afterPersist
  split
  · split
    · simp only [world]
    · simp only [saveMembers, world]
  · simp only [world]

/-- A worker's program in the run is the one that the scheduler has for it. -/
theorem start_entry (calm : r.cancels = []) {who : Who} (other : who ≠ .main) :
    (start r s₀).rest who = within ((Scheduler.start (entry r s₀)).rest who) := by
  cases who with
  | main => exact absurd rfl other
  | worker t =>
    show within (Scheduler.worker r.toRun t) = within (Scheduler.worker (entry r s₀) t)
    rw [entry, Scheduler.worker_withStored]
  | outside i =>
    show Prog.ret () = within (Scheduler.canceller (entry r s₀) i)
    have none : (entry r s₀).cancels[i]? = none := by
      rw [show (entry r s₀).cancels = [] from calm]
      rfl
    unfold Scheduler.canceller
    rw [none]
    rfl

/-- The checks and the first save are over, and the scheduler begins. -/
theorem inside_start (calm : r.cancels = []) (fresh : Fresh r s₀) (early : Early r s₀ s)
    (shared : s.shared = afterPersist r s₀) :
    Inside r s₀ (Scheduler.start (entry r s₀))
      ⟨(sem r .main .resetErrors s.shared).2,
        Function.update s.rest .main ((within (Scheduler.main r.toRun)).finallyDo (persistGraph r))⟩ := by
  refine ⟨.refl, ?_, ?_, fun who other => ?_⟩
  · obtain ⟨errors, same⟩ := fresh
    have inner := early.inner
    rw [shared, same, entry_world ⟨errors, same⟩] at inner
    show { s.shared with inner := { s.shared.inner with errors := fun _ => none } } = _
    rw [shared, inner]
    rfl
  · have same : (Scheduler.start (entry r s₀)).rest .main = Scheduler.main r.toRun :=
      Scheduler.main_withStored ..
    simp only [Function.update_self, same]
  · show Function.update s.rest .main _ who = _
    rw [Function.update_of_ne other, early.others who other]
    exact start_entry calm other

/-- From before the scheduler a step leads to before it, or into it. -/
theorem Early.step (early : Early r s₀ s) (calm : r.cancels = []) (fresh : Fresh r s₀)
    (allowed : Steps r s who) (moved : (Threads.machine (sem r)).step who s = some s') :
    Early r s₀ s' ∨ ∃ f, Inside r s₀ f s' := by
  obtain ⟨o, k, rest, rfl⟩ := Threads.perform_eq_some moved
  cases who with
  | main =>
    obtain ⟨p, program, uses, runs⟩ := early.program
    cases p with
    | fail e => cases runs
    | ret a =>
      have next : Prog.act o k = .act .resetErrors fun _ =>
          (within (Scheduler.main r.toRun)).finallyDo (persistGraph r) := rest.symm.trans program
      cases next
      exact .inr ⟨_, inside_start calm fresh early (congrArg Prod.snd runs)⟩
    | act o' k' =>
      have next : Prog.act o k = .act o' fun x => (k' x).bind fun _ => body r :=
        rest.symm.trans program
      cases next
      refine .inl ⟨⟨k' _, (by simp only [Function.update_self]), uses.2 _, runs⟩, ?_, fun who other => ?_⟩
      · show (sem r .main o s.shared).2.inner = _
        rw [inner_of_opens uses.1 s.shared, early.inner]
      · exact (Function.update_of_ne other ..).trans (early.others who other)
  | worker t =>
    have start : s.rest (.worker t) = within (Scheduler.worker r.toRun t) :=
      early.others _ (by simp)
    rw [rest] at start
    obtain rfl : o = .sched (.start t) := by cases start; rfl
    have enabled := allowed _ k rest
    have absent : s.shared.inner.stage t = .absent := by
      obtain ⟨errors, same⟩ := fresh
      rw [early.inner, same]
    simp only [Op.enabled, SchedOp.enabled, absent] at enabled
    cases enabled
  | outside i =>
    have start : s.rest (.outside i) = .ret () := early.others _ (by simp)
    rw [rest] at start
    cases start

/-- As long as it is not over, the scheduler goes along with every step. -/
theorem Inside.step (inside : Inside r s₀ f s) (acting : (f.rest .main).Acting)
    (allowed : Steps r s who) (moved : (Threads.machine (sem r)).step who s = some s') :
    ∃ f', Inside r s₀ f' s' := by
  obtain ⟨o, k, rest, rfl⟩ := Threads.perform_eq_some moved
  -- what is left of the thread, here and in the scheduler
  have next : ∃ o' k', f.rest who = .act o' k' ∧ o = .sched o' := by
    by_cases is : who = .main
    · subst is
      obtain ⟨o', k', next⟩ := acting.exists_act
      have main := inside.main
      rw [rest, next] at main
      cases main
      exact ⟨o', k', next, rfl⟩
    · have here := inside.others who is
      rw [rest] at here
      cases next : f.rest who with
      | act o' k' => rw [next] at here; cases here; exact ⟨o', k', rfl, rfl⟩
      | ret a => rw [next] at here; cases here
      | fail e => rw [next] at here; cases here
  obtain ⟨o', k', next, rfl⟩ := next
  refine ⟨⟨(SchedOp.perform r.toRun who o' f.shared).2, Function.update f.rest who
    (k' (SchedOp.perform r.toRun who o' f.shared).1)⟩, ?_, ?_, ?_, fun other apart => ?_⟩
  · refine inside.reachable.tail ⟨who, fun o'' k'' next' => ⟨?_, trivial⟩, ?_⟩
    · rw [next] at next'
      cases next'
      have enabled := allowed _ k rest
      rw [inside.shared] at enabled
      exact enabled
    · simp only [Scheduler.machine, Threads.machine, Threads.perform, next]
      rfl
  · show (sem r who (.sched o') s.shared).2 = _
    rw [inside.shared]
    rfl
  · by_cases is : who = .main
    · subst is
      have main := inside.main
      rw [rest, next] at main
      cases main
      simp only [Function.update_self, inside.shared]
      rfl
    · simp only [Function.update_of_ne (Ne.symm is)]
      exact inside.main
  · by_cases same : other = who
    · subst same
      have here := inside.others other apart
      rw [rest, next] at here
      cases here
      simp only [Function.update_self, inside.shared]
      rfl
    · simp only [Function.update_of_ne same]
      exact inside.others other apart

/-- The scheduler is over. -/
theorem Inside.late (inside : Inside r s₀ f s) (halted : ¬ (f.rest .main).Acting) :
    Late r s₀ f s := by
  refine ⟨inside.reachable, halted, ⟨?_, ?_⟩, ?_, inside.others⟩
  · rw [inside.main]
    have rest : (within (f.rest .main)).Uses Opens := by
      cases here : f.rest .main with
      | act o k => rw [here] at halted; exact absurd trivial halted
      | ret a => trivial
      | fail e => trivial
    refine (rest.tryCatch fun e => ?_).bind fun a => ?_
    · exact opens_persistGraph.bind fun _ => trivial
    · exact opens_persistGraph.bind fun _ => trivial
  · rw [inside.main, inside.shared]
  · rw [inside.shared]

/-- No thread of the pool moves any more. -/
theorem Late.step (late : Late r s₀ f s) (calm : r.cancels = []) (allowed : Steps r s who)
    (moved : (Threads.machine (sem r)).step who s = some s') : Late r s₀ f s' := by
  have alone : who = .main := by
    by_contra other
    obtain ⟨o, k, rest, -⟩ := Threads.perform_eq_some moved
    have same : ∀ o : SchedOp, o.enabled r.toRun f.shared = o.enabled r.toRun s.shared.inner := by
      intro o
      rw [late.inner]
      cases o <;> rfl
    have acting : (s.rest who).Acting := by
      rw [rest]
      trivial
    have goes : ∃ f', (Scheduler.machine (entry r s₀)).Via
        (Scheduler.Steps (entry r s₀) Scheduler.anyTime) f f' :=
      inner_step allowed (late.others who other) same acting
    obtain ⟨f', goes⟩ := goes
    exact Scheduler.still_of_halted (r := entry r s₀) (M := Scheduler.Mode.anyTime calm)
      calm late.reachable late.halted goes
  subst alone
  have runs := Threads.run_of_perform moved
  obtain ⟨o, k, rest, rfl⟩ := Threads.perform_eq_some moved
  obtain ⟨uses, ends⟩ := late.program
  rw [rest] at uses
  refine ⟨late.reachable, late.halted, ⟨?_, runs.trans ends⟩, ?_, fun other apart => ?_⟩
  · simpa using uses.2 _
  · show (sem r .main o s.shared).2.inner = _
    rw [inner_of_opens uses.1 s.shared, late.inner]
  · exact (Function.update_of_ne apart ..).trans (late.others other apart)

/-- Each step keeps the run in one of its three parts. -/
theorem Staged.step (staged : Staged r s₀ s) (calm : r.cancels = []) (fresh : Fresh r s₀)
    (allowed : Steps r s who) (moved : (Threads.machine (sem r)).step who s = some s') :
    Staged r s₀ s' := by
  rcases staged with early | ⟨f, inside⟩ | ⟨f, late⟩
  · exact (early.step calm fresh allowed moved).imp_right .inl
  · by_cases acting : (f.rest .main).Acting
    · exact .inr (.inl (inside.step acting allowed moved))
    · exact .inr (.inr ⟨f, (inside.late acting).step calm allowed moved⟩)
  · exact .inr (.inr ⟨f, late.step calm allowed moved⟩)

/-- In every state of a run one of its three parts is under way. -/
theorem staged_of_reaches (workers : r.maxWorkers ≠ 0) (calm : r.cancels = []) (fresh : Fresh r s₀)
    (validates : r.graph.validate r.world = .ok ()) (run : Reaches r s₀ s) : Staged r s₀ s := by
  have world : s₀.inner.world = r.world := by
    obtain ⟨errors, same⟩ := fresh
    rw [same]
  exact run.invariant (.inl (early_start world workers validates)) fun _ _ _ staged allowed moved =>
    staged.step calm fresh allowed moved

/-- A call of `run` that is over has been through all the stages. -/
theorem late_of_halted (staged : Staged r s₀ s) (halted : ¬ (s.rest .main).Acting) :
    ∃ f, Late r s₀ f s := by
  rcases staged with early | ⟨f, inside⟩ | late
  · obtain ⟨p, program, -, runs⟩ := early.program
    rw [program] at halted
    cases p with
    | fail e => cases runs
    | ret a => exact absurd trivial halted
    | act o k => exact absurd trivial halted
  · refine ⟨f, inside.late fun acting => halted ?_⟩
    obtain ⟨o, k, next⟩ := acting.exists_act
    rw [inside.main, next]
    trivial
  · exact late

/-! ## All together -/

/-- One save of the graph, where there is a store. -/
theorem afterPersist_store (store : r.executor.store = true) (s : Shared) :
    (afterPersist r s).graphSaves = s.graphSaves + 1 ∧
    (afterPersist r s).graphPersistenceErrors =
      s.graphPersistenceErrors ++ failures r.graphSaveFails s.graphSaves (s.graphSaves + 1) ∧
    (r.graphSaveFails s.graphSaves = none → (afterPersist r s).storedGraph = some r.graph ∧
      ∀ t ∈ r.graph.keys, (afterPersist r s).inner.world.stored t =
        some ((afterPersist r s).inner.world.tasks t)) := by
  have one : failures r.graphSaveFails s.graphSaves (s.graphSaves + 1) =
      (r.graphSaveFails s.graphSaves).toList := by
    rw [failures, List.Ico.succ_singleton, List.filterMap_cons, List.filterMap_nil]
    cases r.graphSaveFails s.graphSaves <;> rfl
  unfold afterPersist
  rw [if_pos store, one]
  cases fails : r.graphSaveFails s.graphSaves with
  | some e => exact ⟨rfl, rfl, nofun⟩
  | none =>
    refine ⟨rfl, (List.append_nil _).symm, fun _ => ⟨rfl, fun t key => ?_⟩⟩
    exact if_pos key

/-- Saving the graph changes nothing of the scheduler's but the rows. -/
theorem afterPersist_inner (s : Shared) : (afterPersist r s).inner =
    { s.inner with world := { s.inner.world with stored := (afterPersist r s).inner.world.stored } } := by
  unfold afterPersist
  split
  · split <;> rfl
  · rfl

/-- What the caller finds when the scheduler's part has ended. -/
theorem Late.ends (late : Late r s₀ f s) (halted : ¬ (s.rest .main).Acting) :
    s.rest .main = within (f.rest .main) ∧
      s.shared = afterPersist r { afterPersist r s₀ with inner := f.shared } := by
  have runs := late.program.2
  -- the last save, after either end of the scheduler
  have last : ((within (f.rest .main)).finallyDo (persistGraph r)).run (sem r .main)
      { afterPersist r s₀ with inner := f.shared } =
      ((within (f.rest .main)).run (sem r .main) s.shared |>.1,
        afterPersist r { afterPersist r s₀ with inner := f.shared }) := by
    cases ends : f.rest .main with
    | act o k => exact absurd (by rw [ends]; trivial) late.halted
    | ret a =>
      show ((persistGraph r).bind fun _ => .ret a).run (sem r .main) _ = _
      rw [Prog.run_bind, run_persistGraph]
      rfl
    | fail e =>
      show (((persistGraph r).bind fun _ => (.fail e : Program Unit)).bind fun a =>
        (persistGraph r).bind fun _ => .ret a).run (sem r .main) _ = _
      rw [Prog.run_bind, Prog.run_bind, run_persistGraph]
      rfl
  rw [last] at runs
  cases here : s.rest .main with
  | act o k => rw [here] at halted; exact absurd trivial halted
  | ret a =>
    rw [here] at runs
    obtain ⟨same, shared⟩ := Prod.mk.inj runs
    refine ⟨?_, shared⟩
    cases ends : f.rest .main with
    | act o k => exact absurd (by rw [ends]; trivial) late.halted
    | ret b => rfl
    | fail e => rw [ends] at same; cases same
  | fail e =>
    rw [here] at runs
    obtain ⟨same, shared⟩ := Prod.mk.inj runs
    refine ⟨?_, shared⟩
    cases ends : f.rest .main with
    | act o k => exact absurd (by rw [ends]; trivial) late.halted
    | ret b => rw [ends] at same; cases same
    | fail e' => rw [ends] at same; cases same; rfl

/-- A call of `run` whose graph is accepted, that begins with nothing under way (`fresh`) and that
nobody cancels from outside, does what `_run_inner` does in a world whose store has seen the first
save: when it is over, at any interleaving of its threads, there is such a run of the scheduler that
ends alike, with the same tasks, events, handler calls and errors. With a store the
graph has been saved twice, and exactly the failed saves are in `graph_persistence_errors`; unless
the second failed, the store holds the graph, and of each member what the member then is. -/
theorem run_refines (r : Setup) (calm : r.cancels = []) (workers : r.maxWorkers ≠ 0)
    (validates : r.graph.validate r.world = .ok ()) {s₀ : Shared} (fresh : Fresh r s₀) {s : State}
    (run : Reaches r s₀ s) (halted : ¬ (s.rest .main).Acting) :
    (∃ f : Scheduler.State, Scheduler.Reachable (entry r s₀) Scheduler.anyTime f ∧
      ¬ (f.rest .main).Acting ∧ s.rest .main = within (f.rest .main) ∧
      s.shared.inner = { f.shared with
        world := { f.shared.world with stored := s.shared.inner.world.stored } }) ∧
    (r.executor.store = true →
      s.shared.graphPersistenceErrors = s₀.graphPersistenceErrors ++
        failures r.graphSaveFails s₀.graphSaves (s₀.graphSaves + 2) ∧
      (r.graphSaveFails (s₀.graphSaves + 1) = none → s.shared.storedGraph = some r.graph ∧
        ∀ t ∈ r.graph.keys,
          s.shared.inner.world.stored t = some (s.shared.inner.world.tasks t))) := by
  obtain ⟨f, late⟩ := late_of_halted (staged_of_reaches workers calm fresh validates run) halted
  obtain ⟨outcome, shared⟩ := late.ends halted
  refine ⟨⟨f, late.reachable, late.halted, outcome, ?_⟩, fun store => ?_⟩
  · rw [shared]
    exact afterPersist_inner _
  · obtain ⟨saves, errors, -⟩ := afterPersist_store store s₀
    obtain ⟨-, errors', mirror⟩ := afterPersist_store store { afterPersist r s₀ with inner := f.shared }
    rw [shared]
    refine ⟨errors'.trans ?_, fun good => mirror (by rw [saves]; exact good)⟩
    show (afterPersist r s₀).graphPersistenceErrors ++ failures r.graphSaveFails
      (afterPersist r s₀).graphSaves ((afterPersist r s₀).graphSaves + 1) = _
    rw [errors, saves, List.append_assoc, failures, failures, failures, ← List.filterMap_append,
      List.Ico.append_consecutive (Nat.le_succ _) (Nat.le_succ _)]

end Stages

/-- One task, whose handler returns, with a store that refuses the first save of the graph. -/
def kept : Setup where
  toRun := { Scheduler.returning with
    executor := { Scheduler.returning.executor with store := true } }
  graphSaveFails n := if n = 0 then some (.exception "locked") else none

/-- A run of one task whose graph is kept, to its end. -/
theorem run_refines_kept : ∃ s, Reaches kept { inner := { world := kept.world } } s ∧
    ¬ (s.rest .main).Acting ∧ s.shared.graphPersistenceErrors = [.exception "locked"] ∧
      s.shared.inner.world.stored "a" = some (s.shared.inner.world.tasks "a") := by
  have ran : ∃ s ∈ (Threads.machine (sem kept)).exec (Steps kept)
      (List.replicate 20 .main ++ List.replicate 26 (.worker "a") ++ List.replicate 5 .main)
      (start kept { inner := { world := kept.world } }), ¬ (s.rest .main).Acting := by
    decide +kernel
  obtain ⟨s, hs, halted⟩ := ran
  have reaches : Reaches kept { inner := { world := kept.world } } s := Machine.reaches_of_exec hs
  obtain ⟨-, mirror⟩ := run_refines kept rfl (by decide) rfl ⟨_, rfl⟩ reaches halted
  obtain ⟨errors, stored⟩ := mirror rfl
  exact ⟨s, reaches, halted, errors, (stored rfl).2 "a" (by decide)⟩

end GraphRun

end TTasks
