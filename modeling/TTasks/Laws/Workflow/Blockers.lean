import TTasks.Workflow
import TTasks.Laws.Scheduler.Blame

/-!
# Blockers over the life of a graph

What `blocked_by` says after any sequence of operations on a graph. A run marks a task BLOCKED on
account of a dependency that it leaves FAILED, CANCELLED or BLOCKED. A later run may bring that
dependency to SUCCEEDED while another one is bad, and then leaves the task as it is
(`recovered_blocker`); so the blocker is a dependency that was bad after the run that marked the task,
and the mark has stood since (`blocker_was_bad`).
-/

namespace TTasks

open Interleave

namespace Workflow

/-- What the blocker of a task should be after every operation. -/
def Blamed (f : Workflow) (t : TaskId) : Prop :=
  ∀ p, (f.world.tasks t).blockedBy = some p →
    f.world.status t = .blocked ∧ p ∈ f.graph.deps t ∧ (f.world.status p).isBad = true

/-- A run with this executor, to the end of `run()`. -/
def Ran (x : Executor) (f f' : Workflow) : Prop :=
  ∃ (maxWorkers : Nat) (s₀ s : Scheduler.State), Scheduler.run (f.toRun x maxWorkers) = .ok s₀ ∧
    (Scheduler.machine (f.toRun x maxWorkers)).Reaches
      (Scheduler.Steps (f.toRun x maxWorkers) Scheduler.anyTime) s₀ s ∧
    ¬ (s.rest .main).Acting ∧ f' = { f with world := s.shared.world }

/-- A run has marked the task BLOCKED on account of the dependency, which it has left bad, unless
executing the dependency leaves it RUNNING: of such a handler call nothing is said. -/
structure Marks (x : Executor) (f f' : Workflow) (p t : TaskId) : Prop where
  ran : Ran x f f'
  pending : f.world.status t = .pending
  blocked : f'.world.status t = .blocked
  names : (f'.world.tasks t).blockedBy = some p
  parent : p ∈ f'.graph.deps t
  bad : x.ending f.world p ≠ .running → (f'.world.status p).isBad = true

/-- An operation after which the task has this blocker. -/
def Keeps (p t : TaskId) (f f' : Workflow) : Prop :=
  Step f f' ∧ (f'.world.tasks t).blockedBy = some p

/-- A run has marked the task BLOCKED on account of the dependency, and every operation since has kept
the blocker. -/
def Blocked (f₀ f : Workflow) (p t : TaskId) : Prop :=
  ∃ x before mid, Reaches f₀ before ∧ Marks x before mid p t ∧
    Relation.ReflTransGen (Keeps p t) mid f

/-- The blockers of the members, over the operations since `f₀`. -/
def Kept (f₀ f : Workflow) : Prop :=
  ∀ t ∈ f.graph.keys, ∀ p, (f.world.tasks t).blockedBy = some p →
    (f.world.status t = .blocked ∨ f.world.status t = .cancelled) ∧ p ∈ f.graph.deps t ∧
      Blocked f₀ f p t

section Blockers

variable {f₀ f f' : Workflow} {t p : TaskId}

/-- A parent that was bad at the marking was so whatever is done later, as long as the blocker
stays. -/
theorem Blocked.step (h : Blocked f₀ f p t) (moved : Step f f')
    (has : (f'.world.tasks t).blockedBy = some p) : Blocked f₀ f' p t := by
  obtain ⟨x, before, mid, reached, marks, since⟩ := h
  exact ⟨x, before, mid, reached, marks, since.tail ⟨moved, has⟩⟩

/-! ## Adding a task -/

/-- The dependencies after an addition. -/
theorem deps_add {g g' : TaskGraph} {after : List TaskId} {isFinally required : Bool}
    (added : g.add t after isFinally required = .ok g') (u : TaskId) :
    g'.deps u = if u = t then TaskGraph.uniqueDeps after else g.deps u := by
  unfold TaskGraph.add at added
  split at added
  · cases added
  · cases added
    rw [TaskGraph.deps, TaskGraph.lookup_setEdge]
    split <;> rfl

/-! ## Cancelling a task -/

/-- A method that sets no blocker leaves a task with the one it had, BLOCKED or CANCELLED. -/
theorem after_blockedBy (x : Executor) {α : Type} {m : Exec α} {kind : TaskEventType → Prop}
    {u : TaskId} (uses : m.Uses (TaskOp.Speaks u kind)) {w : World}
    (has : ((x.after m w).tasks t).blockedBy = some p) :
    (w.tasks t).blockedBy = some p ∧ (w.status t = .blocked ∨ w.status t = .cancelled →
      (x.after m w).status t = .blocked ∨ (x.after m w).status t = .cancelled) := by
  induction m generalizing w with
  | ret a => exact ⟨has, id⟩
  | fail e => exact ⟨has, id⟩
  | act o k ih =>
    obtain ⟨before, status⟩ := ih _ (uses.2 _) has
    rcases Scheduler.perform_blockedBy x before with is | ⟨first, moves⟩
    · exact absurd is (uses.1.2.2 t (some p))
    · exact ⟨first, fun here => status (Scheduler.stays_of_moves here moves)⟩

/-! ## A run -/

/-- At the end of a run, what is past hope is bad, unless executing it leaves it RUNNING. -/
theorem bad_of_hopeless {r : Scheduler.Run} {s : Scheduler.Shared} (core : Scheduler.Core r s)
    (hopeless : Scheduler.Hopeless r s p) (ends : r.executor.ending r.world p ≠ .running) :
    (s.status p).isBad = true := by
  obtain ⟨fixed, other⟩ := hopeless
  rcases fixed with done | sink | ⟨-, blocked, -⟩
  · obtain ⟨e, done⟩ := Scheduler.Stage.isDone_iff.mp done
    have ended := (core.done p e done).1
    rw [ended] at other ⊢
    rcases r.executor.ending_isTerminal_or_running r.world p with (good | bad) | running
    · exact absurd good other
    · exact bad
    · exact absurd running ends
  · revert sink other
    cases s.status p <;> decide
  · rw [blocked]
    rfl

/-- A run that is accepted begins at the start. -/
theorem start_of_accepted {r : Scheduler.Run} {s : Scheduler.State}
    (accepted : Scheduler.run r = .ok s) : s = Scheduler.start r := by
  unfold Scheduler.run at accepted
  by_cases none : r.maxWorkers = 0
  · rw [if_pos none] at accepted
    cases accepted
  · rw [if_neg none] at accepted
    cases valid : r.graph.validate r.world with
    | error e =>
      rw [valid] at accepted
      cases accepted
    | ok u =>
      rw [valid] at accepted
      exact (Except.ok.inj accepted).symm

/-- A run keeps the account: a blocker was there before, or this is the run that marked the task. -/
theorem Kept.run (h : Kept f₀ f) (before : Reaches f₀ f) {x : Executor} {maxWorkers : Nat}
    {s : Scheduler.State} (moved : Step f { f with world := s.shared.world })
    (ran : Ran x f { f with world := s.shared.world })
    (run : Scheduler.Reachable (f.toRun x maxWorkers) Scheduler.anyTime s) :
    Kept f₀ { f with world := s.shared.world } := by
  intro t key p has
  have core := (Scheduler.sound_of_reachable (M := Scheduler.Mode.anyTime rfl) run).inv.core rfl
  have entry : ∀ t ∈ f.graph.keys, ∀ p, (f.world.tasks t).blockedBy = some p →
      f.world.status t = .blocked ∨ f.world.status t = .cancelled :=
    fun t key p has => (h t key p has).1
  rcases Scheduler.accounted_of_reachable rfl entry run t key p has with ⟨had, status⟩ | blames
  · obtain ⟨-, parent, blocked⟩ := h t key p had
    exact ⟨status, parent, blocked.step moved has⟩
  · refine ⟨.inl blames.blocked, blames.parent, x, f, _, before, ?_, .refl⟩
    exact ⟨ran, blames.pending, blames.blocked, has, blames.parent,
      bad_of_hopeless core blames.hopeless⟩

/-- Each step keeps the account, by cases on the step. -/
theorem Kept.step (h : Kept f₀ f) (before : Reaches f₀ f) (moved : Step f f') : Kept f₀ f' := by
  have whole := moved
  cases moved with
  | run accepted goes halted =>
    cases start_of_accepted accepted
    exact h.run before whole ⟨_, _, _, accepted, goes, halted, rfl⟩ goes
  | rejected raises => exact h
  | @add u after isFinally required g added keeps new =>
    intro t key p has
    rcases (TaskGraph.add_keys added).mp key with rfl | old
    · by_cases member : t ∈ f.graph.keys
      · obtain ⟨status, parent, blocked⟩ := h t member p has
        refine ⟨status, ?_, blocked.step whole has⟩
        rw [deps_add added, if_pos rfl]
        exact TaskGraph.mem_uniqueDeps.mpr (keeps p parent)
      · rw [new member] at has
        cases has
    · obtain ⟨status, parent, blocked⟩ := h t old p has
      refine ⟨status, ?_, blocked.step whole has⟩
      rw [deps_add added]
      split
      · rename_i same
        subst same
        exact TaskGraph.mem_uniqueDeps.mpr (keeps p parent)
      · exact parent
  | @cancel u x member =>
    intro t key p has
    have uses : (TTasks.cancel x u).Uses (TaskOp.Speaks u fun _ => True) :=
      uses_cancel x u fun _ => trivial
    obtain ⟨had, status⟩ := after_blockedBy x uses has
    obtain ⟨before, parent, blocked⟩ := h t key p had
    exact ⟨status before, parent, blocked.step whole has⟩

/-- Along a whole history of steps. -/
theorem Reaches.kept (new : f₀.graph = .empty) (run : Reaches f₀ f) : Kept f₀ f := by
  induction run with
  | refl =>
    intro t key
    rw [new] at key
    cases key
  | tail before last ih => exact ih.step before last

end Blockers

/-- After every operation, a member that has a blocker and is not CANCELLED is BLOCKED, and the
blocker is one of its dependencies: a run has marked the task on its account, it was bad after that
run, and the mark has stood since. -/
theorem blocker_was_bad {f₀ f : Workflow} (new : f₀.graph = .empty) (run : Reaches f₀ f)
    {t p : TaskId} (member : t ∈ f.graph.keys) (has : (f.world.tasks t).blockedBy = some p)
    (open_ : f.world.status t ≠ .cancelled) :
    f.world.status t = .blocked ∧ p ∈ f.graph.deps t ∧ Blocked f₀ f p t := by
  obtain ⟨status, parent, blocked⟩ := run.kept new t member p has
  exact ⟨status.resolve_right open_, parent, blocked⟩

/-! ## A blocker that recovers -/

/-- The world at the end of a run with these steps. -/
def worldAfter (r : Scheduler.Run) (steps : List Scheduler.Who) : World :=
  match (Scheduler.machine r).exec (Scheduler.Steps r Scheduler.anyTime) steps (Scheduler.start r) with
  | some s => s.shared.world
  | none => r.world

/-- The steps are a whole run. -/
def Whole (r : Scheduler.Run) (steps : List Scheduler.Who) : Prop :=
  ∃ s ∈ (Scheduler.machine r).exec (Scheduler.Steps r Scheduler.anyTime) steps (Scheduler.start r),
    ¬ (s.rest .main).Acting

instance (r : Scheduler.Run) (steps : List Scheduler.Who) : Decidable (Whole r steps) :=
  inferInstanceAs (Decidable (∃ s ∈ _, _))

/-- Steps that are executed to the end make a step of the workflow. -/
theorem step_of_whole {f : Workflow} {x : Executor} {maxWorkers : Nat} {steps : List Scheduler.Who}
    (accepted : Scheduler.run (f.toRun x maxWorkers) = .ok (Scheduler.start (f.toRun x maxWorkers)))
    (whole : Whole (f.toRun x maxWorkers) steps) :
    Step f { f with world := worldAfter (f.toRun x maxWorkers) steps } := by
  obtain ⟨s, hs, halted⟩ := whole
  have world : worldAfter (f.toRun x maxWorkers) steps = s.shared.world := by
    unfold worldAfter
    rw [hs]
  rw [world]
  exact .run accepted (Machine.reaches_of_exec hs) halted

/-- Each handler fails at its first call and returns at its second. -/
def recovering : Executor where
  handlers := fun _ => true
  behaviour := fun _ n => { outcome := if n = 0 then .raises (.exception "e") else .returns none }

/-- `b` needs `a`. -/
def narrow : Workflow where
  graph := Scheduler.pair
  world := { tasks := fun _ => {} }

/-- `a` fails, and `b` is marked BLOCKED. -/
def firstSteps : List Scheduler.Who :=
  List.replicate 28 .main ++ List.replicate 41 (.worker "a") ++ List.replicate 4 .main

/-- The tasks after the first run. -/
def failed : World := worldAfter (narrow.toRun recovering 4) firstSteps

/-- `b` needs `c` too, which has been cancelled. -/
def wide : Workflow where
  graph :=
    { edges := [("a", []), ("b", ["a", "c"]), ("c", [])]
      keys_nodup := by decide
      deps_nodup := by decide }
  world := recovering.after (TTasks.cancel recovering "c") failed

/-- `a` succeeds, and `b` stays as it is. -/
def secondSteps : List Scheduler.Who :=
  List.replicate 41 .main ++ List.replicate 41 (.worker "a") ++ List.replicate 4 .main

/-- The graph after the second run. -/
def recovered : Workflow :=
  { wide with world := worldAfter (wide.toRun recovering 4) secondSteps }

/-- The second run is reached from an empty graph. -/
theorem recovered_reached : Reaches ⟨.empty, narrow.world⟩ recovered := by
  have lone : TaskGraph.empty.add "a" [] = .ok Scheduler.lone := rfl
  have pair : Scheduler.lone.add "b" ["a"] = .ok Scheduler.pair := rfl
  let three : TaskGraph :=
    { edges := [("a", []), ("b", ["a"]), ("c", [])]
      keys_nodup := by decide
      deps_nodup := by decide }
  have third : Scheduler.pair.add "c" [] = .ok three := rfl
  have again : three.add "b" ["a", "c"] = .ok wide.graph := rfl
  have fresh : (failed.tasks "c").blockedBy = none := by decide +kernel
  have first : Step ⟨.empty, narrow.world⟩ ⟨Scheduler.lone, narrow.world⟩ :=
    .add lone (by decide) fun _ => rfl
  have second : Step ⟨Scheduler.lone, narrow.world⟩ narrow := .add pair (by decide) fun _ => rfl
  have run : Step narrow ⟨Scheduler.pair, failed⟩ := step_of_whole rfl (by decide +kernel)
  have more : Step ⟨Scheduler.pair, failed⟩ ⟨three, failed⟩ := .add third (by decide) fun _ => fresh
  have cancel : Step ⟨three, failed⟩
      ⟨three, recovering.after (TTasks.cancel recovering "c") failed⟩ :=
    .cancel recovering (by decide)
  have widen : Step ⟨three, wide.world⟩ wide := .add again (by decide) (by decide)
  have rerun : Step wide recovered := step_of_whole rfl (by decide +kernel)
  exact .tail (.tail (.tail (.tail (.tail (.tail (.single first) second) run) more) cancel) widen) rerun

/-- `b` is still BLOCKED by `a`, which has succeeded. -/
theorem recovered_blocker : Reaches ⟨.empty, narrow.world⟩ recovered ∧
    "b" ∈ recovered.graph.keys ∧ recovered.world.status "b" = .blocked ∧ ¬ Blamed recovered "b" := by
  have ends : recovered.world.status "b" = .blocked ∧
      (recovered.world.tasks "b").blockedBy = some "a" ∧
        (recovered.world.status "a").isBad = false := by decide +kernel
  obtain ⟨blocked, names, good⟩ := ends
  refine ⟨recovered_reached, by decide, blocked, fun blamed => ?_⟩
  obtain ⟨-, -, bad⟩ := blamed "a" names
  rw [good] at bad
  cases bad

/-- At its marking `b` had `a` among its dependencies, and `a` was FAILED. -/
theorem blocker_was_bad_recovered : "a" ∈ recovered.graph.deps "b" ∧
    Blocked ⟨.empty, narrow.world⟩ recovered "a" "b" := by
  have ends : (recovered.world.tasks "b").blockedBy = some "a" ∧
      recovered.world.status "b" ≠ .cancelled := by decide +kernel
  exact (blocker_was_bad rfl recovered_reached (by decide) ends.1 ends.2).2

end Workflow

end TTasks
