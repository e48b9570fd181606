import TTasks.GraphRun
import TTasks.Laws.Graph.Kahn

/-!
# A run of an invalid graph

`_validate` only reads, so when it raises, `run` has changed nothing. With `validate_ok_iff` this is
what the check is for.
-/

namespace TTasks

open Interleave

namespace GraphRun

open Scheduler (Who SchedOp Sched)

variable (r : Setup) (who : Who)

/-- A part of the scheduler's is run on the scheduler's state. -/
theorem run_within {α : Type} (p : Sched α) (s : Shared) :
    (within p).run (sem r who) s = ((p.run (SchedOp.perform r.toRun who) s.inner).1,
      { s with inner := (p.run (SchedOp.perform r.toRun who) s.inner).2 }) := by
  induction p generalizing s with
  | ret a => rfl
  | fail e => rfl
  | act o k ih => exact ih _ _

/-- The first loop looks for the first RUNNING task. -/
theorem run_noneRunning (ts : List TaskId) (s : Scheduler.Shared) :
    (noneRunning ts).run (SchedOp.perform r.toRun who) s =
      match ts.find? fun t => s.world.status t == .running with
      | some t => (.error (.valueError ("task " ++ quoted (s.world.tasks t).title ++
          " is RUNNING; reset before run()")), s)
      | none => (.ok (), s) := by
  induction ts with
  | nil => rfl
  | cons t ts ih =>
    rw [List.find?_cons]
    change Prog.run _ (if (s.world.status t == .running) = true then _ else _) s = _
    cases running : s.world.status t == .running with
    | true => rfl
    | false => exact ih

/-- Read by read, `_validate` comes to what it says of the world, and changes nothing. -/
theorem run_validate (g : TaskGraph) (s : Scheduler.Shared) :
    (validate g).run (SchedOp.perform r.toRun who) s = (g.validate s.world, s) := by
  unfold validate TaskGraph.validate
  rw [Prog.bind_eq, Prog.run_bind, run_noneRunning]
  cases g.keys.find? fun t => s.world.status t == .running with
  | some t => rfl
  | none =>
    dsimp only
    cases g.unregistered with
    | some edge => rfl
    | none =>
      dsimp only
      split <;> rfl

/-- A graph that `_validate` refuses makes `run` raise, with the state as it was. -/
theorem run_of_refused (workers : r.maxWorkers ≠ 0) (s : Shared) {e : Exc}
    (refused : r.graph.validate s.inner.world = .error e) :
    (run r).run (sem r who) s = (.error e, s) := by
  unfold run
  rw [if_neg workers, Prog.bind_eq, Prog.run_bind, run_within, run_validate, refused]

/-- `_validate` ends; it accepts exactly the graphs without a RUNNING member, an unregistered
dependency or a directed cycle; and a run that it stops has changed nothing. -/
theorem validate_correct (g : TaskGraph) :
    (Relation.ReflTransGen (TaskGraph.Kahn.Round g.edges) g.kahnStart g.kahn ∧ g.kahn.queue = []) ∧
    (∀ w, g.validate w = .ok () ↔ (∀ t ∈ g.keys, w.status t ≠ .running) ∧
      (∀ t ∈ g.keys, ∀ d ∈ g.deps t, d ∈ g.keys) ∧
      ∀ t ∈ g.keys, ¬ Relation.TransGen (fun a d => d ∈ g.deps a) t t) ∧
    ∀ (r : Setup) (s : Shared) (e : Exc), r.graph = g → r.maxWorkers ≠ 0 →
      g.validate s.inner.world = .error e → (run r).run (sem r .main) s = (.error e, s) := by
  refine ⟨⟨TaskGraph.Kahn.loop_rounds _ _ _, (TaskGraph.kahn_ends g).1⟩,
    TaskGraph.validate_ok_iff g, ?_⟩
  rintro r s e rfl workers refused
  exact run_of_refused r .main workers s refused

end GraphRun

end TTasks
