import TTasks.Scheduler

/-!
# `TaskGraph.run`

The whole of `run`: its two checks, the auto-saves of the graph before and after, and `_run_inner`
between them, beside the threads of the pool. The scheduler's operations are here among those of
`run` itself, and the state has beside the scheduler's the graph's row in the store and
`graph_persistence_errors`.

An accepted save of the graph leaves its members in the store as they are, and the graph with them.
No thread but those of the run is there, so `entering_blocked` can be read off the world that `run`
starts in.

Left out: the warning that goes with a failing save.
-/

namespace TTasks

open Interleave

namespace GraphRun

open Scheduler (Who SchedOp Sched once)

/-- What is fixed about a call of `run`. -/
structure Setup extends Scheduler.Run where
  /-- The exception of the store's `n`-th save of the graph, if that fails. -/
  graphSaveFails : Nat → Option Exc := fun _ => none

structure Shared where
  inner : Scheduler.Shared
  storedGraph : Option TaskGraph := none
  graphSaves : Nat := 0
  graphPersistenceErrors : List Exc := []

inductive Op
  | sched (o : SchedOp)
  | resetErrors
  | saveGraph
  | recordGraphError (error : Exc)

abbrev Op.Ans : Op → Type
  | .sched o => o.Ans
  | .resetErrors => Unit
  | .saveGraph => Except Exc Unit
  | .recordGraphError _ => Unit

/-- What a save of the graph leaves in the store. -/
def saveMembers (g : TaskGraph) (w : World) : World :=
  { w with stored := fun t => if t ∈ g.keys then some (w.tasks t) else w.stored t }

/-- One operation of one thread. -/
def sem (r : Setup) (who : Who) : (o : Op) → Shared → o.Ans × Shared
  | .sched o, s =>
    ((o.perform r.toRun who s.inner).1, { s with inner := (o.perform r.toRun who s.inner).2 })
  | .resetErrors, s => ((), { s with inner := { s.inner with errors := fun _ => none } })
  | .saveGraph, s =>
    match r.graphSaveFails s.graphSaves with
    | some e => (.error e, { s with graphSaves := s.graphSaves + 1 })
    | none =>
      (.ok (), { s with
        inner := { s.inner with world := saveMembers r.graph s.inner.world }
        storedGraph := some r.graph
        graphSaves := s.graphSaves + 1 })
  | .recordGraphError e, s =>
    ((), { s with graphPersistenceErrors := s.graphPersistenceErrors ++ [e] })

abbrev Program (α : Type) := Prog Op.Ans Exc α

/-- A program of the scheduler, as a part of `run`. -/
def within {α : Type} (p : Sched α) : Program α := p.lift Op.sched fun _ a => a

/-! ## `_validate`, read by read -/

/-- The first loop: no task is RUNNING. -/
def noneRunning : List TaskId → Sched Unit
  | [] => pure ()
  | t :: ts => do
    let status ← Scheduler.status t
    if status == .running then
      let title ← once (.title t)
      throw (.valueError ("task " ++ quoted title ++ " is RUNNING; reset before run()"))
    else
      noneRunning ts

def validate (g : TaskGraph) : Sched Unit := do
  noneRunning g.keys
  match g.unregistered with
  | some (t, d) =>
    let title ← once (.title t)
    throw (.valueError ("task " ++ quoted title ++ " depends on unregistered task id " ++ quoted d))
  | none =>
    if g.kahn.visited ≠ g.keys.length then
      throw (.valueError "TaskGraph contains a cycle")
    else
      pure ()

/-! ## The run -/

section Code

variable (r : Setup)

/-- `store.graphs.save(graph)`. -/
def saveGraph : Program Unit := do
  match ← (Prog.op Op.saveGraph : Program (Except Exc Unit)) with
  | .ok () => pure ()
  | .error e => throw e

/-- `_persist_graph`. -/
def persistGraph : Program Unit :=
  if r.executor.store then
    tryCatch saveGraph fun error => Prog.op (Op.recordGraphError error)
  else
    pure ()

/-- `run`. -/
def run : Program Unit :=
  if r.maxWorkers = 0 then
    throw (.valueError "max_workers must be greater than 0")
  else do
    within (validate r.graph)
    persistGraph r
    Prog.finallyDo (do
      Prog.op Op.resetErrors
      within (Scheduler.main r.toRun)) (persistGraph r)

abbrev State := Threads Who Op.Ans Exc Unit Shared

/-- `run` is about to begin. -/
def start (s : Shared) : State where
  shared := s
  rest
    | .main => run r
    | .worker t => within (Scheduler.worker r.toRun t)
    | .outside _ => .ret ()

end Code

end GraphRun

end TTasks
