import TTasks.Laws.Executor.Escape
import TTasks.Laws.Scheduler.End

/-!
# Tasks left RUNNING

When `run` is over, the tasks that are RUNNING are the executed ones whose handler ended in an
exception that the executor does not deal with, outside `Exception` or unreadable; a further run is
rejected exactly if there are any. `escapes` puts that beside what one execution leaves, and
`left_running` is a run that ends so.
-/

namespace TTasks.Scheduler

open Interleave

section Escape

variable {r : Run}

/-- Every interleaving of a run that nobody cancels. -/
def Mode.anyTime (calm : r.cancels = []) : Mode r where
  allow := Scheduler.anyTime
  restricted := false
  finish := nofun
  marks stirred := absurd calm stirred
  submits := False.elim
  live := False.elim
  unstuck := Mode.not_clean r false

/-- The statuses are all that `_validate` looks at beside the edges. -/
theorem validate_iff {g : TaskGraph} {w w' : World} (validates : g.validate w = .ok ()) :
    g.validate w' = .ok () ↔ ∀ t ∈ g.keys, w'.status t ≠ .running := by
  unfold TaskGraph.validate at validates ⊢
  split at validates
  · cases validates
  have rest : ∀ t d, g.unregistered ≠ some (t, d) := by
    intro t d found
    rw [found] at validates
    cases validates
  cases found : g.keys.find? fun t => w'.status t == .running with
  | some t =>
    have running : w'.status t = .running := by simpa using List.find?_some found
    exact iff_of_false nofun fun none => none t (List.mem_of_find?_eq_some found) running
  | none =>
    refine iff_of_true ?_ fun t key running => ?_
    · cases unregistered : g.unregistered with
      | some e => exact absurd unregistered (rest e.1 e.2)
      | none => rw [unregistered] at validates; exact validates
    have other := List.find?_eq_none.mp found t key
    simp [running] at other

/-- At the end of a run, a task is RUNNING if and only if it was executed and its handler ended in an
exception that the executor does not deal with. -/
theorem running_iff {s : Shared} (valid : r.graph.Valid r.world) (closed : Closed r s)
    (core : Core r s) : (∀ t ∈ r.graph.keys, s.status t ≠ .running) ↔
      ∀ p ∈ s.submitted, ending r p.1 ≠ .running := by
  have submitted : ∀ t, t ∈ s.submitted.map Prod.fst ↔ s.stage t ≠ .absent := closed.coherent.mem
  constructor
  · intro none p hp
    have executed := (submitted p.1).mp (List.mem_map_of_mem hp)
    rw [← (closed.executed core executed).1]
    exact none p.1 (closed.coherent.keys p.1 executed)
  · intro none t key
    rcases closed.status core t with ⟨-, same | marked⟩ | ⟨executed, ended⟩
    · rw [same]
      exact valid.notRunning t key
    · rw [marked.blocked]
      decide
    · obtain ⟨p, hp, rfl⟩ := List.mem_map.mp ((submitted t).mpr executed)
      rw [ended]
      exact none p hp

/-- What leaves a task RUNNING. When a run is over, a task of the graph is RUNNING, and a further
run is rejected, if and only if some executed task's handler ended in an exception that the executor
does not deal with; and an execution of a task leaves it RUNNING if and only if one of its attempts
ends so. -/
theorem escapes (r : Run) (calm : r.cancels = []) (validates : r.graph.validate r.world = .ok ())
    {s : State} (run : Reachable r anyTime s) (halted : ¬ (s.rest .main).Acting) (x : Executor)
    (t : TaskId) (upstream : List TaskId) (policy : RetryPolicy) {w : World}
    (idle : w.status t ≠ .running) :
    ((∀ t ∈ r.graph.keys, s.shared.status t ≠ .running) ↔
      ∀ p ∈ s.shared.submitted, ending r p.1 ≠ .running) ∧
    (r.graph.validate s.shared.world = .ok () ↔
      ∀ p ∈ s.shared.submitted, ending r p.1 ≠ .running) ∧
    ((x.after (execute x t upstream policy) w).status t = .running ↔
      (w.status t).canTransitionTo .running = true ∧ x.handlers (w.tasks t).type = true ∧
        Escapes x t (w.callCount t) policy.maxAttempts) := by
  have sound : Sound (Mode.anyTime calm) s := sound_of_reachable run
  have ends := running_iff (TaskGraph.valid_of_validate validates) (closed_of_halted sound halted)
    (sound.inv.core calm)
  refine ⟨ends, (validate_iff validates).trans ends, ?_⟩
  exact execute_running_iff x t upstream policy idle

/-- One task, whose handler calls `sys.exit`. -/
def exiting : Run where
  graph := lone
  executor :=
    { handlers := fun _ => true
      behaviour := fun _ _ => { outcome := .raises (.baseException "SystemExit") } }
  world := { tasks := fun _ => {} }

/-- One task, which succeeds. -/
def returning : Run where
  graph := lone
  executor := { handlers := fun _ => true, behaviour := fun _ _ => { outcome := .returns none } }
  world := { tasks := fun _ => {} }

/-- The steps of a run of one task, one thread after the other. -/
def inTurn (worker : Nat) : List Who :=
  List.replicate 16 .main ++ List.replicate worker (.worker "a") ++ List.replicate 4 .main

theorem escapes_returning : ∃ s, Reachable returning anyTime s ∧ ¬ (s.rest .main).Acting ∧
    s.shared.status "a" ≠ .running ∧
    (returning.executor.after (execute returning.executor "a" []) returning.world).status "a" ≠
      .running := by
  have ran : ∃ s ∈ (machine returning).exec (Steps returning anyTime) (inTurn 24)
      (start returning), ¬ (s.rest .main).Acting := by decide +kernel
  obtain ⟨s, hs, halted⟩ := ran
  have reachable := Machine.reaches_of_exec hs
  have ending : ∀ t, ending returning t ≠ .running := fun _ => nofun
  obtain ⟨still, -, once⟩ := escapes returning rfl rfl reachable halted returning.executor "a" [] {}
    (w := returning.world) (by decide)
  refine ⟨s, reachable, halted, still.mpr (fun p _ => ending p.1) "a" (by decide), fun running => ?_⟩
  obtain ⟨-, -, k, -, escapes, -⟩ := once.mp running
  exact absurd escapes (by decide : HandlerCall.ending { outcome := .returns none } ≠ .running)

/-- `run` returns, but its task is RUNNING for good: no event says that it ended, and another run is
rejected. -/
theorem left_running : run exiting = .ok (start exiting) ∧
    (∃ s, Reachable exiting anyTime s ∧ (s.rest .main).Returned ∧ s.shared.status "a" = .running ∧
      (s.shared.world.events "a").map (fun d => d.event.type) = [.started] ∧
      exiting.graph.validate s.shared.world ≠ .ok ()) ∧
    (exiting.executor.after (execute exiting.executor "a" []) exiting.world).status "a" = .running ∧
    ((exiting.executor.after (execute exiting.executor "a" []) exiting.world).events "a").map
      (fun d => d.event.type) = [.started] := by
  have ran : ∃ s ∈ (machine exiting).exec (Steps exiting anyTime) (inTurn 20) (start exiting),
      (s.rest .main).Returned ∧ s.shared.status "a" = .running ∧
        (s.shared.world.events "a").map (fun d => d.event.type) = [.started] := by
    decide +kernel
  obtain ⟨s, hs, returned, running, events⟩ := ran
  refine ⟨rfl, ⟨s, Machine.reaches_of_exec hs, returned, running, events, fun validates => ?_⟩,
    by decide, by decide⟩
  exact (validate_iff (w := exiting.world) rfl).mp validates "a" (by decide) running

/-- A handler that raises `TaskExecutionError("exit 1", None)`: `completed.stderr` raises, and nothing
has been written yet. -/
def careless : Executor where
  handlers _ := true
  behaviour _ _ := { outcome := .raises (.unreadable "exit 1" (.exception "no attribute 'stderr'")) }

example : (careless.after (execute careless "a" []) { tasks := fun _ => {} }).status "a" = .running := by
  decide

end Escape

end TTasks.Scheduler
