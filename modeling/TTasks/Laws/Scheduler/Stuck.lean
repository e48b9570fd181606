import TTasks.Laws.Scheduler.End

/-!
# Runs that get stuck

`schedule` reads statuses and futures at several moments, and what it decides may be overtaken before
it acts. Two things go wrong. A future that completes between the test that all tasks are finished
and the test for live work makes `schedule` report that there is no progress (`overtaken_raises`);
where no such test is overtaken, it never does (`no_error_of_steady`). And a cancel that comes
between the test that a task is PENDING and its transition to BLOCKED makes the transition raise, so
that `schedule` is abandoned and nobody sets `done` (`overtaken_hangs`); where no transition that
matters is overtaken, `run` is never left waiting (`not_hung_of_markable`).
-/

namespace TTasks.Scheduler

open Interleave

section Stuck

variable {r : Run}

/-! ## The test for live work -/

/-- Where the test for live work looks at a future, some future is not done, or every callback has
begun. -/
def SteadyLive (s : Shared) : Prop :=
  (∃ u, s.stage u ≠ .absent ∧ (s.stage u).isDone = false) ∨ ∀ u, ¬ Outstanding s u

/-- No test for live work is made between the completion of the last future and its callback. -/
def steadyLive : Discipline := fun _ o s => ∀ t, o = .live t → SteadyLive s

def Mode.steadyLive (calm : r.cancels = []) (valid : r.graph.Valid r.world)
    (pending : ∀ t ∈ r.graph.keys, entered r t = .pending) : Mode r where
  allow := Scheduler.steadyLive
  clean := True
  restricted := false
  finish := nofun
  marks stirred := absurd calm stirred
  submits := False.elim
  live _ _ _ t _ allowed := allowed t rfl
  unstuck _ := by
    refine ⟨calm, fun s coherent core closed skip => ?_⟩
    have told := told_of_closed coherent core (by intro h; cases h) closed
    exact finished_of_skipped valid coherent core told skip fun t key stranded =>
      not_left_of_pending valid pending t key stranded.2

/-- In every run whose tests for live work are steady, no error is found and `run` does not raise. -/
theorem no_error_of_steady (r : Run) (calm : r.cancels = [])
    (validates : r.graph.validate r.world = .ok ())
    (pending : ∀ t ∈ r.graph.keys, entered r t = .pending) {s : State}
    (run : Reachable r steadyLive s) :
    s.shared.schedulerErrors = [] ∧ (¬ (s.rest .main).Acting → (s.rest .main).Returned) := by
  have valid := TaskGraph.valid_of_validate validates
  have sound : Sound (Mode.steadyLive calm valid pending) s := sound_of_reachable run
  constructor
  · exact sound.inv.clean trivial
  · exact returned_of_clean trivial calm sound

/-- One task, which succeeds. -/
def single : Run where
  graph := lone
  executor := { handlers := fun _ => true, behaviour := fun _ _ => { outcome := .returns none } }
  world := { tasks := fun _ => {} }

/-- The test for live work finds the task's future queued. -/
def singleSteady : Discipline := fun _ o s =>
  match o with
  | .live _ => s.stage "a" = .queued
  | _ => True

instance (who : Who) (o : SchedOp) (s : Shared) : Decidable (singleSteady who o s) := by
  unfold singleSteady
  split <;> infer_instance

theorem no_error_of_steady_single : ∃ s, Reachable single steadyLive s ∧
    ¬ (s.rest .main).Acting ∧ s.shared.schedulerErrors = [] ∧ (s.rest .main).Returned := by
  have ran : ∃ s ∈ (machine single).exec (Steps single singleSteady)
      (List.replicate 16 .main ++ List.replicate 24 (.worker "a") ++ List.replicate 4 .main)
      (start single), ¬ (s.rest .main).Acting := by decide +kernel
  obtain ⟨s, hs, halted⟩ := ran
  have reachable : Reachable single steadyLive s := by
    refine (Machine.reaches_of_exec hs).mono fun _ _ allowed o k next => ?_
    obtain ⟨enabled, steady⟩ := allowed o k next
    refine ⟨enabled, fun t live => .inl ⟨"a", ?_⟩⟩
    subst live
    have queued : _ = Stage.queued := steady
    rw [queued]
    exact ⟨nofun, rfl⟩
  have ends := no_error_of_steady single rfl rfl (fun _ _ => rfl) reachable
  exact ⟨s, reachable, halted, ends.1, ends.2 halted⟩

/-- The task is not finished when `schedule` asks, and its future is done when it asks again. -/
def overtakenLive : List Who :=
  List.replicate 13 .main ++ List.replicate 15 (.worker "a") ++ List.replicate 8 .main ++
    List.replicate 9 (.worker "a") ++ List.replicate 2 .main

/-- `run` raises though its only task has succeeded. -/
theorem overtaken_raises : run single = .ok (start single) ∧
    ∃ s, Reachable single anyTime s ∧ ¬ (s.rest .main).Acting ∧ ¬ (s.rest .main).Returned ∧
      s.shared.schedulerErrors = [.runtimeError "scheduler made no progress; stuck=[]"] := by
  have ran : ∃ s ∈ (machine single).exec (Steps single anyTime) overtakenLive (start single),
      ¬ (s.rest .main).Acting ∧ ¬ (s.rest .main).Returned ∧ s.shared.schedulerErrors =
        [.runtimeError "scheduler made no progress; stuck=[]"] := by decide +kernel
  obtain ⟨s, hs, halted, raised, error⟩ := ran
  exact ⟨rfl, s, Machine.reaches_of_exec hs, halted, raised, error⟩

/-! ## The transition to BLOCKED -/

/-- The transition is carried out, or the call of `schedule` that it ends is not the last one:
`done` is set, or another callback is to come, or it is nested in another call, or `run` itself is
where the exception goes. -/
def Markable (who : Who) (t : TaskId) (s : Shared) : Prop :=
  s.status t = .pending ∨ s.done = true ∨ s.shutdown = true ∨ (∃ u, Outstanding s u) ∨
    2 ≤ s.scheduling ∨ who = .main

/-- No task that `schedule` has found PENDING is cancelled before it is marked BLOCKED. -/
def markable : Discipline := fun who o s =>
  ∀ t e, o = .task (.transition t .blocked e) → Markable who t s

def Mode.markable (r : Run) : Mode r where
  allow := Scheduler.markable
  restricted := false
  finish := nofun
  marks _ _ t e _ allowed := allowed t e rfl
  submits := False.elim
  live := False.elim
  unstuck := Mode.not_clean r false

/-- The callback of the task's future has returned or raised. -/
def CalledBack (s : State) (t : TaskId) : Prop :=
  (s.shared.stage t).isDone = true ∧
    (¬ (s.rest (.worker t)).Acting ∨ s.rest (.worker t) = once (.leave t))

/-- The thread is at `done.wait()`. -/
def AtWait : Sched Unit → Prop
  | .act .waitDone _ => True
  | _ => False

instance : DecidablePred AtWait := fun p => by unfold AtWait; split <;> infer_instance

/-- `run` waits for `done`, which nobody is left to set. -/
structure Hung (s : State) : Prop where
  waits : AtWait (s.rest .main)
  unset : s.shared.done = false
  halted : ∀ p ∈ s.shared.submitted, CalledBack s p.1

/-- A thread of the pool whose callback is over holds no lock, and its callback has begun. -/
theorem quiet_of_calledBack {s : State} {t : TaskId} (sound : Sound (Mode.markable r) s)
    (halted : CalledBack s t) :
    s.shared.lock ≠ some (.worker t) ∧ s.shared.callback t ≠ .registered := by
  rcases halted.2 with halted | leaving
  · obtain ⟨_, -, idle, quiet⟩ := sound.post halted
    exact ⟨fun mine => idle (sound.inv.coherent.holder t mine), quiet⟩
  · have here := sound.each (.worker t)
    rw [leaving] at here
    obtain ⟨-, next⟩ := here s.shared (.refl sound.inv)
    obtain ⟨moved, -, idle, quiet⟩ := next ⟨rfl, fun _ _ => nofun⟩
    refine ⟨fun mine => idle (moved.inv.coherent.holder t mine), quiet⟩

/-- In every run whose transitions to BLOCKED are not overtaken, `run` is never left waiting. -/
theorem not_hung_of_markable (r : Run) {s : State} (run : Reachable r markable s) : ¬ Hung s := by
  rintro ⟨waits, unset, halted⟩
  have sound : Sound (Mode.markable r) s := sound_of_reachable run
  have coherent := sound.inv.coherent
  obtain ⟨k, waits⟩ : ∃ k, s.rest .main = .act .waitDone k := by
    unfold AtWait at waits
    split at waits
    · rename_i k next
      exact ⟨k, next⟩
    · cases waits
  -- every submitted task's callback is over
  have halted : ∀ t, s.shared.stage t ≠ .absent → CalledBack s t := by
    intro t submitted
    obtain ⟨p, hp, rfl⟩ := List.mem_map.mp ((coherent.mem t).mpr submitted)
    exact halted p hp
  obtain ⟨-, left, opened, free⟩ := (sound.ready (compatible _) waits).wait rfl
  -- so nobody holds the lock: a worker that does is still in its callback
  have unlocked : s.shared.lock = none := by
    cases lock : s.shared.lock with
    | none => rfl
    | some who =>
      cases who with
      | main => exact absurd lock free
      | outside n => exact absurd lock (coherent.inside n)
      | worker t =>
        have submitted : s.shared.stage t ≠ .absent := by
          intro absent
          have started := coherent.started t (coherent.holder t lock)
          rw [absent] at started
          exact absurd started (by decide)
        exact absurd lock (quiet_of_calledBack sound (halted t submitted)).1
  -- one of the reasons to wait must hold then, and none does
  rcases left with locked | done | shutdown | ⟨t, submitted, waiting⟩
  · exact locked unlocked
  · rw [unset] at done
    cases done
  · rw [opened] at shutdown
    cases shutdown
  · have quiet := (quiet_of_calledBack sound (halted t submitted)).2
    have hooked := coherent.hooked unlocked t submitted
    cases callback : s.shared.callback t with
    | unregistered => exact hooked callback
    | registered => exact quiet callback
    | invoked => exact waiting callback

/-- A failing task, and one that needs it, which another thread cancels. -/
def cancelled : Run where
  graph := pair
  executor :=
    { handlers := fun _ => true
      behaviour := fun _ _ => { outcome := .raises (.exception "e") } }
  world := { tasks := fun _ => {} }
  cancels := ["b"]

/-- `b` is PENDING when it is marked. -/
def cancelledLater : Discipline := fun _ o s =>
  match o with
  | .task (.transition t .blocked _) => s.status t = .pending
  | _ => True

instance (who : Who) (o : SchedOp) (s : Shared) : Decidable (cancelledLater who o s) := by
  unfold cancelledLater
  split <;> infer_instance

theorem not_hung_of_markable_cancelled : ∃ s, Reachable cancelled markable s ∧ ¬ Hung s ∧
    ¬ (s.rest .main).Acting ∧ s.shared.status "b" = .cancelled := by
  have ran : ∃ s ∈ (machine cancelled).exec (Steps cancelled cancelledLater)
      (List.replicate 28 .main ++ List.replicate 41 (.worker "a") ++
        List.replicate 10 (.outside 0) ++ List.replicate 4 .main) (start cancelled),
      ¬ (s.rest .main).Acting ∧ s.shared.status "b" = .cancelled := by decide +kernel
  obtain ⟨s, hs, halted, status⟩ := ran
  have reachable : Reachable cancelled markable s := by
    refine (Machine.reaches_of_exec hs).mono fun _ _ allowed o k next => ?_
    obtain ⟨enabled, later⟩ := allowed o k next
    refine ⟨enabled, fun t e marks => .inl ?_⟩
    subst marks
    exact later
  exact ⟨s, reachable, not_hung_of_markable cancelled reachable, halted, status⟩

/-- The cancel comes between the test that `b` is PENDING and its transition to BLOCKED. -/
def overtakenMark : List Who :=
  List.replicate 28 .main ++ List.replicate 27 (.worker "a") ++ List.replicate 10 (.outside 0) ++
    List.replicate 4 (.worker "a")

/-- `b` is CANCELLED, nothing runs any more, and `run` goes on waiting. -/
theorem overtaken_hangs : run cancelled = .ok (start cancelled) ∧
    ∃ s, Reachable cancelled anyTime s ∧ Hung s := by
  have ran : ∃ s ∈ (machine cancelled).exec (Steps cancelled anyTime) overtakenMark
      (start cancelled), AtWait (s.rest .main) ∧ s.shared.done = false ∧
        ∀ p ∈ s.shared.submitted, (s.shared.stage p.1).isDone = true ∧
          ¬ (s.rest (.worker p.1)).Acting := by decide +kernel
  obtain ⟨s, hs, waits, unset, halted⟩ := ran
  refine ⟨rfl, s, Machine.reaches_of_exec hs, waits, unset, fun p hp => ?_⟩
  exact ⟨(halted p hp).1, .inl (halted p hp).2⟩

end Stuck

end TTasks.Scheduler
