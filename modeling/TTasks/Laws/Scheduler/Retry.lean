import TTasks.Laws.Scheduler.End
import TTasks.Laws.Scheduler.Pressing

/-!
# Retried tasks

A task that enters FAILED or BLOCKED and is submitted again keeps its status until the pool starts
it, and `finished` takes that for the end. So `done` may be set, and the pool shut down, while the
retry is still queued, and what depends on it is then refused by the pool (`refused_retry`). As long
as the pool refuses nothing, every task whose dependencies have succeeded is executed once
(`executed_of_opened`); as long as `finished` is not misled, `done` is not set before its time
(`retries_in_time`).
-/

namespace TTasks.Scheduler

open Interleave

section Retry

variable {r : Run} {t d : TaskId}

/-- No task is submitted to a pool that has been shut down. -/
def opened : Discipline := fun _ o s =>
  match o with
  | .poolSubmit _ _ => s.shutdown = false
  | _ => True

instance (who : Who) (o : SchedOp) (s : Shared) : Decidable (opened who o s) := by
  unfold opened
  split <;> infer_instance

def Mode.opened (calm : r.cancels = []) : Mode r where
  allow := Scheduler.opened
  restricted := false
  unrefused := True
  finish := nofun
  marks stirred := absurd calm stirred
  submits _ := ⟨calm, rfl, id⟩
  live := False.elim
  unstuck := Mode.not_clean r false

/-! ## Where `schedule` finds nothing to do -/

section Skipped

variable {s : Shared} (closed : Closed r s) (core : Core r s)

include closed core

/-- At the end a SUCCEEDED dependency blocks nothing and waits for nothing. -/
theorem Closed.settled_of_succeeded (succeeded : s.status d = .succeeded) :
    inactiveAt r s d = true ∧ badAt r s d = false := by
  have spent : retryableAt r s d = false := retryable_of_sink (by rw [succeeded]; rfl)
  by_cases absent : s.stage d = .absent
  · rw [inactiveAt, badAt, if_neg (by simp [absent]), closed.no_error absent, succeeded, spent]
    exact ⟨rfl, by simp [TaskStatus.isBad]⟩
  · obtain ⟨ended, failed⟩ := closed.executed core absent
    have fine : (s.errors d).isSome = false := by
      rw [← Bool.not_eq_true, failed, ← ended]
      exact fun other => other succeeded
    rw [inactiveAt, badAt, if_pos (bne_iff_ne.mpr absent), fine, succeeded]
    exact ⟨closed.done d absent, by simp [TaskStatus.isBad]⟩

/-- Where nothing is left to do, a task that may start and whose dependencies have succeeded has been
submitted. -/
theorem Closed.submitted_of_skipped (skip : AllSkip r s) (key : t ∈ r.graph.keys)
    (startable : (entered r t).canTransitionTo .running = true)
    (succeeded : ∀ d ∈ r.graph.deps t, s.status d = .succeeded) : s.stage t ≠ .absent := by
  intro absent
  have same : s.status t = entered r t := by
    refine (core.absent t absent).resolve_right fun marked => ?_
    obtain ⟨d, hd, hopeless⟩ := marked.parent
    exact hopeless.2 (succeeded d hd)
  have ready : readyAt r s t = true := by
    unfold readyAt
    split
    · rw [List.all_eq_true]
      intro d hd
      exact (closed.settled_of_succeeded core (succeeded d hd)).1
    · simpa using succeeded
  have submits : decisionReadyAt r s t = .submit := by
    rw [decisionReadyAt, ready, same, startable]
    rfl
  have fine : (r.graph.deps t).find? (badAt r s) = none := by
    rw [List.find?_eq_none]
    intro d hd
    simp [(closed.settled_of_succeeded core (succeeded d hd)).2]
  have decision := skip t key
  have open_ := TaskStatus.isSink_of_canTransitionTo startable
  rw [decisionAt, if_neg (by simp [absent]), if_neg (by simp [same, open_]), if_neg (by
    rw [same]
    unfold entering entered
    simp), fine, submits] at decision
  split at decision <;> cases decision

end Skipped

/-- In every run in which the pool refuses nothing, once `run` has returned, every task that may
start and whose dependencies have succeeded has been executed, once. -/
theorem executed_of_opened (r : Run) (calm : r.cancels = []) {s : State}
    (run : Reachable r opened s) (returned : (s.rest .main).Returned) {t : TaskId}
    (key : t ∈ r.graph.keys)
    (retried : entered r t = .pending ∨ entered r t = .failed ∨ entered r t = .blocked)
    (succeeded : ∀ d ∈ r.graph.deps t, s.shared.status d = .succeeded) :
    (s.shared.stage t).isDone = true ∧ (s.shared.submitted.map Prod.fst).count t = 1 := by
  have sound : Sound (Mode.opened calm) s := sound_of_reachable run
  have core := sound.inv.core calm
  have halted : ¬ (s.rest .main).Acting := by
    intro acting
    obtain ⟨o, k, next⟩ := acting.exists_act
    rw [next] at returned
    exact returned
  have closed := closed_of_halted sound halted
  have quiescent : Quiescent r s.shared := by
    have here := sound.each .main
    cases h : s.rest .main with
    | ret a =>
      rw [h] at here
      exact (here.2.2 (List.ne_nil_of_mem key)).2.2 trivial
    | act o k => rw [h] at returned; exact returned.elim
    | fail e => rw [h] at returned; exact returned.elim
  have skip : AllSkip r s.shared := by
    rcases quiescent with locked | ⟨u, submitted, waiting⟩ | skip
    · exact absurd closed.free locked
    · exact absurd (closed.invoked u submitted) waiting
    · exact skip
  have startable := (TaskStatus.canTransitionTo_running_iff (entered r t)).mpr retried
  have submitted := closed.submitted_of_skipped core skip key startable succeeded
  refine ⟨closed.done t submitted, ?_⟩
  exact List.count_eq_one_of_mem closed.coherent.nodup ((closed.coherent.mem t).mpr submitted)

/-- Where the pool refuses nothing, every task that may start and whose dependencies have succeeded
has been executed, once, when `run` has returned. Where the test for the end of the run is not misled
by a retry that is still waited for, `done` is not set while a call is waited for. -/
theorem retries_in_time (r : Run) (calm : r.cancels = []) :
    (∀ s, Reachable r opened s → (s.rest .main).Returned → ∀ t ∈ r.graph.keys,
      (entered r t = .pending ∨ entered r t = .failed ∨ entered r t = .blocked) →
      (∀ d ∈ r.graph.deps t, s.shared.status d = .succeeded) →
        (s.shared.stage t).isDone = true ∧ (s.shared.submitted.map Prod.fst).count t = 1) ∧
    ∀ s, Reachable r (current r) s → ∀ who, atSetDone (s.rest who) = true → ∀ t,
      ¬ Pressing r s.shared t :=
  ⟨fun _ run returned _ => executed_of_opened r calm run returned,
    fun _ run _ sets => unpressed_of_current calm run sets⟩

/-- Two tasks in a row that have failed in an earlier run, and would now succeed. -/
def retried : Run where
  graph := pair
  executor := { handlers := fun _ => true, behaviour := fun _ _ => { outcome := .returns none } }
  world := { tasks := fun _ => { status := .failed } }

/-- `finished` meets no task whose call is not over and which has ended in an earlier run. -/
def startedInTime : Discipline := fun _ o s =>
  match o with
  | .terminal t => (s.status t).isTerminal = false ∨ (s.stage t).isDone = true
  | _ => True

instance (who : Who) (o : SchedOp) (s : Shared) : Decidable (startedInTime who o s) := by
  unfold startedInTime
  split <;> infer_instance

/-- The retry of `a` is over before `run` shuts the pool down; and in a run in which the pool starts
both retries before `finished` comes to them, `done` is set when both are over. -/
theorem retries_in_time_retried :
    (∃ s, Reachable retried opened s ∧ (s.rest .main).Returned ∧
      (s.shared.stage "b").isDone = true ∧ (s.shared.submitted.map Prod.fst).count "b" = 1) ∧
    ∃ s, Reachable retried (current retried) s ∧ atSetDone (s.rest (.worker "a")) = true ∧
      ∀ t, ¬ Pressing retried s.shared t := by
  obtain ⟨executed, unpressed⟩ := retries_in_time retried rfl
  constructor
  · have ran : ∃ s ∈ (machine retried).exec (Steps retried opened)
        (List.replicate 26 .main ++ List.replicate 38 (.worker "a") ++
          List.replicate 26 (.worker "b") ++ List.replicate 4 .main) (start retried),
        (s.rest .main).Returned ∧ s.shared.status "a" = .succeeded := by decide +kernel
    obtain ⟨s, hs, returned, succeeded⟩ := ran
    have reachable := Machine.reaches_of_exec hs
    refine ⟨s, reachable, returned, executed s reachable returned "b" (by decide)
      (.inr (.inl rfl)) fun d hd => ?_⟩
    obtain rfl : d = "a" := List.mem_singleton.mp hd
    exact succeeded
  · have ran : ∃ s ∈ (machine retried).exec (Steps retried startedInTime)
        (List.replicate 21 .main ++ List.replicate 6 (.worker "a") ++ List.replicate 7 .main ++
          List.replicate 27 (.worker "a") ++ List.replicate 15 (.worker "b") ++
          [.worker "a"]) (start retried), atSetDone (s.rest (.worker "a")) = true := by decide +kernel
    obtain ⟨s, hs, sets⟩ := ran
    have reachable : Reachable retried (current retried) s := by
      refine (Machine.reaches_of_exec hs).mono fun _ _ allowed o k next => ?_
      obtain ⟨enabled, inTime⟩ := allowed o k next
      refine ⟨enabled, ?_⟩
      rintro t rfl terminal pressing
      rcases inTime with other | done
      · rw [terminal] at other
        cases other
      · rw [pressing.undone] at done
        cases done
    exact ⟨s, reachable, sets, unpressed s reachable _ sets⟩

/-- `done` is set at once, since both tasks look finished. The retry of `a` then succeeds in a pool
that takes nothing more, and `run` returns without `b` having been executed. -/
theorem refused_retry : run retried = .ok (start retried) ∧
    ∃ s, Reachable retried anyTime s ∧ (s.rest .main).Returned ∧ entered retried "b" = .failed ∧
      retried.graph.deps "b" = ["a"] ∧ s.shared.status "a" = .succeeded ∧
      s.shared.stage "b" = .absent ∧ (s.shared.submitted.map Prod.fst).count "b" = 0 := by
  have ran : ∃ s ∈ (machine retried).exec (Steps retried anyTime)
      (List.replicate 28 .main ++ List.replicate 32 (.worker "a") ++ List.replicate 2 .main)
      (start retried), (s.rest .main).Returned ∧ s.shared.status "a" = .succeeded ∧
        s.shared.stage "b" = .absent ∧ (s.shared.submitted.map Prod.fst).count "b" = 0 := by
    decide +kernel
  obtain ⟨s, hs, returned, succeeded, absent, none⟩ := ran
  exact ⟨rfl, s, Machine.reaches_of_exec hs, returned, rfl, rfl, succeeded, absent, none⟩

end Retry

end TTasks.Scheduler
