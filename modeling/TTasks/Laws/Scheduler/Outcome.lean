import TTasks.Laws.Scheduler.End

/-!
# What a run comes to

In the runs whose futures complete outside `schedule`, in any order and with any number of workers.
Where every task enters PENDING, each ends in the status that `outcome` gives by recursion over the
dependencies (`run_outcome`). Whatever the statuses on entry, `run` decides every PENDING task
exactly if no task is stranded (`decides_iff`); a finally task behind a BLOCKED dependency that an
ancestor keeps from being retried is stranded (`stranded_finally`).
-/

namespace TTasks.Scheduler

open Interleave

/-- A worker completes its future. -/
def SchedOp.isFinish : SchedOp → Bool
  | finish _ _ => true
  | _ => false

/-- No future completes while a call of `schedule` is in progress. -/
def betweenCalls : Discipline := fun _ o s => o.isFinish = true → s.scheduling = 0

instance (who : Who) (o : SchedOp) (s : Shared) : Decidable (betweenCalls who o s) :=
  inferInstanceAs (Decidable (_ → _))

/-- The same run with another number of workers. -/
def Run.withWorkers (r : Run) (workers : Nat) : Run := { r with maxWorkers := workers }

section Outcome

variable {r : Run} {t : TaskId}

/-- What the discipline buys: where no task is stranded, the no-progress branch is not taken. -/
def Mode.betweenCalls (calm : r.cancels = []) (valid : r.graph.Valid r.world)
    (ordinary : ∀ t ∈ r.graph.keys, Ordinary r t) : Mode r where
  allow := Scheduler.betweenCalls
  restricted := true
  clean := ∀ t ∈ r.graph.keys, ¬ Stranded r t
  finish _ _ _ _ _ allowed := allowed rfl
  marks stirred := absurd calm stirred
  submits := False.elim
  live _ h := nomatch h
  unstuck none := by
    refine ⟨calm, fun s coherent core closed skip => ?_⟩
    have told := told_of_closed coherent core
      (fun _ t key => (ordinary t key).ending_ne_running) closed
    exact finished_of_skipped valid coherent core told skip none

/-- The discipline stops nobody but a worker about to complete its future. -/
theorem betweenCalls_of_free (who : Who) {o : SchedOp} {s : Shared}
    (free : s.scheduling = 0 ∨ ∀ t e, o ≠ .finish t e) : betweenCalls who o s := by
  intro finishes
  rcases free with idle | other
  · exact idle
  · cases o with
    | finish t e => exact absurd rfl (other t e)
    | _ => cases finishes

/-- The arguments of `run` are accepted. -/
theorem run_eq (validates : r.graph.validate r.world = .ok ()) (workers : 0 < r.maxWorkers) :
    run r = .ok (start r) := by
  have some : r.maxWorkers ≠ 0 := by omega
  simp only [run, validates, if_neg some]
  rfl

/-! ## Every task enters PENDING -/

/-- The outcome of a task depends on those of its dependencies only. -/
theorem outcomeStep_local (r : Run) : Dag.Local r.graph.deps (outcomeStep r) := by
  intro t f f' same
  have all : (∀ d ∈ r.graph.deps t, f d = .succeeded) ↔ ∀ d ∈ r.graph.deps t, f' d = .succeeded :=
    forall₂_congr fun d hd => by rw [same d hd]
  simp only [outcomeStep, all]

/-- In a valid graph the recursion comes to a fixed point, task by task. -/
theorem outcome_eq (valid : r.graph.Valid r.world) (key : t ∈ r.graph.keys) :
    outcome r t = outcomeStep r t (outcome r) := by
  obtain ⟨l, sorted, mem, length⟩ := valid.order
  exact Dag.unroll_eq (outcomeStep_local r) sorted (le_of_eq length) ((mem t).mpr key)

/-- Whatever satisfies the recursion is the outcome. -/
theorem eq_outcome (valid : r.graph.Valid r.world) {f : TaskId → TaskStatus}
    (solves : ∀ t ∈ r.graph.keys, f t = outcomeStep r t f) (key : t ∈ r.graph.keys) :
    f t = outcome r t := by
  obtain ⟨l, sorted, mem, length⟩ := valid.order
  apply Dag.eq_unroll (outcomeStep_local r) sorted (le_of_eq length)
  · intro a ha
    exact solves a ((mem a).mp ha)
  · exact (mem t).mpr key

/-- A task that is ready ends as its execution does. -/
theorem outcomeStep_of_guard {s : Shared} (guard : Guard r s t) :
    outcomeStep r t s.status = ending r t := by
  apply if_pos
  cases final : r.graph.isFinally t with
  | true => exact .inl rfl
  | false => exact .inr (guard.normal final)

/-- A marked task ends BLOCKED. -/
theorem outcomeStep_of_marked {s : Shared} (marked : Marked r s t) :
    outcomeStep r t s.status = .blocked := by
  apply if_neg
  rintro (final | good)
  · rw [marked.normal] at final
    cases final
  · obtain ⟨d, hd, hopeless⟩ := marked.parent
    exact hopeless.2 (good d hd)

/-- `run` has returned, every task is where the recursion says, and `errors` holds the tasks that
end FAILED or CANCELLED. -/
structure Concluded (r : Run) (s : State) : Prop where
  returned : (s.rest .main).Returned
  status : ∀ t ∈ r.graph.keys, s.shared.status t = outcome r t
  errors : ∀ t, (s.shared.errors t).isSome = true ↔
    t ∈ r.graph.keys ∧ (outcome r t = .failed ∨ outcome r t = .cancelled)

section Pending

variable (calm : r.cancels = []) (valid : r.graph.Valid r.world)
  (pending : ∀ t ∈ r.graph.keys, entered r t = .pending)
  (ordinary : ∀ t ∈ r.graph.keys, Ordinary r t)

include pending

/-- At the end every task has been executed or marked. -/
theorem decided_of_pending {s : Shared} (core : Core r s) (done : s.done = true)
    (clean : s.schedulerErrors = []) (key : t ∈ r.graph.keys) (absent : s.stage t = .absent) :
    Marked r s t := by
  have blocked := (core.finished done clean t key (pending t key)).resolve_left (absurd absent)
  refine (core.absent t absent).resolve_left fun same => ?_
  rw [blocked, pending t key] at same
  cases same

/-- At the end of the run every status is the one that the recursion gives. -/
theorem concluded_of_halted {s : State}
    (sound : Sound (Mode.betweenCalls calm valid ordinary) s) (halted : ¬ (s.rest .main).Acting) :
    Concluded r s := by
  have none : ∀ t ∈ r.graph.keys, ¬ Stranded r t := fun t key stranded =>
    not_left_of_pending valid pending t key stranded.2
  have core := sound.inv.core calm
  have closed := closed_of_halted sound halted
  have returned := returned_of_clean (M := Mode.betweenCalls calm valid ordinary) none calm sound halted
  have marked : ∀ t ∈ r.graph.keys, s.shared.stage t = .absent → Marked r s.shared t := by
    intro t key absent
    obtain ⟨done, clean⟩ := done_of_returned calm sound key returned
    exact decided_of_pending pending core done clean key absent
  have status : ∀ t ∈ r.graph.keys, s.shared.status t = outcome r t := by
    intro t key
    refine eq_outcome valid (fun t key => ?_) key
    by_cases absent : s.shared.stage t = .absent
    · rw [outcomeStep_of_marked (marked t key absent), (marked t key absent).blocked]
    · rw [outcomeStep_of_guard (startable_of_submitted closed.coherent core absent).2]
      exact (closed.executed core absent).1
  refine ⟨returned, status, fun t => ?_⟩
  by_cases absent : s.shared.stage t = .absent
  · rw [closed.no_error absent]
    constructor
    · nofun
    · rintro ⟨key, failed⟩
      rw [← status t key, (marked t key absent).blocked] at failed
      rcases failed with h | h <;> cases h
  · have key := closed.coherent.keys t absent
    obtain ⟨ended, failed⟩ := closed.executed core absent
    have terminal := (ordinary t key).ending_ne_running
    have range : ending r t = .succeeded ∨ ending r t = .failed ∨ ending r t = .cancelled ∨
      ending r t = .running := r.executor.ending_cases r.world t
    rw [failed, ← status t key, ended]
    constructor
    · intro other
      refine ⟨key, ?_⟩
      simpa [other, terminal] using range
    · rintro ⟨-, h | h⟩ <;> rw [h] <;> nofun

end Pending

/-- Every run of a graph whose tasks all enter PENDING ends as the recursion says, whatever the
order of its steps and the number of its workers. -/
theorem run_outcome (r : Run) (calm : r.cancels = [])
    (validates : r.graph.validate r.world = .ok ())
    (pending : ∀ t ∈ r.graph.keys, entered r t = .pending)
    (ordinary : ∀ t ∈ r.graph.keys, Ordinary r t) (workers : Nat) (some : 0 < workers) :
    (∀ t ∈ r.graph.keys, outcome r t = outcomeStep r t (outcome r)) ∧
      run (r.withWorkers workers) = .ok (start (r.withWorkers workers)) ∧
      Inevitably ((machine (r.withWorkers workers)).Via (Steps (r.withWorkers workers) betweenCalls))
        (Concluded r) (start (r.withWorkers workers)) ∧
      ∀ s, Reachable (r.withWorkers workers) betweenCalls s → ¬ (s.rest .main).Acting →
        Concluded r s := by
  have valid := TaskGraph.valid_of_validate validates
  have halted : ∀ s, Sound (Mode.betweenCalls (r := r.withWorkers workers) calm valid ordinary) s →
      ¬ (s.rest .main).Acting → Concluded r s := by
    intro s sound halted
    have concluded := concluded_of_halted (r := r.withWorkers workers) calm valid pending ordinary
      sound halted
    -- the recursion does not look at the number of workers
    exact ⟨concluded.returned, concluded.status, concluded.errors⟩
  refine ⟨fun t key => outcome_eq valid key, run_eq (r := r.withWorkers workers) validates some, ?_, ?_⟩
  · have ends := inevitably_over (M := Mode.betweenCalls (r := r.withWorkers workers) calm valid
      ordinary) (fun who _ _ => betweenCalls_of_free who) some
    exact ends.mono fun s h => halted s h.1 h.2
  · intro s reachable
    exact halted s (sound_of_reachable reachable)

/-- A failing task, one that needs it, and a finally task after that. -/
def sample : Run where
  graph :=
    { edges := [("a", []), ("b", ["a"]), ("c", ["b"])]
      finallyIds := ["c"]
      keys_nodup := by decide
      deps_nodup := by decide }
  executor :=
    { handlers := fun _ => true
      behaviour := fun t _ =>
        { outcome := if t = "a" then .raises (.exception "e") else .returns none } }
  world := { tasks := fun _ => {} }

/-- The handlers of the sample return, or raise an ordinary exception. -/
theorem sample_ordinary (t : TaskId) : Ordinary sample t := by
  intro _
  show (if t = "a" then Outcome.raises (.exception "e") else Outcome.returns none).isOrdinary = true
  split <;> rfl

/-- With two workers: `a` FAILED, `b` BLOCKED, and `c` SUCCEEDED all the same. -/
theorem run_outcome_sample : ∃ s, Reachable (sample.withWorkers 2) betweenCalls s ∧
    s.shared.status "a" = .failed ∧ s.shared.status "b" = .blocked ∧
      s.shared.status "c" = .succeeded := by
  obtain ⟨-, -, ends, -⟩ := run_outcome sample rfl rfl (fun _ _ => rfl)
    (fun t _ => sample_ordinary t) 2 (by decide)
  obtain ⟨s, reachable, concluded⟩ := ends.reached
  have status := concluded.status
  exact ⟨s, reachable, status "a" (by decide), status "b" (by decide), status "c" (by decide)⟩

/-! ## Any statuses on entry -/

/-- `run` has returned, every task that entered PENDING is terminal, and the finally tasks among
them have been executed. -/
structure Decides (r : Run) (s : State) : Prop where
  returned : (s.rest .main).Returned
  terminal : ∀ t ∈ r.graph.keys, entered r t = .pending → (s.shared.status t).isTerminal = true
  executed : ∀ t ∈ r.graph.keys, entered r t = .pending → r.graph.isFinally t = true →
    (s.shared.stage t).isDone = true

/-- An execution that the executor deals with is over in a terminal status. -/
theorem Ordinary.ending_isTerminal (ordinary : Ordinary r t) : (ending r t).isTerminal = true := by
  have range : ending r t = .succeeded ∨ ending r t = .failed ∨ ending r t = .cancelled ∨
    ending r t = .running := r.executor.ending_cases r.world t
  have terminal := ordinary.ending_ne_running
  rcases range with h | h | h | h
  · rw [h]; rfl
  · rw [h]; rfl
  · rw [h]; rfl
  · exact absurd h terminal

section Carried

variable (calm : r.cancels = []) (valid : r.graph.Valid r.world)
  (ordinary : ∀ t ∈ r.graph.keys, Ordinary r t)

/-- At its end a run in which no task is stranded has decided every task. -/
theorem decides_of_halted (none : ∀ t ∈ r.graph.keys, ¬ Stranded r t) {s : State}
    (sound : Sound (Mode.betweenCalls calm valid ordinary) s) (halted : ¬ (s.rest .main).Acting) :
    Decides r s := by
  have core := sound.inv.core calm
  have closed := closed_of_halted sound halted
  have returned := returned_of_clean (M := Mode.betweenCalls calm valid ordinary) none calm sound halted
  have dealt : ∀ t ∈ r.graph.keys, entered r t = .pending →
      s.shared.stage t ≠ .absent ∨ Marked r s.shared t := by
    intro t key pending
    obtain ⟨done, clean⟩ := done_of_returned calm sound key returned
    by_cases absent : s.shared.stage t = .absent
    · have blocked := (core.finished done clean t key pending).resolve_left (absurd absent)
      refine .inr ((core.absent t absent).resolve_left fun same => ?_)
      rw [blocked, pending] at same
      cases same
    · exact .inl absent
  refine ⟨returned, fun t key pending => ?_, fun t key pending final => ?_⟩
  · rcases dealt t key pending with submitted | marked
    · rw [(closed.executed core submitted).1]
      exact (ordinary t key).ending_isTerminal
    · rw [marked.blocked]
      rfl
  · rcases dealt t key pending with submitted | marked
    · exact closed.done t submitted
    · rw [marked.normal] at final
      cases final

include valid in
/-- A stranded task is left as it is. -/
theorem pending_of_stranded {s : Shared} (coherent : Coherent r s) (core : Core r s)
    (key : t ∈ r.graph.keys) (stranded : Stranded r t) : s.status t = .pending := by
  obtain ⟨pending, left⟩ := stranded
  have judges := judged valid coherent core t key
  have absent : s.stage t = .absent := by
    by_contra submitted
    rw [judges.submitted submitted] at left
    cases left
  rcases core.absent t absent with same | marked
  · exact same.trans pending
  · rw [judges.marked absent marked] at left
    cases left

end Carried

/-- Every run decides every task that entered PENDING, if and only if none of these is stranded. -/
theorem decides_iff (r : Run) (calm : r.cancels = [])
    (validates : r.graph.validate r.world = .ok ())
    (ordinary : ∀ t ∈ r.graph.keys, Ordinary r t) (workers : 0 < r.maxWorkers) :
    (Inevitably ((machine r).Via (Steps r betweenCalls)) (Decides r) (start r) ∧
      ∀ s, Reachable r betweenCalls s → ¬ (s.rest .main).Acting → Decides r s) ↔
    ∀ t ∈ r.graph.keys, ¬ Stranded r t := by
  have valid := TaskGraph.valid_of_validate validates
  constructor
  · rintro ⟨ends, -⟩ t key stranded
    obtain ⟨s, reachable, decides⟩ := ends.reached
    have sound : Sound (Mode.betweenCalls calm valid ordinary) s := sound_of_reachable reachable
    have pending := pending_of_stranded valid sound.inv.coherent (sound.inv.core calm) key stranded
    have terminal := decides.terminal t key stranded.1
    rw [pending] at terminal
    cases terminal
  · intro none
    constructor
    · have ends := inevitably_over (M := Mode.betweenCalls calm valid ordinary)
        (fun who _ _ => betweenCalls_of_free who) workers
      exact ends.mono fun s h => decides_of_halted calm valid ordinary none h.1 h.2
    · intro s reachable
      exact decides_of_halted calm valid ordinary none (sound_of_reachable reachable)

/-- In the sample `b` is decided, and the finally task `c` has run. -/
theorem decides_iff_sample : ∃ s, Reachable sample betweenCalls s ∧
    (s.shared.status "b").isTerminal = true ∧ (s.shared.stage "c").isDone = true := by
  obtain ⟨ends, -⟩ := (decides_iff sample rfl rfl (fun t _ => sample_ordinary t)
    (by decide)).mpr (by decide)
  obtain ⟨s, reachable, decides⟩ := ends.reached
  exact ⟨s, reachable, decides.terminal "b" (by decide) rfl,
    decides.executed "c" (by decide) rfl rfl⟩

/-- A CANCELLED task, a FAILED one that needs it, and a fresh finally task after that. -/
def carried : Run where
  graph :=
    { edges := [("a", []), ("b", ["a"]), ("c", ["b"])]
      finallyIds := ["c"]
      keys_nodup := by decide
      deps_nodup := by decide }
  executor := { handlers := fun _ => true, behaviour := fun _ _ => { outcome := .returns none } }
  world :=
    { tasks := fun t =>
        { status := if t = "a" then .cancelled else if t = "b" then .failed else .pending } }

/-- `b` is not retried behind the CANCELLED `a`, and `c` waits for `b`: the run raises, and `c` stays
PENDING. -/
theorem carried_undecided : run carried = .ok (start carried) ∧
    ∃ s, Reachable carried betweenCalls s ∧ ¬ (s.rest .main).Acting ∧
      ¬ (s.rest .main).Returned ∧ s.shared.schedulerErrors =
        [.runtimeError "scheduler made no progress; stuck=['']"] ∧
      entered carried "c" = .pending ∧ s.shared.status "c" = .pending ∧ ¬ Decides carried s := by
  have ran : ∃ s ∈ (machine carried).exec (Steps carried betweenCalls)
      (List.replicate 40 .main) (start carried), ¬ (s.rest .main).Acting ∧
        ¬ (s.rest .main).Returned ∧ s.shared.schedulerErrors =
        [.runtimeError "scheduler made no progress; stuck=['']"] ∧ s.shared.status "c" = .pending := by
    decide +kernel
  obtain ⟨s, hs, halted, raised, error, pending⟩ := ran
  refine ⟨rfl, s, Machine.reaches_of_exec hs, halted, raised, error, rfl, pending, ?_⟩
  intro decides
  exact raised decides.returned

end Outcome

end TTasks.Scheduler
