import TTasks.Laws.Graph.Topology
import TTasks.Laws.Scheduler.Outcome
import TTasks.Laws.Scheduler.Once

/-!
# What a graph reports of a run

The views of a graph, at every interleaving of a run that nobody cancels. While the run goes on, a
task that is not a finally task is SUCCEEDED only over dependencies that are, so that without finally
tasks the leaves tell of the whole graph (`leaves_tell`). When it is over, `errors` holds what this
run has executed and brought to FAILED or CANCELLED, `ok` is about the required tasks alone, and the
four views by status share out the members (`run_reported`).
-/

namespace TTasks.Scheduler

open Interleave

section Report

variable {r : Run} {M : Mode r} {s : Shared} {t u d : TaskId}

/-! ## Success, while the run goes on -/

/-- The tasks that entered SUCCEEDED did so over dependencies that had. -/
def Descends (r : Run) : Prop :=
  ∀ t ∈ r.graph.keys, entered r t = .succeeded → r.graph.isFinally t = false →
    ∀ d ∈ r.graph.deps t, entered r d = .succeeded

/-- A task that entered SUCCEEDED still is. -/
theorem succeeded_of_entered (coherent : Coherent r s) (core : Core r s)
    (before : entered r t = .succeeded) : s.status t = .succeeded := by
  have absent : s.stage t = .absent := by
    by_contra submitted
    have open_ := (startable_of_submitted coherent core submitted).1
    rw [before] at open_
    cases open_
  refine (core.absent t absent).elim (fun same => same.trans before) fun marked => ?_
  have pending := marked.pending
  rw [before] at pending
  cases pending

theorem dependency_succeeded (coherent : Coherent r s) (core : Core r s) (descends : Descends r)
    (key : t ∈ r.graph.keys) (normal : r.graph.isFinally t = false)
    (good : s.status t = .succeeded) (needs : d ∈ r.graph.deps t) : s.status d = .succeeded := by
  by_cases absent : s.stage t = .absent
  · rcases core.absent t absent with same | marked
    · exact succeeded_of_entered coherent core (descends t key (same.symm.trans good) normal d needs)
    · have blocked := marked.blocked
      rw [good] at blocked
      cases blocked
  · exact (startable_of_submitted coherent core absent).2.normal normal d needs

/-- Without finally tasks, success goes down to whatever the task rests on. -/
theorem succeeded_of_restsOn (coherent : Coherent r s) (core : Core r s) (descends : Descends r)
    (valid : r.graph.Valid r.world) (normal : ∀ t ∈ r.graph.keys, r.graph.isFinally t = false)
    (key : t ∈ r.graph.keys) (good : s.status t = .succeeded) (rests : r.graph.RestsOn t u) :
    u ∈ r.graph.keys ∧ s.status u = .succeeded := by
  obtain ⟨l, sorted, mem, -⟩ := valid.order
  induction rests with
  | refl => exact ⟨key, good⟩
  | tail _ needs ih =>
    obtain ⟨key, good⟩ := ih
    refine ⟨(mem _).mp (sorted.closed ((mem _).mpr key) needs), ?_⟩
    exact dependency_succeeded coherent core descends key (normal _ key) good needs

/-- At every moment of every interleaving of a run that nobody cancels from outside, a task that is
not a finally task is SUCCEEDED only if its dependencies are, provided it was so on entry. Without
finally tasks, the whole graph has succeeded once its leaves have, and a task that has succeeded
rests on a root, which has succeeded as all in between have. -/
theorem leaves_tell (r : Run) (calm : r.cancels = []) (validates : r.graph.validate r.world = .ok ())
    (descends : Descends r) {s : State} (run : Reachable r anyTime s) :
    (∀ t ∈ r.graph.keys, r.graph.isFinally t = false → s.shared.status t = .succeeded →
      ∀ d ∈ r.graph.deps t, s.shared.status d = .succeeded) ∧
    ((∀ t ∈ r.graph.keys, r.graph.isFinally t = false) →
      ((∀ t ∈ r.graph.leaves, s.shared.status t = .succeeded) →
        ∀ t ∈ r.graph.keys, s.shared.status t = .succeeded) ∧
      ∀ t ∈ r.graph.keys, s.shared.status t = .succeeded →
        (∃ u ∈ r.graph.roots, r.graph.RestsOn t u) ∧
          ∀ u, r.graph.RestsOn t u → s.shared.status u = .succeeded) := by
  have sound : Sound (Mode.anyTime calm) s := sound_of_reachable run
  have core := sound.inv.core calm
  have coherent := sound.inv.coherent
  have valid := TaskGraph.valid_of_validate validates
  refine ⟨fun t key normal good d needs => ?_, fun normal => ⟨fun leaves t key => ?_, ?_⟩⟩
  · exact dependency_succeeded coherent core descends key normal good needs
  · obtain ⟨u, leaf, rests⟩ := TaskGraph.exists_leaf valid key
    have member := (TaskGraph.mem_leaves_iff.mp leaf).1
    exact (succeeded_of_restsOn coherent core descends valid normal member (leaves u leaf) rests).2
  · intro t key good
    refine ⟨TaskGraph.exists_root valid key, fun u rests => ?_⟩
    exact (succeeded_of_restsOn coherent core descends valid normal key good rests).2

/-- `returning` succeeds, and so do its leaves. -/
theorem leaves_tell_returning : ∃ s, Reachable returning anyTime s ∧
    (∀ t ∈ returning.graph.leaves, s.shared.status t = .succeeded) ∧
      ∀ t ∈ returning.graph.keys, s.shared.status t = .succeeded := by
  have ran : ∃ s ∈ (machine returning).exec (Steps returning anyTime) (inTurn 24)
      (start returning), ∀ t ∈ returning.graph.leaves, s.shared.status t = .succeeded := by
    decide +kernel
  obtain ⟨s, hs, leaves⟩ := ran
  have reachable := Machine.reaches_of_exec hs
  have descends : Descends returning := by
    intro t _ good
    cases good
  obtain ⟨-, whole⟩ := leaves_tell returning rfl rfl descends reachable
  exact ⟨s, reachable, leaves, (whole fun _ _ => rfl).1 leaves⟩

/-! ## The views, when the run is over -/

/-- What was not executed has no error, and what was has one unless it succeeded. -/
theorem error_iff (closed : Closed r s) (core : Core r s)
    (ordinary : ∀ t ∈ r.graph.keys, Ordinary r t) : (s.errors t).isSome = true ↔
      Submitted s t ∧ (t ∈ r.graph.failed s.world ∨ t ∈ r.graph.cancelled s.world) := by
  rw [submitted_iff closed.coherent]
  by_cases absent : s.stage t = .absent
  · rw [closed.no_error absent]
    exact iff_of_false (by simp) fun ⟨submitted, _⟩ => submitted absent
  have key := closed.coherent.keys t absent
  obtain ⟨ended, failed⟩ := closed.executed core absent
  have status : s.world.status t = ending r t := ended
  have terminal := (ordinary t key).ending_ne_running
  have range : ending r t = .succeeded ∨ ending r t = .failed ∨ ending r t = .cancelled ∨
    ending r t = .running := r.executor.ending_cases r.world t
  simp only [TaskGraph.failed, TaskGraph.cancelled, TaskGraph.mem_withStatus, status, key, true_and]
  rw [failed]
  constructor
  · intro other
    exact ⟨absent, by simpa [other, terminal] using range⟩
  · rintro ⟨-, h | h⟩ <;> rw [h] <;> nofun

/-- A SUCCEEDED task has no error. -/
theorem no_error_of_succeeded (closed : Closed r s) (core : Core r s)
    (good : s.status t = .succeeded) : s.errors t = none := by
  by_cases absent : s.stage t = .absent
  · exact closed.no_error absent
  · obtain ⟨ended, failed⟩ := closed.executed core absent
    rw [good] at ended
    cases error : s.errors t with
    | none => rfl
    | some e =>
      rw [error] at failed
      exact absurd ended.symm (failed.mp rfl)

/-- A run that returns leaves every member SUCCEEDED, FAILED, CANCELLED or BLOCKED. -/
theorem terminal_of_returned (valid : r.graph.Valid r.world) (closed : Closed r s) (core : Core r s)
    (ordinary : ∀ t ∈ r.graph.keys, Ordinary r t) (done : s.done = true)
    (clean : s.schedulerErrors = []) (key : t ∈ r.graph.keys) :
    (s.status t).isTerminal = true := by
  by_cases absent : s.stage t = .absent
  · by_cases pending : entered r t = .pending
    · have blocked := (core.finished done clean t key pending).resolve_left (absurd absent)
      rw [blocked]
      rfl
    · rcases core.absent t absent with same | marked
      · rw [same]
        have idle : entered r t ≠ .running := valid.notRunning t key
        revert pending idle
        cases entered r t <;> decide
      · exact absurd marked.pending pending
  · rw [(closed.executed core absent).1]
    exact (ordinary t key).ending_isTerminal

/-- Where every member is terminal, the views by status share out the members. -/
theorem views_perm {g : TaskGraph} {w : World} (terminal : ∀ t ∈ g.keys, (w.status t).isTerminal = true) :
    (g.succeeded w ++ g.failed w ++ g.cancelled w ++ g.blocked w).Perm g.keys := by
  have nodup : ∀ status, (g.withStatus w status).Nodup := fun status => g.keys_nodup.filter _
  have apart : ∀ {a b : TaskStatus}, a ≠ b → (g.withStatus w a).Disjoint (g.withStatus w b) := by
    intro a b other t ha hb
    exact other ((TaskGraph.mem_withStatus.mp ha).2.symm.trans (TaskGraph.mem_withStatus.mp hb).2)
  refine (List.perm_ext_iff_of_nodup ?_ g.keys_nodup).mpr fun t => ?_
  · unfold TaskGraph.succeeded TaskGraph.failed TaskGraph.cancelled TaskGraph.blocked
    refine ((nodup _).append (nodup _) (apart (by decide))).append (nodup _) ?_ |>.append (nodup _) ?_
    · exact List.disjoint_append_left.mpr ⟨apart (by decide), apart (by decide)⟩
    · refine List.disjoint_append_left.mpr ⟨List.disjoint_append_left.mpr ⟨?_, ?_⟩, ?_⟩
      all_goals exact apart (by decide)
  · simp only [List.mem_append, TaskGraph.succeeded, TaskGraph.failed, TaskGraph.cancelled,
      TaskGraph.blocked, TaskGraph.mem_withStatus, ← and_or_left]
    refine and_iff_left_of_imp fun key => ?_
    have ends := terminal t key
    revert ends
    cases w.status t <;> decide

/-- At the end of every interleaving of a run that nobody cancels from outside and whose handlers end
in ways that the executor deals with: `errors` holds exactly the tasks that the run has executed and
that are FAILED or CANCELLED; `ok` says that every required task is SUCCEEDED; and if `run` has
returned, each member is in one of the four views by status, once, and `ok` is false if and only if a
required task is in one of the other three. -/
theorem run_reported (r : Run) (calm : r.cancels = [])
    (validates : r.graph.validate r.world = .ok ()) (ordinary : ∀ t ∈ r.graph.keys, Ordinary r t)
    {s : State} (run : Reachable r anyTime s) (halted : ¬ (s.rest .main).Acting) :
    (∀ t, (s.shared.errors t).isSome = true ↔ Submitted s.shared t ∧
      (t ∈ r.graph.failed s.shared.world ∨ t ∈ r.graph.cancelled s.shared.world)) ∧
    (r.graph.ok s.shared.world s.shared.errors = true ↔
      ∀ t ∈ r.graph.requiredTasks, s.shared.status t = .succeeded) ∧
    ((s.rest .main).Returned →
      (r.graph.succeeded s.shared.world ++ r.graph.failed s.shared.world ++
        r.graph.cancelled s.shared.world ++ r.graph.blocked s.shared.world).Perm r.graph.keys ∧
      (r.graph.ok s.shared.world s.shared.errors = false ↔
        r.graph.requiredFailed s.shared.world ≠ [] ∨ r.graph.requiredBlocked s.shared.world ≠ [] ∨
          ∃ t ∈ r.graph.requiredTasks, t ∈ r.graph.cancelled s.shared.world)) := by
  have sound : Sound (Mode.anyTime calm) s := sound_of_reachable run
  have core := sound.inv.core calm
  have closed := closed_of_halted sound halted
  have ok : r.graph.ok s.shared.world s.shared.errors = true ↔
      ∀ t ∈ r.graph.requiredTasks, s.shared.status t = .succeeded := by
    rw [TaskGraph.ok_iff]
    exact forall₂_congr fun t _ =>
      and_iff_left_of_imp fun good => no_error_of_succeeded closed core good
  refine ⟨fun t => error_iff closed core ordinary, ok, fun returned => ?_⟩
  -- a run that returns has set `done` with no error, which leaves no required or optional task
  -- active
  have terminal : ∀ t ∈ r.graph.keys, (s.shared.world.status t).isTerminal = true := by
    intro t key
    obtain ⟨done, clean⟩ := done_of_returned calm sound key returned
    exact terminal_of_returned (TaskGraph.valid_of_validate validates) closed core ordinary done
      clean key
  refine ⟨views_perm terminal, ?_⟩
  rw [← Bool.not_eq_true, ok]
  constructor
  -- `ok` fails for a required task that did not succeed, and its status names the view
  · intro some
    simp only [not_forall] at some
    obtain ⟨t, required, bad⟩ := some
    have key := (TaskGraph.mem_requiredTasks.mp required).1
    have ends := terminal t key
    have bad : s.shared.world.status t ≠ .succeeded := bad
    cases status : s.shared.world.status t with
    | pending => rw [status] at ends; cases ends
    | running => rw [status] at ends; cases ends
    | succeeded => exact absurd status bad
    | failed =>
      exact .inl (List.ne_nil_of_mem (TaskGraph.mem_requiredFailed.mpr ⟨required, status⟩))
    | blocked =>
      exact .inr (.inl (List.ne_nil_of_mem (TaskGraph.mem_requiredBlocked.mpr ⟨required, status⟩)))
    | cancelled =>
      exact .inr (.inr ⟨t, required, TaskGraph.mem_withStatus.mpr ⟨key, status⟩⟩)
  -- a member of one of the three views has another status than SUCCEEDED
  · rintro bad good
    have other : ∀ t ∈ r.graph.requiredTasks, s.shared.world.status t = .succeeded := good
    rcases bad with failed | blocked | ⟨t, required, cancelled⟩
    · obtain ⟨t, ht⟩ := List.exists_mem_of_ne_nil _ failed
      obtain ⟨required, status⟩ := TaskGraph.mem_requiredFailed.mp ht
      rw [other t required] at status
      cases status
    · obtain ⟨t, ht⟩ := List.exists_mem_of_ne_nil _ blocked
      obtain ⟨required, status⟩ := TaskGraph.mem_requiredBlocked.mp ht
      rw [other t required] at status
      cases status
    · have status := (TaskGraph.mem_withStatus.mp cancelled).2
      rw [other t required] at status
      cases status

/-- `returning` is over: all is well. -/
theorem run_reported_returning : ∃ s, Reachable returning anyTime s ∧
    ¬ (s.rest .main).Acting ∧ (∀ t, (s.shared.errors t).isSome = true ↔
      Submitted s.shared t ∧ (t ∈ returning.graph.failed s.shared.world ∨
        t ∈ returning.graph.cancelled s.shared.world)) ∧
    returning.graph.ok s.shared.world s.shared.errors = true := by
  have ran : ∃ s ∈ (machine returning).exec (Steps returning anyTime) (inTurn 24)
      (start returning), ¬ (s.rest .main).Acting ∧
        ∀ t ∈ returning.graph.requiredTasks, s.shared.status t = .succeeded := by decide +kernel
  obtain ⟨s, hs, halted, good⟩ := ran
  have reachable := Machine.reaches_of_exec hs
  obtain ⟨errors, ok, -⟩ := run_reported returning rfl rfl (fun _ _ _ => rfl) reachable halted
  exact ⟨s, reachable, halted, errors, ok.mpr good⟩

end Report

end TTasks.Scheduler
