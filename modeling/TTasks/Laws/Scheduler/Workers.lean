import TTasks.Laws.Scheduler.Once

/-!
# The pool of a run

`run` promises two things about its pool, `with ThreadPoolExecutor(max_workers=max_workers)`. In
every state of every interleaving at most `max_workers` calls are being executed; and nothing of the
run outlives it: when `run` has returned or raised, every submitted call is over and no thread of
the run can move any more, so what the caller finds then is final (`run_contained`).
-/

namespace TTasks.Scheduler

open Interleave

section Workers

variable {r : Run} {s s' : State} {a b : Shared} {t : TaskId} {who : Who} {o : SchedOp}

/-- The tasks of the graph that the pool is executing. -/
def executing (r : Run) (s : Shared) : List TaskId :=
  r.graph.keys.filter fun t => s.stage t == .running

/-! ## The threads that are taken -/

/-- Each thread of the pool is taken by one call, and there are no more of them than the pool
has. -/
structure Staffed (r : Run) (s : Shared) : Prop where
  nodup : s.busy.Nodup
  bound : s.busy.length ≤ r.maxWorkers

/-- Only `start` and `leave` change which threads of the pool are taken. -/
theorem perform_busy (starts : ∀ t, o ≠ .start t) (leaves : ∀ t, o ≠ .leave t) :
    (SchedOp.perform r who o a).2.busy = a.busy := by
  cases o with
  | start t => exact absurd rfl (starts t)
  | leave t => exact absurd rfl (leaves t)
  | poolSubmit t upstream =>
    simp only [SchedOp.perform]
    split <;> rfl
  | addDoneCallback t =>
    simp only [SchedOp.perform]
    split <;> rfl
  | recordException t =>
    simp only [SchedOp.perform]
    split <;> rfl
  | _ => rfl

theorem Staffed.perform (staffed : Staffed r a) (ready : Ready r who o a)
    (enabled : o.enabled r a = true) : Staffed r (SchedOp.perform r who o a).2 := by
  by_cases starts : ∃ t, o = .start t
  · obtain ⟨t, rfl⟩ := starts
    obtain ⟨-, idle, -⟩ := ready.start t rfl
    have room : a.busy.length < r.maxWorkers := by
      simpa using (Bool.and_eq_true_iff.mp enabled).2
    exact ⟨List.nodup_cons.mpr ⟨idle, staffed.nodup⟩, room⟩
  by_cases leaves : ∃ t, o = .leave t
  · obtain ⟨t, rfl⟩ := leaves
    exact ⟨staffed.nodup.filter _, (List.length_filter_le _ _).trans staffed.bound⟩
  · have same : (SchedOp.perform r who o a).2.busy = a.busy :=
      perform_busy (fun t h => starts ⟨t, h⟩) fun t h => leaves ⟨t, h⟩
    exact ⟨same ▸ staffed.nodup, same ▸ staffed.bound⟩

theorem staffed_of_reachable {M : Mode r} (run : Reachable r M.allow s) : Staffed r s.shared := by
  refine (run.invariant (I := fun s => Sound M s ∧ Staffed r s.shared)
    ⟨sound_start M, List.nodup_nil, Nat.zero_le _⟩ ?_).2
  rintro a who b ⟨sound, staffed⟩ allowed moved
  refine ⟨sound.step (compatible M) allowed moved, ?_⟩
  obtain ⟨o, k, next, rfl⟩ := Threads.perform_eq_some moved
  exact staffed.perform (sound.ready (compatible M) next) (allowed o k next).1

/-- A call that is being executed has taken a thread of the pool. -/
theorem busy_of_running {M : Mode r} (sound : Sound M s) (running : s.shared.stage t = .running) :
    t ∈ s.shared.busy := by
  by_cases acting : (s.rest (.worker t)).Acting
  · obtain ⟨o, k, next⟩ := acting.exists_act
    have ready := sound.ready (compatible M) next
    refine ready.worker t rfl ?_
    rintro rfl
    have waiting := (ready.start t rfl).2.2
    rw [running] at waiting
    exact absurd waiting (by decide)
  · obtain ⟨_, done, -⟩ := sound.post acting
    rw [running] at done
    cases done

theorem executing_length_le {M : Mode r} (sound : Sound M s) (staffed : Staffed r s.shared) :
    (executing r s.shared).length ≤ r.maxWorkers := by
  have nodup : (executing r s.shared).Nodup := r.graph.keys_nodup.filter _
  have taken : executing r s.shared ⊆ s.shared.busy := by
    intro t member
    apply busy_of_running sound
    exact beq_iff_eq.mp (List.mem_filter.mp member).2
  calc (executing r s.shared).length
      ≤ s.shared.busy.length := (nodup.subperm taken).length_le
    _ ≤ r.maxWorkers := staffed.bound

/-- A task that is RUNNING is being executed, or its handler ended in an exception that the
executor does not deal with. -/
theorem executing_of_running (core : Core r a) (idle : entered r t ≠ .running)
    (running : a.status t = .running) :
    a.stage t = .running ∨ (a.stage t).isDone = true ∧ ending r t = .running := by
  cases stage : a.stage t with
  | absent =>
    rcases core.absent t stage with same | marked
    · exact absurd (same.symm.trans running) idle
    · have blocked := marked.blocked
      rw [running] at blocked
      cases blocked
  | queued => exact absurd ((core.queued t stage).symm.trans running) idle
  | running => exact .inl rfl
  | done e => exact .inr ⟨rfl, (core.done t e stage).1.symm.trans running⟩

/-! ## After the run -/

/-- Only the threads of the run move. -/
theorem idle_of_reachable {M : Mode r} (run : Reachable r M.allow s) : Idle (r := r) s := by
  refine (run.invariant (I := fun s => Sound M s ∧ Idle (r := r) s)
    ⟨sound_start M, fun _ _ => rfl⟩ ?_).2
  rintro a who b ⟨sound, idle⟩ allowed moved
  refine ⟨sound.step (compatible M) allowed moved, fun other outside => ?_⟩
  have apart : other ≠ who := by
    rintro rfl
    exact outside (mem_crew sound idle allowed moved)
  obtain ⟨o, k, -, rfl⟩ := Threads.perform_eq_some moved
  exact (Function.update_of_ne apart ..).trans (idle other outside)

/-- Once `run` is over, no thread of it can move. -/
theorem still_of_halted {M : Mode r} (calm : r.cancels = []) (run : Reachable r M.allow s)
    (halted : ¬ (s.rest .main).Acting) : ¬ (machine r).Via (Steps r M.allow) s s' := by
  rintro ⟨who, allowed, moved⟩
  have sound : Sound M s := sound_of_reachable run
  obtain ⟨_, joined, -⟩ := sound.post halted
  obtain ⟨o, k, next, -⟩ := Threads.perform_eq_some moved
  have acting : (s.rest who).Acting := by
    rw [next]
    trivial
  cases who with
  | main => exact halted acting
  | outside i =>
    have same := idle_of_reachable run (.outside i) (by simp [crew, calm])
    have nobody : canceller r i = .ret () := by
      unfold canceller
      rw [calm]
      rfl
    rw [same.trans nobody] at next
    cases next
  | worker t =>
    have absent : s.shared.stage t = .absent := by
      by_contra submitted
      exact worker_over sound joined submitted acting
    have ready := sound.ready (compatible M) next
    by_cases starts : o = .start t
    · subst starts
      have enabled := (allowed _ k next).1
      rw [SchedOp.enabled, absent] at enabled
      cases enabled
    · have busy := ready.worker t rfl starts
      rw [joined.busy] at busy
      cases busy

/-- A run does not go on from a state in which nothing can move. -/
theorem eq_of_still {allow : State → Who → Prop} (run : (machine r).Reaches allow s s')
    (still : ∀ s', ¬ (machine r).Via allow s s') : s' = s := by
  rcases Relation.ReflTransGen.cases_head run with rfl | ⟨next, first, -⟩
  · rfl
  · exact absurd first (still next)

/-- In every state of every interleaving of a run, the pool executes at most `max_workers` tasks at
once, and a task of the graph is RUNNING only while the pool executes it, unless its handler has
ended in an exception that the executor does not deal with. When `run` has returned or raised, every
submitted call is over, and no later state of the run differs from the one that the caller finds. -/
theorem run_contained (r : Run) (calm : r.cancels = [])
    (validates : r.graph.validate r.world = .ok ()) {s : State} (run : Reachable r anyTime s) :
    (executing r s.shared).length ≤ r.maxWorkers ∧
      (∀ t ∈ r.graph.keys, s.shared.status t = .running →
        t ∈ executing r s.shared ∨ (s.shared.stage t).isDone = true ∧ ending r t = .running) ∧
      (¬ (s.rest .main).Acting → executing r s.shared = [] ∧
        (∀ t, Submitted s.shared t → (s.shared.stage t).isDone = true) ∧
        ∀ s', (machine r).Reaches (Steps r anyTime) s s' → s' = s) := by
  have sound : Sound (Mode.anyTime calm) s := sound_of_reachable run
  have core := sound.inv.core calm
  refine ⟨?_, fun t key running => ?_, fun halted => ⟨?_, fun t submitted => ?_, ?_⟩⟩
  · exact executing_length_le sound (staffed_of_reachable (M := Mode.anyTime calm) run)
  · have idle : entered r t ≠ .running := (TaskGraph.valid_of_validate validates).notRunning t key
    refine (executing_of_running core idle running).imp_left fun stage => ?_
    exact List.mem_filter.mpr ⟨key, beq_iff_eq.mpr stage⟩
  · have closed := closed_of_halted sound halted
    apply List.filter_eq_nil_iff.mpr
    intro t _ stage
    have running : s.shared.stage t = .running := beq_iff_eq.mp stage
    have done := closed.done t (by rw [running]; simp)
    rw [running] at done
    cases done
  · have closed := closed_of_halted sound halted
    exact closed.done t ((submitted_iff closed.coherent).mp submitted)
  · intro s' run'
    exact eq_of_still run' fun _ => still_of_halted (M := Mode.anyTime calm) calm run halted

/-- `returning`, when it is over. -/
theorem run_contained_returning : ∃ s, Reachable returning anyTime s ∧
    ¬ (s.rest .main).Acting ∧ (executing returning s.shared).length ≤ 4 ∧
      ∀ s', (machine returning).Reaches (Steps returning anyTime) s s' → s' = s := by
  have ran : ∃ s ∈ (machine returning).exec (Steps returning anyTime) (inTurn 24)
      (start returning), ¬ (s.rest .main).Acting := by decide +kernel
  obtain ⟨s, hs, halted⟩ := ran
  have reachable := Machine.reaches_of_exec hs
  obtain ⟨bound, -, final⟩ := run_contained returning rfl rfl reachable
  exact ⟨s, reachable, halted, bound, (final halted).2.2⟩

end Workers

end TTasks.Scheduler
