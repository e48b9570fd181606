import TTasks.Laws.Scheduler.Threads

/-!
# Every run comes to its end

As long as the thread that called `run` is not over, some thread can move: the one that holds the
lock; or, where nobody does, that thread itself; or, where it waits, a thread of the pool that is
taken; or, where none is, the pool can start a call that is queued. Only finitely many threads ever
move, so every run arrives at the end of `run`.
-/

namespace TTasks.Scheduler

open Interleave

section Progress

variable {r : Run} {M : Mode r} {s s' : State} {t : TaskId} {who : Who}

/-- What `sound_of_reachable` gives. -/
abbrev Sound (M : Mode r) (s : State) : Prop :=
  Threads.Sound (SchedOp.perform r) (contract M) (Inv M)
    (Over M : Who → Except Exc Unit → Shared → Prop) s

/-- The threads that a run is made of: the caller of `run`, the pool's threads for the tasks of the
graph, and those that cancel. -/
def crew (r : Run) : Finset Who :=
  insert .main ((r.graph.keys.map Who.worker ++
    (List.range r.cancels.length).map Who.outside).toFinset)

/-- The other threads do nothing. -/
def Idle (s : State) : Prop := ∀ who, who ∉ crew r → s.rest who = (start r).rest who

theorem worker_mem_crew (key : t ∈ r.graph.keys) : .worker t ∈ crew r := by
  simp [crew, key]

/-- Only a thread of the crew moves. -/
theorem mem_crew (sound : Sound M s) (idle : Idle (r := r) s) {allow : Discipline}
    (allowed : Steps r allow s who) (moved : (machine r).step who s = some s') : who ∈ crew r := by
  by_contra other
  obtain ⟨o, k, hrest, -⟩ := Threads.perform_eq_some moved
  have enabled := (allowed o k hrest).1
  rw [idle who other] at hrest
  cases who with
  | main => exact other (by simp [crew])
  | worker t =>
    obtain rfl : o = .start t := by cases hrest; rfl
    have queued : s.shared.stage t = .queued := by
      simp only [SchedOp.enabled, Bool.and_eq_true, beq_iff_eq] at enabled
      exact enabled.1
    exact other (worker_mem_crew (sound.inv.coherent.keys t (by rw [queued]; simp)))
  | outside i =>
    have hrest : canceller r i = .act o k := hrest
    have range : r.cancels.length ≤ i := by
      by_contra inside
      exact other (by simp [crew]; omega)
    rw [canceller, List.getElem?_eq_none range] at hrest
    cases hrest

/-! ## Somebody can move -/

/-- The thread that holds the lock is not over. -/
theorem acting_of_holder (sound : Sound M s) (mine : s.shared.lock = some who) :
    (s.rest who).Acting := by
  by_contra halted
  obtain ⟨_, post⟩ := sound.post halted
  cases who with
  | main =>
    have free : s.shared.lock = none := post.2.1
    rw [mine] at free
    cases free
  | worker t => exact post.2.1 (sound.inv.coherent.holder t mine)
  | outside i => exact sound.inv.coherent.inside i mine

/-- A thread of the pool that is taken is not over, and does not wait if the lock is free. -/
theorem able_of_busy (sound : Sound M s) (free : s.shared.lock = none) (busy : t ∈ s.shared.busy) :
    ∃ o k, s.rest (.worker t) = .act o k ∧ o.enabled r s.shared = true := by
  have acting : (s.rest (.worker t)).Acting := by
    by_contra halted
    obtain ⟨_, post⟩ := sound.post halted
    exact post.2.1 busy
  obtain ⟨o, k, hrest⟩ := acting.exists_act
  have ready := sound.ready (compatible M) hrest
  refine ⟨o, k, hrest, ?_⟩
  cases o with
  | acquire => simp [SchedOp.enabled, free]
  | start u =>
    obtain ⟨is, idle, -⟩ := ready.start u rfl
    cases is
    exact absurd busy idle
  | recordException u =>
    have mine := ready.record u rfl
    rw [free] at mine
    cases mine
  | waitDone => cases (ready.wait rfl).1
  | join => cases ready.join rfl
  | _ => rfl

/-- Where no thread of the pool is taken, the pool can start a call that is queued, and every
submitted call that is not queued has run its callback. -/
theorem able_of_outstanding (sound : Sound M s) (free : s.shared.lock = none)
    (idle : s.shared.busy = []) (workers : 0 < r.maxWorkers) (outstanding : Outstanding s.shared t) :
    ∃ o k, s.rest (.worker t) = .act o k ∧ o.enabled r s.shared = true := by
  have acting : (s.rest (.worker t)).Acting := by
    by_contra halted
    obtain ⟨_, done, -, quiet⟩ := sound.post halted
    have hooked := sound.inv.coherent.hooked free t outstanding.1
    cases h : s.shared.callback t with
    | unregistered => exact hooked h
    | registered => exact quiet h
    | invoked => exact outstanding.2 h
  obtain ⟨o, k, hrest⟩ := acting.exists_act
  have ready := sound.ready (compatible M) hrest
  have starts : o = .start t := by
    by_contra other
    have busy := ready.worker t rfl other
    rw [idle] at busy
    cases busy
  subst starts
  refine ⟨_, k, hrest, ?_⟩
  obtain ⟨-, -, waiting⟩ := ready.start t rfl
  have queued : s.shared.stage t = .queued := by
    have submitted := outstanding.1
    cases h : s.shared.stage t with
    | queued => rfl
    | absent => exact absurd h submitted
    | running => rw [h] at waiting; exact absurd waiting (by decide)
    | done e => rw [h] at waiting; exact absurd waiting (by simp [Stage.rank])
  simp [SchedOp.enabled, queued, idle, workers]

/-- As long as `run` has not ended, some thread can move, if nothing but the completion of a future
during a call of `schedule` is forbidden. -/
theorem able (free : ∀ who o s, (s.scheduling = 0 ∨ ∀ t e, o ≠ .finish t e) → M.allow who o s)
    (workers : 0 < r.maxWorkers) (sound : Sound M s) (acting : (s.rest .main).Acting) :
    ∃ who o k, s.rest who = .act o k ∧ o.enabled r s.shared = true ∧ M.allow who o s.shared := by
  -- whoever holds the lock can go on
  by_cases locked : ∃ who, s.shared.lock = some who
  · obtain ⟨who, mine⟩ := locked
    obtain ⟨o, k, hrest⟩ := (acting_of_holder sound mine).exists_act
    obtain ⟨enabled, other⟩ := (sound.ready (compatible M) hrest).holds mine
    exact ⟨who, o, k, hrest, enabled, free _ _ _ (.inr other)⟩
  -- the lock is free: a worker of the pool can go on, or a queued call can be started
  · have unlocked : s.shared.lock = none := by
      cases h : s.shared.lock with
      | none => rfl
      | some who => exact absurd ⟨who, h⟩ locked
    have allowed : ∀ who o, M.allow who o s.shared := fun who o =>
      free who o _ (.inl (sound.inv.coherent.idle unlocked))
    have pool : (∃ t, t ∈ s.shared.busy ∨ Outstanding s.shared t) → ∃ who o k,
        s.rest who = .act o k ∧ o.enabled r s.shared = true ∧ M.allow who o s.shared := by
      rintro ⟨t, work⟩
      by_cases idle : s.shared.busy = []
      · have outstanding := work.resolve_left (by rw [idle]; simp)
        obtain ⟨o, k, hrest, enabled⟩ := able_of_outstanding sound unlocked idle workers outstanding
        exact ⟨_, o, k, hrest, enabled, allowed _ _⟩
      · obtain ⟨u, busy⟩ := List.exists_mem_of_ne_nil _ idle
        obtain ⟨o, k, hrest, enabled⟩ := able_of_busy sound unlocked busy
        exact ⟨_, o, k, hrest, enabled, allowed _ _⟩
    -- and a thread that has to wait waits for one of these
    obtain ⟨o, k, hrest⟩ := acting.exists_act
    have ready := sound.ready (compatible M) hrest
    by_cases enabled : o.enabled r s.shared = true
    · exact ⟨_, o, k, hrest, enabled, allowed _ _⟩
    refine pool ?_
    cases o with
    | acquire => simp [SchedOp.enabled, unlocked] at enabled
    | start u => cases (ready.start u rfl).1
    | recordException u =>
      have mine := ready.record u rfl
      rw [unlocked] at mine
      cases mine
    | waitDone =>
      obtain ⟨-, left, opened, -⟩ := ready.wait rfl
      rcases left with taken | done | shutdown | ⟨t, outstanding⟩
      · exact absurd unlocked taken
      · exact absurd done enabled
      · rw [opened] at shutdown
        cases shutdown
      · exact ⟨t, .inr outstanding⟩
    | join =>
      by_contra none
      have halted : ∀ t, ¬ Outstanding s.shared t := fun t h => none ⟨t, .inr h⟩
      refine enabled ?_
      simp only [SchedOp.enabled, Bool.and_eq_true, List.all_eq_true, List.isEmpty_iff]
      refine ⟨fun p hp => ?_, List.eq_nil_iff_forall_not_mem.mpr fun t h => none ⟨t, .inl h⟩⟩
      refine sound.inv.coherent.done_of_none ?_
        ((sound.inv.coherent.mem p.1).mp (List.mem_map_of_mem hp))
      rintro ⟨t, h⟩
      exact halted t h
    | _ => exact absurd rfl enabled

/-- Every run of such a mode arrives at the end of `run`. -/
theorem inevitably_over (free : ∀ who o s, (s.scheduling = 0 ∨ ∀ t e, o ≠ .finish t e) →
      M.allow who o s) (workers : 0 < r.maxWorkers) :
    Inevitably ((machine r).Via (Steps r M.allow))
      (fun s => Sound M s ∧ ¬ (s.rest .main).Acting) (start r) := by
  refine Threads.inevitably_of_able (crew r) (J := fun s => Sound M s ∧ Idle (r := r) s) ?_ ?_ ?_
    ⟨sound_start M, fun _ _ => rfl⟩
  · rintro a who b ⟨sound, idle⟩ allowed moved
    refine ⟨sound.step (compatible M) allowed moved, fun other ho => ?_⟩
    have apart : other ≠ who := fun same => ho (same ▸ mem_crew sound idle allowed moved)
    obtain ⟨o, k, -, rfl⟩ := Threads.perform_eq_some moved
    exact (Function.update_of_ne apart ..).trans (idle other ho)
  · rintro a who b ⟨sound, idle⟩ allowed moved
    exact mem_crew sound idle allowed moved
  · rintro a ⟨sound, -⟩ notOver
    refine able free workers sound ?_
    by_contra halted
    exact notOver ⟨sound, halted⟩

end Progress

end TTasks.Scheduler
