import TTasks.Laws.Scheduler.Contract

/-!
# What each operation guarantees

One lemma for each operation of the scheduler: where the thread is entitled to perform it, it is a
`Moved` step. The lemmas of the first sections say what an operation leaves as it is; those of the
later ones treat the operations that move a future, mark a task, or pass the lock.
-/

namespace TTasks.Scheduler

open Interleave
open Prog (Contract)

/-! ## Executor operations on the world -/

/-- What no executor operation undoes. -/
structure TaskForward (w w' : World) : Prop where
  type : ∀ t, (w'.tasks t).type = (w.tasks t).type
  pending : ∀ t, w'.status t = .pending → w.status t = .pending
  blocked : ∀ t, w'.status t = .blocked → w.status t = .blocked ∨ w.status t = .pending
  sink : ∀ t, (w.status t).isSink = true → w'.status t = w.status t
  calls : w.calls <+: w'.calls

/-- The statuses after one task has moved. -/
theorem moved_status {w : World} {t : TaskId} {target : TaskStatus}
    (error : Option String) (u : TaskId) :
    (w.setTask t ((w.tasks t).enter target error)).status u =
      if u = t then target else w.status u := by
  unfold World.status
  rw [World.setTask_tasks]
  split <;> rfl

/-- No executor operation undoes a task's progress: by cases on the operation, as only transitions
move a status and only calls of handlers count. -/
theorem taskForward (x : Executor) (o : TaskOp) (w : World) :
    TaskForward w (o.perform x w).2 := by
  have same : (∀ u, (o.perform x w).2.status u = w.status u) ∨
      ∃ t target e, o = .transition t target e ∧ (w.status t).canTransitionTo target = true ∧
        ∀ u, (o.perform x w).2.status u = if u = t then target else w.status u := by
    by_cases moves : ∃ t target e, o = .transition t target e
    · obtain ⟨t, target, e, rfl⟩ := moves
      cases allowed : (w.status t).canTransitionTo target with
      | true =>
        refine .inr ⟨t, target, e, rfl, allowed, fun u => ?_⟩
        rw [TaskOp.perform_moved x allowed e]
        exact moved_status e u
      | false =>
        obtain ⟨m, refused⟩ := TaskOp.perform_refused x allowed e
        exact .inl fun u => by rw [refused]
    · exact .inl (TaskOp.perform_status x (fun t s e h => moves ⟨t, s, e, h⟩) w)
  have calls : w.calls <+: (o.perform x w).2.calls := by
    by_cases enters : ∃ t ups, o = .call t ups
    · obtain ⟨t, ups, rfl⟩ := enters
      exact List.prefix_append _ _
    · exact ⟨[], (List.append_nil _).trans
        (TaskOp.perform_calls x (fun t ups h => enters ⟨t, ups, h⟩) w).symm⟩
  have type := TaskOp.perform_type x o w
  rcases same with same | ⟨t, target, e, -, allowed, after⟩
  · exact ⟨type, fun u => by rw [same]; exact id, fun u => by rw [same]; exact .inl,
      fun u _ => same u, calls⟩
  · refine ⟨type, fun u => ?_, fun u => ?_, fun u sink => ?_, calls⟩
    · rw [after]
      split
      · rintro rfl
        cases h : w.status t <;> rw [h] at allowed <;> exact absurd allowed (by decide)
      · exact id
    · rw [after]
      split
      · rename_i here
        rintro rfl
        subst here
        cases h : w.status u <;> rw [h] at allowed <;>
          first | exact .inr rfl | exact absurd allowed (by decide)
      · exact .inl
    · rw [after]
      split
      · rename_i here
        subst here
        rw [TaskStatus.canTransitionTo_of_isSink sink] at allowed
        cases allowed
      · rfl

/-- An operation on one task leaves the others alone. -/
theorem untouched_of_ne (x : Executor) {o : TaskOp} (w : World) {t : TaskId} (other : t ≠ o.task) :
    Untouched t w (o.perform x w).2 := by
  cases o with
  | transition u target e =>
    simp only [TaskOp.perform]
    split
    · exact ⟨if_neg other, rfl⟩
    · exact ⟨rfl, rfl⟩
  | setResult u res => exact ⟨if_neg other, rfl⟩
  | setBlockedBy u p => exact ⟨if_neg other, rfl⟩
  | save u =>
    simp only [TaskOp.perform]
    split <;> exact ⟨rfl, rfl⟩
  | call u ups =>
    refine ⟨rfl, ?_⟩
    have ne : (u == t) = false := beq_eq_false_iff_ne.mpr (Ne.symm other)
    simp [TaskOp.perform, World.callCount, List.filter_append, ne]
  | _ => exact ⟨rfl, rfl⟩

section Steps

variable {r : Run} {M : Mode r} {s s' : Shared} {t : TaskId} {who : Who}

/-! ## What carries over -/

/-- What is past hope stays so. -/
theorem Hopeless.forward (calm : r.cancels = []) (forward : Forward r s s')
    (h : Hopeless r s t) : Hopeless r s' t := by
  obtain ⟨fixed, status, -⟩ := forward.fixed calm t h.1
  exact ⟨fixed, status ▸ h.2⟩

/-- A guard that is met stays met. -/
theorem Guard.forward (calm : r.cancels = []) (forward : Forward r s s') (h : Guard r s t) :
    Guard r s' t where
  finally_ hf d hd := (forward.fixed calm d (h.finally_ hf d hd)).1
  normal hn d hd := by
    have succeeded := h.normal hn d hd
    exact (forward.sink d (by rw [succeeded]; rfl)).trans succeeded

/-- A mark stands as long as its task is not submitted. -/
theorem Marked.forward (calm : r.cancels = []) (forward : Forward r s s')
    (absent : s.stage t = .absent) (h : Marked r s t) : Marked r s' t where
  blocked := (forward.fixed calm t (.inr (.inr ⟨absent, h.blocked, h.pending⟩))).2.1.trans h.blocked
  pending := h.pending
  normal := h.normal
  parent := by
    obtain ⟨d, hd, hopeless⟩ := h.parent
    exact ⟨d, hd, hopeless.forward calm forward⟩

/-- A step that moves no future and no task. -/
structure SameTasks (s s' : Shared) : Prop where
  stage : s'.stage = s.stage
  status : ∀ t, s'.status t = s.status t
  type : ∀ t, (s'.world.tasks t).type = (s.world.tasks t).type
  calls : s'.world.calls = s.world.calls
  submitted : s'.submitted = s.submitted

/-- Whether a task is fixed is read off its future and its status. -/
theorem Fixed.congr (stage : s'.stage t = s.stage t) (status : s'.status t = s.status t)
    (h : Fixed r s t) : Fixed r s' t := by
  unfold Fixed at h ⊢
  rw [stage, status]
  exact h

/-- A step that moves no task goes forward if it takes back no flag and no callback. -/
theorem SameTasks.forward (same : SameTasks s s')
    (invoked : ∀ t, s.callback t = .invoked → s'.callback t = .invoked)
    (done : s.done = true → s'.done = true) (shutdown : s.shutdown = true → s'.shutdown = true) :
    Forward r s s' where
  pending t h := (same.status t).symm.trans h
  blocked t h := .inl ((same.status t).symm.trans h)
  sink t _ := same.status t
  rank t := by rw [same.stage]
  ended t e h := by rw [same.stage]; exact h
  invoked := invoked
  done := done
  shutdown := shutdown
  submitted := same.submitted ▸ List.prefix_refl _
  calls := same.calls ▸ List.prefix_refl _
  fixed _ t h := ⟨h.congr (congrFun same.stage t) (same.status t), same.status t,
    fun ha => by rw [same.stage]; exact ha⟩

/-- A step that moves no task keeps the core, given what it has to say of the flags it sets. -/
theorem SameTasks.core (same : SameTasks s s') (calm : r.cancels = []) (forward : Forward r s s')
    (core : Core r s) (shutdown : s'.shutdown = true → s'.done = true)
    (finished : s'.done = true → s'.schedulerErrors = [] → ∀ t ∈ r.graph.keys,
      entered r t = .pending → s'.stage t ≠ .absent ∨ s'.status t = .blocked) : Core r s' where
  type t := (same.type t).trans (core.type t)
  absent t h := by
    rw [same.stage] at h
    rw [same.status]
    exact (core.absent t h).imp_right (.forward calm forward h)
  queued t h := by
    rw [same.stage] at h
    rw [same.status]
    exact core.queued t h
  running t h := by
    rw [same.stage] at h
    rw [same.status]
    exact core.running t h
  done t e h := by
    rw [same.stage] at h
    rw [same.status]
    exact core.done t e h
  submitted p hp := by
    rw [same.submitted] at hp
    obtain ⟨upstream, startable, guard⟩ := core.submitted p hp
    exact ⟨upstream, startable, guard.forward calm forward⟩
  calls := by rw [same.calls, same.stage]; exact core.calls
  shutdown := shutdown
  finished := finished

/-- The calls of handlers are still one for each task that has been started. -/
theorem Core.calls' (core : Core r s) (same : s'.world.calls = s.world.calls)
    (rank : ∀ t, (s.stage t).rank ≤ (s'.stage t).rank) :
    ∃ new, s'.world.calls = r.world.calls ++ new ∧ (new.map Prod.fst).Nodup ∧
      ∀ c ∈ new, c.2 = r.graph.deps c.1 ∧ 2 ≤ (s'.stage c.1).rank := by
  obtain ⟨new, calls, nodup, started⟩ := core.calls
  refine ⟨new, same.trans calls, nodup, fun c hc => ?_⟩
  obtain ⟨upstream, begun⟩ := started c hc
  exact ⟨upstream, begun.trans (rank c.1)⟩

/-- A step of a thread that holds the lock and keeps it. -/
theorem Moved.of_holder (inv : Inv M s) (mine : s.lock = some who) (inv' : Inv M s')
    (forward : Forward r s s') (lock : s'.lock = s.lock)
    (own : ∀ t, who ≠ .worker t → Own r t s s') (shutdown : s'.shutdown = s.shutdown) :
    Moved M who s s' where
  inv := inv'
  forward := forward
  lock := .inl lock
  held other := absurd mine other
  own := own
  active t is := .inl (inv.coherent.holder t (is ▸ mine))
  outside n is := absurd (is ▸ mine) (inv.coherent.inside n)
  shutdown _ := shutdown
  released _ _ free := by rw [lock, mine] at free; cases free

/-- A step that changes nothing. -/
theorem Moved.read (inv : Inv M s) (active : ∀ t, who = .worker t → t ∈ s.busy ∨ s.stage t = .queued) :
    Moved M who s s where
  inv := inv
  forward := .refl r s
  lock := .inl rfl
  held _ := .refl M s
  own t _ := .refl r t s
  active := active
  outside _ _ := ⟨rfl, rfl⟩
  shutdown _ := rfl
  released _ mine free := by rw [mine] at free; cases free

/-! ## Operations under the lock -/

/-- An operation under the lock that changes at most the notes about `schedule` and the end of the
run. -/
theorem moved_notes (inv : Inv M s) (mine : s.lock = some who) (scheduling : Nat) (done : Bool)
    (errors : List Exc) (keeps : s.done = true → done = true)
    (clean : M.clean → errors = [])
    (finished : r.cancels = [] → done = true → errors = [] → ∀ t ∈ r.graph.keys,
      entered r t = .pending → s.stage t ≠ .absent ∨ s.status t = .blocked) :
    Moved M who s { s with scheduling, done, schedulerErrors := errors } := by
  have taken : s.lock ≠ none := by rw [mine]; simp
  have same : SameTasks s { s with scheduling, done, schedulerErrors := errors } :=
    ⟨rfl, fun _ => rfl, fun _ => rfl, rfl, rfl⟩
  have forward : Forward r s { s with scheduling, done, schedulerErrors := errors } :=
    same.forward (fun _ h => h) keeps id
  refine .of_holder inv mine ⟨?_, fun calm => ?_, clean⟩ forward rfl (fun t _ => ?_) rfl
  · have c := inv.coherent
    exact ⟨c.nodup, c.mem, c.keys, c.absent, c.invoked, c.errors,
      fun free => absurd free taken, c.hooked, c.holder, c.inside, c.started⟩
  · have core := inv.core calm
    refine same.core calm forward core (fun h => keeps (core.shutdown h)) ?_
    exact finished calm
  · exact ⟨.rfl, id, id, fun _ h => h, fun _ _ => ⟨rfl, rfl⟩⟩

/-- The note of how many calls of `schedule` are in progress. -/
theorem moved_scheduling (inv : Inv M s) (mine : s.lock = some who) (n : Nat) :
    Moved M who s { s with scheduling := n } :=
  moved_notes inv mine n s.done s.schedulerErrors id inv.clean
    fun calm => (inv.core calm).finished

/-- `done.set()`, which is for a state in which every PENDING task has been dealt with. -/
theorem moved_setDone (inv : Inv M s) (mine : s.lock = some who)
    (finished : r.cancels = [] → s.schedulerErrors = [] → ∀ t ∈ r.graph.keys,
      entered r t = .pending → s.stage t ≠ .absent ∨ s.status t = .blocked) :
    Moved M who s { s with done := true } :=
  moved_notes inv mine s.scheduling true s.schedulerErrors (fun _ => rfl) inv.clean
    fun calm _ => finished calm

/-- The no-progress branch writes its error, where the mode admits it. -/
theorem moved_appendError (inv : Inv M s) (mine : s.lock = some who) (e : Exc)
    (notClean : ¬ M.clean) : Moved M who s { s with schedulerErrors := s.schedulerErrors ++ [e] } :=
  moved_notes inv mine s.scheduling s.done _ id (fun clean => absurd clean notClean)
    fun _ _ none => by simp at none

/-- The callback of a future is added, or begun. -/
theorem moved_callback (inv : Inv M s) (mine : s.lock = some who) {callback : Callback}
    {errors : TaskId → Option Exc} (submitted : s.stage t ≠ .absent)
    (kept : ∀ u, u ≠ t → errors u = s.errors u)
    (either : callback = .registered ∧ s.callback t = .unregistered ∧
        (s.stage t).isDone = false ∧ errors t = none ∨
      callback = .invoked ∧ ∃ e, s.stage t = .done e ∧ errors t = e) :
    Moved M who s { s.setCallback t callback with errors } := by
  have taken : s.lock ≠ none := by rw [mine]; simp
  have at_t : Function.update s.callback t callback t = callback := Function.update_self ..
  have at_u : ∀ u, u ≠ t → Function.update s.callback t callback u = s.callback u :=
    fun u other => Function.update_of_ne other ..
  have same : SameTasks s { s.setCallback t callback with errors } :=
    ⟨rfl, fun _ => rfl, fun _ => rfl, rfl, rfl⟩
  have forward : Forward r s { s.setCallback t callback with errors } := by
    refine same.forward (fun u hu => ?_) id id
    show Function.update s.callback t callback u = .invoked
    by_cases here : u = t
    · subst here
      rw [at_t]
      rcases either with ⟨-, new, -⟩ | ⟨invoked, -⟩
      · rw [hu] at new; cases new
      · exact invoked
    · rw [at_u u here]; exact hu
  -- the holder may write callbacks: what is to show is that they stay coherent, and that no
  -- worker's callback is taken back
  refine .of_holder inv mine ⟨?_, fun calm => ?_, inv.clean⟩ forward rfl (fun u hu => ?_) rfl
  · have c := inv.coherent
    refine ⟨c.nodup, c.mem, c.keys, fun u hu => ?_, fun u hu => ?_, fun u hu => ?_,
      fun free => absurd free taken, fun free => absurd free taken, c.holder, c.inside, c.started⟩
    · have other : u ≠ t := fun here => submitted (here ▸ hu)
      exact (at_u u other).trans (c.absent u hu)
    · by_cases here : u = t
      · subst here
        rcases either with ⟨registered, -⟩ | ⟨-, done⟩
        · have : callback = .invoked := at_t.symm.trans hu
          rw [registered] at this; cases this
        · exact done
      · obtain ⟨e, he, hr⟩ := c.invoked u ((at_u u here).symm.trans hu)
        exact ⟨e, he, (kept u here).trans hr⟩
    · by_cases here : u = t
      · subst here
        rcases either with ⟨-, -, -, none⟩ | ⟨invoked, -⟩
        · exact none
        · exact absurd (at_t.trans invoked) hu
      · have : s.callback u ≠ .invoked := fun h => hu ((at_u u here).trans h)
        exact (kept u here).trans (c.errors u this)
  · exact same.core calm forward (inv.core calm) (inv.core calm).shutdown (inv.core calm).finished
  · refine ⟨.rfl, id, id, fun done hc => ?_, fun _ _ => ⟨rfl, rfl⟩⟩
    show Function.update s.callback t callback u ≠ .registered
    by_cases here : u = t
    · subst here
      rw [at_t]
      rcases either with ⟨-, -, undone, -⟩ | ⟨invoked, -⟩
      · rw [done] at undone; cases undone
      · rw [invoked]; simp
    · rw [at_u u here]; exact hc

/-! ## Operations on a task -/

/-- An operation on the world goes forward when it leaves the fixed tasks as they are. -/
theorem forward_world (o : TaskOp)
    (fixed : r.cancels = [] → ∀ t, Fixed r s t →
      (o.perform r.executor s.world).2.status t = s.status t) :
    Forward r s { s with world := (o.perform r.executor s.world).2 } := by
  have forward := taskForward r.executor o s.world
  refine ⟨forward.pending, forward.blocked, forward.sink, fun _ => le_refl _, fun _ _ h => h,
    fun _ h => h, id, id, List.prefix_refl _, forward.calls, fun calm t h => ?_⟩
  have same := fixed calm t h
  exact ⟨Fixed.congr (s := s) rfl same h, same, id⟩

/-- An operation on the world by a thread that is active is a move that the others expect. -/
theorem moved_world (inv : Inv M s) (o : TaskOp)
    (active : ∀ t, who = .worker t → t ∈ s.busy ∨ s.stage t = .queued)
    (core : r.cancels = [] → Core r { s with world := (o.perform r.executor s.world).2 })
    (fixed : r.cancels = [] → ∀ t, Fixed r s t →
      (o.perform r.executor s.world).2.status t = s.status t)
    (absent : r.cancels = [] → s.lock ≠ some who → ∀ t, s.stage t = .absent →
      (o.perform r.executor s.world).2.status t = s.status t)
    (own : r.cancels = [] → ∀ t, who ≠ .worker t → s.stage t = .running → t ≠ o.task) :
    Moved M who s { s with world := (o.perform r.executor s.world).2 } where
  inv := by
    have c := inv.coherent
    exact ⟨⟨c.nodup, c.mem, c.keys, c.absent, c.invoked, c.errors, c.idle, c.hooked, c.holder,
      c.inside, c.started⟩, core, inv.clean⟩
  forward := forward_world o fixed
  lock := .inl rfl
  held other := ⟨rfl, fun _ => .rfl, rfl, rfl, rfl, rfl, rfl, fun _ _ h => h,
    fun calm => absent calm other⟩
  own t other := ⟨.rfl, id, id, fun _ h => h,
    fun calm running => untouched_of_ne r.executor s.world (own calm t other running)⟩
  active := active
  outside _ _ := ⟨rfl, rfl⟩
  shutdown _ := rfl
  released _ mine free := by rw [show s.lock = none from free] at mine; cases mine

/-- An operation on the thread's own task, or on one that does not run, that leaves the statuses
and the calls as they are. -/
theorem moved_harmless (inv : Inv M s) {o : TaskOp}
    (active : ∀ t, who = .worker t → t ∈ s.busy ∨ s.stage t = .queued)
    (still : ∀ t u e, o ≠ .transition t u e) (silent : ∀ t ups, o ≠ .call t ups)
    (own : who = .worker o.task ∨ s.stage o.task ≠ .running) :
    Moved M who s { s with world := (o.perform r.executor s.world).2 } := by
  have status := TaskOp.perform_status r.executor still s.world
  have same : SameTasks s { s with world := (o.perform r.executor s.world).2 } :=
    ⟨rfl, status, TaskOp.perform_type r.executor o s.world,
      TaskOp.perform_calls r.executor silent s.world, rfl⟩
  refine moved_world inv o active (fun calm => ?_) (fun _ t _ => status t) (fun _ _ t _ => status t)
    fun _ t other running => ?_
  · have core := inv.core calm
    refine same.core calm (forward_world o fun _ t _ => status t) core core.shutdown ?_
    intro done none t ht pending
    exact (core.finished done none t ht pending).imp_right (status t).trans
  · rintro rfl
    exact own.elim other (absurd running)

/-- What the pool's thread does to its task in one step of `execute`. -/
theorem moved_execute (inv : Inv M s) {o : TaskOp} (busy : t ∈ s.busy)
    (running : s.stage t = .running)
    (executes : r.cancels = [] → Executes r.executor t (r.graph.deps t) r.world o s.world) :
    Moved M (.worker t) s { s with world := (o.perform r.executor s.world).2 } := by
  have status : r.cancels = [] → ∀ u, u ≠ t →
      (o.perform r.executor s.world).2.status u = s.status u := by
    intro calm u other
    have untouched := untouched_of_ne r.executor s.world ((executes calm).task ▸ other)
    exact congrArg Task.status untouched.task
  -- only `t` moves, and it is RUNNING, so it is not one of the fixed tasks
  have fixed : r.cancels = [] → ∀ u, Fixed r s u →
      (o.perform r.executor s.world).2.status u = s.status u := by
    intro calm u hu
    by_cases here : u = t
    · subst here
      rcases hu with done | sink | ⟨absent, -⟩
      · rw [running] at done; cases done
      · exact (taskForward r.executor o s.world).sink u sink
      · rw [running] at absent; cases absent
    · exact status calm u here
  have ne : ∀ {u g}, s.stage u = g → g ≠ .running → u ≠ t := by
    rintro u g hu hg rfl
    exact hg (hu.symm.trans running)
  refine moved_world inv o (fun u is => .inl ?_) (fun calm => ?_) fixed
    (fun calm _ u absent => status calm u (ne absent (by simp))) fun calm u other _ => ?_
  · cases is; exact busy
  · have core := inv.core calm
    have forward := forward_world (s := s) o fixed
    refine ⟨fun u => ((taskForward r.executor o s.world).type u).trans (core.type u),
      fun u hu => ?_, fun u hu => ?_, fun u hu => ?_, fun u e hu => ?_, fun p hp => ?_, ?_,
      core.shutdown, fun done none u hu pending => ?_⟩
    · have same := status calm u (ne hu (by simp))
      exact (core.absent u hu).imp same.trans (.forward calm forward hu)
    · exact (status calm u (ne hu (by simp))).trans (core.queued u hu)
    · by_cases here : u = t
      · subst here
        exact (executes calm).passes
      · show r.executor.passes r.world u ((o.perform r.executor s.world).2.status u)
        rw [status calm u here]
        exact core.running u hu
    · have same := status calm u (ne hu (by simp))
      obtain ⟨hs, he⟩ := core.done u e hu
      exact ⟨same.trans hs, he⟩
    · obtain ⟨upstream, startable, guard⟩ := core.submitted p hp
      exact ⟨upstream, startable, guard.forward calm forward⟩
    -- the call of the handler is the only operation that counts one, and it is the first for `t`
    · obtain ⟨new, calls, nodup, started⟩ := core.calls
      by_cases enters : ∃ u ups, o = .call u ups
      · obtain ⟨u, ups, rfl⟩ := enters
        obtain ⟨rfl, count⟩ := (executes calm).call u ups rfl
        obtain rfl : u = t := (executes calm).task
        have fresh : u ∉ new.map Prod.fst := by
          intro hu
          obtain ⟨c, hc, rfl⟩ := List.mem_map.mp hu
          have : c ∈ new.filter fun c' => c'.1 == c.1 := by simp [hc]
          rw [World.callCount, calls, List.filter_append, List.length_append] at count
          have := List.length_pos_of_mem this
          unfold World.callCount at count
          omega
        refine ⟨new ++ [(u, r.graph.deps u)], ?_, ?_, fun c hc => ?_⟩
        · show s.world.calls ++ _ = _
          rw [calls, List.append_assoc]
        · rw [List.map_append, List.nodup_append]
          refine ⟨nodup, by simp, ?_⟩
          rintro a ha b hb rfl
          obtain rfl := List.mem_singleton.mp hb
          exact fresh ha
        · rcases List.mem_append.mp hc with hc | hc
          · exact started c hc
          · rw [List.mem_singleton] at hc
            subst hc
            exact ⟨rfl, by rw [running]; decide⟩
      · refine ⟨new, ?_, nodup, started⟩
        exact (TaskOp.perform_calls r.executor (fun u ups h => enters ⟨u, ups, h⟩) s.world).trans
          calls
    · by_cases absent : s.stage u = .absent
      · exact (core.finished done none u hu pending).imp_right
          (status calm u (ne absent (by simp))).trans
      · exact .inl absent
  · rw [(executes calm).task]
    exact fun here => other (here ▸ rfl)

/-- `mark_blocked`'s transition, made by the scheduler on a task that is not submitted. -/
theorem moved_mark (inv : Inv M s) (mine : s.lock = some who) (absent : s.stage t = .absent)
    (error : Option String)
    (marks : r.cancels = [] → s.status t = .pending ∧ r.graph.isFinally t = false ∧
      ∃ d ∈ r.graph.deps t, Hopeless r s d) :
    Moved M who s { s with
      world := ((TaskOp.transition t .blocked error).perform r.executor s.world).2 } := by
  have active : ∀ u, who = .worker u → u ∈ s.busy ∨ s.stage u = .queued :=
    fun u is => .inl (inv.coherent.holder u (is ▸ mine))
  have status : ∀ u, u ≠ t →
      ((TaskOp.transition t .blocked error).perform r.executor s.world).2.status u = s.status u :=
    fun u other => congrArg Task.status (untouched_of_ne r.executor s.world other).task
  have fixed : r.cancels = [] → ∀ u, Fixed r s u →
      ((TaskOp.transition t .blocked error).perform r.executor s.world).2.status u =
        s.status u := by
    intro calm u hu
    refine status u ?_
    rintro rfl
    have pending := (marks calm).1
    rcases hu with done | sink | ⟨-, blocked, -⟩
    · rw [absent] at done; cases done
    · rw [pending] at sink; cases sink
    · rw [pending] at blocked; cases blocked
  -- a PENDING task that is not submitted is not fixed either, so the mark takes nothing back
  have forward := forward_world (s := s) (.transition t .blocked error) fixed
  have ne : ∀ {u g}, s.stage u = g → g ≠ .absent → u ≠ t := by
    rintro u g hu hg rfl
    exact hg (hu.symm.trans absent)
  refine moved_world inv _ active (fun calm => ?_) fixed (fun _ other => absurd mine other)
    fun _ u _ running => ne running (by simp)
  have core := inv.core calm
  obtain ⟨pending, normal, d, hd, hopeless⟩ := marks calm
  have marked : Marked r { s with
      world := ((TaskOp.transition t .blocked error).perform r.executor s.world).2 } t := by
    refine ⟨?_, ?_, normal, d, hd, hopeless.forward calm forward⟩
    · have allowed : (s.world.status t).canTransitionTo .blocked = true := by
        rw [show s.world.status t = .pending from pending]; decide
      show World.status _ t = _
      rw [TaskOp.perform_moved r.executor allowed]
      exact (moved_status error t).trans (if_pos rfl)
    · rcases core.absent t absent with same | marked
      · exact same.symm.trans pending
      · have := marked.blocked
        rw [pending] at this; cases this
  refine ⟨fun u => ((taskForward r.executor _ s.world).type u).trans (core.type u),
    fun u hu => ?_, fun u hu => ?_, fun u hu => ?_, fun u e hu => ?_, fun p hp => ?_,
    core.calls' ?_ fun _ => le_refl _, core.shutdown, fun done none u hu pending => ?_⟩
  -- the marked task keeps the grounds it was marked on
  · by_cases here : u = t
    · subst here; exact .inr marked
    · exact (core.absent u hu).imp (status u here).trans (.forward calm forward hu)
  · exact (status u (ne hu (by simp))).trans (core.queued u hu)
  · show r.executor.passes r.world u (World.status _ u)
    rw [status u (ne hu (by simp))]
    exact core.running u hu
  · obtain ⟨hs, he⟩ := core.done u e hu
    exact ⟨(status u (ne hu (by simp))).trans hs, he⟩
  · obtain ⟨upstream, startable, guard⟩ := core.submitted p hp
    exact ⟨upstream, startable, guard.forward calm forward⟩
  · exact TaskOp.perform_calls r.executor (o := .transition t .blocked error) nofun s.world
  · by_cases here : u = t
    · subst here; exact .inr marked.blocked
    · exact (core.finished done none u hu pending).imp_right (status u here).trans

/-! ## Operations on a future -/

/-- A step that moves one future up and no task. -/
structure Advance (t : TaskId) (g : Stage) (s s' : Shared) : Prop where
  stage : s'.stage = Function.update s.stage t g
  up : (s.stage t).rank < g.rank
  open_ : ∀ e, s.stage t ≠ .done e
  world : s'.world = s.world
  callback : s'.callback = s.callback
  errors : s'.errors = s.errors
  done : s'.done = s.done
  shutdown : s'.shutdown = s.shutdown
  schedulerErrors : s'.schedulerErrors = s.schedulerErrors

namespace Advance

variable {g : Stage} (step : Advance t g s s') {u : TaskId}

include step

/-- The task's own future, after it has moved. -/
theorem self : s'.stage t = g := by rw [step.stage]; exact Function.update_self ..

/-- The other futures, after it has moved. -/
theorem other (ne : u ≠ t) : s'.stage u = s.stage u := by
  rw [step.stage]; exact Function.update_of_ne ne ..

/-- A future that is in another stage than the one it was moved to is one that was not moved. -/
theorem stage_iff {g' : Stage} (ne : g' ≠ g) : s'.stage u = g' → u ≠ t ∧ s.stage u = g' := by
  intro hu
  have other : u ≠ t := by
    rintro rfl
    exact ne (hu.symm.trans step.self)
  exact ⟨other, (step.other other).symm.trans hu⟩

/-- No status changes when a future moves. -/
theorem status (u : TaskId) : s'.status u = s.status u := by
  rw [Shared.status, step.world]; rfl

/-- What is submitted stays submitted. -/
theorem submitted_ne (submitted : s.stage u ≠ .absent) : s'.stage u ≠ .absent := by
  intro absent
  by_cases here : u = t
  · subst here
    have up := step.up
    rw [← step.self, absent] at up
    exact Nat.not_lt_zero _ up
  · exact submitted ((step.other here).symm.trans absent)

/-- A future that moves up in rank goes forward. -/
theorem forward (submitted : s.submitted <+: s'.submitted)
    (fixed : r.cancels = [] → Fixed r s t → Fixed r s' t ∧ s.stage t ≠ .absent) :
    Forward r s s' where
  pending u h := (step.status u).symm.trans h
  blocked u h := .inl ((step.status u).symm.trans h)
  sink u _ := step.status u
  rank u := by
    by_cases here : u = t
    · subst here; rw [step.self]; exact step.up.le
    · rw [step.other here]
  ended u e hu := by
    refine (step.other ?_).trans hu
    rintro rfl
    exact step.open_ e hu
  invoked u h := by rw [step.callback]; exact h
  done h := step.done.trans h
  shutdown h := step.shutdown.trans h
  submitted := submitted
  calls := step.world ▸ List.prefix_refl _
  fixed calm u hu := by
    by_cases here : u = t
    · subst here
      obtain ⟨fixed, submitted⟩ := fixed calm hu
      exact ⟨fixed, step.status u, fun ha => absurd ha submitted⟩
    · exact ⟨hu.congr (step.other here) (step.status u), step.status u,
        fun ha => (step.other here).trans ha⟩

/-- A future that moves keeps the core, given what its new stage says of the task. -/
theorem core (core : Core r s) (calm : r.cancels = []) (forward : Forward r s s')
    (queued : g = .queued → s.status t = entered r t)
    (running : g = .running → r.executor.passes r.world t (s.status t))
    (ended : ∀ e, g = .done e → s.status t = ending r t ∧ (e = none ↔ ending r t = .succeeded))
    (submitted : ∀ p ∈ s'.submitted, p ∈ s.submitted ∨ p.2 = r.graph.deps p.1 ∧
      (entered r p.1).canTransitionTo .running = true ∧ Guard r s p.1) : Core r s' where
  type u := by rw [step.world]; exact core.type u
  absent u hu := by
    have ne : (Stage.absent) ≠ g := by rintro rfl; exact Nat.not_lt_zero _ step.up
    have hu := (step.stage_iff ne hu).2
    exact (core.absent u hu).imp (step.status u).trans (.forward calm forward hu)
  queued u hu := by
    rw [step.status]
    by_cases here : u = t
    · subst here; exact queued (step.self.symm.trans hu)
    · exact core.queued u ((step.other here).symm.trans hu)
  running u hu := by
    rw [step.status]
    by_cases here : u = t
    · subst here; exact running (step.self.symm.trans hu)
    · exact core.running u ((step.other here).symm.trans hu)
  done u e hu := by
    rw [step.status]
    by_cases here : u = t
    · subst here; exact ended e (step.self.symm.trans hu)
    · exact core.done u e ((step.other here).symm.trans hu)
  submitted p hp := by
    rcases submitted p hp with old | ⟨upstream, startable, guard⟩
    · obtain ⟨upstream, startable, guard⟩ := core.submitted p old
      exact ⟨upstream, startable, guard.forward calm forward⟩
    · exact ⟨upstream, startable, guard.forward calm forward⟩
  calls := core.calls' (by rw [step.world]) forward.rank
  shutdown h := by
    rw [step.done]; exact core.shutdown (step.shutdown.symm.trans h)
  finished done none u hu pending := by
    rw [step.status]
    refine (core.finished (step.done.symm.trans done) (step.schedulerErrors.symm.trans none) u hu
      pending).imp_left step.submitted_ne

/-- Another task's thread sees its own future where it was, unless that was not yet created. -/
theorem own (busy : u ∈ s'.busy ↔ u ∈ s.busy) (low : u = t → (s.stage t).rank = 0 ∧ g.rank ≤ 1) :
    Own r u s s' where
  busy := busy
  waiting hw := by
    by_cases here : u = t
    · subst here; rw [step.self]; exact (low rfl).2
    · rw [step.other here]; exact hw
  running hr := by
    refine (step.other ?_).trans hr
    rintro rfl
    have := (low rfl).1
    rw [hr] at this; cases this
  callback hd hc := by rw [step.callback]; exact hc
  task _ _ := ⟨by rw [step.world], by rw [step.world]⟩

end Advance

/-- `pool.submit`, before the shutdown, of a task that is ready. -/
theorem moved_poolSubmit (inv : Inv M s) (mine : s.lock = some who) (absent : s.stage t = .absent)
    (key : t ∈ r.graph.keys)
    (ready : r.cancels = [] → s.status t = entered r t ∧
      (entered r t).canTransitionTo .running = true ∧ Guard r s t) :
    Moved M who s { s.setStage t .queued with
      submitted := s.submitted ++ [(t, r.graph.deps t)] } := by
  have step : Advance t .queued s { s.setStage t .queued with
      submitted := s.submitted ++ [(t, r.graph.deps t)] } :=
    ⟨rfl, by rw [absent]; decide, by rw [absent]; simp, rfl, rfl, rfl, rfl, rfl, rfl⟩
  have taken : s.lock ≠ none := by rw [mine]; simp
  have c := inv.coherent
  -- a task that may start is not fixed, so the submission takes nothing back
  have notFixed : r.cancels = [] → ¬ Fixed r s t := by
    rintro calm (done | sink | ⟨-, blocked, pending⟩) <;> obtain ⟨status, startable, -⟩ := ready calm
    · rw [absent] at done; cases done
    · rw [status] at sink
      cases h : entered r t <;> rw [h] at sink startable <;>
        first | exact absurd sink (by decide) | exact absurd startable (by decide)
    · rw [status, pending] at blocked; cases blocked
  have forward := step.forward (r := r) (List.prefix_append _ _)
    fun calm fixed => absurd fixed (notFixed calm)
  refine .of_holder inv mine ⟨?_, fun calm => ?_, inv.clean⟩ forward rfl
    (fun u _ => step.own .rfl fun _ => ⟨by rw [absent]; rfl, le_refl _⟩) rfl
  · refine ⟨?_, fun u => ?_, fun u hu => ?_, fun u hu => ?_, fun u hu => ?_, c.errors,
      fun free => absurd free taken, fun free => absurd free taken, c.holder, c.inside,
      fun u hu => (c.started u hu).trans (forward.rank u)⟩
    -- the task is new among the submitted ones, and has a future now
    · rw [List.map_append, List.nodup_append]
      refine ⟨c.nodup, by simp, ?_⟩
      rintro a ha b hb rfl
      obtain rfl := List.mem_singleton.mp hb
      exact (c.mem a).mp ha absent
    · rw [List.map_append, List.mem_append, c.mem]
      by_cases here : u = t
      · subst here
        refine iff_of_true (.inr (by simp)) ?_
        rw [step.self]
        simp
      · rw [step.other here]; simp [here]
    · by_cases here : u = t
      · exact here ▸ key
      · exact c.keys u fun ha => hu ((step.other here).trans ha)
    · exact c.absent u (step.stage_iff (by simp) hu).2
    · obtain ⟨e, he, hr⟩ := c.invoked u hu
      exact ⟨e, forward.ended u e he, hr⟩
  · obtain ⟨status, startable, guard⟩ := ready calm
    refine step.core (inv.core calm) calm forward (fun _ => status) nofun nofun fun p hp => ?_
    rcases List.mem_append.mp hp with hp | hp
    · exact .inl hp
    · obtain rfl := List.mem_singleton.mp hp
      exact .inr ⟨rfl, startable, guard⟩

/-- A future is moved up by its own thread, which does not hold the lock. -/
theorem Advance.moved {g : Stage} (step : Advance t g s s') (inv : Inv M s)
    (free : s.lock ≠ some (.worker t)) (forward : Forward r s s') (core : r.cancels = [] → Core r s')
    (submitted : s'.submitted = s.submitted) (created : s.stage t ≠ .absent)
    (lock : s'.lock = s.lock) (scheduling : s'.scheduling = s.scheduling)
    (busy : ∀ u, u ≠ t → (u ∈ s'.busy ↔ u ∈ s.busy)) (more : ∀ u, u ∈ s.busy → u ∈ s'.busy)
    (active : t ∈ s.busy ∨ s.stage t = .queued) (high : 2 ≤ g.rank)
    (opened : s.scheduling ≠ 0 → M.Open s t → M.Open s' t) : Moved M (.worker t) s s' where
  inv := by
    have c := inv.coherent
    have stage : ∀ u, s'.stage u = .absent ↔ s.stage u = .absent := fun u => by
      by_cases here : u = t
      · subst here
        exact ⟨fun ha => absurd ha (step.submitted_ne created), fun ha => absurd ha created⟩
      · rw [step.other here]
    refine ⟨⟨submitted ▸ c.nodup, fun u => ?_, fun u hu => ?_, fun u hu => ?_, fun u hu => ?_,
      fun u hu => ?_, fun hl => ?_, fun hl u hu => ?_, fun u hl => ?_, fun n hl => ?_,
      fun u hu => ?_⟩, core, fun hc => step.schedulerErrors.trans (inv.clean hc)⟩
    · rw [submitted, ne_eq, stage]; exact c.mem u
    · exact c.keys u fun ha => hu ((stage u).mpr ha)
    · rw [step.callback]; exact c.absent u ((stage u).mp hu)
    · rw [step.callback] at hu
      obtain ⟨e, he, hr⟩ := c.invoked u hu
      exact ⟨e, forward.ended u e he, by rw [step.errors]; exact hr⟩
    · rw [step.callback] at hu
      rw [step.errors]; exact c.errors u hu
    · rw [scheduling]; exact c.idle (lock.symm.trans hl)
    · rw [step.callback]; exact c.hooked (lock.symm.trans hl) u fun ha => hu ((stage u).mpr ha)
    · exact more u (c.holder u (lock.symm.trans hl))
    · exact c.inside n (lock.symm.trans hl)
    · by_cases here : u = t
      · subst here
        rw [step.self]; exact high
      · rw [step.other here]; exact c.started u ((busy u here).mp hu)
  forward := forward
  lock := .inl lock
  held _ := by
    refine ⟨submitted, fun u => ?_, step.callback, step.errors, scheduling, step.done,
      step.schedulerErrors, fun some u hu => ?_, fun _ u _ => step.status u⟩
    · by_cases here : u = t
      · subst here
        exact ⟨fun ha => absurd ha (step.submitted_ne created), fun ha => absurd ha created⟩
      · rw [step.other here]
    · by_cases here : u = t
      · subst here; exact opened some hu
      · unfold Mode.Open Open at hu ⊢
        rw [step.other here, step.callback]
        exact hu
  own u hu := by
    have other : u ≠ t := fun here => hu (here ▸ rfl)
    exact step.own (busy u other) fun here => absurd here other
  active u is := by cases is; exact active
  outside n is := by cases is
  shutdown _ := step.shutdown
  released _ mine _ := absurd mine free

/-- The pool starts a submitted call. -/
theorem moved_start (inv : Inv M s) (queued : s.stage t = .queued) (idle : t ∉ s.busy) :
    Moved M (.worker t) s { s.setStage t .running with busy := t :: s.busy } := by
  have step : Advance t .running s { s.setStage t .running with busy := t :: s.busy } :=
    ⟨rfl, by rw [queued]; decide, by rw [queued]; simp, rfl, rfl, rfl, rfl, rfl, rfl⟩
  have forward : Forward r s { s.setStage t .running with busy := t :: s.busy } := by
    refine step.forward (List.prefix_refl _) fun _ fixed => ?_
    rcases fixed with done | sink | ⟨absent, -⟩
    · rw [queued] at done; cases done
    · exact ⟨.inr (.inl sink), by rw [queued]; simp⟩
    · rw [queued] at absent; cases absent
  refine step.moved inv (fun mine => idle (inv.coherent.holder t mine)) forward (fun calm => ?_) rfl
    (by rw [queued]; simp) rfl rfl (fun u other => ?_) (fun u hu => List.mem_cons_of_mem t hu)
    (.inr queued) (le_refl 2) fun _ ho => ?_
  · exact step.core (inv.core calm) calm forward nofun
      (fun _ => .inl ((inv.core calm).queued t queued)) nofun fun p hp => .inl hp
  · exact ⟨fun hu => (List.mem_cons.mp hu).resolve_left other, List.mem_cons_of_mem t⟩
  · refine ⟨by rw [step.self]; simp, ?_⟩
    have := ho.2
    split at this <;> rename_i mode
    · rw [if_pos mode, step.self]; rfl
    · rw [if_neg mode]; exact this

/-- The call ends and its future is done. -/
theorem moved_finish (inv : Inv M s) (running : s.stage t = .running) (busy : t ∈ s.busy)
    (free : s.lock ≠ some (.worker t)) (e : Option Exc) (allowed : M.allow (.worker t) (.finish t e) s)
    (ended : r.cancels = [] → s.status t = ending r t ∧ (e = none ↔ ending r t = .succeeded)) :
    Moved M (.worker t) s (s.setStage t (.done e)) := by
  have step : Advance t (.done e) s (s.setStage t (.done e)) :=
    ⟨rfl, by rw [running]; exact Nat.lt_succ_self 2, by rw [running]; simp, rfl, rfl, rfl, rfl, rfl,
      rfl⟩
  have forward : Forward r s (s.setStage t (.done e)) := by
    refine step.forward (List.prefix_refl _) fun _ _ => ⟨.inl ?_, by rw [running]; simp⟩
    rw [step.self]; rfl
  refine step.moved inv free forward (fun calm => ?_) rfl (by rw [running]; simp) rfl rfl
    (fun _ _ => .rfl) (fun _ h => h) (.inl busy) (Nat.le_succ 2) fun some ho => ?_
  · refine step.core (inv.core calm) calm forward nofun nofun (fun e' he => ?_) fun p hp => .inl hp
    cases he
    exact ended calm
  · refine ⟨by rw [step.self]; simp, ?_⟩
    have := ho.2
    split at this <;> rename_i mode
    · exact absurd (M.finish mode allowed) some
    · rw [if_neg mode]; exact this

/-! ## The lock, the pool and the end of the run -/

/-- Steps that touch neither tasks nor futures, by a thread that does not hold the lock. -/
theorem moved_outer (inv : Inv M s) (free : s.lock ≠ some who) (same : SameTasks s s')
    (callback : s'.callback = s.callback) (errors : s'.errors = s.errors)
    (scheduling : s'.scheduling = s.scheduling) (done : s'.done = s.done)
    (schedulerErrors : s'.schedulerErrors = s.schedulerErrors) (world : s'.world = s.world)
    (shutdown : s'.shutdown = s.shutdown ∨
      who = .main ∧ s'.shutdown = true ∧ (r.cancels = [] → s.done = true))
    (lock : s'.lock = s.lock ∨ s.lock = none ∧ s'.lock = some who ∧ ∀ n, who ≠ .outside n)
    (busy : ∀ u, who ≠ .worker u → (u ∈ s'.busy ↔ u ∈ s.busy)) (fewer : ∀ u ∈ s'.busy, u ∈ s.busy)
    (holder : ∀ u, s'.lock = some (.worker u) → u ∈ s'.busy)
    (active : ∀ u, who = .worker u → u ∈ s.busy ∨ s.stage u = .queued)
    (notOutside : ∀ n, who ≠ .outside n) : Moved M who s s' := by
  have c := inv.coherent
  have forward : Forward r s s' := by
    refine same.forward (fun u hu => by rw [callback]; exact hu) (fun h => done.trans h) fun h => ?_
    rcases shutdown with same | ⟨-, set, -⟩
    · exact same.trans h
    · exact set
  refine ⟨⟨?_, fun calm => ?_, fun hc => schedulerErrors.trans (inv.clean hc)⟩, forward, ?_, ?_, ?_,
    active, fun n is => absurd is (notOutside n), fun other => ?_, fun _ mine _ => absurd mine free⟩
  -- coherence: of what it speaks of only the lock has changed
  · refine ⟨same.submitted ▸ c.nodup, ?_, ?_, ?_, ?_, ?_, fun hl => ?_, fun hl => ?_, holder,
      fun n hl => ?_, fun u hu => ?_⟩
    · rw [same.submitted, same.stage]; exact c.mem
    · rw [same.stage]; exact c.keys
    · rw [same.stage, callback]; exact c.absent
    · rw [same.stage, callback, errors]; exact c.invoked
    · rw [callback, errors]; exact c.errors
    · rcases lock with same | ⟨-, taken, -⟩
      · rw [scheduling]; exact c.idle (same.symm.trans hl)
      · rw [taken] at hl; cases hl
    · rcases lock with kept | ⟨-, taken, -⟩
      · rw [same.stage, callback]; exact c.hooked (kept.symm.trans hl)
      · rw [taken] at hl; cases hl
    · rcases lock with kept | ⟨-, taken, out⟩
      · exact c.inside n (kept.symm.trans hl)
      · rw [taken] at hl; exact out n (Option.some.inj hl)
    · rw [same.stage]; exact c.started u (fewer u hu)
  -- and of the core only the flag
  · have core := inv.core calm
    refine same.core calm forward core (fun h => ?_) fun hd none u hu pending => ?_
    · rw [done]
      rcases shutdown with kept | ⟨-, -, ends⟩
      · exact core.shutdown (kept.symm.trans h)
      · exact ends calm
    · rw [same.stage, same.status]
      exact core.finished (done.symm.trans hd) (schedulerErrors.symm.trans none) u hu pending
  · rcases lock with kept | ⟨none, taken, -⟩
    · exact .inl kept
    · exact .inr ⟨.inl none, .inr taken⟩
  · intro _
    refine ⟨same.submitted, fun u => by rw [same.stage], callback, errors, scheduling, done,
      schedulerErrors, fun _ u hu => ?_, fun _ u _ => same.status u⟩
    unfold Mode.Open Open at hu ⊢
    rw [same.stage, callback]
    exact hu
  · intro u hu
    refine ⟨busy u hu, fun h => by rw [same.stage]; exact h, fun h => by rw [same.stage]; exact h,
      fun _ h => by rw [callback]; exact h, fun _ _ => ?_⟩
    exact ⟨by rw [world], by rw [world]⟩
  · rcases shutdown with kept | ⟨main, -⟩
    · exact kept
    · exact absurd main other

/-- Taking the lock is a move that the others expect. -/
theorem moved_acquire (inv : Inv M s) (free : s.lock = none)
    (active : ∀ u, who = .worker u → u ∈ s.busy) (notOutside : ∀ n, who ≠ .outside n) :
    Moved M who s { s with lock := some who } :=
  moved_outer inv (by rw [free]; simp) ⟨rfl, fun _ => rfl, fun _ => rfl, rfl, rfl⟩ rfl rfl rfl rfl
    rfl rfl (.inl rfl) (.inr ⟨free, rfl, notOutside⟩) (fun _ _ => .rfl) (fun _ h => h)
    (fun u is => active u (Option.some.inj is)) (fun u is => .inl (active u is)) notOutside

/-- The main thread shuts the pool down, after `done` unless somebody cancels. -/
theorem moved_shutdown (inv : Inv M s) (free : s.lock ≠ some .main)
    (done : r.cancels = [] → s.done = true) : Moved M .main s { s with shutdown := true } :=
  moved_outer inv free ⟨rfl, fun _ => rfl, fun _ => rfl, rfl, rfl⟩ rfl rfl rfl rfl rfl rfl
    (.inr ⟨rfl, rfl, done⟩) (.inl rfl) (fun _ _ => .rfl) (fun _ h => h) inv.coherent.holder nofun
    nofun

/-- A worker that holds no lock leaves the pool. -/
theorem moved_leave (inv : Inv M s) (busy : t ∈ s.busy) (free : s.lock ≠ some (.worker t)) :
    Moved M (.worker t) s { s with busy := s.busy.filter (· ≠ t) } := by
  have kept : ∀ u, u ≠ t → (u ∈ s.busy.filter (· ≠ t) ↔ u ∈ s.busy) := fun u other => by
    simp [other]
  refine moved_outer inv free ⟨rfl, fun _ => rfl, fun _ => rfl, rfl, rfl⟩ rfl rfl rfl rfl rfl rfl
    (.inl rfl) (.inl rfl) (fun u other => kept u fun here => other (here ▸ rfl))
    (fun u hu => List.mem_of_mem_filter hu) (fun u hl => ?_)
    (fun u is => .inl (by cases is; exact busy)) nofun
  have other : u ≠ t := fun here => free (here ▸ hl)
  exact (kept u other).mpr (inv.coherent.holder u hl)

/-- Releasing the lock, once the callbacks are registered and no call of `schedule` is in progress.
-/
theorem moved_release (inv : Inv M s) (mine : s.lock = some who) (idle : s.scheduling = 0)
    (hooked : ∀ t, s.stage t ≠ .absent → s.callback t ≠ .unregistered)
    (left : who ≠ .main → Left { s with lock := none } ∧
      (M.unrefused → Quiescent r { s with lock := none })) :
    Moved M who s { s with lock := none } := by
  have c := inv.coherent
  have same : SameTasks s { s with lock := none } := ⟨rfl, fun _ => rfl, fun _ => rfl, rfl, rfl⟩
  have forward : Forward r s { s with lock := none } := same.forward (fun _ h => h) id id
  refine ⟨⟨⟨c.nodup, c.mem, c.keys, c.absent, c.invoked, c.errors, fun _ => idle, fun _ => hooked,
    nofun, nofun, c.started⟩, fun calm => ?_, inv.clean⟩, forward, .inr ⟨.inr mine, .inl rfl⟩,
    fun other => absurd mine other, fun u _ => ⟨.rfl, id, id, fun _ h => h, fun _ _ => ⟨rfl, rfl⟩⟩,
    fun u is => .inl (c.holder u (is ▸ mine)), fun n is => absurd (is ▸ mine) (c.inside n),
    fun _ => rfl, fun other _ _ => left other⟩
  have core := inv.core calm
  exact same.core calm forward core core.shutdown core.finished

end Steps

end TTasks.Scheduler
