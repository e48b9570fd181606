import TTasks.Laws.Scheduler.Decide
import Mathlib.Algebra.Order.BigOperators.Group.List
import Mathlib.Algebra.Order.Ring.Nat

/-!
# A call of `schedule`

What `schedule` comes to, for a thread that holds the lock. `budget` counts what the scheduler can
still do in this run, and falls with every submission and every mark, so no call uses up its fuel.
A call that returns leaves the run ended or a callback still to come (`Halted`); one that raises has
met a pool that is shut down, or a task that was cancelled under its hands (`Trouble`).
-/

namespace TTasks.Scheduler

open Interleave
open Prog (Contract)

section Schedule

variable {r : Run} {M : Mode r} {a b c : Shared} {t : TaskId} {who : Who} {j k n : Nat}

/-! ## How much is left to decide -/

/-- What the scheduler can still do about a task: submit it, and mark it BLOCKED. -/
def credit (s : Shared) (t : TaskId) : Nat :=
  (if s.stage t = .absent then 1 else 0) + if s.status t = .pending then 1 else 0

/-- What the scheduler can still do about all the tasks. -/
def budget (r : Run) (s : Shared) : Nat := (r.graph.keys.map (credit s)).sum

/-- No future goes away. -/
theorem Forward.absent (forward : Forward r a b) (absent : b.stage t = .absent) :
    a.stage t = .absent := by
  have le := forward.rank t
  rw [absent] at le
  exact Stage.rank_eq_zero.mp (Nat.le_zero.mp le)

/-- No step gives a task more to go. -/
theorem credit_le (forward : Forward r a b) (t : TaskId) : credit b t ≤ credit a t := by
  have stage := forward.absent (t := t)
  have pending := forward.pending t
  unfold credit
  split <;> split <;> split <;> split <;> simp_all

/-- No step gives the tasks more to go. -/
theorem budget_le (forward : Forward r a b) : budget r b ≤ budget r a :=
  List.sum_le_sum fun t _ => credit_le forward t

/-- A task that was submitted or marked is one step less to go. -/
theorem budget_lt (forward : Forward r a b) (key : t ∈ r.graph.keys)
    (spent : a.stage t = .absent ∧ b.stage t ≠ .absent ∨
      a.status t = .pending ∧ b.status t ≠ .pending) : budget r b < budget r a := by
  refine List.sum_lt_sum _ _ (fun u _ => credit_le forward u) ⟨t, key, ?_⟩
  have stage := forward.absent (t := t)
  have pending := forward.pending t
  unfold credit
  split <;> split <;> split <;> split <;> simp_all

/-- The fuel of the loop is enough for everything that there is to do. -/
theorem budget_lt_fuel (r : Run) (s : Shared) : budget r s < fuel r := by
  have bound : budget r s ≤ (r.graph.keys.map (credit s)).length • 2 := by
    refine List.sum_le_card_nsmul _ 2 fun n hn => ?_
    obtain ⟨t, -, rfl⟩ := List.mem_map.mp hn
    unfold credit
    split <;> split <;> omega
  rw [List.length_map] at bound
  exact Nat.lt_succ_of_le (bound.trans (le_of_eq (Nat.mul_comm _ 2)))

/-! ## What the thread's own steps come to -/

/-- What has happened between two points of a thread that holds the lock. -/
structure Went (M : Mode r) (who : Who) (k : Nat) (s s' : Shared) : Prop where
  inside : Inside M who k s'
  forward : Forward r s s'
  shutdown : who = .main → s'.shutdown = s.shutdown

/-- Nothing has happened yet. -/
theorem Went.refl (inside : Inside M who k a) : Went M who k a a := ⟨inside, .refl r a, fun _ => rfl⟩

/-- The moves of the others, seen from under the lock. -/
theorem Went.of_env (inside : Inside M who k a) (env : Env M who a b) : Went M who k a b :=
  ⟨inside.env env, env.forward, fun is => (env.main is).shutdown⟩

/-- One stretch after the other; the count of calls is the later one's. -/
theorem Went.trans (h : Went M who j a b) (h' : Went M who k b c) : Went M who k a c :=
  ⟨h'.inside, h.forward.trans h'.forward, fun is => (h'.shutdown is).trans (h.shutdown is)⟩

/-- Why a call of `schedule` may raise: the pool is shut down, or a task was cancelled between the
test and the mark; and what lets the run go on all the same. -/
structure Trouble (M : Mode r) (who : Who) (k : Nat) (s : Shared) : Prop where
  calm : r.cancels = [] → s.shutdown = true ∧ ¬ M.unrefused
  left : s.done = true ∨ s.shutdown = true ∨ (∃ u, Outstanding s u) ∨ 2 ≤ k ∨ who = .main

/-! ## `mark_blocked` -/

/-- The contract of an executor method that the thread calls under the lock, on a task that is not
submitted. -/
def underLock (M : Mode r) (who : Who) (k : Nat) (t : TaskId) : Contract TaskOp Shared where
  rely s s' := (Inside M who k s ∧ s.stage t = .absent) ∧ Env M who s s'
  ready o s := Ready r who (.task o) s
  allow o s := M.allow who (.task o) s
  guar o s := Moved M who s (SchedOp.perform r who (.task o) s).2

/-- An executor method on a task that is not submitted, as a program of the scheduler under the
lock. -/
theorem wp_underLock {α : Type} {p : Exec α} {Q : Except Exc α → Shared → Prop}
    (inside : Inside M who k a) (absent : a.stage t = .absent)
    (h : p.wp (fun o => SchedOp.perform r who (.task o)) (underLock M who k t) Q a) :
    (liftTask p).wp (SchedOp.perform r who) (contract M who) Q a := by
  have both : Inside M who k a ∧ a.stage t = .absent := ⟨inside, absent⟩
  refine Prog.wp_lift id (fun s => Inside M who k s ∧ s.stage t = .absent) ?_ ?_ ?_ ?_ ?_ ?_ both h
    fun _ _ _ => id
  · exact fun h env => ⟨⟨h.1.env env, ((h.1.held env).absent t).mpr h.2⟩, h, env⟩
  · exact fun _ allowed => allowed.2
  · exact fun _ ready => ready
  · exact fun h _ moved =>
      ⟨moved, ⟨⟨moved.inv, h.1.mine, h.1.scheduling⟩, h.1.hooked⟩, h.2⟩
  · exact fun _ _ => rfl
  · exact fun _ _ => rfl

/-- Between two operations on the task, and in those that do not mark it. -/
structure Aside (M : Mode r) (who : Who) (k : Nat) (t : TaskId) (s s' : Shared) : Prop where
  went : Went M who k s s'
  absent : s'.stage t = .absent
  status : r.cancels = [] → s'.status t = s.status t

/-- Nothing has happened yet. -/
theorem Aside.refl (inside : Inside M who k a) (absent : a.stage t = .absent) :
    Aside M who k t a a := ⟨.refl inside, absent, fun _ => rfl⟩

/-- One stretch after the other. -/
theorem Aside.trans (h : Aside M who k t a b) (h' : Aside M who k t b c) : Aside M who k t a c :=
  ⟨h.went.trans h'.went, h'.absent, fun calm => (h'.status calm).trans (h.status calm)⟩

/-- The moves of the others leave a task that is not submitted. -/
theorem Aside.of_env (inside : Inside M who k a) (absent : a.stage t = .absent)
    (env : Env M who a b) : Aside M who k t a b :=
  ⟨.of_env inside env, ((inside.held env).absent t).mpr absent,
    fun calm => (inside.held env).status calm t absent⟩

/-- What `_persist` and `_emit` do to the task is of no consequence. -/
theorem underLock_skips (M : Mode r) (who : Who) (k : Nat) (t : TaskId) :
    Skips r.executor t Shared.world (fun o => SchedOp.perform r who (.task o))
      (underLock M who k t) (Harmless t)
      (fun s s' => Inside M who k s → s.stage t = .absent → Aside M who k t s s') where
  answer _ _ := rfl
  trans h h' inside absent := by
    have first := h inside absent
    exact first.trans (h' first.went.inside first.absent)
  rely := fun ⟨_, env⟩ inside absent => .of_env inside absent env
  ready := fun _ ⟨⟨inside, _⟩, env⟩ => (inside.env env).ready trivial rfl
  step {o a b} harmless := fun ⟨⟨inside, absent⟩, env⟩ => by
    have absent := ((inside.held env).absent t).mpr absent
    have inside := inside.env env
    have moved : Moved M who b (SchedOp.perform r who (.task o) b).2 := by
      refine moved_harmless inside.inv inside.active harmless.2.1 harmless.2.2 (.inr ?_)
      rw [harmless.1, absent]
      simp
    have status := TaskOp.perform_status r.executor harmless.2.1 b.world t
    exact ⟨moved, fun _ _ => ⟨⟨⟨⟨moved.inv, inside.mine, inside.scheduling⟩, inside.hooked⟩,
      moved.forward, fun _ => rfl⟩, absent, fun _ => status⟩, status⟩
  read := harmless rfl rfl
  save := harmless rfl rfl
  record _ := harmless rfl rfl
  failed _ _ := harmless rfl rfl

/-- `mark_blocked`, called by the scheduler, marks its task or raises. -/
theorem wp_markBlocked (key : t ∈ r.graph.keys) (inside : Inside M who k a)
    (absent : a.stage t = .absent) (parent : Option TaskId)
    (grounds : r.cancels = [] → a.status t = .pending ∧ r.graph.isFinally t = false ∧
      ∃ d ∈ r.graph.deps t, Hopeless r a d) :
    (liftTask (markBlocked r.executor t parent)).wp (SchedOp.perform r who) (contract M who)
      (fun res b => Went M who k a b ∧ match res with
        | .ok _ => budget r b < budget r a
        | .error _ => Trouble M who k b) a := by
  have S := underLock_skips M who k t
  refine wp_underLock inside absent ?_
  simp only [markBlocked, Prog.bind_eq, Prog.wp_bind]
  -- the first operation reads the status, which is an event's field and decides nothing
  refine S.wp_readStatus fun b skipped => ?_
  have before := skipped inside absent
  simp only [transitionTo, Prog.onOk, Prog.bind_eq, Prog.wp_bind]
  rintro c ⟨-, env⟩
  have before := before.trans (.of_env before.went.inside before.absent env)
  have inside := before.went.inside
  refine ⟨inside.ready trivial rfl, fun allowed => ?_⟩
  cases moves : (c.status t).canTransitionTo .blocked with
  -- the transition goes through: the task was PENDING, and its mark uses up a unit of the budget
  | true =>
    have pending : c.status t = .pending := by
      cases h : c.status t <;> rw [h] at moves <;> first | rfl | exact absurd moves (by decide)
    have moved := moved_mark inside.inv inside.mine before.absent none fun calm => by
      obtain ⟨-, normal, d, hd, hopeless⟩ := grounds calm
      exact ⟨pending, normal, d, hd, hopeless.forward calm before.went.forward⟩
    have answer : (SchedOp.perform r who (.task (.transition t .blocked none)) c).1 = .ok () :=
      congrArg Prod.fst (TaskOp.perform_moved r.executor moves none)
    have blocked : (SchedOp.perform r who (.task (.transition t .blocked none)) c).2.status t =
        .blocked := by
      show World.status ((TaskOp.transition t .blocked none).perform r.executor c.world).2 t = _
      rw [TaskOp.perform_moved r.executor moves none, moved_status, if_pos rfl]
    have marked : Went M who k c
        (SchedOp.perform r who (.task (.transition t .blocked none)) c).2 :=
      ⟨⟨⟨moved.inv, inside.mine, inside.scheduling⟩, inside.hooked⟩, moved.forward, fun _ => rfl⟩
    refine ⟨moved, ?_⟩
    show Prog.wp _ _ (orRaise (SchedOp.perform r who (.task (.transition t .blocked none)) c).1) _ _
    rw [answer]
    refine S.wp_quiet (o := .setBlockedBy t parent) (harmless rfl rfl) fun d _ skipped _ => ?_
    refine S.wp_emit (fun _ => harmless rfl rfl) (fun e skipped' => ?_) .refl
    have after := skipped marked.inside before.absent
    have after := (after.trans (skipped' after.went.inside after.absent)).went
    refine ⟨before.went.trans (marked.trans after), ?_⟩
    calc budget r e ≤ _ := budget_le after.forward
      _ < budget r c := budget_lt moved.forward key (.inr ⟨pending, fun h => by
        rw [blocked] at h; cases h⟩)
      _ ≤ budget r a := budget_le before.went.forward
  -- it is refused: somebody has cancelled the task since the decision
  | false =>
    obtain ⟨m, refused⟩ := TaskOp.perform_refused r.executor moves none
    have same : SchedOp.perform r who (.task (.transition t .blocked none)) c =
        (.error (.valueError m), c) := by
      show (_, { c with world := _ }) = _
      rw [refused]
    have other : c.status t ≠ .pending := fun pending => by rw [pending] at moves; cases moves
    have stirred : r.cancels ≠ [] := fun calm => other ((before.status calm).trans (grounds calm).1)
    refine ⟨?_, ?_⟩
    · show Moved M who c (SchedOp.perform r who (.task (.transition t .blocked none)) c).2
      rw [same]
      exact .read inside.inv inside.active
    · show Prog.wp _ _ (orRaise (SchedOp.perform r who (.task (.transition t .blocked none)) c).1) _
        (SchedOp.perform r who (.task (.transition t .blocked none)) c).2
      rw [same]
      refine ⟨before.went, fun calm => absurd calm stirred, ?_⟩
      have left := (M.marks stirred allowed).resolve_left other
      rw [inside.scheduling] at left
      exact left

/-! ## `submit` -/

/-- One operation under the lock. -/
theorem wp_holding {o : SchedOp} (plain : Plain o) (holds : Holds M who k a)
    {Q : Except Exc o.Ans → Shared → Prop}
    (next : ∀ b, Holds M who k b → Env M who a b → o.enabled r b = true ∧ (M.allow who o b →
      Moved M who b (SchedOp.perform r who o b).2 ∧
        Q (.ok (SchedOp.perform r who o b).1) (SchedOp.perform r who o b).2)) :
    (once o).wp (SchedOp.perform r who) (contract M who) Q a := by
  intro b env
  have holds := holds.env env
  obtain ⟨enabled, step⟩ := next b holds env
  exact ⟨holds.ready plain enabled, fun allowed => step allowed.2⟩

/-- What a call of `schedule` inside another one comes to, where there is fuel for it. -/
def Nested (M : Mode r) (who : Who) (k n : Nat) (schedule : Sched Unit) : Prop :=
  ∀ s, Inside M who k s → budget r s < n →
    schedule.wp (SchedOp.perform r who) (contract M who) (fun _ s' => Went M who k s s') s

/-- The callback of a future that is done. -/
theorem wp_recordException (holds : Holds M who k a) (created : a.stage t ≠ .absent)
    (done : (a.stage t).isDone = true)
    (hooked : ∀ u, u ≠ t → a.stage u ≠ .absent → a.callback u ≠ .unregistered)
    {Q : Except Exc Unit → Shared → Prop}
    (next : ∀ b, Went M who k a b → b.callback t = .invoked → Q (.ok ()) b) :
    (once (.recordException t)).wp (SchedOp.perform r who) (contract M who) Q a := by
  refine wp_holding (o := .recordException t) trivial holds fun b holds' env => ?_
  have done' := env.forward.isDone done
  refine ⟨done', fun _ => ?_⟩
  obtain ⟨e, he⟩ := Stage.isDone_iff.mp done'
  have same : SchedOp.perform r who (.recordException t) b =
      ((), { b.setCallback t .invoked with errors := Function.update b.errors t e }) := by
    simp only [SchedOp.perform, he]
  rw [same]
  have moved : Moved M who b
      { b.setCallback t .invoked with errors := Function.update b.errors t e } := by
    refine moved_callback holds'.inv holds'.mine (by rw [he]; simp)
      (fun u other => Function.update_of_ne other ..) (.inr ⟨rfl, e, he, Function.update_self ..⟩)
  refine ⟨moved, next _ ⟨⟨⟨moved.inv, holds'.mine, holds'.scheduling⟩, fun u hu => ?_⟩,
    env.forward.trans moved.forward, fun is => (env.main is).shutdown⟩ (Function.update_self ..)⟩
  show Function.update b.callback t .invoked u ≠ .unregistered
  by_cases here : u = t
  · subst here
    rw [Function.update_self]
    simp
  · rw [Function.update_of_ne here, (holds.held env).callback]
    exact hooked u here fun absent => hu (((holds.held env).absent u).mpr absent)

/-- The future that was just created gets its callback, which is called here and now where the
future is already done. -/
theorem wp_hook {schedule : Sched Unit} (nested : Nested M who k n schedule)
    (holds : Holds M who k a) (fuel : budget r a < n) (created : a.stage t ≠ .absent)
    (unhooked : a.callback t = .unregistered)
    (hooked : ∀ u, u ≠ t → a.stage u ≠ .absent → a.callback u ≠ .unregistered) :
    ((once (.addDoneCallback t)).bind fun done =>
      if done then (onFinish schedule t).swallow else .ret ()).wp (SchedOp.perform r who)
      (contract M who) (Prog.Returns fun _ b => Went M who k a b) a := by
  rw [Prog.wp_bind]
  refine wp_holding (o := .addDoneCallback t) trivial holds fun b holds' env => ⟨rfl, fun _ => ?_⟩
  have held := holds.held env
  have createdb : b.stage t ≠ .absent := fun absent => created ((held.absent t).mp absent)
  have hookedb : ∀ u, u ≠ t → b.stage u ≠ .absent → b.callback u ≠ .unregistered := by
    intro u other hu
    rw [held.callback]
    exact hooked u other fun absent => hu ((held.absent u).mpr absent)
  cases done : (b.stage t).isDone with
  -- the future is done already, and `add_done_callback` runs the callback, which calls `schedule`
  -- again
  | true =>
    have same : SchedOp.perform r who (.addDoneCallback t) b = (true, b) := by
      simp only [SchedOp.perform, done, if_true]
    rw [same]
    refine ⟨.read holds'.inv holds'.active, Prog.wp_swallow ?_⟩
    rw [onFinish, Prog.bind_eq, Prog.wp_bind]
    refine wp_recordException holds' createdb done hookedb fun c went _ => ?_
    have first : Went M who k a c := ⟨went.inside, env.forward.trans went.forward,
      fun is => (went.shutdown is).trans (env.main is).shutdown⟩
    refine Prog.wp_mono (nested c went.inside (lt_of_le_of_lt (budget_le first.forward) fuel))
      fun _ d went => first.trans went
  -- the callback is left to the worker
  | false =>
    have same : SchedOp.perform r who (.addDoneCallback t) b = (false, b.setCallback t .registered) := by
      simp only [SchedOp.perform, done, Bool.false_eq_true, if_false]
    rw [same]
    have moved : Moved M who b (b.setCallback t .registered) :=
      moved_callback holds'.inv holds'.mine createdb (fun _ _ => rfl) (.inl ⟨rfl,
        (congrFun held.callback t).trans unhooked, done, holds'.inv.coherent.errors t (by
          rw [held.callback, unhooked]; simp)⟩)
    refine ⟨moved, ⟨⟨⟨moved.inv, holds'.mine, holds'.scheduling⟩, fun u hu => ?_⟩,
      env.forward.trans moved.forward, fun is => (env.main is).shutdown⟩⟩
    show Function.update b.callback t .registered u ≠ .unregistered
    by_cases here : u = t
    · subst here
      rw [Function.update_self]
      simp
    · rw [Function.update_of_ne here]
      exact hookedb u here hu

/-- `submit` creates the future, or raises because the pool is shut down. -/
theorem wp_submit {schedule : Sched Unit} (nested : Nested M who k n schedule)
    (key : t ∈ r.graph.keys) (inside : Inside M who k a) (fuel : budget r a ≤ n)
    (absent : a.stage t = .absent) (grounds : r.cancels = [] → a.status t = entered r t ∧
      (entered r t).canTransitionTo .running = true ∧ Guard r a t) :
    (submit r schedule t).wp (SchedOp.perform r who) (contract M who)
      (fun res b => Went M who k a b ∧ match res with
        | .ok _ => budget r b < budget r a
        | .error _ => Trouble M who k b) a := by
  rw [submit, Prog.bind_eq, Prog.wp_bind]
  refine wp_holding (o := .poolSubmit t (r.graph.deps t)) trivial inside.toHolds
    fun b holds env => ⟨rfl, fun allowed => ?_⟩
  have went := Went.of_env inside env
  have absentb := ((inside.held env).absent t).mpr absent
  cases closed : b.shutdown with
  -- the pool refuses, and nothing has happened
  | true =>
    have same : SchedOp.perform r who (.poolSubmit t (r.graph.deps t)) b =
        (.error (.runtimeError "cannot schedule new futures after shutdown"), b) := by
      simp only [SchedOp.perform, closed, if_pos]
    rw [same]
    refine ⟨.read holds.inv holds.active, went, fun _ => ⟨closed, fun unrefused => ?_⟩,
      .inr (.inl closed)⟩
    have := (M.submits unrefused).2.2 allowed
    rw [closed] at this
    cases this
  -- the future is created, and its callback is added before anything else is looked at
  | false =>
    have same : SchedOp.perform r who (.poolSubmit t (r.graph.deps t)) b =
        (.ok (), { b.setStage t .queued with
          submitted := b.submitted ++ [(t, r.graph.deps t)] }) := by
      simp only [SchedOp.perform, closed, Bool.false_eq_true, if_false]
    rw [same]
    have moved := moved_poolSubmit holds.inv holds.mine absentb key fun calm => by
      obtain ⟨status, startable, guard⟩ := grounds calm
      exact ⟨((inside.held env).status calm t absent).trans status, startable,
        guard.forward calm env.forward⟩
    refine ⟨moved, ?_⟩
    have lower : budget r { b.setStage t .queued with
        submitted := b.submitted ++ [(t, r.graph.deps t)] } < budget r a := by
      refine lt_of_lt_of_le (budget_lt moved.forward key (.inl ⟨absentb, ?_⟩))
        (budget_le env.forward)
      show Function.update b.stage t .queued t ≠ .absent
      rw [Function.update_self]
      simp
    refine Prog.wp_mono (wp_hook nested ⟨moved.inv, holds.mine, holds.scheduling⟩
      (lt_of_lt_of_le lower fuel) ?_ ?_ fun u other hu => ?_) fun res c hooked => ?_
    · show Function.update b.stage t .queued t ≠ .absent
      rw [Function.update_self]
      simp
    · exact holds.inv.coherent.absent t absentb
    · have same : Function.update b.stage t Stage.queued u = b.stage u :=
        Function.update_of_ne other ..
      exact (inside.env env).hooked u fun ha => hu (same.trans ha)
    · cases res with
      | error e => exact hooked.elim
      | ok _ =>
        exact ⟨⟨hooked.inside, (env.forward.trans moved.forward).trans hooked.forward,
          fun is => (hooked.shutdown is).trans (went.shutdown is)⟩,
          lt_of_le_of_lt (budget_le hooked.forward) lower⟩

/-! ## The `for` loop -/

/-- Acting on a decision uses up some of the budget, unless the decision is to do nothing. -/
theorem wp_act {schedule : Sched Unit} (nested : Nested M who k n schedule)
    (key : t ∈ r.graph.keys) (inside : Inside M who k a) (fuel : budget r a ≤ n)
    {decision : Decision} (decided : Decided M t decision a) :
    (act r schedule t decision).wp (SchedOp.perform r who) (contract M who)
      (fun res b => Went M who k a b ∧ match res with
        | .ok acted => if acted then budget r b < budget r a else decision = .skip ∧ b = a
        | .error _ => Trouble M who k b) a := by
  cases decision with
  | skip => exact ⟨.refl inside, rfl, rfl⟩
  | block bad =>
    rw [act, Prog.bind_eq, Prog.wp_bind]
    refine Prog.wp_mono (wp_markBlocked key inside (decided.absent (by simp)) (some bad)
      fun calm => ?_) fun res b ⟨went, marked⟩ => ?_
    · obtain ⟨pending, normal, mem, hopeless⟩ := (decided.grounds calm).block bad rfl
      exact ⟨pending, normal, bad, mem, hopeless⟩
    cases res with
    | error e => exact ⟨went, marked⟩
    | ok _ => exact ⟨went, marked⟩
  | submit =>
    rw [act, Prog.bind_eq, Prog.wp_bind]
    refine Prog.wp_mono (wp_submit nested key inside fuel (decided.absent (by simp))
      fun calm => (decided.grounds calm).submit rfl) fun res b ⟨went, submitted⟩ => ?_
    cases res with
    | error e => exact ⟨went, submitted⟩
    | ok _ => exact ⟨went, submitted⟩

/-- A round of the `for` loop lowers the budget, or finds nothing to do. -/
theorem wp_pass {schedule : Sched Unit} (nested : Nested M who (k + 1) n schedule) :
    ∀ (ts : List TaskId) (changed : Bool) {a : Shared}, (∀ t ∈ ts, t ∈ r.graph.keys) →
      Inside M who (k + 1) a → budget r a ≤ n → (changed = true → budget r a < n) →
      (r.cancels = [] → changed = true ∨ (∃ u, M.Open a u) ∨
        ∀ t ∈ r.graph.keys, t ∈ ts ∨ decisionAt r a t = .skip) →
      (pass r schedule changed ts).wp (SchedOp.perform r who) (contract M who)
        (fun res b => Went M who (k + 1) a b ∧ match res with
          | .ok changed => if changed then budget r b < n
            else r.cancels = [] → (∃ u, M.Open b u) ∨ AllSkip r b
          | .error _ => Trouble M who (k + 1) b) a
  -- the list has been walked: unless something was done, every decision was to do nothing
  | [], changed, a, _, inside, _, lower, visited => by
    refine ⟨.refl inside, ?_⟩
    cases changed with
    | true => exact lower rfl
    | false =>
      refine fun calm => ((visited calm).resolve_left (by simp)).imp_right fun skip t ht => ?_
      exact (skip t ht).resolve_left (by simp)
  | t :: ts, changed, a, keys, inside, fuel, lower, visited => by
    rw [pass, Prog.bind_eq]
    refine Prog.wp_bind_returns (wp_decide inside.toHolds) ?_
    rintro decision b ⟨-, env, decided⟩
    have insideb := inside.env env
    have fuelb := (budget_le env.forward).trans fuel
    rw [Prog.bind_eq, Prog.wp_bind]
    refine Prog.wp_mono (wp_act nested (keys t List.mem_cons_self) insideb fuelb decided)
      fun res c ⟨went, acted⟩ => ?_
    have first := (Went.of_env inside env).trans went
    cases res with
    | error e => exact ⟨first, acted⟩
    | ok now =>
      refine Prog.wp_mono (wp_pass nested ts (changed || now)
        (fun u hu => keys u (List.mem_cons_of_mem t hu)) went.inside
        ((budget_le went.forward).trans fuelb) (fun is => ?_) fun calm => ?_)
        fun res d ⟨went', rest⟩ => ⟨first.trans went', rest⟩
      -- the budget: it has gone down now, or had before
      · cases now with
        | true => exact lt_of_lt_of_le acted fuelb
        | false =>
          rw [Bool.or_false] at is
          exact lt_of_le_of_lt (budget_le first.forward) (lower is)
      -- the decisions: those taken before still stand, unless something is open
      · cases now with
        | true => exact .inl (by simp)
        | false =>
          obtain ⟨rfl, rfl⟩ := acted
          rw [Bool.or_false]
          refine (visited calm).imp_right fun before => ?_
          rcases inside.toHolds.still calm env with opened | still
          · exact .inl opened
          rcases before with opened | before
          · exact .inl (inside.openStays env opened)
          rcases decided.exact calm with opened | skip
          · exact .inl opened
          refine .inr fun u hu => ?_
          rcases before u hu with here | before
          · rcases List.mem_cons.mp here with rfl | here
            · exact .inr skip.symm
            · exact .inl here
          · exact .inr ((still.decisionAt u).trans before)

/-! ## The end of `schedule` -/

/-- A task that entered PENDING has been submitted or marked. -/
def Dealt (r : Run) (s : Shared) (t : TaskId) : Prop :=
  entered r t = .pending → s.stage t ≠ .absent ∨ s.status t = .blocked

/-- There is a callback still to come, or nothing to do. -/
def Quiet (M : Mode r) (s : Shared) : Prop := M.unrefused → (∃ t, Outstanding s t) ∨ AllSkip r s

/-- How a call of `schedule` leaves the run that returns. -/
structure Halted (M : Mode r) (s : Shared) : Prop where
  left : s.done = true ∨ ∃ t, Outstanding s t
  quiet : Quiet M s

/-- The moves of the others leave things quiet. -/
theorem Quiet.env (inside : Inside M who k a) (env : Env M who a b) (quiet : Quiet M a) :
    Quiet M b := fun unrefused =>
  (inside.held env).quiet env.forward (M.submits unrefused).1 inside.inv.coherent (quiet unrefused)

/-- A positive `finished` stands: the task has been dealt with. -/
theorem wp_finished (calm : r.cancels = []) (holds : Holds M who k a) :
    (finished t).wp (SchedOp.perform r who) (contract M who)
      (Seen M who k a fun x b => x = true → Dealt r b t) a := by
  refine wp_seen_bind (wp_look (o := .terminal t) trivial holds) fun terminal b hb _ ht => ?_
  cases terminal with
  | true =>
    have ht : true = (b.status t).isTerminal := ht
    refine wp_seen_ret hb fun _ pending => ?_
    by_cases absent : b.stage t = .absent
    · rcases (hb.inv.core calm).absent t absent with same | marked
      · rw [same, pending] at ht
        cases ht
      · exact .inr marked.blocked
    · exact .inl absent
  | false =>
    refine wp_seen_bind (wp_look (o := .inFutures t) trivial hb) fun known c hc _ hk => ?_
    cases known with
    | false => exact wp_seen_ret hc nofun
    | true =>
      have submitted : c.stage t ≠ .absent := by simpa [SchedOp.perform] using hk.symm
      refine Prog.wp_mono (wp_look (o := .futureDone t) trivial hc) fun res d seen =>
        seen.mono fun _ _ env _ _ _ => ?_
      exact .inl fun absent => submitted (((hc.held env).absent t).mp absent)

/-- The test for the end of the run. -/
theorem wp_allFinished (holds : Holds M who (k + 1) a) :
    (Prog.all finished r.graph.keys).wp (SchedOp.perform r who) (contract M who)
      (Seen M who (k + 1) a fun x b => r.cancels = [] →
        (x = true → ∀ t ∈ r.graph.keys, Dealt r b t) ∧
        ((∃ u, M.Open b u) ∨ x = r.graph.keys.all (finishedAt b))) a := by
  have only : (Prog.all finished r.graph.keys).Only Looks :=
    .all (fun t => only_finished trivial trivial trivial) _
  by_cases calm : r.cancels = []
  · refine Prog.wp_mono (Prog.wp_both (wp_seen_all (P := fun t s => Dealt r s t)
      (fun t a holds => wp_finished calm holds) (fun t a b holds env dealt pending => ?_) _
      holds) (wp_exact only (fun s => .all (answers_finished r s who) _) calm holds))
      fun res b ⟨dealt, same⟩ => ?_
    · by_cases absent : a.stage t = .absent
      · exact .inr (((holds.held env).status calm t absent).trans
          ((dealt pending).resolve_left (not_not_intro absent)))
      · exact .inl fun h => absent (((holds.held env).absent t).mp h)
    · cases res with
      | error e => exact dealt
      | ok x => exact ⟨dealt.1, dealt.2.1, fun _ => ⟨dealt.2.2, same.2.2⟩⟩
  · exact Prog.wp_mono (wp_reads (fun _ h => h.reads) only holds) fun res b seen =>
      seen.mono fun _ _ _ _ h => absurd h calm

/-- The test for live work: it finds a callback that is still to come, or, where the discipline
keeps the branch clean, none is. -/
theorem wp_live : ∀ (vs : List TaskId) {a : Shared}, Holds M who (k + 1) a →
    (∀ v ∈ vs, a.stage v ≠ .absent) →
    (∀ u, a.stage u ≠ .absent → u ∈ vs ∨ (a.stage u).isDone = true) →
    (vs = [] → M.clean → ∀ u, ¬ M.Open a u) →
    (Prog.any (fun t => once (.live t)) vs).wp (SchedOp.perform r who) (contract M who)
      (Seen M who (k + 1) a fun x b =>
        if x then ∃ u, Outstanding b u else M.clean → ∀ u, ¬ M.Open b u) a
  | [], _, holds, _, _, halted => wp_seen_ret holds (halted rfl)
  | v :: vs, a, holds, created, rest, _ => by
    refine (reading M who (k + 1)).wp_act (o := .live v) trivial holds fun b hb env allowed => ?_
    have held := holds.held env
    have createdb : ∀ u, a.stage u ≠ .absent → b.stage u ≠ .absent :=
      fun u hu absent => hu ((held.absent u).mp absent)
    cases done : (b.stage v).isDone with
    -- `any` stops at the first future that is not done: its callback is still to come
    | false =>
      show Prog.wp _ _ (if (!(b.stage v).isDone) = true then Prog.ret true else _) _ _
      rw [done]
      refine ⟨hb, env, v, createdb v (created v List.mem_cons_self), fun invoked => ?_⟩
      obtain ⟨e, he, -⟩ := hb.inv.coherent.invoked v invoked
      rw [he] at done
      cases done
    -- a done future is passed over, and whatever is not done is further on in the list
    | true =>
      show Prog.wp _ _ (if (!(b.stage v).isDone) = true then Prog.ret true else _) _ _
      rw [done]
      have restb : ∀ u, b.stage u ≠ .absent → u ∈ vs ∨ (b.stage u).isDone = true := by
        intro u hu
        rcases rest u fun absent => hu ((held.absent u).mpr absent) with here | halted
        · rcases List.mem_cons.mp here with rfl | here
          · exact .inr done
          · exact .inl here
        · exact .inr (env.forward.isDone halted)
      refine Prog.wp_mono (wp_live vs hb (fun u hu => createdb u (created u
        (List.mem_cons_of_mem v hu))) restb fun last clean u => ?_) fun res c seen => ?_
      · have halted : ∀ u, b.stage u ≠ .absent → (b.stage u).isDone = true := fun u hu =>
          (restb u hu).resolve_left (by rw [last]; simp)
        cases restricted : M.restricted with
        | true =>
          intro opened
          have undone := opened.2
          rw [if_pos restricted, halted u opened.1] at undone
          cases undone
        | false =>
          rcases M.live clean restricted allowed.2 with ⟨w, hw, undone⟩ | none
          · rw [halted w hw] at undone
            cases undone
          · exact fun opened => none u ((Mode.open_iff restricted).mp opened)
      · cases res with
        | error e => exact seen
        | ok x => exact ⟨seen.1, env.trans seen.2.1, seen.2.2⟩

/-- Listing the stuck tasks only reads. -/
theorem only_stuck : ∀ ts : List TaskId, (stuck ts).Only Reads
  | [] => trivial
  | t :: ts => by
    refine (only_finished trivial trivial trivial).bind fun halted => ?_
    cases halted with
    | true => exact only_stuck ts
    | false => exact (only_once trivial).bind fun _ => (only_stuck ts).bind fun _ => trivial

/-- `done.set()` under the lock, once all the tasks have been dealt with. -/
theorem wp_setDone (inside : Inside M who k a) (quiet : Quiet M a)
    (finished : r.cancels = [] → a.schedulerErrors = [] → ∀ t ∈ r.graph.keys, Dealt r a t) :
    (once .setDone).wp (SchedOp.perform r who) (contract M who)
      (Prog.Returns fun _ b => Went M who k a b ∧ Halted M b) a := by
  refine wp_holding (o := .setDone) trivial inside.toHolds fun b holds env => ⟨rfl, fun _ => ?_⟩
  have held := inside.held env
  have moved : Moved M who b { b with done := true } := by
    refine moved_setDone holds.inv holds.mine fun calm none t ht pending => ?_
    by_cases absent : a.stage t = .absent
    · exact .inr ((held.status calm t absent).trans ((finished calm
        (held.schedulerErrors.symm.trans none) t ht pending).resolve_left (not_not_intro absent)))
    · exact .inl fun h => absent ((held.absent t).mp h)
  refine ⟨moved, ⟨⟨⟨moved.inv, holds.mine, holds.scheduling⟩, (inside.env env).hooked⟩,
    env.forward.trans moved.forward, fun is => (env.main is).shutdown⟩, .inl rfl, fun unrefused => ?_⟩
  exact (quiet.env inside env unrefused).imp_right
    (Still.allSkip ⟨rfl, fun _ => rfl, rfl⟩)

/-- What follows the `while` loop. -/
theorem wp_close (inside : Inside M who (k + 1) a)
    (settled : r.cancels = [] → (∃ u, M.Open a u) ∨ AllSkip r a) :
    (close r).wp (SchedOp.perform r who) (contract M who)
      (Prog.Returns fun _ b => Went M who (k + 1) a b ∧ Halted M b) a := by
  have quiet : Quiet M a := fun unrefused => by
    obtain ⟨calm, unrestricted, -⟩ := M.submits unrefused
    exact (settled calm).imp_left fun ⟨u, hu⟩ => ⟨u, (Mode.open_iff unrestricted).mp hu⟩
  rw [close, Prog.bind_eq]
  refine Prog.wp_bind_returns (wp_allFinished inside.toHolds) ?_
  rintro halted b ⟨-, envb, tested⟩
  have insideb := inside.env envb
  have quietb := quiet.env inside envb
  cases halted with
  -- all is finished: `done` is set
  | true =>
    refine Prog.wp_mono (wp_setDone insideb quietb fun calm _ => (tested calm).1 rfl)
      fun res c returns => ?_
    cases res with
    | error e => exact returns
    | ok _ => exact ⟨(Went.of_env inside envb).trans returns.1, returns.2⟩
  -- `finished` has failed somewhere, and the futures are looked at
  | false =>
    rw [if_neg (by simp), Prog.bind_eq]
    refine Prog.wp_bind_returns (wp_look (o := .futures) trivial insideb.toHolds)
      fun futures c ⟨_, envc, known⟩ => ?_
    have insidec := insideb.env envc
    have quietc := quietb.env insideb envc
    have mem : ∀ u, u ∈ futures ↔ c.stage u ≠ .absent := by
      rw [known]
      exact insidec.inv.coherent.mem
    rw [Prog.bind_eq]
    refine Prog.wp_bind_returns (wp_live futures insidec.toHolds (fun u hu => (mem u).mp hu)
      (fun u hu => .inl ((mem u).mpr hu)) fun none _ u opened => ?_)
      fun live d ⟨_, envd, found⟩ => ?_
    · have := (mem u).mpr opened.1
      rw [none] at this
      cases this
    have insided := insidec.env envd
    have env := (envb.trans envc).trans envd
    cases live with
    | true => exact ⟨.of_env inside env, .inr found, quietc.env insidec envd⟩
    -- no future is live either: the no-progress branch, which a clean mode rules out
    | false =>
      rw [if_neg (by simp), Prog.bind_eq]
      refine Prog.wp_bind_returns (wp_reads (fun _ h => h) (only_stuck r.graph.keys) insided.toHolds)
        fun titles e ⟨_, enve, _⟩ => ?_
      have insidee := insided.env enve
      -- nothing is open, so the two tests were of one state, in which nothing is left to do
      have unclean : ¬ M.clean := by
        intro clean
        obtain ⟨calm, unstuck⟩ := M.unstuck clean
        have none : ∀ u, ¬ M.Open d u := found clean
        have still : Still a d := (inside.still calm env).resolve_left fun ⟨u, hu⟩ => none u hu
        have stillbd : Still b d :=
          (insideb.still calm (envc.trans envd)).resolve_left fun ⟨u, hu⟩ => none u hu
        have skip : AllSkip r a := (settled calm).resolve_left fun opened => by
          obtain ⟨u, hu⟩ := inside.openStays env opened
          exact none u hu
        have all := unstuck d insided.inv.coherent (insided.inv.core calm) none (still.allSkip skip)
        have same := (tested calm).2.resolve_left fun opened => by
          obtain ⟨u, hu⟩ := insideb.openStays (envc.trans envd) opened
          exact none u hu
        rw [eq_comm, List.all_eq_false] at same
        obtain ⟨t, ht, unfinished⟩ := same
        exact unfinished ((stillbd.finishedAt t).symm.trans (all t ht))
      rw [Prog.bind_eq, Prog.wp_bind]
      refine wp_holding (o := .appendError _) trivial insidee.toHolds
        fun f holds envf => ⟨rfl, fun _ => ?_⟩
      have insidef := insidee.env envf
      have moved := moved_appendError holds.inv holds.mine (.runtimeError
        ("scheduler made no progress; stuck=" ++ reprTitles titles)) unclean
      have went : Went M who (k + 1) a { f with schedulerErrors := f.schedulerErrors ++
          [.runtimeError ("scheduler made no progress; stuck=" ++ reprTitles titles)] } :=
        (Went.of_env inside ((env.trans enve).trans envf)).trans
          ⟨⟨⟨moved.inv, holds.mine, holds.scheduling⟩, insidef.hooked⟩, moved.forward, fun _ => rfl⟩
      refine ⟨moved, Prog.wp_mono (wp_setDone went.inside (fun unrefused => ?_)
        fun _ empty => absurd empty (List.append_ne_nil_of_right_ne_nil _ (by simp)))
        fun res g returns => ?_⟩
      · exact (((quietc.env insidec envd).env insided enve).env insidee envf unrefused).imp_right
          (Still.allSkip ⟨rfl, fun _ => rfl, rfl⟩)
      · cases res with
        | error e => exact returns
        | ok _ => exact ⟨went.trans returns.1, returns.2⟩

/-! ## The whole call -/

/-- How a call of `schedule` ends. -/
def Scheduled (M : Mode r) (who : Who) (k : Nat) (result : Except Exc Unit) (s : Shared) : Prop :=
  match result with
  | .ok _ => Halted M s
  | .error _ => Trouble M who k s

/-- The moves of the others leave what a call of `schedule` came to. -/
theorem Scheduled.env {result : Except Exc Unit} (inside : Inside M who j a) (env : Env M who a b)
    (h : Scheduled M who k result a) : Scheduled M who k result b := by
  have outstanding := (inside.held env).outstanding
  cases result with
  | ok _ => exact ⟨h.left.imp env.forward.done outstanding.mpr, h.quiet.env inside env⟩
  | error e =>
    exact ⟨fun calm => (h.calm calm).imp_left env.forward.shutdown,
      h.left.imp env.forward.done (.imp env.forward.shutdown (.imp_left outstanding.mpr))⟩

/-- The notes about `schedule` are of no consequence. -/
theorem Scheduled.notes {result : Except Exc Unit} (h : Scheduled M who k result a) (m : Nat) :
    Scheduled M who k result { a with scheduling := m } := by
  cases result with
  | ok _ => exact ⟨h.left, fun unrefused => (h.quiet unrefused).imp_right
      (Still.allSkip ⟨rfl, fun _ => rfl, rfl⟩)⟩
  | error e => exact ⟨h.calm, h.left⟩

/-- The note of how many calls are in progress is the thread's own step. -/
theorem Went.notes (inside : Inside M who j a) (m : Nat) :
    Moved M who a { a with scheduling := m } ∧ Went M who m a { a with scheduling := m } := by
  have moved := moved_scheduling inside.inv inside.mine m
  exact ⟨moved, ⟨⟨moved.inv, inside.mine, rfl⟩, inside.hooked⟩, moved.forward, fun _ => rfl⟩

/-- A call of `schedule` is counted in, and counted out however it ends. -/
theorem wp_inSchedule {body : Sched Unit} (inside : Inside M who k a)
    (h : ∀ b, Went M who (k + 1) a b → body.wp (SchedOp.perform r who) (contract M who)
      (fun res c => Went M who (k + 1) b c ∧ Scheduled M who (k + 1) res c) b) :
    (inSchedule body).wp (SchedOp.perform r who) (contract M who)
      (fun res b => Went M who k a b ∧ Scheduled M who (k + 1) res b) a := by
  rw [inSchedule, Prog.bind_eq, Prog.wp_bind]
  refine wp_holding (o := .beginSchedule) trivial inside.toHolds fun b holds env => ⟨rfl, fun _ => ?_⟩
  have begun : SchedOp.perform r who .beginSchedule b = ((), { b with scheduling := k + 1 }) := by
    simp only [SchedOp.perform, holds.scheduling]
  rw [begun]
  obtain ⟨moved, went⟩ := Went.notes (inside.env env) (k + 1)
  have first := (Went.of_env inside env).trans went
  refine ⟨moved, Prog.wp_finallyDo (Prog.wp_mono (h _ first) ?_)⟩
  rintro res c ⟨went, ends⟩
  refine wp_holding (o := .endSchedule) trivial went.inside.toHolds
    fun d holds env => ⟨rfl, fun _ => ?_⟩
  have ended : SchedOp.perform r who .endSchedule d = ((), { d with scheduling := k }) := by
    simp only [SchedOp.perform, holds.scheduling, Nat.add_sub_cancel]
  rw [ended]
  obtain ⟨moved, last⟩ := Went.notes (went.inside.env env) k
  exact ⟨moved, first.trans (went.trans ((Went.of_env went.inside env).trans last)),
    (ends.env went.inside env).notes k⟩

/-- The `while` loop: every round but the last lowers the budget, so the fuel lasts. -/
theorem wp_scheduleLoop (n : Nat) {a : Shared} {k : Nat} (inside : Inside M who (k + 1) a)
    (fuel : budget r a < n) :
    (scheduleLoop r n).wp (SchedOp.perform r who) (contract M who)
      (fun res b => Went M who (k + 1) a b ∧ Scheduled M who (k + 1) res b) a := by
  induction n generalizing a k with
  | zero => exact absurd fuel (Nat.not_lt_zero _)
  | succ n ih =>
    have nested : Nested M who (k + 1) n (inSchedule (scheduleLoop r n)) := by
      intro s inside fuel
      refine Prog.wp_mono (wp_inSchedule inside fun b went => ih went.inside
        (lt_of_le_of_lt (budget_le went.forward) fuel)) fun _ _ h => h.1
    rw [scheduleLoop, Prog.bind_eq, Prog.wp_bind]
    refine Prog.wp_mono (wp_pass nested r.graph.keys false (fun _ h => h) inside
      (Nat.le_of_lt_succ fuel) nofun fun _ => .inr (.inr fun _ h => .inl h)) ?_
    rintro res b ⟨went, passed⟩
    cases res with
    | error e => exact ⟨went, passed⟩
    | ok changed =>
      cases changed with
      | true =>
        exact Prog.wp_mono (ih went.inside passed) fun _ _ h => ⟨went.trans h.1, h.2⟩
      | false =>
        refine Prog.wp_mono (wp_close went.inside passed) fun res c returns => ?_
        cases res with
        | error e => exact returns.elim
        | ok _ => exact ⟨went.trans returns.1, returns.2⟩

/-- A call of `schedule` ends: with `done` set or a callback still to come, or by raising for a
reason. -/
theorem wp_schedule (inside : Inside M who k a) :
    (schedule r).wp (SchedOp.perform r who) (contract M who)
      (fun res b => Went M who k a b ∧ Scheduled M who (k + 1) res b) a :=
  wp_inSchedule inside fun b went => wp_scheduleLoop (fuel r) went.inside (budget_lt_fuel r b)

end Schedule

end TTasks.Scheduler
