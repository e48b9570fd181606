import TTasks.Laws.Graph.Validate
import TTasks.Laws.Scheduler.Schedule

/-!
# The threads of a run keep their contracts

The weakest precondition of each thread: the pool's thread for a task, the thread that called `run`,
and the threads that cancel. `sound_of_reachable` puts them together: in every state that a run of
the mode reaches, the invariant holds and every thread can go on.
-/

namespace TTasks.Scheduler

open Interleave
open Prog (Contract)

section Threads

variable {r : Run} {M : Mode r} {a b c s : Shared} {t : TaskId} {who : Who}

/-! ## `with lock:` -/

/-- What the thread leaves when it gives the lock back. -/
theorem Scheduled.released {result : Except Exc Unit} (h : Scheduled M who 1 result a)
    (returns : who = .main → ∃ x, result = .ok x) :
    Left { a with lock := none } ∧ (M.unrefused → Quiescent r { a with lock := none }) := by
  cases result with
  | ok _ =>
    refine ⟨.inr (h.left.imp_right .inr), fun unrefused => .inr ?_⟩
    exact (h.quiet unrefused).imp_right (Still.allSkip ⟨rfl, fun _ => rfl, rfl⟩)
  | error e =>
    have other : who ≠ .main := fun is => by
      obtain ⟨x, hx⟩ := returns is
      cases hx
    refine ⟨.inr ?_, fun unrefused => ?_⟩
    · rcases h.left with done | shutdown | outstanding | nested | main
      · exact .inl done
      · exact .inr (.inl shutdown)
      · exact .inr (.inr outstanding)
      · exact absurd nested (by decide)
      · exact absurd main other
    · exact absurd unrefused (h.calm (M.submits unrefused).1).2

/-- How a `with lock:` block ends. -/
structure Released (M : Mode r) (who : Who) (s : Shared) (result : Except Exc Unit) (s' : Shared) :
    Prop where
  inv : Inv M s'
  free : s'.lock ≠ some who
  forward : Forward r s s'
  shutdown : who = .main → s'.shutdown = s.shutdown
  busy : ∀ t, who = .worker t → t ∈ s'.busy
  left : (who = .main → ∃ x, result = .ok x) →
    Left s' ∧ (M.unrefused → Quiescent r s')
  raises : (∃ e, result = .error e) → r.cancels = [] → s'.shutdown = true

/-- A `with lock:` block, with what its body makes true for good. -/
theorem wp_withLock {body : Sched Unit} (P : Shared → Prop)
    (lasts : ∀ {b c}, Forward r b c → P b → P c) (free : a.lock ≠ some who)
    (busy : ∀ t, who = .worker t → t ∈ a.busy) (inner : ∀ n, who ≠ .outside n)
    (h : ∀ b, Env M who a b → Inside M who 0 { b with lock := some who } →
      body.wp (SchedOp.perform r who) (contract M who)
        (fun res c => Went M who 0 { b with lock := some who } c ∧ Scheduled M who 1 res c ∧ P c)
        { b with lock := some who }) :
    (withLock body).wp (SchedOp.perform r who) (contract M who)
      (fun res b => Released M who a res b ∧ P b) a := by
  rw [withLock, Prog.bind_eq, Prog.wp_bind]
  intro b env
  have freeb : b.lock ≠ some who := fun mine => free (env.lock.mp mine)
  have busyb : ∀ t, who = .worker t → t ∈ b.busy := fun t is =>
    ((env.own t is).busy).mpr (busy t is)
  have ready : Ready r who .acquire b :=
    { fuel := by simp
      holds := fun mine => absurd mine freeb
      start := fun t is => by cases is
      worker := fun t is _ => busyb t is
      wait := fun is => by cases is
      join := fun is => by cases is
      record := fun t is => by cases is
      outside := fun n is => absurd is (inner n) }
  -- the thread waits for the lock, and gets it once nobody holds it
  refine ⟨ready, fun enabled => ?_⟩
  have none : b.lock = none := by simpa [SchedOp.enabled] using enabled.1
  have moved := moved_acquire env.inv none busyb inner
  have coherent := env.inv.coherent
  have inside : Inside M who 0 { b with lock := some who } :=
    ⟨⟨moved.inv, rfl, coherent.idle none⟩, coherent.hooked none⟩
  -- `finally`: the lock is released however the body ends
  refine ⟨moved, Prog.wp_finallyDo (Prog.wp_mono (h b env inside) ?_)⟩
  rintro res c ⟨went, ends, p⟩
  refine wp_holding (o := .release) trivial went.inside.toHolds fun d holds envd => ⟨rfl, fun _ => ?_⟩
  have ends := ends.env went.inside envd
  have insided := went.inside.env envd
  have moved' := moved_release insided.inv insided.mine insided.scheduling insided.hooked
    fun other => ends.released fun is => absurd is other
  refine ⟨moved',
    ⟨moved'.inv, (Option.some_ne_none who).symm, ?_, fun is => ?_, fun t is => ?_, ends.released, ?_⟩,
    lasts (envd.forward.trans moved'.forward) p⟩
  · exact (env.forward.trans moved.forward).trans
      ((went.forward.trans envd.forward).trans moved'.forward)
  · exact ((envd.main is).shutdown.trans (went.shutdown is)).trans (env.main is).shutdown
  · exact insided.inv.coherent.holder t (is ▸ insided.mine)
  · rintro ⟨e, rfl⟩ calm
    exact (ends.calm calm).1

/-! ## The pool's threads -/

/-- The pool's thread is in the call of `execute`. -/
structure Running (M : Mode r) (t : TaskId) (s : Shared) : Prop where
  inv : Inv M s
  stage : s.stage t = .running
  busy : t ∈ s.busy
  free : s.lock ≠ some (.worker t)

/-- The call of `execute` stays under way, whatever the others do. -/
theorem Running.env (h : Running M t a) (env : Env M (.worker t) a b) : Running M t b :=
  ⟨env.inv, (env.own t rfl).running h.stage, (env.own t rfl).busy.mpr h.busy,
    fun mine => h.free (env.lock.mp mine)⟩

/-- The operations that a started thread performs without the lock. -/
def Outer : SchedOp → Prop
  | .outOfFuel | .start _ | .recordException _ | .waitDone | .join => False
  | _ => True

/-- What the pool's thread may do while it does not hold the lock. -/
theorem ready_outer {o : SchedOp} (busy : t ∈ s.busy) (free : s.lock ≠ some (.worker t))
    (outer : Outer o) : Ready r (.worker t) o s where
  fuel is := by subst is; exact outer
  holds mine := absurd mine free
  start u is := by subst is; exact outer.elim
  worker u is _ := by cases is; exact busy
  wait is := by subst is; exact outer.elim
  join is := by subst is; exact outer.elim
  record u is := by subst is; exact outer.elim
  outside n is := by cases is

/-- How the call of `execute` ends. -/
def Executed (r : Run) (t : TaskId) {α : Type} (result : Except Exc α) (s : Shared) : Prop :=
  r.cancels = [] → s.status t = ending r t ∧ (Prog.raised result = none ↔ ending r t = .succeeded)

/-- How the call has ended stays so, as the task is this thread's own. -/
theorem Executed.env {α : Type} {result : Except Exc α} (h : Executed r t result a)
    (running : a.stage t = .running) (env : Env M (.worker t) a b) : Executed r t result b :=
  fun calm => by
    have same : b.status t = a.status t :=
      congrArg Task.status ((env.own t rfl).task calm running).task
    rw [same]
    exact h calm

/-- What a thread does outside the lock in a run with cancels. -/
theorem moved_stirred (who : Who) (inv : Inv M s) (o : TaskOp) (stirred : r.cancels ≠ [])
    (active : ∀ t, who = .worker t → t ∈ s.busy ∨ s.stage t = .queued) :
    Moved M who s (SchedOp.perform r who (.task o) s).2 :=
  moved_world inv o active (fun calm => absurd calm stirred) (fun calm => absurd calm stirred)
    (fun calm => absurd calm stirred) fun calm => absurd calm stirred

/-- The call of `execute`, carried over from the executor. -/
theorem wp_executeTask (running : Running M t a) {upstream : List TaskId}
    (known : r.cancels = [] → upstream = r.graph.deps t ∧
      (entered r t).canTransitionTo .running = true ∧
      At t (r.world.tasks t).type (entered r t) (r.world.callCount t) a.world) :
    (liftTask (execute r.executor t upstream)).wp (SchedOp.perform r (.worker t))
      (contract M (.worker t)) (fun res b => Running M t b ∧ Executed r t res b) a := by
  have ready : ∀ {o : TaskOp} {b}, Running M t b → Ready r (.worker t) (.task o) b :=
    fun h => ready_outer h.busy h.free trivial
  by_cases calm : r.cancels = []
  · obtain ⟨rfl, startable, here⟩ := known calm
    refine Prog.wp_lift Shared.world (Running M t) ?_ ?_ ?_ ?_ ?_ ?_ running
      (wp_execute startable here) ?_
    · intro b c h env
      have after := h.env env
      exact ⟨after, (env.own t rfl).task calm h.stage, (after.inv.core calm).running t after.stage⟩
    · exact fun _ _ => trivial
    · exact fun h _ => ready h
    · intro o b h _ executes
      have moved := moved_execute h.inv h.busy h.stage fun _ => executes
      exact ⟨moved, moved.inv, h.stage, h.busy, h.free⟩
    · exact fun _ _ => rfl
    · exact fun _ _ => rfl
    · intro res b h ended
      exact ⟨h, fun _ => ⟨ended.here.status, ended.returns⟩⟩
  · refine Prog.wp_lift Shared.world (Running M t) ?_ ?_ ?_ ?_ ?_ ?_ running
      (Prog.wp_free (TaskOp.perform r.executor) (fun _ _ => True) _ _)
      fun res b h _ => ⟨h, fun h => absurd h calm⟩
    · exact fun h env => ⟨h.env env, trivial⟩
    · exact fun _ _ => trivial
    · exact fun h _ => ready h
    · intro o b h _ _
      have moved := moved_stirred (.worker t) h.inv o calm fun u is => by
        cases is; exact .inl h.busy
      exact ⟨moved, moved.inv, h.stage, h.busy, h.free⟩
    · exact fun _ _ => rfl
    · exact fun _ _ => rfl

/-- What is known of a call when the pool starts it. -/
theorem known_of_queued (inv : Inv M s) (queued : s.stage t = .queued) (calm : r.cancels = []) :
    (s.submitted.lookup t).getD [] = r.graph.deps t ∧
      (entered r t).canTransitionTo .running = true ∧
      At t (r.world.tasks t).type (entered r t) (r.world.callCount t) s.world := by
  have core := inv.core calm
  have mem : t ∈ s.submitted.map Prod.fst := (inv.coherent.mem t).mpr (by rw [queued]; simp)
  obtain ⟨p, hp, rfl⟩ := List.mem_map.mp mem
  obtain ⟨upstream, startable, -⟩ := core.submitted p hp
  refine ⟨?_, startable, core.type p.1, core.queued p.1 queued, ?_⟩
  · rw [TaskGraph.lookup_of_mem inv.coherent.nodup hp]
    exact upstream
  · obtain ⟨new, calls, -, started⟩ := core.calls
    have none : new.filter (fun c => c.1 == p.1) = [] := by
      refine List.filter_eq_nil_iff.mpr fun c hc same => ?_
      have begun := (started c hc).2
      rw [beq_iff_eq.mp same, queued] at begun
      exact absurd begun (by decide)
    rw [World.callCount, calls, List.filter_append, none, List.append_nil, World.callCount]

/-- The end of a call: its future is done, and its thread has not yet been given back. -/
structure Ending (M : Mode r) (t : TaskId) (s : Shared) : Prop where
  inv : Inv M s
  done : (s.stage t).isDone = true
  busy : t ∈ s.busy
  free : s.lock ≠ some (.worker t)

/-- The callbacks stay to be run, whatever the others do. -/
theorem Ending.env (h : Ending M t a) (env : Env M (.worker t) a b) : Ending M t b :=
  ⟨env.inv, env.forward.isDone h.done, (env.own t rfl).busy.mpr h.busy,
    fun mine => h.free (env.lock.mp mine)⟩

/-- The callbacks of a future, which take the lock if there are any. -/
theorem wp_callbacks (h : Ending M t a) {registered : Bool}
    (known : registered = false → a.callback t ≠ .registered) :
    (callbacks r t registered).wp (SchedOp.perform r (.worker t)) (contract M (.worker t))
      (Prog.Returns fun _ b => Ending M t b ∧ b.callback t ≠ .registered) a := by
  cases registered with
  | false => exact ⟨h, known rfl⟩
  | true =>
    rw [callbacks, if_pos rfl]
    refine Prog.wp_swallow (Prog.wp_mono (wp_withLock (fun s => s.callback t = .invoked)
      (fun forward => forward.invoked t) h.free (fun u is => by cases is; exact h.busy)
      (by simp) fun b env inside => ?_) ?_)
    · rw [onFinish, Prog.bind_eq, Prog.wp_bind]
      have done := env.forward.isDone h.done
      have created : b.stage t ≠ .absent := fun absent => by rw [absent] at done; cases done
      refine wp_recordException inside.toHolds created done (fun u _ => inside.hooked u)
        fun c went invoked => ?_
      refine Prog.wp_mono (wp_schedule went.inside) ?_
      rintro res d ⟨went', ends⟩
      exact ⟨went.trans went', ends, went'.forward.invoked t invoked⟩
    · rintro res b ⟨released, invoked⟩
      exact ⟨⟨released.inv, released.forward.isDone h.done, released.busy t rfl, released.free⟩,
        by rw [invoked]; simp⟩

/-- The pool's thread for a task. -/
theorem wp_worker (waiting : (s.stage t).rank ≤ 1) (idle : t ∉ s.busy) :
    (worker r t).wp (SchedOp.perform r (.worker t)) (contract M (.worker t)) (Over M (.worker t)) s := by
  rw [worker, Prog.bind_eq, Prog.wp_bind]
  intro a env
  have own := env.own t rfl
  have idle : t ∉ a.busy := fun h => idle (own.busy.mp h)
  have free : a.lock ≠ some (.worker t) := fun mine => idle (env.inv.coherent.holder t mine)
  have ready : Ready r (.worker t) (.start t) a :=
    { fuel := by simp
      holds := fun mine => absurd mine free
      start := fun u is => by cases is; exact ⟨rfl, idle, own.waiting waiting⟩
      worker := fun u is other => by cases is; exact absurd rfl other
      wait := fun is => by cases is
      join := fun is => by cases is
      record := fun u is => by cases is
      outside := fun n is => by cases is }
  -- the pool starts the call, which waits in the queue until then
  refine ⟨ready, fun allowed => ?_⟩
  have queued : a.stage t = .queued := by
    have enabled := allowed.1
    simp only [SchedOp.enabled, Bool.and_eq_true, beq_iff_eq] at enabled
    exact enabled.1
  have moved := moved_start env.inv queued idle
  have running : Running M t { a.setStage t .running with busy := t :: a.busy } :=
    ⟨moved.inv, Function.update_self .., List.mem_cons_self, free⟩
  refine ⟨moved, ?_⟩
  show Prog.wp _ _ (Prog.bind _ _) _ _
  rw [Prog.wp_bind]
  -- whatever `execute` ends in becomes the future's result
  refine Prog.wp_caught (Prog.wp_mono (wp_executeTask running (known_of_queued env.inv queued)) ?_)
  rintro res b ⟨running, executed⟩
  show Prog.wp _ _ (Prog.bind _ _) _ _
  rw [Prog.wp_bind]
  intro c env
  have executed := executed.env running.stage env
  have running := running.env env
  refine ⟨ready_outer running.busy running.free trivial, fun allowed => ?_⟩
  have moved := moved_finish running.inv running.stage running.busy running.free
    (Prog.raised res) allowed.2 executed
  have ending : Ending M t (c.setStage t (.done (Prog.raised res))) :=
    ⟨moved.inv, by simp [Stage.isDone], running.busy, running.free⟩
  -- the callback is run by this thread if it was added before the future was done
  refine ⟨moved, Prog.wp_bind_returns (wp_callbacks ending fun other registered => ?_) ?_⟩
  · have registered : c.callback t = .registered := registered
    simp [SchedOp.perform, registered] at other
  · rintro _ d ⟨ending, quiet⟩ e env
    have own := env.own t rfl
    have quiet := own.callback ending.done quiet
    have ending := ending.env env
    refine ⟨ready_outer ending.busy ending.free trivial, fun _ => ?_⟩
    exact ⟨moved_leave ending.inv ending.busy ending.free, ending.done, by simp [SchedOp.perform],
      quiet⟩

/-! ## The thread that called `run` -/

/-- What that thread may do while it does not hold the lock. -/
theorem ready_main {o : SchedOp} (free : s.lock ≠ some .main) (fuel : o ≠ .outOfFuel)
    (start : ∀ u, o ≠ .start u) (record : ∀ u, o ≠ .recordException u)
    (wait : o = .waitDone → Left s ∧ s.shutdown = false) : Ready r .main o s where
  fuel := fuel
  holds mine := absurd mine free
  start u is := absurd is (start u)
  worker t is := by cases is
  wait is := ⟨rfl, (wait is).1, (wait is).2, free⟩
  join _ := rfl
  record u is := absurd is (record u)
  outside n is := by cases is

/-- No other thread is at the operations that close a run. -/
theorem ready_closing {o : SchedOp} (free : s.lock ≠ some .main)
    (closing : o = .shutdown ∨ o = .join ∨ o = .schedulerErrors) : Ready r .main o s := by
  apply ready_main free
  · rintro rfl
    simp at closing
  · rintro u rfl
    simp at closing
  · rintro u rfl
    simp at closing
  · rintro rfl
    simp at closing

/-- The end of the pool. -/
theorem wp_closePool (free : a.lock ≠ some .main)
    (done : r.cancels = [] → a.done = true) {P : Shared → Prop} (p : P a)
    (lasts : ∀ {b c}, Env M .main b c → P b → P c)
    (shut : ∀ {b}, P b → P { b with shutdown := true }) :
    (closePool).wp (SchedOp.perform r .main) (contract M .main)
      (Prog.Returns fun _ b => Inv M b ∧ b.lock ≠ some .main ∧ Forward r a b ∧ Joined b ∧ P b) a := by
  rw [closePool, Prog.bind_eq, Prog.wp_bind]
  intro b env
  have free : b.lock ≠ some .main := fun mine => free (env.lock.mp mine)
  have moved : Moved M .main b { b with shutdown := true } :=
    moved_shutdown env.inv free fun calm => env.forward.done (done calm)
  refine ⟨ready_closing free (.inl rfl), fun _ => ⟨moved, ?_⟩⟩
  intro c env'
  have free : c.lock ≠ some .main := fun mine => free (env'.lock.mp mine)
  refine ⟨ready_closing free (.inr (.inl rfl)), fun allowed => ?_⟩
  have enabled := allowed.1
  simp only [SchedOp.enabled, Bool.and_eq_true, List.isEmpty_iff, List.all_eq_true] at enabled
  refine ⟨.read env'.inv nofun, env'.inv, free,
    (env.forward.trans moved.forward).trans env'.forward, ⟨enabled.2, fun t ht => ?_⟩,
    lasts env' (shut (lasts env p))⟩
  obtain ⟨e, he, rfl⟩ := List.mem_map.mp ((env'.inv.coherent.mem t).mpr ht)
  exact enabled.1 e he

/-- Where the pool is empty and this thread does not hold the lock, nobody does. -/
theorem Joined.unlocked (joined : Joined s) (inv : Inv M s) (free : s.lock ≠ some .main) :
    s.lock = none := (joined.lock inv.coherent).resolve_right free

/-- The first call of `schedule`, and the wait for the end of the run. -/
theorem wp_waitDone (free : s.lock ≠ some .main) (opened : s.shutdown = false) :
    ((withLock (schedule r)).bind fun _ => once .waitDone).wp (SchedOp.perform r .main)
      (contract M .main) (fun res b => (Inv M b ∧ b.lock ≠ some .main) ∧ match res with
        | .ok _ => b.done = true ∧ (M.unrefused → Quiescent r b)
        | .error _ => r.cancels ≠ []) s := by
  rw [Prog.wp_bind]
  refine Prog.wp_mono (wp_withLock (fun _ => True) (fun _ => id) free nofun nofun
    fun b env inside => Prog.wp_mono (wp_schedule inside) fun res c h => ⟨h.1, h.2, trivial⟩) ?_
  rintro res b ⟨released, -⟩
  have opened : b.shutdown = false := (released.shutdown rfl).trans opened
  cases res with
  | error e =>
    refine ⟨⟨released.inv, released.free⟩, fun calm => ?_⟩
    rw [released.raises ⟨e, rfl⟩ calm] at opened
    cases opened
  | ok x =>
    obtain ⟨left, quiescent⟩ := released.left fun _ => ⟨x, rfl⟩
    intro c env
    have kept := env.main rfl
    have free : c.lock ≠ some .main := fun mine => released.free (env.lock.mp mine)
    refine ⟨ready_main free nofun nofun nofun fun _ => ⟨kept.left left, kept.shutdown.trans opened⟩,
      ?_⟩
    rintro ⟨enabled, -⟩
    refine ⟨.read env.inv nofun, ⟨env.inv, free⟩, enabled, fun unrefused => ?_⟩
    exact kept.quiescent unrefused (quiescent unrefused)

/-- The thread that called `run`. -/
theorem wp_main (free : s.lock = none) (opened : s.shutdown = false)
    (idle : s.busy = []) (absent : ∀ t, s.stage t = .absent) :
    (main r).wp (SchedOp.perform r .main) (contract M .main) (Over M .main) s := by
  unfold main
  split
  -- an empty graph: nothing has been submitted
  · rename_i empty
    refine ⟨⟨idle, fun t submitted => absurd (absent t) submitted⟩, free, fun nonempty => ?_⟩
    exact absurd (List.isEmpty_iff.mp empty) nonempty
  · rw [Prog.bind_eq, Prog.wp_bind]
    refine Prog.wp_finallyDo (Prog.wp_mono (wp_waitDone (by rw [free]; simp) opened) ?_)
    rintro res a ⟨⟨inv, free⟩, ends⟩
    cases res with
    -- `done.wait` raised, which happens only where somebody cancels
    | error e =>
      refine Prog.wp_mono (wp_closePool free (fun calm => absurd calm ends) (P := fun _ => True)
        trivial (fun _ => id) id) fun res b returns => ?_
      cases res with
      | error e => exact returns.elim
      | ok _ =>
        obtain ⟨inv, free, -, joined, -⟩ := returns
        exact ⟨joined, joined.unlocked inv free, fun calm => absurd calm ends⟩
    | ok _ =>
      refine Prog.wp_mono (wp_closePool free (fun _ => ends.1)
        (P := fun s => s.done = true ∧ (M.unrefused → Quiescent r s)) ends
        (fun env h => ⟨env.forward.done h.1, fun unrefused =>
          (env.main rfl).quiescent unrefused (h.2 unrefused)⟩)
        fun h => ⟨h.1, fun unrefused => (h.2 unrefused).imp_right (.imp_right
          (Still.allSkip ⟨rfl, fun _ => rfl, rfl⟩))⟩) fun res b returns => ?_
      -- the pool is closed, and the first error of the scheduler is raised if there is one
      cases res with
      | error e => exact returns.elim
      | ok _ =>
        obtain ⟨inv, free, -, joined, done, quiescent⟩ := returns
        intro c env
        have kept := env.main rfl
        have joined := (kept.joined joined).1
        have free : c.lock ≠ some .main := fun mine => free (env.lock.mp mine)
        refine ⟨ready_closing free (.inr (.inr rfl)), fun _ => ⟨.read env.inv nofun, ?_⟩⟩
        show Prog.wp _ _ (match c.schedulerErrors with | [] => _ | e :: _ => _) _ c
        cases errors : c.schedulerErrors with
        | nil =>
          exact ⟨joined, joined.unlocked env.inv free, fun _ => ⟨fun _ => env.forward.done done,
            errors, fun unrefused => kept.quiescent unrefused (quiescent unrefused)⟩⟩
        | cons e es =>
          exact ⟨joined, joined.unlocked env.inv free, fun _ => by rw [errors]; simp⟩

/-! ## The threads that cancel -/

/-- A thread that cancels performs executor operations only. -/
theorem wp_canceller (i : Nat) (inv : Inv M s) :
    (canceller r i).wp (SchedOp.perform r (.outside i)) (contract M (.outside i))
      (Over M (.outside i)) s := by
  unfold canceller
  split
  · rename_i t found
    have stirred : r.cancels ≠ [] := fun calm => by rw [calm] at found; cases found
    refine Prog.wp_lift Shared.world (Inv M) ?_ ?_ ?_ ?_ ?_ ?_ inv
      (Prog.wp_free (TaskOp.perform r.executor) (fun _ _ => True) _ _) fun _ _ _ _ => trivial
    · exact fun _ env => ⟨env.inv, trivial⟩
    · exact fun _ _ => trivial
    · exact fun {o b} inv _ => ⟨nofun, fun mine => absurd mine (inv.coherent.inside i), nofun, nofun,
        nofun, nofun, nofun, fun _ _ => ⟨o, rfl⟩⟩
    · intro o b inv _ _
      have moved := moved_stirred (.outside i) inv o stirred nofun
      exact ⟨moved, moved.inv⟩
    · exact fun _ _ => rfl
    · exact fun _ _ => rfl
  · trivial

/-! ## All together -/

/-- A thread that is over stays so. -/
theorem Over.env {result : Except Exc Unit} (env : Env M who a b) (halted : Over M who result a) :
    Over M who result b := by
  cases who with
  | outside i => trivial
  | worker t =>
    obtain ⟨done, idle, quiet⟩ := halted
    have own := env.own t rfl
    exact ⟨env.forward.isDone done, fun busy => idle (own.busy.mp busy), own.callback done quiet⟩
  | main =>
    obtain ⟨joined, unlocked, ends⟩ := halted
    have kept := env.main rfl
    obtain ⟨joined', errors⟩ := kept.joined joined
    refine ⟨joined', joined'.unlocked env.inv fun mine => ?_, ?_⟩
    · rw [env.lock.mp mine] at unlocked
      cases unlocked
    · rw [errors unlocked]
      cases result with
      | error e => exact ends
      | ok _ =>
        intro nonempty
        obtain ⟨done, none, quiescent⟩ := ends nonempty
        exact ⟨fun calm => env.forward.done (done calm), none, fun unrefused =>
          kept.quiescent unrefused (quiescent unrefused)⟩

/-- The threads' contracts fit together. -/
theorem compatible (M : Mode r) : Threads.Compatible (SchedOp.perform r) (contract M) (Inv M)
    (Over M : Who → Except Exc Unit → Shared → Prop) where
  refl _ _ inv := .refl inv
  trans _ _ _ _ h h' := h.trans h'
  inv _ _ _ _ moved := moved.inv
  rely _ _ other _ _ inv moved := moved.env inv other
  post _ _ _ _ env halted := halted.env env

/-- Nothing has happened yet. -/
theorem inv_start (M : Mode r) : Inv M (start r).shared where
  coherent := by
    constructor <;> simp [start]
  core _ := by
    constructor
    case absent => exact fun _ _ => .inl rfl
    all_goals simp [start]
  clean _ := rfl

/-- At the start each thread has its contract's program in front of it. -/
theorem sound_start (M : Mode r) :
    Threads.Sound (SchedOp.perform r) (contract M) (Inv M) (Over M) (start r) where
  inv := inv_start M
  each who := by
    cases who with
    | main => exact wp_main rfl rfl rfl fun _ => rfl
    | worker t => exact wp_worker (Nat.zero_le 1) (by simp [start])
    | outside i => exact wp_canceller i (inv_start M)

/-- In every state that a run reaches, the invariant holds and every thread can go on. -/
theorem sound_of_reachable {s : State} (run : Reachable r M.allow s) :
    Threads.Sound (SchedOp.perform r) (contract M) (Inv M) (Over M) s :=
  (sound_start M).reaches (compatible M) run

end Threads

end TTasks.Scheduler
