import TTasks.Submission

/-!
# What has ended when `shutdown` returns

An executor that is closed stays so and hands out no more futures, and all that it has handed out
belong to the one pool that its first `shutdown` takes. So the first `shutdown`, when it comes from
outside, returns after all of them. A `shutdown` that finds the executor closed does not wait, so that
it keeps the promise only after the first, or after the tasks themselves (`drained_of_inTurn`).
-/

namespace TTasks.Submission

open Interleave
open Prog (Contract)

variable {κ : Type}

/-! ## Invariants -/

/-- All futures belong to the executor's pool, as long as it has one. -/
def OnePool (s : Shared) : Prop :=
  s.closed = false → ∀ future ∈ s.futures, s.pool = some future.pool

/-- What no operation takes back: a closed executor hands out nothing more, and what is done is
done. -/
structure Grows (s s' : Shared) : Prop where
  closed : s.closed = true → s'.closed = true
  handed : s.closed = true → s'.futures.map Future.pool = s.futures.map Future.pool
  done : s.closed = true → AllDone s → AllDone s'

/-- No call of `submit` or `shutdown` yet. -/
theorem Grows.refl (s : Shared) : Grows s s := ⟨id, fun _ => rfl, fun _ => id⟩

/-- Two stretches of calls are one. -/
theorem Grows.trans {a b c : Shared} (h : Grows a b) (h' : Grows b c) : Grows a c where
  closed closed := h'.closed (h.closed closed)
  handed closed := (h'.handed (h.closed closed)).trans (h.handed closed)
  done closed all := h'.done (h.closed closed) (h.done closed all)

/-- A future keeps its pool through every stage. -/
theorem setStage_pools (s : Shared) (n : Nat) (stage : Stage) :
    (s.setStage n stage).futures.map Future.pool = s.futures.map Future.pool := by
  apply List.ext_getElem?
  intro i
  rw [List.getElem?_map, List.getElem?_map, Shared.setStage, List.getElem?_modify]
  split
  · cases s.futures[i]? <;> rfl
  · cases s.futures[i]? <;> rfl

/-- A call from outside that need not wait any longer has closed the executor, and all is done. -/
structure Sound (s : Shared) : Prop where
  one : OnePool s
  noted : s.closed = true → s.closing ≠ .unclosed
  ended : s.closing = .ended → s.closed = true ∧ AllDone s

/-- The futures' pools, the flag and the executor's pool decide. -/
theorem OnePool.of_pools {s s' : Shared} (one : OnePool s) (closed : s'.closed = s.closed)
    (pool : s'.pool = s.pool) (same : s'.futures.map Future.pool = s.futures.map Future.pool) :
    OnePool s' := by
  intro open' future mem
  have mem' : future.pool ∈ s.futures.map Future.pool := same ▸ List.mem_map_of_mem mem
  obtain ⟨old, there, pools⟩ := List.mem_map.mp mem'
  rw [pool, one (closed ▸ open') old there, pools]

/-- A stage that is set to done, or that is set on a future that is not done. -/
theorem setStage_grows {s : Shared} {n : Nat} {stage : Stage}
    (forward : stage = .done ∨ ¬ AllDone s) : Grows s (s.setStage n stage) where
  closed := id
  handed _ := setStage_pools s n stage
  done _ all := by
    have ends : stage = .done := forward.resolve_right fun open' => open' all
    intro future mem
    obtain ⟨i, there⟩ := List.mem_iff_getElem?.mp mem
    rw [Shared.setStage, List.getElem?_modify] at there
    obtain ⟨old, here, rfl⟩ := Option.map_eq_some_iff.mp there
    split
    · exact ends
    · exact all old (List.mem_of_getElem? here)

/-- `submit` creates the pool at most once, and never after the executor is closed. -/
theorem submit_spec {s : Shared} (one : OnePool s) :
    OnePool (submit s).2 ∧ Grows s (submit s).2 := by
  unfold submit
  split
  · exact ⟨one, .refl s⟩
  · rename_i open'
    have fresh : ∀ s' : Shared, Grows s s' := fun _ =>
      ⟨fun closed => absurd closed open', fun closed => absurd closed open',
        fun closed => absurd closed open'⟩
    have opened := Bool.eq_false_iff.mpr open'
    refine ⟨?_, fresh _⟩
    split
    · rename_i p pool
      intro _ future mem
      rcases List.mem_append.mp mem with old | new
      · exact one opened future old
      · rw [List.mem_singleton.mp new]
        exact pool
    · rename_i none
      intro _ future mem
      rcases List.mem_append.mp mem with old | new
      · cases none.symm.trans (one opened future old)
      · rw [List.mem_singleton.mp new]

/-- Setting `_closed` leaves the pool to whoever has set it. -/
theorem close_spec (who : Who κ) (s : Shared) :
    OnePool (close who s).2 ∧ Grows s (close who s).2 := by
  unfold close
  split
  · rename_i closed
    exact ⟨fun open' => (Bool.false_ne_true (open'.symm.trans closed)).elim, .refl s⟩
  · exact ⟨fun open' => (Bool.false_ne_true open'.symm).elim, ⟨fun _ => rfl, fun _ => rfl,
      fun _ => id⟩⟩

/-! ## Contracts -/

/-- A thread that is about to return from `shutdown`, outside the pool, finds all futures done; and the
wait for the pool is a wait for all futures. -/
def contract (who : Who κ) : Contract Op Shared where
  rely a b := Grows a b ∧ Sound b
  ready o s := o = .leave → who.own = none → AllDone s
  allow := InTurn who
  guar o s := (o = .start → ¬ AllDone s) ∧ ∀ p, o = .shutdownWait p → s.closed = true ∧ AllDone s

/-- Each operation keeps to one pool, and moves things forward. -/
theorem sem_spec {who : Who κ} {o : Op} {s : Shared} (one : OnePool s)
    (forward : o = .start → ¬ AllDone s) : OnePool (sem who o s).2 ∧ Grows s (sem who o s).2 := by
  have staged : ∀ stage, (stage = .done ∨ ¬ AllDone s) →
      OnePool (who.own.elim s fun n => s.setStage n stage) ∧
        Grows s (who.own.elim s fun n => s.setStage n stage) := by
    intro stage ends
    cases who.own with
    | none => exact ⟨one, .refl s⟩
    | some n => exact ⟨one.of_pools rfl rfl (setStage_pools s n stage), setStage_grows ends⟩
  cases o with
  | submit => exact submit_spec one
  | close => exact close_spec who s
  | start => exact staged .running (.inr (forward rfl))
  | finish => exact staged .done (.inl rfl)
  | shutdownWait _ => exact ⟨one, id, fun _ => rfl, fun _ => id⟩
  | inPool _ | shutdownNoWait _ | joinOthers _ | leave => exact ⟨one, .refl s⟩

/-- What is said of a call that has closed the executor and need not wait stays true. -/
theorem ended_sem {who : Who κ} {o : Op} {s : Shared} (sound : Sound s)
    (guar : (contract who).guar o s) (ended : (sem who o s).2.closing = .ended) :
    (sem who o s).2.closed = true ∧ AllDone (sem who o s).2 := by
  have grows : Grows s (sem who o s).2 := (sem_spec sound.one guar.1).2
  have kept : s.closing = .ended → (sem who o s).2.closed = true ∧ AllDone (sem who o s).2 :=
    fun before => ⟨grows.closed (sound.ended before).1,
      grows.done (sound.ended before).1 (sound.ended before).2⟩
  cases o with
  | close =>
    by_cases closed : s.closed = true
    · refine kept ?_
      rwa [sem, close, if_pos closed] at ended
    · rw [sem, close, if_neg closed] at ended ⊢
      refine ⟨rfl, fun future mem => ?_⟩
      -- without a pool there are no futures
      have pool := sound.one (Bool.eq_false_iff.mpr closed) future mem
      dsimp only at ended
      rw [pool] at ended
      split at ended <;> cases ended
  | shutdownWait p => exact guar.2 p rfl
  | submit =>
    refine kept ?_
    rw [sem, submit] at ended
    split at ended
    · exact ended
    · split at ended <;> exact ended
  | start =>
    cases who with
    | outside k => exact kept ended
    | work n => exact kept ended
  | finish =>
    cases who with
    | outside k => exact kept ended
    | work n => exact kept ended
  | inPool _ | shutdownNoWait _ | joinOthers _ | leave => exact kept ended

/-- A closed executor has been closed by some call. -/
theorem noted_sem {who : Who κ} {o : Op} {s : Shared} (sound : Sound s)
    (closed : (sem who o s).2.closed = true) : (sem who o s).2.closing ≠ .unclosed := by
  cases o with
  | close =>
    by_cases before : s.closed = true
    · rw [sem, close, if_pos before]
      exact sound.noted before
    · rw [sem, close, if_neg before]
      dsimp only
      split
      · nofun
      · split <;> nofun
  | shutdownWait p => nofun
  | submit =>
    rw [sem, submit] at closed ⊢
    split at closed
    · rename_i before
      rw [if_pos before]
      exact sound.noted before
    · rename_i before
      split at closed <;> exact absurd closed before
  | start =>
    cases who with
    | outside k => exact sound.noted closed
    | work n => exact sound.noted closed
  | finish =>
    cases who with
    | outside k => exact sound.noted closed
    | work n => exact sound.noted closed
  | inPool _ | shutdownNoWait _ | joinOthers _ | leave => exact sound.noted closed

/-- Each operation keeps what callers and workers count on, where its thread is entitled to it. -/
theorem sound_sem {who : Who κ} {o : Op} {s : Shared} (sound : Sound s)
    (guar : (contract who).guar o s) : Sound (sem who o s).2 where
  one := (sem_spec sound.one guar.1).1
  noted := noted_sem sound
  ended := ended_sem sound guar

/-- Work that starts is not done. -/
theorem not_done_of_waits {who : Who κ} {s : Shared} (waits : Waits who .start s) : ¬ AllDone s := by
  obtain ⟨future, mem, queued⟩ := waits
  obtain ⟨n, -, here⟩ := Option.bind_eq_some_iff.mp mem
  intro all
  rw [all future (List.mem_of_getElem? here)] at queued
  cases queued

variable {who : Who κ} {s : Shared}

/-- An operation other than the return and the wait for the pool, when it is let through. -/
theorem wp_step {o : Op} {k : o.Ans → Sub Unit} (inner : o ≠ .leave) (brief : ∀ p, o ≠ .shutdownWait p)
    (next : ∀ a, Grows s a → Sound a → InTurn who o a →
      (k (sem who o a).1).wp (sem who) (contract who) (fun _ _ => True) (sem who o a).2) :
    (Prog.act o k).wp (sem who) (contract who) (fun _ _ => True) s := by
  rintro a ⟨grows, sound⟩
  refine ⟨fun leave => absurd leave inner, fun inTurn => ⟨⟨fun start => ?_, fun p wait => ?_⟩,
    next a grows sound inTurn⟩⟩
  · subst start
    exact not_done_of_waits inTurn.1
  · exact absurd wait (brief p)

/-- The end of `shutdown`, once every future is done. -/
theorem wp_leave (ended : who.own = none → s.closed = true ∧ AllDone s) :
    (Prog.op Op.leave : Sub Unit).wp (sem who) (contract who) (fun _ _ => True) s := by
  rintro a ⟨grows, -⟩
  refine ⟨fun _ outside => ?_, fun _ => ⟨⟨nofun, nofun⟩, trivial⟩⟩
  obtain ⟨closed, all⟩ := ended outside
  exact grows.done closed all

/-- The futures of a closed executor keep their pools. -/
theorem pools_of_grows {a b : Shared} {p : Nat} (grows : Grows a b) (closed : a.closed = true)
    (pools : ∀ future ∈ a.futures, future.pool = p) : ∀ future ∈ b.futures, future.pool = p := by
  intro future mem
  have handed : future.pool ∈ a.futures.map Future.pool :=
    grows.handed closed ▸ List.mem_map_of_mem mem
  obtain ⟨old, there, same⟩ := List.mem_map.mp handed
  exact same ▸ pools old there

/-- `pool.shutdown(wait=True)` on the pool of all futures, and the return. -/
theorem wp_shutdownWait {p : Nat} (closed : s.closed = true)
    (pools : ∀ future ∈ s.futures, future.pool = p) :
    (Prog.act (Op.shutdownWait p) fun _ => Prog.op Op.leave : Sub Unit).wp (sem who) (contract who)
      (fun _ _ => True) s := by
  rintro a ⟨grows, -⟩
  refine ⟨nofun, fun inTurn => ?_⟩
  have closed' := grows.closed closed
  have all : AllDone a := fun future mem =>
    inTurn.1 future mem (pools_of_grows grows closed pools future mem)
  exact ⟨⟨nofun, fun _ _ => ⟨closed', all⟩⟩, wp_leave fun _ => ⟨closed', all⟩⟩

/-- An outside call that finds the executor closed, in turn, finds all futures done. -/
theorem done_of_inTurn {a : Shared} (sound : Sound a) (inTurn : InTurn who .close a)
    (outside : who.own = none) (closed : a.closed = true) : AllDone a := by
  obtain ⟨still, inside⟩ := inTurn.2 rfl outside
  cases closing : a.closing with
  | unclosed => exact absurd closing (sound.noted closed)
  | waits => exact absurd closing still
  | ended => exact (sound.ended closing).2
  | inside => exact inside closing

/-- `shutdown` waits under its contract. -/
theorem wp_shutdown : shutdown.wp (sem who) (contract who) (fun _ _ => True) s := by
  apply wp_step (by decide) (fun _ wait => by cases wait)
  intro a _ sound inTurn
  by_cases closed : a.closed = true
  · -- closed before: the call does not wait
    have taken : close who a = (.alreadyClosed, a) := if_pos closed
    simp only [sem, taken]
    exact wp_leave fun outside => ⟨closed, done_of_inTurn sound inTurn outside closed⟩
  · have opened := Bool.eq_false_iff.mpr closed
    have closes : (close who a).2.closed = true ∧ (close who a).2.futures = a.futures := by
      rw [close, if_neg closed]
      exact ⟨rfl, rfl⟩
    cases pool : a.pool with
    | none =>
      have taken : (close who a).1 = .noPool := by rw [close, if_neg closed, pool]
      simp only [sem, taken]
      refine wp_leave fun _ => ⟨closes.1, fun future mem => ?_⟩
      rw [closes.2] at mem
      cases pool.symm.trans (sound.one opened future mem)
    | some p =>
      have taken : (close who a).1 = .pool p := by rw [close, if_neg closed, pool]
      simp only [sem, taken]
      apply wp_step (fun leave => by cases leave) (fun _ wait => by cases wait)
      intro b toB _ _
      -- the futures are those of the pool that was taken
      have pools : ∀ future ∈ b.futures, future.pool = p := by
        refine pools_of_grows toB closes.1 fun future mem => ?_
        rw [closes.2] at mem
        exact Option.some.inj ((sound.one opened future mem).symm.trans pool)
      split
      · rename_i current
        apply wp_step (fun leave => by cases leave) (fun _ wait => by cases wait)
        intro c _ _ _
        apply wp_step (fun leave => by cases leave) (fun _ wait => by cases wait)
        intro d _ _ _
        -- a worker's own call promises nothing to those outside
        refine wp_leave fun outside => ?_
        rw [sem, outside] at current
        cases current
      · exact wp_shutdownWait (toB.closed closes.1) pools

/-- Each call of a caller meets its contract. -/
theorem wp_call (c : Call) : c.code.wp (sem who) (contract who) (fun _ _ => True) s := by
  cases c with
  | submit =>
    rintro a -
    exact ⟨nofun, fun _ => ⟨⟨nofun, nofun⟩, trivial⟩⟩
  | shutdown => exact wp_shutdown

/-- A caller's whole script meets its contract, call by call. -/
theorem wp_code (p : Caller) : p.code.wp (sem who) (contract who) (fun _ _ => True) s := by
  unfold Caller.code
  induction p generalizing s with
  | ret a => trivial
  | fail e => trivial
  | act c k ih =>
    rw [Prog.expand, Prog.wp_bind]
    refine Prog.wp_mono (wp_call c) ?_
    rintro (e | answer) s' -
    · trivial
    · exact ih answer

/-- A worker meets its contract, whatever its task does. -/
theorem wp_work (body : Caller) :
    (work body).wp (sem who) (contract who) (fun _ _ => True) s := by
  apply wp_step (by decide) (fun _ wait => by cases wait)
  intro a _ _ _
  refine Prog.wp_finallyDo (Prog.wp_mono (wp_code body) ?_)
  rintro r b -
  rintro c -
  refine ⟨nofun, fun _ => ⟨⟨nofun, nofun⟩, ?_⟩⟩
  cases r with
  | ok _ => trivial
  | error _ => trivial

/-- The contracts of callers and workers fit together. -/
theorem contracts_compatible : Threads.Compatible sem (contract : Who κ → _) Sound
    (fun _ (_ : Except Unit Unit) _ => True) where
  refl _ s sound := ⟨.refl s, sound⟩
  trans _ _ _ _ h h' := ⟨h.1.trans h'.1, h'.2⟩
  inv _ _ _ sound guar := sound_sem sound guar
  rely _ _ _ _ _ sound guar := ⟨(sem_spec sound.one guar.1).2, sound_sem sound guar⟩
  post _ _ _ _ _ h := h

/-! ## Runs -/

variable [DecidableEq κ]

/-- In every run a closed executor stays closed and hands out nothing more. -/
theorem reaches_grows {a b : State κ} (one : OnePool a.shared)
    (run : (Threads.machine sem).Reaches (Threads.Allows Waits) a b) :
    OnePool b.shared ∧ Grows a.shared b.shared := by
  refine run.invariant (I := fun c => OnePool c.shared ∧ Grows a.shared c.shared) ⟨one, .refl _⟩ ?_
  rintro c who d ⟨oneC, toC⟩ allowed moved
  obtain ⟨o, k, next, rfl⟩ := Threads.perform_eq_some moved
  have forward : o = .start → ¬ AllDone c.shared := by
    intro start
    subst start
    exact not_done_of_waits (allowed _ _ next)
  have spec : OnePool (sem who o c.shared).2 ∧ Grows c.shared (sem who o c.shared).2 :=
    sem_spec oneC forward
  exact ⟨spec.1, toC.trans spec.2⟩

omit [DecidableEq κ] in
/-- At the start there are no futures, and every thread has its contract's program in front of it.
-/
theorem start_sound (callers : κ → Caller) (bodies : Nat → Caller) :
    Threads.Sound sem contract Sound (fun _ (_ : Except Unit Unit) _ => True)
      (start callers bodies) where
  inv :=
    { one := fun _ _ mem => by cases mem
      noted := fun closed => by cases closed
      ended := fun ended => by cases ended }
  each
    | .outside k => wp_code (callers k)
    | .work n => wp_work (bodies n)

/-- When `shutdown` or `close` returns to a thread outside the pool, every future that was handed
out is done, in every run in which each such call takes its turn: none is made while an earlier one
waits, or after a task's own before all tasks are over. And in every run, a `submit` that finds the
executor closed is refused. -/
theorem drained_of_inTurn (callers : κ → Caller) (bodies : Nat → Caller) :
    (∀ s, (Threads.machine sem).Reaches (Threads.Allows InTurn) (start callers bodies) s →
      ∀ i k, s.rest (.outside i) = .act .leave k → AllDone s.shared) ∧
    ∀ a b, (Threads.machine sem).Reaches (Threads.Allows Waits) (start callers bodies) a →
      (Threads.machine sem).Reaches (Threads.Allows Waits) a b → a.shared.closed = true →
        b.shared.closed = true ∧ b.shared.futures.length = a.shared.futures.length := by
  constructor
  · intro s run i k next
    have sound := (start_sound callers bodies).reaches contracts_compatible run
    exact sound.ready contracts_compatible next rfl rfl
  · intro a b first second closed
    obtain ⟨oneA, -⟩ := reaches_grows (a := start callers bodies) (fun _ _ mem => by cases mem) first
    obtain ⟨-, grows⟩ := reaches_grows oneA second
    refine ⟨grows.closed closed, ?_⟩
    simpa using congrArg List.length (grows.handed closed)

/-- One thread submits and shuts down, another shuts down. -/
def twice : State Bool :=
  start (fun first => if first then .act Call.submit fun _ => Prog.op Call.shutdown
    else Prog.op Call.shutdown) fun _ => .ret ()

/-- The second call is made when the first has returned. -/
theorem drained_of_inTurn_twice : ∃ s,
    (Threads.machine sem).Reaches (Threads.Allows InTurn) twice s ∧
      (∃ k, s.rest (.outside false) = .act .leave k) ∧ AllDone s.shared := by
  have ran : ∃ s, (Threads.machine sem).exec (Threads.Allows InTurn)
      [.outside true, .outside true, .outside true, .work 0, .work 0, .outside true, .outside true,
        .outside false] twice = some s :=
    Option.isSome_iff_exists.mp (by decide +kernel)
  obtain ⟨s, run⟩ := ran
  have reached := Machine.reaches_of_exec run
  have returns : ∃ k, s.rest (.outside false) = .act .leave k := by
    cases run
    exact ⟨_, rfl⟩
  obtain ⟨k, next⟩ := returns
  exact ⟨s, reached, ⟨k, next⟩, (drained_of_inTurn _ _).1 s reached false k next⟩

/-- The second call finds the executor closed and is about to return; the future is queued. -/
theorem shutdown_returns_early : ∃ s, (Threads.machine sem).Reaches (Threads.Allows Waits) twice s ∧
    (∃ k, s.rest (.outside false) = .act .leave k) ∧ ¬ AllDone s.shared := by
  have ran : ∃ s ∈ (Threads.machine sem).exec (Threads.Allows Waits)
      [.outside true, .outside true, .outside false] twice,
      ¬ AllDone s.shared := by decide +kernel
  obtain ⟨s, run, early⟩ := ran
  refine ⟨s, Machine.reaches_of_exec run, ?_, early⟩
  cases run
  exact ⟨_, rfl⟩

end TTasks.Submission
