import TTasks.Laws.Scheduler.Steps

/-!
# What `schedule` reads while it holds the lock

The predicates of `_run_inner`, read one operation at a time by a thread that holds the lock
(`Inside`), while the pool's threads move on. A positive answer stands: `ready` gives `Guard`, and
`first_bad_parent` a parent that is past hope. A decision is also the one that the state at its end
calls for, unless some future is still `Open` there.
-/

namespace TTasks.Scheduler

open Interleave
open Prog (Contract Reading Answers)

section Decide

variable {r : Run} {M : Mode r} {a b : Shared} {t d : TaskId} {who : Who} {k : Nat}

/-- The thread holds the lock, and so many calls of `schedule` are in progress. -/
structure Holds (M : Mode r) (who : Who) (k : Nat) (s : Shared) : Prop where
  inv : Inv M s
  mine : s.lock = some who
  scheduling : s.scheduling = k

/-- While the lock is held, the others move only as `Held` allows. -/
theorem Holds.held (h : Holds M who k a) (env : Env M who a b) : Held M a b := env.held h.mine

/-- The holder keeps the lock through any moves of the others. -/
theorem Holds.env (h : Holds M who k a) (env : Env M who a b) : Holds M who k b where
  inv := env.inv
  mine := env.lock.mpr h.mine
  scheduling := (h.held env).scheduling.trans h.scheduling

/-- Every future has its callback. -/
structure Inside (M : Mode r) (who : Who) (k : Nat) (s : Shared) : Prop extends Holds M who k s where
  hooked : ∀ t, s.stage t ≠ .absent → s.callback t ≠ .unregistered

/-- The callbacks are still there after any moves of the others. -/
theorem Inside.env (h : Inside M who k a) (env : Env M who a b) : Inside M who k b where
  toHolds := h.toHolds.env env
  hooked t ht := by
    rw [(h.held env).callback]
    exact h.hooked t fun ha => ht (((h.held env).absent t).mpr ha)

/-- The operations that only look. -/
def Reads : SchedOp → Prop
  | .task (.status _) => True
  | .title _ | .inFutures _ | .futureDone _ | .inErrors _ | .terminal _ | .futures | .live _ => True
  | _ => False

/-- Of these, the ones that the decisions are made of. -/
def Looks : SchedOp → Prop
  | .task (.status _) => True
  | .inFutures _ | .futureDone _ | .inErrors _ | .terminal _ => True
  | _ => False

/-- What decisions look at is only read. -/
theorem Looks.reads {o : SchedOp} (h : Looks o) : Reads o := by
  cases o with
  | task o => cases o <;> exact h
  | _ => first | exact trivial | exact h

/-- The same about one task. -/
def LooksAt (t : TaskId) : SchedOp → Prop
  | .task (.status u) => u = t
  | .inFutures u | .futureDone u | .inErrors u => u = t
  | _ => False

/-- Looking at one task is looking. -/
theorem LooksAt.looks {o : SchedOp} (h : LooksAt t o) : Looks o := by
  cases o with
  | task o => cases o <;> first | exact trivial | exact h
  | _ => first | exact trivial | exact h

/-- Any operation but a few may be performed under the lock. -/
def Plain : SchedOp → Prop
  | .outOfFuel | .finish _ _ | .start _ | .waitDone | .join => False
  | _ => True

/-- A read may be performed under the lock. -/
theorem Reads.plain {o : SchedOp} (h : Reads o) : Plain o := by
  cases o with
  | _ => first | exact trivial | exact h

/-- A thread under the lock is ready for any plain operation that is enabled. -/
theorem Holds.ready (h : Holds M who k a) {o : SchedOp} (plain : Plain o)
    (enabled : o.enabled r a = true) : Ready r who o a where
  fuel is := by subst is; exact plain
  holds _ := ⟨enabled, fun t e is => by subst is; exact plain⟩
  start t is := by subst is; exact plain.elim
  worker t is _ := h.inv.coherent.holder t (is ▸ h.mine)
  wait is := by subst is; exact plain.elim
  join is := by subst is; exact plain.elim
  record _ _ := h.mine
  outside n is := absurd (is ▸ h.mine) (h.inv.coherent.inside n)

/-- A worker that holds the lock is active. -/
theorem Holds.active (h : Holds M who k a) (t : TaskId) (is : who = .worker t) :
    t ∈ a.busy ∨ a.stage t = .queued := .inl (h.inv.coherent.holder t (is ▸ h.mine))

/-- A read changes nothing. -/
theorem perform_reads {o : SchedOp} (h : Reads o) (s : Shared) :
    (SchedOp.perform r who o s).2 = s := by
  cases o with
  | task o => cases o <;> first | exact h.elim | rfl
  | _ => first | exact h.elim | rfl

/-- The reads under the lock are reads in the sense of the library, so its rule for them applies. -/
theorem reading (M : Mode r) (who : Who) (k : Nat) :
    Reading (SchedOp.perform r who) (contract M who) Reads (Holds M who k) where
  refl h := .refl h.inv
  trans h h' := h.trans h'
  stable h env := h.env env
  same a h := perform_reads h a
  ready {o a} h holds := by
    refine holds.ready h.plain ?_
    cases o with
    | _ => first | rfl | exact h.elim
  guar {o a} h holds := by
    show Moved M who a (SchedOp.perform r who o a).2
    rw [perform_reads h a]
    exact .read holds.inv holds.active

/-! ## Where nothing is open, nothing moves -/

/-- What is open stays so under the lock, and where nothing is, the decisions rest on a state that
nobody changes. -/
theorem Holds.still (holds : Holds M who (k + 1) a) (calm : r.cancels = [])
    (env : Env M who a b) : (∃ u, M.Open b u) ∨ Still a b := by
  by_cases opened : ∃ u, M.Open b u
  · exact .inl opened
  · refine .inr ((holds.held env).still env.forward calm fun u submitted => ?_)
    by_contra undone
    have open_ : M.Open a u := Open.not_done holds.inv.coherent submitted (by simpa using undone)
    exact opened ⟨u, (holds.held env).opened (by rw [holds.scheduling]; simp) u open_⟩

/-- What is open when a call of `schedule` begins to look is still open when it has looked. -/
theorem Holds.openStays (holds : Holds M who (k + 1) a) (env : Env M who a b)
    (opened : ∃ u, M.Open a u) : ∃ u, M.Open b u := by
  obtain ⟨u, hu⟩ := opened
  exact ⟨u, (holds.held env).opened (by rw [holds.scheduling]; simp) u hu⟩

/-- Two states that agree on what decisions look at answer alike. -/
theorem Still.answer (still : Still a b) {o : SchedOp} (h : Looks o) :
    (SchedOp.perform r who o b).1 = (SchedOp.perform r who o a).1 := by
  cases o with
  | task o =>
    cases o with
    | status t => exact still.status t
    | _ => exact h.elim
  | inFutures t => exact congrArg (· != Stage.absent) (congrFun still.stage t)
  | futureDone t => exact congrArg Stage.isDone (congrFun still.stage t)
  | inErrors t => exact congrArg Option.isSome (congrFun still.errors t)
  | terminal t => exact congrArg TaskStatus.isTerminal (still.status t)
  | _ => exact h.elim

/-- The program returns under the lock, and what it has seen holds at its end. -/
def Seen {α : Type} (M : Mode r) (who : Who) (k : Nat) (a : Shared) (F : α → Shared → Prop) :
    Except Exc α → Shared → Prop :=
  Prog.Returns fun x b => Holds M who k b ∧ Env M who a b ∧ F x b

/-- What has been seen may be weakened. -/
theorem Seen.mono {α : Type} {F G : α → Shared → Prop} {res : Except Exc α}
    (h : Seen M who k a F res b) (imp : ∀ x, Holds M who k b → Env M who a b → F x b → G x b) :
    Seen M who k a G res b := by
  cases res with
  | error e => exact h
  | ok x => exact ⟨h.1, h.2.1, imp x h.1 h.2.1 h.2.2⟩

/-- A program that has returned has seen what holds where it stands. -/
theorem wp_seen_ret {α : Type} {F : α → Shared → Prop} (holds : Holds M who k a) {x : α}
    (h : F x a) : (Prog.ret x : Sched α).wp (SchedOp.perform r who) (contract M who)
      (Seen M who k a F) a := ⟨holds, .refl holds.inv, h⟩

/-- What is seen first, and what is seen after it. -/
theorem wp_seen_bind {α β : Type} {p : Sched α} {f : α → Sched β} {F : α → Shared → Prop}
    {G : β → Shared → Prop}
    (h : p.wp (SchedOp.perform r who) (contract M who) (Seen M who k a F) a)
    (next : ∀ x b, Holds M who k b → Env M who a b → F x b →
      (f x).wp (SchedOp.perform r who) (contract M who) (Seen M who k b G) b) :
    (p.bind f).wp (SchedOp.perform r who) (contract M who) (Seen M who k a G) a := by
  refine Prog.wp_bind_returns h ?_
  rintro x b ⟨holds, env, hx⟩
  refine Prog.wp_mono (next x b holds env hx) fun res c seen => ?_
  cases res with
  | error e => exact seen
  | ok y => exact ⟨seen.1, env.trans seen.2.1, seen.2.2⟩

/-- One read sees its own answer. -/
theorem wp_look {o : SchedOp} (h : Reads o) (holds : Holds M who k a) :
    (once o).wp (SchedOp.perform r who) (contract M who)
      (Seen M who k a fun x b => x = (SchedOp.perform r who o b).1) a :=
  (reading M who k).wp_act h holds fun _ hb env _ => ⟨hb, env, rfl⟩

/-- A test of the status sees the status at its end. -/
theorem wp_statusIs (p : TaskStatus → Bool) (holds : Holds M who k a) :
    (statusIs p t).wp (SchedOp.perform r who) (contract M who)
      (Seen M who k a fun x b => x = p (b.status t)) a :=
  wp_seen_bind (wp_look trivial holds) fun _ _ hb _ hx => wp_seen_ret hb (by rw [hx]; rfl)

/-- A program of reads sees something. -/
theorem wp_reads {α : Type} {p : Sched α} {P : SchedOp → Prop} (sub : ∀ o, P o → Reads o)
    (only : p.Only P) (holds : Holds M who k a) :
    p.wp (SchedOp.perform r who) (contract M who) (Seen M who k a fun _ _ => True) a := by
  have R := (reading M who k).mono sub
  refine Prog.wp_mono (R.wp_frozen (B := fun _ => True) (fun _ _ => .inl trivial) only holds)
    fun res b returns => ?_
  cases res with
  | error e => exact returns
  | ok x => exact ⟨returns.1, returns.2.1, trivial⟩

/-- A predicate answers for the state at its end, unless something is open there. -/
theorem wp_exact {α : Type} {p : Sched α} (only : p.Only Looks) {f : Shared → α}
    (answers : ∀ s, Answers (SchedOp.perform r who) p s (f s)) (calm : r.cancels = [])
    (holds : Holds M who (k + 1) a) :
    p.wp (SchedOp.perform r who) (contract M who)
      (Seen M who (k + 1) a fun x b => (∃ u, M.Open b u) ∨ x = f b) a := by
  have R := (reading M who (k + 1)).mono fun o (h : Looks o) => h.reads
  refine Prog.wp_mono (R.wp_frozen (B := fun b => ∃ u, M.Open b u)
    (fun h env => (h.still calm env).imp_right fun still o ho => still.answer ho) only holds)
    fun res b returns => ?_
  cases res with
  | error e => exact returns
  | ok x =>
    refine ⟨returns.1, returns.2.1, returns.2.2.imp_right fun ran => ?_⟩
    rw [answers b] at ran
    exact (Except.ok.inj ran).symm

/-! ## The predicates only look -/

section Only

variable {P : SchedOp → Prop}

/-- One operation. -/
theorem only_once {o : SchedOp} (h : P o) : (once o).Only P := ⟨h, fun _ => trivial⟩

/-- A test of the status. -/
theorem only_statusIs (hs : P (.task (.status t))) (p : TaskStatus → Bool) :
    (statusIs p t).Only P := ⟨hs, fun _ => trivial⟩

/-- Whether a task can be retried is read off its status and the futures. -/
theorem only_retryable (hs : P (.task (.status t))) (hf : P (.inFutures t)) :
    (retryableThisRun r t).Only P :=
  (only_once hf).not.and ((only_statusIs hs _).and ((only_statusIs hs _).or (.ret _)))

/-- A status that no retry will change, as `first_bad_parent` and `inactive` ask for it. -/
theorem only_spent (hs : P (.task (.status t))) (hf : P (.inFutures t)) (p : TaskStatus → Bool) :
    ((statusIs p t).and (retryableThisRun r t).not).Only P :=
  (only_statusIs hs p).and (only_retryable hs hf).not

/-- Whether a task is finished is read off its status and its future. -/
theorem only_finished (hs : P (.terminal t)) (hf : P (.inFutures t))
    (hd : P (.futureDone t)) : (finished t).Only P :=
  (only_once hs).or ((only_once hf).and (only_once hd))

end Only

/-- `inactive` only looks. -/
theorem only_inactive (t : TaskId) : (inactive r t).Only Looks := by
  refine (only_once trivial).bind fun known => ?_
  cases known with
  | true => exact only_once trivial
  | false => exact (only_spent trivial trivial _).or (only_once trivial)

/-- `ready` only looks. -/
theorem only_ready (t : TaskId) : (ready r t).Only Looks := by
  unfold ready
  split
  · exact .all only_inactive _
  · exact .all (fun _ => only_statusIs trivial _) _

/-- `first_bad_parent` only looks. -/
theorem only_firstBadParent : ∀ ds : List TaskId, (firstBadParent r ds).Only Looks
  | [] => trivial
  | d :: ds => by
    refine ((only_once trivial).and (only_once trivial).not).bind fun undone => ?_
    cases undone with
    | true => exact only_firstBadParent ds
    | false =>
      refine (only_once trivial).bind fun failed => ?_
      cases failed with
      | true => trivial
      | false =>
        refine (only_spent trivial trivial _).bind fun bad => ?_
        cases bad with
        | true => trivial
        | false => exact only_firstBadParent ds

/-- The end of a decision only looks. -/
theorem only_decideReady (t : TaskId) : (decideReady r t).Only Looks :=
  ((only_ready t).and (only_statusIs trivial _)).bind fun ok => by cases ok <;> trivial

/-- A decision only looks. -/
theorem only_decide (t : TaskId) : (decide r t).Only Looks := by
  refine (only_once trivial).bind fun known => ?_
  cases known with
  | true => trivial
  | false =>
    refine (only_statusIs trivial _).bind fun sink => ?_
    cases sink with
    | true => trivial
    | false =>
      refine ((only_statusIs trivial _).and (.ret _)).bind fun blocked => ?_
      cases blocked with
      | true => trivial
      | false =>
        show Prog.Only Looks (if r.graph.isFinally t = true then _ else _)
        split
        · exact only_decideReady t
        · refine (only_firstBadParent _).bind fun bad => ?_
          cases bad with
          | none => exact only_decideReady t
          | some bad =>
            exact (only_statusIs trivial _).bind fun pending => by cases pending <;> trivial

/-! ## Tasks whose answers stand -/

/-- The task is not submitted, or its future is done. -/
def Settled (s : Shared) (t : TaskId) : Prop := s.stage t = .absent ∨ (s.stage t).isDone = true

/-- A settled task stays settled. -/
theorem Settled.env (settled : Settled a t) (holds : Holds M who k a) (env : Env M who a b) :
    Settled b t :=
  settled.imp ((holds.held env).absent t).mpr env.forward.isDone

/-- Nothing that is asked about a settled task changes, as long as nobody cancels. -/
theorem Settled.answer (settled : Settled a t) (calm : r.cancels = []) (holds : Holds M who k a)
    (env : Env M who a b) {o : SchedOp} (h : LooksAt t o) :
    (SchedOp.perform r who o b).1 = (SchedOp.perform r who o a).1 := by
  have held := holds.held env
  have stage : b.stage t = a.stage t := by
    rcases settled with absent | done
    · rw [absent, (held.absent t).mpr absent]
    · obtain ⟨e, he⟩ := Stage.isDone_iff.mp done
      rw [he, env.forward.ended t e he]
  have status : b.status t = a.status t := by
    rcases settled with absent | done
    · exact held.status calm t absent
    · exact (env.forward.fixed calm t (.inl done)).2.1
  cases o with
  | task o =>
    cases o with
    | status u => cases h; exact status
    | _ => exact h.elim
  | inFutures u => cases h; exact congrArg (· != Stage.absent) stage
  | futureDone u => cases h; exact congrArg Stage.isDone stage
  | inErrors u => cases h; exact congrArg (fun errors => (errors t).isSome) held.errors
  | _ => exact h.elim

/-- A predicate about a settled task answers for the state at its end. -/
theorem wp_settled {α : Type} {p : Sched α} (only : p.Only (LooksAt t)) {f : Shared → α}
    (answers : ∀ s, Answers (SchedOp.perform r who) p s (f s)) (calm : r.cancels = [])
    (holds : Holds M who k a) (settled : Settled a t) :
    p.wp (SchedOp.perform r who) (contract M who)
      (Seen M who k a fun x b => Settled b t ∧ x = f b) a := by
  have base := reading M who k
  have R : Reading (SchedOp.perform r who) (contract M who) (LooksAt t)
      fun s => Holds M who k s ∧ Settled s t :=
    ⟨fun h => base.refl h.1, base.trans, fun h env => ⟨h.1.env env, h.2.env h.1 env⟩,
      fun a h => base.same a h.looks.reads, fun h ha => base.ready h.looks.reads ha.1,
      fun h ha => base.guar h.looks.reads ha.1⟩
  refine Prog.wp_mono (R.wp_frozen (B := fun _ => False)
    (fun h env => .inr fun o ho => h.2.answer calm h.1 env ho) only ⟨holds, settled⟩)
    fun res b returns => ?_
  cases res with
  | error e => exact returns
  | ok x =>
    obtain ⟨⟨holds', settled'⟩, env, ran⟩ := returns
    have ran := ran.resolve_left id
    rw [answers b] at ran
    exact ⟨holds', env, settled', (Except.ok.inj ran).symm⟩

/-- Whether a task is in `_errors` is asked about that task alone. -/
theorem at_errors (t : TaskId) : (inErrors t).Only (LooksAt t) :=
  only_once (show LooksAt t (.inErrors t) from rfl)

/-- Whether a status is spent is asked about that task alone. -/
theorem at_spent (p : TaskStatus → Bool) (t : TaskId) :
    ((statusIs p t).and (retryableThisRun r t).not).Only (LooksAt t) :=
  only_spent (show LooksAt t (.task (.status t)) from rfl) (show LooksAt t (.inFutures t) from rfl) p

/-- A task that is terminal and cannot be retried in this run stays as it is. -/
theorem fixed_of_spent (core : Core r a) (absent : a.stage t = .absent)
    (terminal : (a.status t).isTerminal = true) (spent : retryableAt r a t = false) :
    Fixed r a t := by
  rcases core.absent t absent with same | marked
  · refine .inr (.inl ?_)
    rw [retryableAt, absent, same] at spent
    rw [same] at terminal ⊢
    unfold entering entered at *
    cases h : r.world.status t <;> rw [h] at terminal spent <;>
      first | rfl | exact absurd terminal (by decide) | exact absurd spent (by decide)
  · exact .inr (.inr ⟨absent, marked.blocked, marked.pending⟩)

/-- Only a task that has run is in `_errors`. -/
theorem Coherent.not_in_errors (coherent : Coherent r a) (absent : a.stage t = .absent) :
    a.errors t = none := by
  refine coherent.errors t ?_
  rw [coherent.absent t absent]
  simp

/-- What `first_bad_parent` looks for is a parent that will not become SUCCEEDED. -/
theorem hopeless_of_bad (coherent : Coherent r a) (core : Core r a) (settled : Settled a t)
    (bad : (a.errors t).isSome = true ∨
      ((a.status t).isBad = true ∧ retryableAt r a t = false)) : Hopeless r a t := by
  rcases bad with failed | ⟨bad, spent⟩
  · have invoked : a.callback t = .invoked := by
      by_contra other
      rw [coherent.errors t other] at failed
      cases failed
    obtain ⟨e, done, error⟩ := coherent.invoked t invoked
    refine ⟨.inl (by rw [done]; rfl), ?_⟩
    obtain ⟨status, good⟩ := core.done t e done
    rw [status]
    intro succeeded
    rw [error, good.mpr succeeded] at failed
    cases failed
  · have other : a.status t ≠ .succeeded := by
      intro succeeded
      rw [succeeded] at bad
      cases bad
    refine ⟨settled.elim (fun absent => ?_) .inl, other⟩
    refine fixed_of_spent core absent ?_ spent
    cases h : a.status t <;> rw [h] at bad <;> first | rfl | exact absurd bad (by decide)

/-! ## What the answers of the predicates give -/

/-- What a decision to submit or to mark rests on. -/
structure Grounds (r : Run) (t : TaskId) (decision : Decision) (s : Shared) : Prop where
  submit : decision = .submit →
    s.status t = entered r t ∧ (entered r t).canTransitionTo .running = true ∧ Guard r s t
  block : ∀ parent, decision = .block parent →
    s.status t = .pending ∧ r.graph.isFinally t = false ∧ parent ∈ r.graph.deps t ∧
      Hopeless r s parent

/-- Doing nothing needs no grounds. -/
theorem Grounds.skip : Grounds r t .skip a := ⟨nofun, nofun⟩

section Calm

variable (calm : r.cancels = [])

include calm

/-- A positive `inactive` stands: the task will not run again. -/
theorem wp_inactive (holds : Holds M who k a) :
    (inactive r t).wp (SchedOp.perform r who) (contract M who)
      (Seen M who k a fun x b => x = true → Fixed r b t) a := by
  refine wp_seen_bind (wp_look trivial holds) fun known b hb _ hk => ?_
  cases known with
  | true =>
    refine Prog.wp_mono (wp_look trivial hb) fun res c seen => seen.mono fun x _ _ hx yes => ?_
    exact .inl (hx.symm.trans yes)
  | false =>
    have absent : b.stage t = .absent := by simpa [SchedOp.perform] using hk.symm
    refine Prog.wp_mono (wp_settled (f := fun s => ((s.status t).isTerminal &&
        !retryableAt r s t) || (s.errors t).isSome) (t := t)
      ((at_spent _ t).or (at_errors t)) (fun s => ?_) calm hb (.inl absent))
      fun res c seen => seen.mono fun x hc env hx yes => ?_
    · exact ((answers_statusIs r s who _ t).and (answers_retryable r s who t).not).or
        (answers_inErrors r s who t)
    · have absent := ((hb.held env).absent t).mpr absent
      rw [hx.2, hc.inv.coherent.not_in_errors absent] at yes
      simp only [Option.isSome_none, Bool.or_false, Bool.and_eq_true, Bool.not_eq_true'] at yes
      exact fixed_of_spent (hc.inv.core calm) absent yes.1 yes.2

omit calm in
/-- `all` of a predicate whose positive answer stands. -/
theorem wp_seen_all {f : TaskId → Sched Bool} {P : TaskId → Shared → Prop}
    (sees : ∀ d {a}, Holds M who k a → (f d).wp (SchedOp.perform r who) (contract M who)
      (Seen M who k a fun x b => x = true → P d b) a)
    (stands : ∀ d {a b}, Holds M who k a → Env M who a b → P d a → P d b) :
    ∀ (ds : List TaskId) {a}, Holds M who k a →
      (Prog.all f ds).wp (SchedOp.perform r who) (contract M who)
        (Seen M who k a fun x b => x = true → ∀ d ∈ ds, P d b) a
  | [], _, holds => wp_seen_ret holds fun _ => nofun
  | d :: ds, _, holds => by
    refine wp_seen_bind (sees d holds) fun ok b hb _ hx => ?_
    cases ok with
    | false => exact wp_seen_ret hb nofun
    | true =>
      refine Prog.wp_mono (wp_seen_all sees stands ds hb) fun res c seen =>
        seen.mono fun x _ env rest yes e he => ?_
      rcases List.mem_cons.mp he with rfl | he
      · exact stands e hb env (hx rfl)
      · exact rest yes e he

/-- A positive `ready` stands: the task's guard is met. -/
theorem wp_ready (holds : Holds M who k a) :
    (ready r t).wp (SchedOp.perform r who) (contract M who)
      (Seen M who k a fun x b => x = true → Guard r b t) a := by
  unfold ready
  split
  · rename_i final
    refine Prog.wp_mono (wp_seen_all (fun d _ => wp_inactive calm)
      (fun d _ _ _ env h => (env.forward.fixed calm d h).1) _ holds)
      fun res b seen => seen.mono fun x _ _ all yes => ⟨fun _ => all yes, fun normal => ?_⟩
    rw [final] at normal
    cases normal
  · rename_i normal
    refine Prog.wp_mono (wp_seen_all (P := fun d s => s.status d = .succeeded)
      (fun d a holds => Prog.wp_mono (wp_statusIs _ holds) fun res b seen =>
        seen.mono fun x _ _ hx yes => by simpa [hx] using yes)
      (fun d a b _ env h => ?_) _ holds)
      fun res b seen => seen.mono fun x _ _ all yes =>
        ⟨fun final => absurd final normal, fun _ => all yes⟩
    exact (env.forward.sink d (by rw [h]; rfl)).trans h

/-- A parent that `first_bad_parent` returns is one of the list and past hope. The list is walked
once, and a parent whose future is not done is passed over. -/
theorem wp_firstBadParent : ∀ (ds : List TaskId) {a}, Holds M who k a →
    (firstBadParent r ds).wp (SchedOp.perform r who) (contract M who)
      (Seen M who k a fun x b => ∀ p, x = some p → p ∈ ds ∧ Hopeless r b p) a
  | [], _, holds => wp_seen_ret holds nofun
  | d :: ds, a, holds => by
    have tail : ∀ {b}, Holds M who k b →
        (firstBadParent r ds).wp (SchedOp.perform r who) (contract M who)
          (Seen M who k b fun x c => ∀ p, x = some p → p ∈ d :: ds ∧ Hopeless r c p) b := by
      intro b hb
      refine Prog.wp_mono (wp_firstBadParent ds hb) fun res c seen =>
        seen.mono fun x _ _ rest p hp => ?_
      exact ⟨List.mem_cons_of_mem d (rest p hp).1, (rest p hp).2⟩
    have found : ∀ {b}, Holds M who k b → Hopeless r b d →
        (Prog.ret (some d) : Sched (Option TaskId)).wp (SchedOp.perform r who) (contract M who)
          (Seen M who k b fun x c => ∀ p, x = some p → p ∈ d :: ds ∧ Hopeless r c p) b := by
      intro b hb hopeless
      refine wp_seen_ret hb fun p hp => ?_
      cases hp
      exact ⟨List.mem_cons_self, hopeless⟩
    have first : ((inFutures d).and (futureDone d).not).wp (SchedOp.perform r who)
        (contract M who) (Seen M who k a fun x b => x = false → Settled b d) a := by
      refine wp_seen_bind (wp_look trivial holds) fun known b hb _ hk => ?_
      cases known with
      | false => exact wp_seen_ret hb fun _ => .inl (by simpa [SchedOp.perform] using hk.symm)
      | true =>
        refine wp_seen_bind (wp_look trivial hb) fun done c hc _ hd => wp_seen_ret hc fun no => ?_
        cases done with
        | true => exact .inr hd.symm
        | false => cases no
    refine wp_seen_bind first fun undone b hb _ settled => ?_
    cases undone with
    | true => exact tail hb
    | false =>
      refine wp_seen_bind (wp_settled (at_errors d) (answers_inErrors r · who d) calm hb
        (settled rfl)) fun failed c hc _ ⟨settled, hf⟩ => ?_
      cases failed with
      | true => exact found hc (hopeless_of_bad hc.inv.coherent (hc.inv.core calm) settled (.inl hf.symm))
      | false =>
        refine wp_seen_bind (wp_settled (at_spent _ d) (fun s => (answers_statusIs r s who
          _ d).and (answers_retryable r s who d).not) calm hc settled)
          fun bad e he _ ⟨settled, hbad⟩ => ?_
        cases bad with
        | false => exact tail he
        | true =>
          refine found he (hopeless_of_bad he.inv.coherent (he.inv.core calm) settled (.inr ?_))
          simpa using hbad.symm

/-! ## The decision -/

/-- A task that is submitted at the end of a decision has its guard and a status it can start from.
-/
theorem wp_decideReady (holds : Holds M who k a) (absent : a.stage t = .absent)
    (unmarked : a.status t = entered r t) :
    (decideReady r t).wp (SchedOp.perform r who) (contract M who) (Seen M who k a (Grounds r t)) a := by
  have both : ((ready r t).and (statusIs (·.canTransitionTo .running) t)).wp
      (SchedOp.perform r who) (contract M who) (Seen M who k a fun x b => x = true →
        Guard r b t ∧ (b.status t).canTransitionTo .running = true) a := by
    refine wp_seen_bind (wp_ready calm holds) fun ok b hb _ guard => ?_
    cases ok with
    | false => exact wp_seen_ret hb nofun
    | true =>
      refine Prog.wp_mono (wp_statusIs _ hb) fun res c seen => seen.mono fun x _ env hx yes => ?_
      exact ⟨(guard rfl).forward calm env.forward, hx.symm.trans yes⟩
  refine wp_seen_bind both fun ok b hb env facts => ?_
  cases ok with
  | false => exact wp_seen_ret hb .skip
  | true =>
    obtain ⟨guard, startable⟩ := facts rfl
    have same : b.status t = entered r t :=
      ((holds.held env).status calm t absent).trans unmarked
    exact wp_seen_ret hb ⟨fun _ => ⟨same, same ▸ startable, guard⟩, nofun⟩

/-- A decision has its grounds. -/
theorem wp_grounds (holds : Holds M who k a) :
    (decide r t).wp (SchedOp.perform r who) (contract M who) (Seen M who k a (Grounds r t)) a := by
  refine wp_seen_bind (wp_look trivial holds) fun known b hb _ hk => ?_
  cases known with
  | true => exact wp_seen_ret hb .skip
  | false =>
    have absent : b.stage t = .absent := by simpa [SchedOp.perform] using hk.symm
    refine wp_seen_bind (wp_statusIs _ hb) fun sink c hc env _ => ?_
    cases sink with
    | true => exact wp_seen_ret hc .skip
    | false =>
      have absent := ((hb.held env).absent t).mpr absent
      have marked : ((statusIs (· == .blocked) t).and (.ret (!entering r t))).wp
          (SchedOp.perform r who) (contract M who) (Seen M who k c fun x d =>
            x = false → d.status t = entered r t) c := by
        refine wp_seen_bind (wp_statusIs _ hc) fun blocked d hd env hb => ?_
        have absent := ((hc.held env).absent t).mpr absent
        cases blocked with
        | true =>
          refine wp_seen_ret hd fun no => ?_
          have status : d.status t = .blocked := by simpa using hb.symm
          have entering : r.world.status t = .blocked := by simpa [entering] using no
          rw [status, entered, entering]
        | false =>
          refine wp_seen_ret hd fun _ => ((hd.inv.core calm).absent t absent).resolve_right ?_
          intro marked
          rw [marked.blocked] at hb
          cases hb
      refine wp_seen_bind marked fun blocked d hd env unmarked => ?_
      cases blocked with
      | true => exact wp_seen_ret hd .skip
      | false =>
        have absent := ((hc.held env).absent t).mpr absent
        have unmarked := unmarked rfl
        show Prog.wp _ _ (if r.graph.isFinally t = true then _ else _) _ _
        split
        · exact wp_decideReady calm hd absent unmarked
        · rename_i normal
          refine wp_seen_bind (wp_firstBadParent calm _ hd) fun bad e he env found => ?_
          cases bad with
          | none =>
            exact wp_decideReady calm he (((hd.held env).absent t).mpr absent)
              (((hd.held env).status calm t absent).trans unmarked)
          | some parent =>
            refine wp_seen_bind (wp_statusIs _ he) fun pending f hf env' hp => ?_
            cases pending with
            | false => exact wp_seen_ret hf .skip
            | true =>
              refine wp_seen_ret hf ⟨nofun, ?_⟩
              rintro _ ⟨⟩
              obtain ⟨mem, hopeless⟩ := found parent rfl
              exact ⟨by simpa using hp.symm, by simpa using normal, mem,
                hopeless.forward calm env'.forward⟩

end Calm

/-- What stands at the end of a decision. -/
structure Decided (M : Mode r) (t : TaskId) (decision : Decision) (s : Shared) : Prop where
  absent : decision ≠ .skip → s.stage t = .absent
  grounds : r.cancels = [] → Grounds r t decision s
  exact : r.cancels = [] → (∃ u, M.Open s u) ∨ decision = decisionAt r s t

/-- A decision rests on its grounds, and is the one that the state at its end calls for. -/
theorem wp_decide (holds : Holds M who (k + 1) a) :
    (decide r t).wp (SchedOp.perform r who) (contract M who)
      (Seen M who (k + 1) a (Decided M t)) a := by
  have absent : (decide r t).wp (SchedOp.perform r who) (contract M who)
      (Seen M who (k + 1) a fun d b => d ≠ .skip → b.stage t = .absent) a := by
    refine wp_seen_bind (wp_look trivial holds) fun known b hb _ hk => ?_
    cases known with
    | true => exact wp_seen_ret hb fun h => absurd rfl h
    | false =>
      have absent : b.stage t = .absent := by simpa [SchedOp.perform] using hk.symm
      exact Prog.wp_mono (wp_reads (fun _ h => h.reads) ((only_decide t).2 false) hb) fun res c seen =>
        seen.mono fun _ _ env _ _ => ((hb.held env).absent t).mpr absent
  by_cases calm : r.cancels = []
  · refine Prog.wp_mono (Prog.wp_both absent (Prog.wp_both (wp_grounds calm holds)
      (wp_exact (only_decide t) (fun s => answers_decide r s who t) calm holds)))
      fun res b ⟨absent, grounds, exact_⟩ => ?_
    cases res with
    | error e => exact absent
    | ok d => exact ⟨absent.1, absent.2.1, absent.2.2, fun _ => grounds.2.2, fun _ => exact_.2.2⟩
  · exact Prog.wp_mono absent fun res b seen => seen.mono fun d _ _ absent =>
      ⟨absent, fun h => absurd h calm, fun h => absurd h calm⟩

end Decide

end TTasks.Scheduler
