import TTasks.Laws.Scheduler.Snapshot
import TTasks.Laws.Executor.Undisturbed

/-!
# What the threads of a run may rely on

One contract for each thread of a run. `Inv` is the invariant of the shared state: `Coherent` about
the futures, their callbacks and the lock, and `Core` about the tasks, which holds as long as no
other thread cancels any. `Env` says what a thread may see the others do between two of its
operations, and `Moved` what a thread does with one of its own; `Moved.env` is that the second
gives the first.

A `Mode` is a discipline of runs with what it buys: the completions that stay outside `schedule`
(`restricted`), a no-progress branch that is never taken (`clean`), and submissions that the pool
never refuses (`unrefused`).
-/

namespace TTasks.Scheduler

open Interleave
open Prog (Contract)

/-- A future only moves up. -/
def Stage.rank : Stage → Nat
  | absent => 0
  | queued => 1
  | running => 2
  | done _ => 3

section Definitions

variable (r : Run)

/-! ## Tasks that are settled -/

/-- The task's status will not change again in this run: its future is done, it is in a sink, or it
has been marked BLOCKED. -/
def Fixed (s : Shared) (t : TaskId) : Prop :=
  (s.stage t).isDone = true ∨ (s.status t).isSink = true ∨
    (s.stage t = .absent ∧ s.status t = .blocked ∧ entered r t = .pending)

/-- A dependency that will not become SUCCEEDED. -/
def Hopeless (s : Shared) (d : TaskId) : Prop := Fixed r s d ∧ s.status d ≠ .succeeded

/-- What makes a task ready: for a finally task that its dependencies are settled, for any other
that they are SUCCEEDED. -/
structure Guard (s : Shared) (t : TaskId) : Prop where
  finally_ : r.graph.isFinally t = true → ∀ d ∈ r.graph.deps t, Fixed r s d
  normal : r.graph.isFinally t = false → ∀ d ∈ r.graph.deps t, s.status d = .succeeded

/-- A task that this run has marked BLOCKED. -/
structure Marked (s : Shared) (t : TaskId) : Prop where
  blocked : s.status t = .blocked
  pending : entered r t = .pending
  normal : r.graph.isFinally t = false
  parent : ∃ d ∈ r.graph.deps t, Hopeless r s d

/-- `schedule` finds nothing to do. -/
def AllSkip (s : Shared) : Prop := ∀ t ∈ r.graph.keys, decisionAt r s t = .skip

/-- A submitted task whose `on_finish` has not begun. -/
def Outstanding (s : Shared) (t : TaskId) : Prop := s.stage t ≠ .absent ∧ s.callback t ≠ .invoked

/-! ## The invariant -/

/-- Futures, callbacks and the lock. -/
structure Coherent (s : Shared) : Prop where
  nodup : (s.submitted.map Prod.fst).Nodup
  mem : ∀ t, t ∈ s.submitted.map Prod.fst ↔ s.stage t ≠ .absent
  keys : ∀ t, s.stage t ≠ .absent → t ∈ r.graph.keys
  absent : ∀ t, s.stage t = .absent → s.callback t = .unregistered
  invoked : ∀ t, s.callback t = .invoked → ∃ e, s.stage t = .done e ∧ s.errors t = e
  errors : ∀ t, s.callback t ≠ .invoked → s.errors t = none
  idle : s.lock = none → s.scheduling = 0
  hooked : s.lock = none → ∀ t, s.stage t ≠ .absent → s.callback t ≠ .unregistered
  holder : ∀ t, s.lock = some (.worker t) → t ∈ s.busy
  inside : ∀ n, s.lock ≠ some (.outside n)
  started : ∀ t ∈ s.busy, 2 ≤ (s.stage t).rank

/-- The tasks of a run that nobody cancels from outside. -/
structure Core (s : Shared) : Prop where
  type : ∀ t, (s.world.tasks t).type = (r.world.tasks t).type
  absent : ∀ t, s.stage t = .absent → s.status t = entered r t ∨ Marked r s t
  queued : ∀ t, s.stage t = .queued → s.status t = entered r t
  running : ∀ t, s.stage t = .running → r.executor.passes r.world t (s.status t)
  done : ∀ t e, s.stage t = .done e →
    s.status t = ending r t ∧ (e = none ↔ ending r t = .succeeded)
  submitted : ∀ p ∈ s.submitted, p.2 = r.graph.deps p.1 ∧
    (entered r p.1).canTransitionTo .running = true ∧ Guard r s p.1
  calls : ∃ new, s.world.calls = r.world.calls ++ new ∧ (new.map Prod.fst).Nodup ∧
    ∀ c ∈ new, c.2 = r.graph.deps c.1 ∧ 2 ≤ (s.stage c.1).rank
  shutdown : s.shutdown = true → s.done = true
  finished : s.done = true → s.schedulerErrors = [] → ∀ t ∈ r.graph.keys,
    entered r t = .pending → s.stage t ≠ .absent ∨ s.status t = .blocked

/-! ## Modes -/

/-- A submitted task that the scheduler has still to hear of. -/
def Open (restricted : Bool) (s : Shared) (t : TaskId) : Prop :=
  s.stage t ≠ .absent ∧
    if restricted then (s.stage t).isDone = false else s.callback t ≠ .invoked

/-- A discipline of runs, and what follows from it. -/
structure Mode where
  allow : Discipline
  /-- No future completes while a call of `schedule` is in progress. -/
  restricted : Bool := false
  /-- The no-progress branch is not taken. -/
  clean : Prop := False
  /-- The pool refuses no submission. -/
  unrefused : Prop := False
  finish : restricted = true → ∀ {who t e s}, allow who (.finish t e) s → s.scheduling = 0
  marks : r.cancels ≠ [] → ∀ {who t e s}, allow who (.task (.transition t .blocked e)) s →
    s.status t = .pending ∨ s.done = true ∨ s.shutdown = true ∨ (∃ u, Outstanding s u) ∨
      2 ≤ s.scheduling ∨ who = .main
  submits : unrefused → r.cancels = [] ∧ restricted = false ∧
    ∀ {who t upstream s}, allow who (.poolSubmit t upstream) s → s.shutdown = false
  live : clean → restricted = false → ∀ {who t s}, allow who (.live t) s →
    (∃ u, s.stage u ≠ .absent ∧ (s.stage u).isDone = false) ∨ ∀ u, ¬ Outstanding s u
  unstuck : clean → r.cancels = [] ∧ ∀ s, Coherent r s → Core r s → (∀ t, ¬ Open restricted s t) →
    AllSkip r s → ∀ t ∈ r.graph.keys, finishedAt s t = true

variable {r}

/-- A mode that promises nothing about the no-progress branch. -/
theorem Mode.not_clean (r : Run) (restricted : Bool) : False → r.cancels = [] ∧
    ∀ s, Coherent r s → Core r s → (∀ t, ¬ Scheduler.Open restricted s t) → AllSkip r s →
      ∀ t ∈ r.graph.keys, finishedAt s t = true := False.elim

/-- What is open under the mode. -/
abbrev Mode.Open (M : Mode r) (s : Shared) (t : TaskId) : Prop := Scheduler.Open M.restricted s t

/-- Without a restriction, open is what has still to call back. -/
theorem Mode.open_iff {M : Mode r} (unrestricted : M.restricted = false) {s : Shared} {t : TaskId} :
    M.Open s t ↔ Outstanding s t := by
  simp [Mode.Open, Scheduler.Open, Outstanding, unrestricted]

variable (M : Mode r)

/-- What holds in every state of a run under the mode. -/
structure Inv (s : Shared) : Prop where
  coherent : Coherent r s
  core : r.cancels = [] → Core r s
  clean : M.clean → s.schedulerErrors = []

/-! ## Relations between states -/

/-- What no step undoes. -/
structure Forward (r : Run) (s s' : Shared) : Prop where
  pending : ∀ t, s'.status t = .pending → s.status t = .pending
  blocked : ∀ t, s'.status t = .blocked → s.status t = .blocked ∨ s.status t = .pending
  sink : ∀ t, (s.status t).isSink = true → s'.status t = s.status t
  rank : ∀ t, (s.stage t).rank ≤ (s'.stage t).rank
  ended : ∀ t e, s.stage t = .done e → s'.stage t = .done e
  invoked : ∀ t, s.callback t = .invoked → s'.callback t = .invoked
  done : s.done = true → s'.done = true
  shutdown : s.shutdown = true → s'.shutdown = true
  submitted : s.submitted <+: s'.submitted
  calls : s.world.calls <+: s'.world.calls
  fixed : r.cancels = [] → ∀ t, Fixed r s t → Fixed r s' t ∧ s'.status t = s.status t ∧
    (s.stage t = .absent → s'.stage t = .absent)

/-- What a thread that holds the lock may count on. -/
structure Held (s s' : Shared) : Prop where
  submitted : s'.submitted = s.submitted
  absent : ∀ t, s'.stage t = .absent ↔ s.stage t = .absent
  callback : s'.callback = s.callback
  errors : s'.errors = s.errors
  scheduling : s'.scheduling = s.scheduling
  done : s'.done = s.done
  schedulerErrors : s'.schedulerErrors = s.schedulerErrors
  opened : s.scheduling ≠ 0 → ∀ t, M.Open s t → M.Open s' t
  status : r.cancels = [] → ∀ t, s.stage t = .absent → s'.status t = s.status t

/-- What the pool's thread for a task may count on. -/
structure Own (r : Run) (t : TaskId) (s s' : Shared) : Prop where
  busy : t ∈ s'.busy ↔ t ∈ s.busy
  waiting : (s.stage t).rank ≤ 1 → (s'.stage t).rank ≤ 1
  running : s.stage t = .running → s'.stage t = .running
  callback : (s.stage t).isDone = true → s.callback t ≠ .registered → s'.callback t ≠ .registered
  task : r.cancels = [] → s.stage t = .running → Untouched t s.world s'.world

/-- Once the first `schedule` is over: the lock is taken, or the run is over, or a callback is still
to come. -/
def Left (s : Shared) : Prop :=
  s.lock ≠ none ∨ s.done = true ∨ s.shutdown = true ∨ ∃ t, Outstanding s t

/-- The lock is taken, or a callback is still to come, or nothing is left to do. -/
def Quiescent (r : Run) (s : Shared) : Prop :=
  s.lock ≠ none ∨ (∃ t, Outstanding s t) ∨ AllSkip r s

/-- The pool is empty. -/
structure Joined (s : Shared) : Prop where
  busy : s.busy = []
  done : ∀ t, s.stage t ≠ .absent → (s.stage t).isDone = true

/-- What the thread that called `run` may count on. -/
structure Kept (s s' : Shared) : Prop where
  shutdown : s'.shutdown = s.shutdown
  left : Left s → Left s'
  quiescent : M.unrefused → Quiescent r s → Quiescent r s'
  joined : Joined s → Joined s' ∧ (s.lock = none → s'.schedulerErrors = s.schedulerErrors)

/-- What the thread may see the others do. -/
structure Env (who : Who) (s s' : Shared) : Prop where
  inv : Inv M s'
  forward : Forward r s s'
  lock : s'.lock = some who ↔ s.lock = some who
  held : s.lock = some who → Held M s s'
  own : ∀ t, who = .worker t → Own r t s s'
  main : who = .main → Kept M s s'

/-- What the thread does in one operation. -/
structure Moved (who : Who) (s s' : Shared) : Prop where
  inv : Inv M s'
  forward : Forward r s s'
  lock : s'.lock = s.lock ∨
    (s.lock = none ∨ s.lock = some who) ∧ (s'.lock = none ∨ s'.lock = some who)
  held : s.lock ≠ some who → Held M s s'
  own : ∀ t, who ≠ .worker t → Own r t s s'
  active : ∀ t, who = .worker t → t ∈ s.busy ∨ s.stage t = .queued
  outside : ∀ n, who = .outside n → s'.stage = s.stage ∧ s'.busy = s.busy
  shutdown : who ≠ .main → s'.shutdown = s.shutdown
  released : who ≠ .main → s.lock = some who → s'.lock = none →
    Left s' ∧ (M.unrefused → Quiescent r s')

/-- Where the thread is when it is about to perform an operation. -/
structure Ready (r : Run) (who : Who) (o : SchedOp) (s : Shared) : Prop where
  fuel : o ≠ .outOfFuel
  holds : s.lock = some who → o.enabled r s = true ∧ ∀ t e, o ≠ .finish t e
  start : ∀ t, o = .start t → who = .worker t ∧ t ∉ s.busy ∧ (s.stage t).rank ≤ 1
  worker : ∀ t, who = .worker t → o ≠ .start t → t ∈ s.busy
  wait : o = .waitDone → who = .main ∧ Left s ∧ s.shutdown = false ∧ s.lock ≠ some .main
  join : o = .join → who = .main
  record : ∀ t, o = .recordException t → s.lock = some who
  outside : ∀ n, who = .outside n → ∃ o', o = .task o'

/-- Each thread keeps the invariant and moves as the others expect. -/
def contract (who : Who) : Contract SchedOp Shared where
  rely := Env M who
  ready := Ready r who
  allow o s := o.enabled r s = true ∧ M.allow who o s
  guar o s := Moved M who s (SchedOp.perform r who o s).2

end Definitions

/-! ## The relations are preorders -/

section Relations

variable {r : Run} {M : Mode r} {s s' s'' : Shared} {t : TaskId} {who : Who}

/-- A submitted task whose future is not done is open in either sense. -/
theorem Open.not_done {restricted : Bool} (coherent : Coherent r s) (submitted : s.stage t ≠ .absent)
    (undone : (s.stage t).isDone = false) : Open restricted s t := by
  refine ⟨submitted, ?_⟩
  split
  · exact undone
  · intro invoked
    obtain ⟨e, done, -⟩ := coherent.invoked t invoked
    rw [done] at undone
    cases undone

/-- A future that is done has ended in some way. -/
theorem Stage.isDone_iff {g : Stage} : g.isDone = true ↔ ∃ e, g = .done e := by
  cases g <;> simp [Stage.isDone]

/-- The lowest rank is that of a task which is not submitted. -/
theorem Stage.rank_eq_zero {g : Stage} : g.rank = 0 ↔ g = .absent := by
  cases g <;> simp [Stage.rank]

/-- Nothing has been undone yet. -/
theorem Forward.refl (r : Run) (s : Shared) : Forward r s s where
  pending _ h := h
  blocked _ h := .inl h
  sink _ _ := rfl
  rank _ := le_refl _
  ended _ _ h := h
  invoked _ h := h
  done h := h
  shutdown h := h
  submitted := List.prefix_refl _
  calls := List.prefix_refl _
  fixed _ _ h := ⟨h, rfl, id⟩

/-- What neither of two steps undoes, both together leave. -/
theorem Forward.trans (h : Forward r s s') (h' : Forward r s' s'') : Forward r s s'' where
  pending t hp := h.pending t (h'.pending t hp)
  blocked t hb := (h'.blocked t hb).elim (h.blocked t) fun hp => .inr (h.pending t hp)
  sink t hs := by
    have same := h.sink t hs
    exact (h'.sink t (same ▸ hs)).trans same
  rank t := (h.rank t).trans (h'.rank t)
  ended t e hd := h'.ended t e (h.ended t e hd)
  invoked t hi := h'.invoked t (h.invoked t hi)
  done hd := h'.done (h.done hd)
  shutdown hd := h'.shutdown (h.shutdown hd)
  submitted := h.submitted.trans h'.submitted
  calls := h.calls.trans h'.calls
  fixed calm t hf := by
    obtain ⟨fixed, status, absent⟩ := h.fixed calm t hf
    obtain ⟨fixed', status', absent'⟩ := h'.fixed calm t fixed
    exact ⟨fixed', status'.trans status, fun ha => absent' (absent ha)⟩

/-- A future that is done stays done. -/
theorem Forward.isDone (h : Forward r s s') (done : (s.stage t).isDone = true) :
    (s'.stage t).isDone = true := by
  obtain ⟨e, he⟩ := Stage.isDone_iff.mp done
  exact Stage.isDone_iff.mpr ⟨e, h.ended t e he⟩

/-- The holder of the lock sees no change in no step. -/
theorem Held.refl (M : Mode r) (s : Shared) : Held M s s where
  submitted := rfl
  absent _ := .rfl
  callback := rfl
  errors := rfl
  scheduling := rfl
  done := rfl
  schedulerErrors := rfl
  opened _ _ h := h
  status _ _ _ := rfl

/-- Under the lock, two stretches of moves by the others are one. -/
theorem Held.trans (h : Held M s s') (h' : Held M s' s'') : Held M s s'' where
  submitted := h'.submitted.trans h.submitted
  absent t := (h'.absent t).trans (h.absent t)
  callback := h'.callback.trans h.callback
  errors := h'.errors.trans h.errors
  scheduling := h'.scheduling.trans h.scheduling
  done := h'.done.trans h.done
  schedulerErrors := h'.schedulerErrors.trans h.schedulerErrors
  opened some t ho := h'.opened (h.scheduling ▸ some) t (h.opened some t ho)
  status calm t ha := (h'.status calm t ((h.absent t).mpr ha)).trans (h.status calm t ha)

/-- Under the lock, nobody else calls back for good. -/
theorem Held.outstanding (h : Held M s s') : (∃ t, Outstanding s' t) ↔ ∃ t, Outstanding s t := by
  simp only [Outstanding, h.callback, ne_eq, h.absent]

/-- Nothing has happened to the task yet. -/
theorem Own.refl (r : Run) (t : TaskId) (s : Shared) : Own r t s s where
  busy := .rfl
  waiting h := h
  running h := h
  callback _ h := h
  task _ _ := ⟨rfl, rfl⟩

/-- A worker's own part through two stretches. -/
theorem Own.trans (forward : Forward r s s') (h : Own r t s s') (h' : Own r t s' s'') :
    Own r t s s'' where
  busy := h'.busy.trans h.busy
  waiting hw := h'.waiting (h.waiting hw)
  running hr := h'.running (h.running hr)
  callback hd hc := h'.callback (forward.isDone hd) (h.callback hd hc)
  task calm hr := by
    have first := h.task calm hr
    have second := h'.task calm (h.running hr)
    exact ⟨second.task.trans first.task, second.calls.trans first.calls⟩

/-- The main thread sees no change in no step. -/
theorem Kept.refl (M : Mode r) (s : Shared) : Kept M s s where
  shutdown := rfl
  left h := h
  quiescent _ h := h
  joined h := ⟨h, fun _ => rfl⟩

/-- The others may do nothing. -/
theorem Env.refl (inv : Inv M s) : Env M who s s where
  inv := inv
  forward := .refl r s
  lock := .rfl
  held _ := .refl M s
  own t _ := .refl r t s
  main _ := .refl M s

/-- Where the pool is empty, the lock is free or with the thread that called `run`. -/
theorem Joined.lock (joined : Joined s) (coherent : Coherent r s) :
    s.lock = none ∨ s.lock = some .main := by
  cases lock : s.lock with
  | none => exact .inl rfl
  | some who =>
    cases who with
    | main => exact .inr rfl
    | worker t =>
      have := coherent.holder t lock
      rw [joined.busy] at this
      cases this
    | outside n => exact absurd lock (coherent.inside n)

/-- Two stretches of moves by the others are one. -/
theorem Env.trans (h : Env M who s s') (h' : Env M who s' s'') : Env M who s s'' where
  inv := h'.inv
  forward := h.forward.trans h'.forward
  lock := h'.lock.trans h.lock
  held hl := (h.held hl).trans (h'.held (h.lock.mpr hl))
  own t hw := (h.own t hw).trans h.forward (h'.own t hw)
  main hm := by
    have first := h.main hm
    have second := h'.main hm
    subst hm
    refine ⟨second.shutdown.trans first.shutdown, fun hl => second.left (first.left hl),
      fun hu hq => second.quiescent hu (first.quiescent hu hq), fun hj => ?_⟩
    obtain ⟨joined, errors⟩ := first.joined hj
    obtain ⟨joined', errors'⟩ := second.joined joined
    refine ⟨joined', fun free => (errors' ?_).trans (errors free)⟩
    rcases joined.lock h.inv.coherent with hn | hn
    · exact hn
    · rw [h.lock.mp hn] at free
      cases free

/-! ## States in which nothing moves -/

/-- What the predicates of `_run_inner` look at is the same. -/
structure Still (s s' : Shared) : Prop where
  stage : s'.stage = s.stage
  status : ∀ t, s'.status t = s.status t
  errors : s'.errors = s.errors

/-- Whether a task can be retried is the same in both states. -/
theorem Still.retryableAt (h : Still s s') (t : TaskId) :
    retryableAt r s' t = retryableAt r s t := by
  simp only [Scheduler.retryableAt, h.stage, h.status]

/-- The decision about a task is the same in both states. -/
theorem Still.decisionAt (h : Still s s') (t : TaskId) : decisionAt r s' t = decisionAt r s t := by
  have inactive : inactiveAt r s' = inactiveAt r s := by
    funext u
    simp only [inactiveAt, h.stage, h.status, h.errors, h.retryableAt]
  have bad : badAt r s' = badAt r s := by
    funext u
    simp only [badAt, h.stage, h.status, h.errors, h.retryableAt]
  have status : s'.status = s.status := funext h.status
  have ready : decisionReadyAt r s' t = decisionReadyAt r s t := by
    unfold decisionReadyAt readyAt
    rw [status, inactive]
  unfold Scheduler.decisionAt
  rw [h.stage, status, bad, ready]

/-- Whether a task is finished is the same in both states. -/
theorem Still.finishedAt (h : Still s s') (t : TaskId) : finishedAt s' t = finishedAt s t := by
  simp only [Scheduler.finishedAt, h.stage, h.status]

/-- Where there was nothing to do, there still is nothing. -/
theorem Still.allSkip (h : Still s s') (skip : AllSkip r s) : AllSkip r s' :=
  fun t ht => (h.decisionAt t).trans (skip t ht)

/-- Where every future is done, only the scheduler itself can change what it looks at. -/
theorem Held.still (held : Held M s s') (forward : Forward r s s') (calm : r.cancels = [])
    (done : ∀ t, s.stage t ≠ .absent → (s.stage t).isDone = true) : Still s s' where
  stage := by
    funext t
    by_cases absent : s.stage t = .absent
    · rw [absent, (held.absent t).mpr absent]
    · obtain ⟨e, he⟩ := Stage.isDone_iff.mp (done t absent)
      rw [he, forward.ended t e he]
  status t := by
    by_cases absent : s.stage t = .absent
    · exact held.status calm t absent
    · exact (forward.fixed calm t (.inl (done t absent))).2.1
  errors := held.errors

/-- A task whose `on_finish` has begun is done. -/
theorem Coherent.done_of_none (coherent : Coherent r s) (none : ¬ ∃ t, Outstanding s t)
    (submitted : s.stage t ≠ .absent) : (s.stage t).isDone = true := by
  have invoked : s.callback t = .invoked := by
    by_contra other
    exact none ⟨t, submitted, other⟩
  obtain ⟨e, he, -⟩ := coherent.invoked t invoked
  exact Stage.isDone_iff.mpr ⟨e, he⟩

/-- A callback to come, or nothing left to do: that stays so while the lock is held. -/
theorem Held.quiet (held : Held M s s') (forward : Forward r s s') (calm : r.cancels = [])
    (coherent : Coherent r s) (quiet : (∃ t, Outstanding s t) ∨ AllSkip r s) :
    (∃ t, Outstanding s' t) ∨ AllSkip r s' := by
  by_cases outstanding : ∃ t, Outstanding s t
  · exact .inl (held.outstanding.mpr outstanding)
  · refine .inr (Still.allSkip ?_ (quiet.resolve_left outstanding))
    exact held.still forward calm fun t => coherent.done_of_none outstanding

/-! ## What one thread does is what the others may see -/

/-- For the thread that called `run`. -/
theorem Moved.kept (moved : Moved M who s s') (inv : Inv M s) (other : who ≠ .main) :
    Kept M s s' where
  shutdown := moved.shutdown other
  left left := by
    by_cases mine : s.lock = some who
    · cases free : s'.lock with
      | none => exact (moved.released other mine free).1
      | some _ => exact .inl (by rw [free]; simp)
    · have held := moved.held mine
      rcases left with taken | done | shutdown | outstanding
      · refine .inl fun free => taken ?_
        rcases moved.lock with same | ⟨none | own, -⟩
        · exact same.symm.trans free
        · exact none
        · exact absurd own mine
      · exact .inr (.inl (held.done.trans done))
      · exact .inr (.inr (.inl ((moved.shutdown other).trans shutdown)))
      · exact .inr (.inr (.inr (held.outstanding.mpr outstanding)))
  quiescent unrefused quiescent := by
    by_cases mine : s.lock = some who
    · cases free : s'.lock with
      | none => exact (moved.released other mine free).2 unrefused
      | some _ => exact .inl (by rw [free]; simp)
    · rcases quiescent with taken | quiet
      · refine .inl fun free => taken ?_
        rcases moved.lock with same | ⟨none | own, -⟩
        · exact same.symm.trans free
        · exact none
        · exact absurd own mine
      · exact .inr ((moved.held mine).quiet moved.forward (M.submits unrefused).1 inv.coherent quiet)
  joined joined := by
    have outside : s'.stage = s.stage ∧ s'.busy = s.busy := by
      cases who with
      | main => exact absurd rfl other
      | outside n => exact moved.outside n rfl
      | worker t =>
        rcases moved.active t rfl with busy | queued
        · rw [joined.busy] at busy; cases busy
        · have := joined.done t (by rw [queued]; simp)
          rw [queued] at this; cases this
    refine ⟨⟨outside.2.trans joined.busy, ?_⟩, fun free => ?_⟩
    · rw [outside.1]; exact joined.done
    · exact (moved.held (by rw [free]; simp)).schedulerErrors

/-- What one thread guarantees is what every other relies on. -/
theorem Moved.env {who' : Who} (moved : Moved M who s s') (inv : Inv M s) (other : who' ≠ who) :
    Env M who' s s' where
  inv := moved.inv
  forward := moved.forward
  lock := by
    rcases moved.lock with same | ⟨before, after⟩
    · rw [same]
    · have ne : who ≠ who' := Ne.symm other
      constructor
      · intro mine; rcases after with h | h <;> rw [h] at mine <;> cases mine; exact absurd rfl ne
      · intro mine; rcases before with h | h <;> rw [h] at mine <;> cases mine; exact absurd rfl ne
  held mine := moved.held (by rw [mine]; exact fun same => other (Option.some.inj same))
  own t is := moved.own t (is ▸ Ne.symm other)
  main is := moved.kept inv (is ▸ Ne.symm other)

end Relations

/-! ## Postconditions -/

/-- What holds of a thread that is over. -/
def Over (M : Mode r) (who : Who) (result : Except Exc Unit) (s : Shared) : Prop :=
  match who with
  | .main => Joined s ∧ s.lock = none ∧
    match result with
    | .ok _ => (r.graph.keys ≠ [] → (r.cancels = [] → s.done = true) ∧ s.schedulerErrors = [] ∧
        (M.unrefused → Quiescent r s))
    | .error _ => r.cancels = [] → s.schedulerErrors ≠ []
  | .worker t => (s.stage t).isDone = true ∧ t ∉ s.busy ∧ s.callback t ≠ .registered
  | .outside _ => True

end TTasks.Scheduler
