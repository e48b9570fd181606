import TTasks.Laws.Scheduler.Beside
import TTasks.Laws.Scheduler.Once

/-!
# The log of a run

What the events delivered so far say of the tasks that are submitted: before a task leaves `absent`,
each dependency that it waits for is out of the run or has had its terminal event (`Chronicle`).
`Chronicle.step` is that an operation keeps this, if its thread announces what it should
(`Announces`) and submits no task between the last write of a dependency's status and its event
(`afterNews`).
-/

namespace TTasks.Scheduler

open Interleave
open Prog (Contract Keeps OpKeeps)

section Definitions

variable (r : Run)

/-- The events delivered in this run. -/
def news (s : Shared) : List Delivery := s.world.deliveries.drop r.world.deliveries.length

/-- Among the events is one that reports how the task ended; a store that accepts its saves had the
task so by then. -/
def Reported (log : List Delivery) (t : TaskId) : Prop :=
  ∃ d ∈ log, d.event.taskId = t ∧ d.event.type.status = some d.event.status ∧
    d.event.status.isTerminal = true ∧ (r.executor.Saves → d.Stored)

/-- Before each STARTED event come the terminal events of the dependencies that are executed in this
run. -/
def InOrder (s : Shared) : Prop :=
  ∀ before d after, news r s = before ++ d :: after → d.event.type = .started →
    ∀ u ∈ r.graph.deps d.event.taskId, Submitted s u → Reported r before u

/-- The task's thread has written the status in which the task ends, and not yet published it. -/
def Unreported (s : Shared) (t : TaskId) : Prop :=
  s.stage t = .running ∧ (s.status t).isSink = true ∧
    ∀ d ∈ news r s, d.event.taskId = t → d.event.type.status ≠ some (s.status t)

/-- No task is submitted between the write of a dependency's last status and its event. -/
def afterNews : Discipline := fun _ o s =>
  ∀ t upstream, o = .poolSubmit t upstream → ∀ u ∈ upstream, ¬ Unreported r s u

variable {r}

/-- The mode of the runs in which events come before what they let start. -/
def Mode.afterNews (calm : r.cancels = []) : Mode r where
  allow := Scheduler.afterNews r
  restricted := false
  finish := nofun
  marks stirred := absurd calm stirred
  submits := False.elim
  live := False.elim
  unstuck := Mode.not_clean r false

variable (r)

/-- Other threads have published nothing about the task's lifecycle, and saved nothing. -/
structure Apart (t : TaskId) (w w' : World) : Prop where
  stored : w'.stored t = w.stored t
  events : ∃ extra, w'.deliveries = w.deliveries ++ extra ∧
    ∀ d ∈ extra, (d.event.taskId == t && d.event.type.status.isSome) = false

/-- The dependency is not executed in this run, or its terminal event is out. -/
def Cleared (s : Shared) (log : List Delivery) (u : TaskId) : Prop :=
  (s.stage u = .absent ∧ Fixed r s u) ∨ Reported r log u

/-- Dependencies whose terminal events are waited for. -/
def Awaited (t u : TaskId) : Prop :=
  u ∈ r.graph.deps t ∧ (r.graph.isFinally t = true → Ordinary r u)

/-- What is true of the log at every point of a run. -/
structure Chronicle (s : Shared) : Prop where
  started : r.world.deliveries <+: s.world.deliveries
  done : ∀ t e, s.stage t = .done e → Ordinary r t → Reported r (news r s) t
  spoken : ∀ d ∈ news r s, Ordinary r d.event.taskId → d.event.type ≠ .blocked →
    d.event.type ≠ .started → d.event.type.status.isSome = true → Reported r [d] d.event.taskId
  cleared : ∀ t u, s.stage t ≠ .absent → Awaited r t u → Cleared r s (news r s) u
  ordered : ∀ before d after, news r s = before ++ d :: after → d.event.type = .started →
    ∀ u, Awaited r d.event.taskId u → Cleared r s before u

/-- What a thread shows of the log with its operations. -/
structure Announces (who : Who) (o : SchedOp) (s : Shared) : Prop where
  apart : ∀ t, who ≠ .worker t → s.stage t = .running →
    Apart t s.world (SchedOp.perform r who o s).2.world
  started : ∀ t e, o = .task (.deliver t e) → e.type = .started → s.stage e.taskId ≠ .absent
  spoken : ∀ t e, o = .task (.deliver t e) → Ordinary r e.taskId → e.type ≠ .blocked →
    e.type ≠ .started → e.type.status.isSome = true →
      Reported r [⟨e, s.world.tasks t, s.world.stored t⟩] e.taskId
  finish : ∀ t e, o = .finish t e → Ordinary r t → Reported r (news r s) t
  submit : ∀ t upstream, o = .poolSubmit t upstream → ∀ u ∈ upstream, ¬ Unreported r s u

/-- The log, beside the first contracts. -/
def chronicle : Beside where
  inv := Chronicle r
  rely who s s' := s.world.deliveries <+: s'.world.deliveries ∧
    ∀ t, who = .worker t → s.stage t = .running → Apart t s.world s'.world
  guar := Announces r

end Definitions

section Order

variable {r : Run} {M : Mode r} {a b s s' : Shared} {t u : TaskId} {who : Who} {w w' : World}
  {o : SchedOp}

/-! ## The log only grows -/

/-- What has been reported stays so as the log grows. -/
theorem Reported.mono {log log' : List Delivery} (h : Reported r log t) (sub : ∀ d ∈ log, d ∈ log') :
    Reported r log' t := by
  obtain ⟨d, hd, rest⟩ := h
  exact ⟨d, sub d hd, rest⟩

/-- The deliveries that an operation adds. -/
def uttered : SchedOp → Shared → List Delivery
  | .task (.deliver t e), s => [⟨e, s.world.tasks t, s.world.stored t⟩]
  | _, _ => []

/-- An operation adds to the log what it utters. -/
theorem perform_deliveries (r : Run) (who : Who) (o : SchedOp) (s : Shared) :
    (SchedOp.perform r who o s).2.world.deliveries = s.world.deliveries ++ uttered o s := by
  cases o with
  | task o =>
    cases o with
    | transition t target message =>
      simp only [SchedOp.perform, TaskOp.perform, uttered, List.append_nil]
      split <;> rfl
    | save t =>
      simp only [SchedOp.perform, TaskOp.perform, uttered, List.append_nil]
      split <;> rfl
    | deliver t e => rfl
    | _ => exact (List.append_nil _).symm
  | poolSubmit t upstream =>
    simp only [SchedOp.perform, uttered, List.append_nil]
    split <;> rfl
  | addDoneCallback t =>
    simp only [SchedOp.perform, uttered, List.append_nil]
    split <;> rfl
  | recordException t =>
    simp only [SchedOp.perform, uttered, List.append_nil]
    split <;> rfl
  | _ => exact (List.append_nil _).symm

/-- An operation adds one delivery at most. -/
theorem uttered_cases (o : SchedOp) (s : Shared) : uttered o s = [] ∨
    ∃ t e, o = .task (.deliver t e) ∧ uttered o s = [⟨e, s.world.tasks t, s.world.stored t⟩] := by
  cases o with
  | task o =>
    cases o with
    | deliver t e => exact .inr ⟨t, e, rfl, rfl⟩
    | _ => exact .inl rfl
  | _ => exact .inl rfl

/-- The events of the run, after an operation. -/
theorem news_perform (started : r.world.deliveries <+: s.world.deliveries) (o : SchedOp) :
    news r (SchedOp.perform r who o s).2 = news r s ++ uttered o s := by
  unfold news
  rw [perform_deliveries, List.drop_append_of_le_length started.length_le]

/-- What an operation does to the stages: a submission, a start and the end of a call move one. -/
theorem perform_stage (r : Run) (who : Who) (o : SchedOp) (s : Shared) (t : TaskId) :
    (SchedOp.perform r who o s).2.stage t = s.stage t ∨
      (∃ upstream, o = .poolSubmit t upstream ∧ s.shutdown = false ∧
        (SchedOp.perform r who o s).2.stage t = .queued) ∨
      (o = .start t ∧ (SchedOp.perform r who o s).2.stage t = .running) ∨
      ∃ e, o = .finish t e ∧ (SchedOp.perform r who o s).2.stage t = .done e := by
  have update : ∀ u g, u = t ∨ Function.update s.stage u g t = s.stage t := by
    intro u g
    by_cases same : u = t
    · exact .inl same
    · exact .inr (Function.update_of_ne (Ne.symm same) ..)
  cases o with
  | poolSubmit u upstream =>
    simp only [SchedOp.perform]
    split
    · exact .inl rfl
    · rename_i opened
      rcases update u .queued with rfl | same
      · exact .inr (.inl ⟨upstream, rfl, by simpa using opened, Function.update_self ..⟩)
      · exact .inl same
  | addDoneCallback u =>
    simp only [SchedOp.perform]
    split <;> exact .inl rfl
  | recordException u =>
    simp only [SchedOp.perform]
    split <;> exact .inl rfl
  | start u =>
    rcases update u .running with rfl | same
    · exact .inr (.inr (.inl ⟨rfl, Function.update_self ..⟩))
    · exact .inl same
  | finish u e =>
    rcases update u (.done e) with rfl | same
    · exact .inr (.inr (.inr ⟨e, rfl, Function.update_self ..⟩))
    · exact .inl same
  | _ => exact .inl rfl

/-! ## A step keeps the chronicle -/

/-- A dependency that is cleared stays so. -/
theorem Cleared.mono {log log' : List Delivery} (calm : r.cancels = []) (forward : Forward r s s')
    (h : Cleared r s log u) (sub : ∀ d ∈ log, d ∈ log') : Cleared r s' log' u := by
  rcases h with ⟨absent, fixed⟩ | reported
  · obtain ⟨fixed', -, stays⟩ := forward.fixed calm u fixed
    exact .inl ⟨stays absent, fixed'⟩
  · exact .inr (reported.mono sub)

/-- A task that ends SUCCEEDED has a handler that returns. -/
theorem Ordinary.of_succeeded (h : ending r t = .succeeded) : Ordinary r t := by
  intro registered
  unfold ending Executor.ending at h
  rw [if_pos registered] at h
  unfold HandlerCall.ending at h
  split at h
  · cases h
  · cases outcome : (r.executor.behaviour t (r.world.callCount t)).outcome with
    | returns raw => rfl
    | raises e =>
      rw [outcome] at h
      cases e <;> cases h

/-- An event that reports a sink is neither BLOCKED nor STARTED. -/
theorem type_of_sink {type : TaskEventType} {status : TaskStatus} (named : type.status = some status)
    (sink : status.isSink = true) : type ≠ .blocked ∧ type ≠ .started := by
  constructor <;> rintro rfl <;> rw [← Option.some.inj named] at sink <;> cases sink

/-- A dependency that lets a task be submitted is out of the run, or its terminal event is out. -/
theorem cleared_of_submit (inv : Inv M s) (inv' : Inv M s') (calm : r.cancels = [])
    (chronicle : Chronicle r s) (status : ∀ u, s'.status u = s.status u)
    (queued : s'.stage t = .queued) (other : ∀ u, u ≠ t → s'.stage u = s.stage u)
    (guard : Guard r s' t) (awaited : Awaited r t u) (reported : ¬ Unreported r s u) :
    Cleared r s' (news r s) u := by
  have core := inv.core calm
  have core' := inv'.core calm
  obtain ⟨mem, ordinary⟩ := awaited
  -- the dependency is settled, and one of a task that is not a finally task has SUCCEEDED
  have settled : Fixed r s' u ∧ (r.graph.isFinally t = false → s'.status u = .succeeded) := by
    cases kind : r.graph.isFinally t with
    | true => exact ⟨guard.finally_ kind u mem, by simp⟩
    | false =>
      have succeeded := guard.normal kind u mem
      exact ⟨.inr (.inl (by rw [succeeded]; rfl)), fun _ => succeeded⟩
  obtain ⟨fixed, succeeded⟩ := settled
  have ordinary : s'.status u = ending r u → Ordinary r u := by
    intro ends
    cases kind : r.graph.isFinally t with
    | true => exact ordinary kind
    | false => exact .of_succeeded (ends.symm.trans (succeeded kind))
  -- a submitted task entered with a status that is no sink
  have entered_open : s'.stage u ≠ .absent → (entered r u).isSink = false := by
    intro submitted
    obtain ⟨p, hp, rfl⟩ := List.mem_map.mp ((inv'.coherent.mem u).mpr submitted)
    exact TaskStatus.isSink_of_canTransitionTo (core'.submitted p hp).2.1
  cases stage : s'.stage u with
  | absent => exact .inl ⟨stage, fixed⟩
  | queued =>
    have open_ := entered_open (by rw [stage]; simp)
    rw [← core'.queued u stage] at open_
    rcases fixed with done | sink | ⟨absent, -⟩
    · rw [stage] at done; cases done
    · rw [open_] at sink; cases sink
    · rw [stage] at absent; cases absent
  | running =>
    have sink : (s'.status u).isSink = true := by
      rcases fixed with done | sink | ⟨absent, -⟩
      · rw [stage] at done; cases done
      · exact sink
      · rw [stage] at absent; cases absent
    have open_ := entered_open (by rw [stage]; simp)
    have apart : u ≠ t := by
      rintro rfl
      rw [queued] at stage
      cases stage
    have ends : s'.status u = ending r u := by
      rcases core'.running u stage with same | same | same
      · change s'.status u = entered r u at same
        rw [same, open_] at sink
        cases sink
      · change s'.status u = .running at same
        rw [same] at sink
        cases sink
      · exact same
    -- the last status is written, so the event is out
    have out : ∃ d ∈ news r s, d.event.taskId = u ∧ d.event.type.status = some (s.status u) := by
      by_contra none
      apply reported
      refine ⟨(other u apart).symm.trans stage, by rw [← status]; exact sink, ?_⟩
      intro d hd own named
      exact none ⟨d, hd, own, named⟩
    obtain ⟨d, hd, rfl, named⟩ := out
    rw [← status] at named
    obtain ⟨blocked, started⟩ := type_of_sink named sink
    have known := chronicle.spoken d hd (ordinary ends) blocked started (by rw [named]; rfl)
    refine .inr (known.mono ?_)
    intro d' hd'
    rw [List.mem_singleton.mp hd']
    exact hd
  | done e =>
    have apart : u ≠ t := by
      rintro rfl
      rw [queued] at stage
      cases stage
    exact .inr (chronicle.done u e ((other u apart).symm.trans stage)
      (ordinary (core'.done u e stage).1))

/-- A task that an operation brings out of `absent` is submitted by it. -/
theorem submits_of_absent (inv : Inv M s) (inv' : Inv M (SchedOp.perform r who o s).2)
    (absent : s.stage t = .absent) (submitted : (SchedOp.perform r who o s).2.stage t ≠ .absent) :
    ∃ upstream, o = .poolSubmit t upstream ∧ (SchedOp.perform r who o s).2.stage t = .queued := by
  have fresh : t ∉ s.submitted.map Prod.fst := fun mem => (inv.coherent.mem t).mp mem absent
  have mem := (inv'.coherent.mem t).mpr submitted
  rcases perform_stage r who o s t with same | ⟨upstream, is, -, queued⟩ | ⟨rfl, -⟩ | ⟨e, rfl, -⟩
  · exact absurd (same.trans absent) submitted
  · exact ⟨upstream, is, queued⟩
  · exact absurd mem fresh
  · exact absurd mem fresh

/-- A submission that the pool accepts. -/
theorem perform_poolSubmit (r : Run) (who : Who) (t : TaskId) (upstream : List TaskId)
    (opened : s.shutdown = false) :
    (SchedOp.perform r who (.poolSubmit t upstream) s).2 =
      { s.setStage t .queued with submitted := s.submitted ++ [(t, upstream)] } := by
  simp [SchedOp.perform, opened]

/-- Each operation keeps the chronicle, given what it announces. -/
theorem Chronicle.step (calm : r.cancels = []) (inv : Inv M s) (h : Chronicle r s)
    (moved : Moved M who s (SchedOp.perform r who o s).2) (announces : Announces r who o s) :
    Chronicle r (SchedOp.perform r who o s).2 := by
  have news' : news r (SchedOp.perform r who o s).2 = news r s ++ uttered o s :=
    news_perform h.started o
  have grows : ∀ d ∈ news r s, d ∈ news r (SchedOp.perform r who o s).2 := by
    intro d hd
    rw [news']
    exact List.mem_append_left _ hd
  constructor
  case started =>
    rw [perform_deliveries]
    exact h.started.trans (List.prefix_append ..)
  case done =>
    intro t e done ordinary
    rcases perform_stage r who o s t with same | ⟨_, -, -, queued⟩ | ⟨-, running⟩ | ⟨e', is, -⟩
    · exact (h.done t e (same.symm.trans done) ordinary).mono grows
    · rw [queued] at done; cases done
    · rw [running] at done; cases done
    · exact (announces.finish t e' is ordinary).mono grows
  case spoken =>
    intro d hd ordinary
    rw [news'] at hd
    rcases List.mem_append.mp hd with old | new
    · exact h.spoken d old ordinary
    · rcases uttered_cases o s with none | ⟨t, e, is, one⟩
      · rw [none] at new
        cases new
      · rw [one, List.mem_singleton] at new
        subst new
        exact announces.spoken t e is ordinary
  case cleared =>
    intro t u submitted awaited
    by_cases absent : s.stage t = .absent
    · obtain ⟨upstream, rfl, queued⟩ := submits_of_absent inv moved.inv absent submitted
      rcases perform_stage r who (.poolSubmit t upstream) s t with
        same | ⟨_, -, opened, -⟩ | ⟨is, -⟩ | ⟨_, is, -⟩
      · exact absurd (same.trans absent) submitted
      · have after := perform_poolSubmit r who t upstream opened
        obtain ⟨same, -, guard⟩ :=
          (moved.inv.core calm).submitted (t, upstream) (by rw [after]; simp)
        change upstream = r.graph.deps t at same
        have cleared := cleared_of_submit (u := u) inv moved.inv calm h
          (by intro u; rw [after]; rfl) queued
          (by intro u other; rw [after]; exact Function.update_of_ne other ..) guard awaited
          (announces.submit t upstream rfl u (by rw [same]; exact awaited.1))
        exact cleared.mono calm (.refl r _) grows
      · cases is
      · cases is
    · exact (h.cleared t u absent awaited).mono calm moved.forward grows
  case ordered =>
    intro before d after split started u awaited
    rw [news'] at split
    rcases uttered_cases o s with none | ⟨t, e, is, one⟩
    · rw [none, List.append_nil] at split
      exact (h.ordered before d after split started u awaited).mono calm moved.forward fun _ hd => hd
    · rw [one] at split
      rcases List.eq_nil_or_concat after with rfl | ⟨after, last, rfl⟩
      -- the event is the new one, and its task is submitted
      · obtain ⟨rfl, same⟩ := List.append_inj' split rfl
        obtain ⟨rfl, -⟩ := List.cons_eq_cons.mp same
        have submitted := announces.started t e is started
        exact (h.cleared _ u submitted awaited).mono calm moved.forward fun _ hd => hd
      · rw [List.concat_eq_append, ← List.cons_append, ← List.append_assoc] at split
        obtain ⟨old, -⟩ := List.append_inj' split rfl
        exact (h.ordered before d after old started u awaited).mono calm moved.forward fun _ hd => hd

/-! ## What leaves a task's part of the log alone -/

/-- No save of the task and no event. -/
theorem Apart.same (stored : w'.stored t = w.stored t) (events : w'.deliveries = w.deliveries) :
    Apart t w w' := by
  refine ⟨stored, [], ?_, ?_⟩
  · rw [events, List.append_nil]
  · simp

/-- Nothing has happened. -/
theorem Apart.refl (t : TaskId) (w : World) : Apart t w w := .same rfl rfl

/-- Two stretches are one. -/
theorem Apart.trans {w'' : World} (h : Apart t w w') (h' : Apart t w' w'') : Apart t w w'' := by
  obtain ⟨extra, events, none⟩ := h.events
  obtain ⟨extra', events', none'⟩ := h'.events
  refine ⟨h'.stored.trans h.stored, extra ++ extra', ?_, ?_⟩
  · rw [events', events, List.append_assoc]
  · intro d hd
    rcases List.mem_append.mp hd with hd | hd
    · exact none d hd
    · exact none' d hd

/-- Neither a save of the task nor an event of its lifecycle. -/
def Hushed (t : TaskId) (o : TaskOp) : Prop :=
  o ≠ .save t ∧ ∀ u e, o = .deliver u e → e.taskId = t → e.type.status = none

/-- A hushed operation saves nothing of the task and publishes nothing of its life. -/
theorem Hushed.apart {o : TaskOp} (x : Executor) (h : Hushed t o) (w : World) :
    Apart t w (o.perform x w).2 := by
  cases o with
  | transition u target e =>
    simp only [TaskOp.perform]
    split <;> exact .same rfl rfl
  | save u =>
    have other : t ≠ u := by
      rintro rfl
      exact h.1 rfl
    simp only [TaskOp.perform]
    split
    · exact .same rfl rfl
    · exact .same (if_neg other) rfl
  | deliver u e =>
    refine ⟨rfl, _, rfl, ?_⟩
    intro d hd
    rw [List.mem_singleton] at hd
    subst hd
    by_cases own : e.taskId = t
    · simp [h.2 u e rfl own]
    · simp [own]
  | _ => exact .same rfl rfl

/-- An operation on another task is hushed. -/
theorem hushed_of_ne {o : TaskOp} (own : o.IsOf u) (other : t ≠ u) : Hushed t o := by
  obtain ⟨task, events⟩ := own
  refine ⟨?_, ?_⟩
  · rintro rfl
    exact other task
  · rintro v e is rfl
    exact absurd (events v e is) other

/-- The contract of an operation that says nothing. -/
theorem announces_quiet {o : SchedOp} (allowed : afterNews r who o s)
    (apart : ∀ t, Apart t s.world (SchedOp.perform r who o s).2.world)
    (silent : ∀ t e, o ≠ .task (.deliver t e)) (going : ∀ t e, o ≠ .finish t e) :
    Announces r who o s where
  apart t _ _ := apart t
  started t e is := absurd is (silent t e)
  spoken t e is := absurd is (silent t e)
  finish t e is := absurd is (going t e)
  submit t upstream is := allowed t upstream is

/-- The operations of the scheduler's own code leave the log alone. -/
theorem apart_internal {o : SchedOp} (internal : Internal o) (t : TaskId) (s : Shared) :
    Apart t s.world (SchedOp.perform r who o s).2.world := by
  cases o with
  | task o =>
    cases o with
    | status u => exact .refl t _
    | _ => exact internal.elim
  | poolSubmit u upstream =>
    simp only [SchedOp.perform]
    split <;> exact .refl t _
  | addDoneCallback u =>
    simp only [SchedOp.perform]
    split <;> exact .refl t _
  | recordException u =>
    simp only [SchedOp.perform]
    split <;> exact .refl t _
  | _ => exact .refl t _

end Order

end TTasks.Scheduler
