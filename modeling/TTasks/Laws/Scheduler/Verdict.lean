import TTasks.Laws.Graph.Validate
import TTasks.Laws.Scheduler.Decide

/-!
# What becomes of each task

`verdict` says by recursion over the dependencies what a run does about each task. `Judged` says
that it has done nothing else so far, which follows from `Core` in every state; and where nothing is
open and `schedule` finds nothing to do, it has done all of it (`left_of_skipped`).
-/

namespace TTasks.Scheduler

section Verdict

variable {r : Run} {s : Shared} {t d : TaskId}

/-! ## The recursion -/

/-- The verdict on a task depends on those on its dependencies only. -/
theorem verdictStep_local (r : Run) : Dag.Local r.graph.deps (verdictStep r) := by
  intro t v v' same
  have left : (∃ d ∈ r.graph.deps t, v d = .left) ↔ ∃ d ∈ r.graph.deps t, v' d = .left :=
    exists_congr fun d => and_congr_right fun hd => by rw [same d hd]
  have bad : (∃ d ∈ r.graph.deps t, (v d).bad r d = true) ↔
      ∃ d ∈ r.graph.deps t, (v' d).bad r d = true :=
    exists_congr fun d => and_congr_right fun hd => by rw [same d hd]
  have good : (∀ d ∈ r.graph.deps t, (v d).good r d = true) ↔
      ∀ d ∈ r.graph.deps t, (v' d).good r d = true :=
    forall₂_congr fun d hd => by rw [same d hd]
  simp only [verdictStep, left, bad, good]

section Valid

variable (valid : r.graph.Valid r.world)

include valid

/-- In a valid graph the recursion comes to a fixed point, task by task. -/
theorem verdict_eq (key : t ∈ r.graph.keys) : verdict r t = verdictStep r t (verdict r) := by
  obtain ⟨l, sorted, mem, length⟩ := valid.order
  exact Dag.unroll_eq (verdictStep_local r) sorted (le_of_eq length) ((mem t).mpr key)

/-- What holds of a task once it holds of its dependencies holds of every task. -/
theorem valid_induction {P : TaskId → Prop}
    (step : ∀ t ∈ r.graph.keys, (∀ d ∈ r.graph.deps t, d ∈ r.graph.keys ∧ P d) → P t) :
    ∀ t ∈ r.graph.keys, P t := by
  obtain ⟨l, sorted, mem, -⟩ := valid.order
  intro t key
  refine sorted.induction (P := fun t => t ∈ r.graph.keys ∧ P t) (fun a ha ih => ?_) t
    ((mem t).mpr key) |>.2
  exact ⟨(mem a).mp ha, step a ((mem a).mp ha) ih⟩

/-- A task that is over on entry is kept. -/
theorem verdict_kept (key : t ∈ r.graph.keys) (sink : (entered r t).isSink = true) :
    verdict r t = .kept := by
  rw [verdict_eq valid key, verdictStep, if_pos sink]

/-- A finally task runs unless one of its dependencies is left over. -/
theorem verdict_finally (key : t ∈ r.graph.keys) (open_ : (entered r t).isSink = false)
    (final : r.graph.isFinally t = true) :
    verdict r t = if ∃ d ∈ r.graph.deps t, verdict r d = .left then .left else .ran := by
  rw [verdict_eq valid key, verdictStep, if_neg (by simp [open_]), if_pos final]

/-- A normal task is blocked or left behind a bad dependency, runs behind good ones, and is left
otherwise. -/
theorem verdict_normal (key : t ∈ r.graph.keys) (open_ : (entered r t).isSink = false)
    (normal : r.graph.isFinally t = false) :
    verdict r t =
      if ∃ d ∈ r.graph.deps t, (verdict r d).bad r d = true then
        if entered r t = .pending then .blocked else .left
      else if ∀ d ∈ r.graph.deps t, (verdict r d).good r d = true then .ran
      else .left := by
  rw [verdict_eq valid key, verdictStep, if_neg (by simp [open_]), if_neg (by simp [normal])]

/-- Only tasks that are over on entry are kept. -/
theorem isSink_of_kept (key : t ∈ r.graph.keys) (kept : verdict r t = .kept) :
    (entered r t).isSink = true := by
  cases open_ : (entered r t).isSink with
  | true => rfl
  | false =>
    cases final : r.graph.isFinally t with
    | true =>
      rw [verdict_finally valid key open_ final] at kept
      split at kept <;> cases kept
    | false =>
      rw [verdict_normal valid key open_ final] at kept
      split at kept <;> split at kept <;> cases kept

/-- Where every task enters PENDING, none is left over. -/
theorem not_left_of_pending (pending : ∀ t ∈ r.graph.keys, entered r t = .pending) :
    ∀ t ∈ r.graph.keys, verdict r t ≠ .left := by
  refine valid_induction valid fun t key ih => ?_
  have open_ : (entered r t).isSink = false := by rw [pending t key]; rfl
  cases final : r.graph.isFinally t with
  | true =>
    rw [verdict_finally valid key open_ final, if_neg]
    · simp
    · rintro ⟨d, hd, left⟩
      exact (ih d hd).2 left
  | false =>
    rw [verdict_normal valid key open_ final]
    split
    · rw [if_pos (pending t key)]
      simp
    · rename_i fine
      rw [if_pos]
      · simp
      intro d hd
      obtain ⟨key, ran⟩ := ih d hd
      have notBad : ¬ (verdict r d).bad r d = true := fun h => fine ⟨d, hd, h⟩
      cases verdict : verdict r d with
      | left => exact absurd verdict ran
      | blocked => rw [verdict] at notBad; exact absurd rfl notBad
      | ran =>
        rw [verdict] at notBad
        simpa [Verdict.bad, Verdict.good] using notBad
      | kept =>
        have sink := isSink_of_kept valid key verdict
        rw [pending d key] at sink
        cases sink

/-! ## What a run has done so far -/

/-- The run has done nothing about the task but what the verdict says. -/
structure Judged (r : Run) (s : Shared) (t : TaskId) : Prop where
  submitted : s.stage t ≠ .absent → verdict r t = .ran
  marked : s.stage t = .absent → Marked r s t → verdict r t = .blocked

omit valid in
/-- What has been submitted could start, and had its guard. -/
theorem startable_of_submitted (coherent : Coherent r s) (core : Core r s)
    (submitted : s.stage t ≠ .absent) :
    (entered r t).canTransitionTo .running = true ∧ Guard r s t := by
  obtain ⟨p, hp, rfl⟩ := List.mem_map.mp ((coherent.mem t).mpr submitted)
  exact (core.submitted p hp).2

omit valid in
/-- A submitted task that is in a sink is where its execution has brought it. -/
theorem ending_of_sink (coherent : Coherent r s) (core : Core r s)
    (submitted : s.stage t ≠ .absent) (sink : (s.status t).isSink = true) :
    s.status t = ending r t := by
  have open_ := TaskStatus.isSink_of_canTransitionTo
    (startable_of_submitted coherent core submitted).1
  cases stage : s.stage t with
  | absent => exact absurd stage submitted
  | queued =>
    rw [core.queued t stage, open_] at sink
    cases sink
  | running =>
    rcases core.running t stage with same | running | ended
    · rw [same, show r.world.status t = entered r t from rfl, open_] at sink
      cases sink
    · rw [running] at sink
      cases sink
    · exact ended
  | done e => exact (core.done t e stage).1

omit valid in
/-- A task that is not submitted and not marked is as it was on entry. -/
theorem Core.entered_of_sink (core : Core r s) (absent : s.stage t = .absent)
    (sink : (s.status t).isSink = true) : s.status t = entered r t := by
  refine (core.absent t absent).resolve_right fun marked => ?_
  rw [marked.blocked] at sink
  cases sink

section Judging

variable (coherent : Coherent r s) (core : Core r s) (key : d ∈ r.graph.keys)
  (judged : Judged r s d)

include coherent core key judged

omit coherent in
/-- A task that has come to rest is not one that the run leaves over. -/
theorem not_left_of_fixed (fixed : Fixed r s d) : verdict r d ≠ .left := by
  by_cases absent : s.stage d = .absent
  · rcases fixed with done | sink | ⟨-, blocked, pending⟩
    · rw [absent] at done
      cases done
    · rw [core.entered_of_sink absent sink] at sink
      rw [verdict_kept valid key sink]
      simp
    · have marked := (core.absent d absent).resolve_left fun same => by
        rw [blocked, pending] at same
        cases same
      rw [judged.marked absent marked]
      simp
  · rw [judged.submitted absent]
    simp

/-- A task that is SUCCEEDED has a good verdict. -/
theorem good_of_succeeded (succeeded : s.status d = .succeeded) :
    (verdict r d).good r d = true := by
  have sink : (s.status d).isSink = true := by rw [succeeded]; rfl
  by_cases absent : s.stage d = .absent
  · have same := core.entered_of_sink absent sink
    rw [verdict_kept valid key (same ▸ sink), Verdict.good, ← same, succeeded]
    rfl
  · rw [judged.submitted absent, Verdict.good, ← ending_of_sink coherent core absent sink, succeeded]
    rfl

/-- A task past hope has a bad verdict. -/
theorem bad_of_hopeless (hopeless : Hopeless r s d) : (verdict r d).bad r d = true := by
  obtain ⟨fixed, other⟩ := hopeless
  by_cases absent : s.stage d = .absent
  · rcases fixed with done | sink | ⟨-, blocked, pending⟩
    · rw [absent] at done
      cases done
    · have same := core.entered_of_sink absent sink
      rw [verdict_kept valid key (same ▸ sink), Verdict.bad, ← same]
      cases h : s.status d <;> rw [h] at sink other <;>
        first | rfl | exact absurd sink (by decide) | exact absurd rfl other
    · have marked := (core.absent d absent).resolve_left fun same => by
        rw [blocked, pending] at same
        cases same
      rw [judged.marked absent marked]
      rfl
  · have ended : s.status d = ending r d := by
      rcases fixed with done | sink | ⟨gone, -⟩
      · obtain ⟨e, he⟩ := Stage.isDone_iff.mp done
        exact (core.done d e he).1
      · exact ending_of_sink coherent core absent sink
      · exact absurd gone absent
    rw [judged.submitted absent, Verdict.bad, ← ended]
    simpa using other

end Judging

omit valid in
/-- No verdict is both good and bad. -/
theorem Verdict.not_bad_of_good {v : Verdict} (good : v.good r t = true) : v.bad r t = false := by
  cases v <;> simp_all [Verdict.good, Verdict.bad]

/-- In every state the run has done nothing but what the verdicts say: by induction over the
dependencies. -/
theorem judged (coherent : Coherent r s) (core : Core r s) :
    ∀ t ∈ r.graph.keys, Judged r s t := by
  refine valid_induction valid fun t key ih => ⟨fun submitted => ?_, fun absent marked => ?_⟩
  · obtain ⟨startable, guard⟩ := startable_of_submitted coherent core submitted
    have open_ := TaskStatus.isSink_of_canTransitionTo startable
    cases final : r.graph.isFinally t with
    | true =>
      rw [verdict_finally valid key open_ final, if_neg]
      rintro ⟨d, hd, left⟩
      obtain ⟨key, judged⟩ := ih d hd
      exact not_left_of_fixed valid core key judged (guard.finally_ final d hd) left
    | false =>
      have good : ∀ d ∈ r.graph.deps t, (verdict r d).good r d = true := fun d hd =>
        good_of_succeeded valid coherent core (ih d hd).1 (ih d hd).2 (guard.normal final d hd)
      rw [verdict_normal valid key open_ final, if_neg, if_pos good]
      rintro ⟨d, hd, bad⟩
      rw [Verdict.not_bad_of_good (good d hd)] at bad
      cases bad
  · obtain ⟨d, hd, hopeless⟩ := marked.parent
    have open_ : (entered r t).isSink = false := by rw [marked.pending]; rfl
    rw [verdict_normal valid key open_ marked.normal, if_pos, if_pos marked.pending]
    exact ⟨d, hd, bad_of_hopeless valid coherent core (ih d hd).1 (ih d hd).2 hopeless⟩

/-! ## Where nothing is left to do -/

omit valid

/-- Every submitted call is over, and the scheduler can tell whether it succeeded. -/
structure Told (r : Run) (s : Shared) : Prop where
  done : ∀ t, s.stage t ≠ .absent → (s.stage t).isDone = true
  told : ∀ t, s.stage t ≠ .absent → ending r t ≠ .succeeded →
    (s.errors t).isSome = true ∨ (ending r t).isBad = true

/-- Once nothing is open, the submitted tasks have ended as they had to. -/
theorem told_of_closed (coherent : Coherent r s) (core : Core r s) {restricted : Bool}
    (ordinary : restricted = true → ∀ t ∈ r.graph.keys, ending r t ≠ .running)
    (closed : ∀ t, ¬ Open restricted s t) : Told r s where
  done t submitted := by
    by_contra undone
    exact closed t (Open.not_done coherent submitted (by simpa using undone))
  told t submitted failed := by
    cases mode : restricted with
    | true =>
      have terminal := ordinary mode t (coherent.keys t submitted)
      exact .inr (((r.executor.ending_isTerminal_or_running r.world t).resolve_right
        terminal).resolve_left failed)
    | false =>
      have invoked : s.callback t = .invoked := by
        by_contra other
        refine closed t ⟨submitted, ?_⟩
        rw [mode]
        exact other
      obtain ⟨e, done, error⟩ := coherent.invoked t invoked
      rw [error, Option.isSome_iff_ne_none]
      exact .inl fun none => failed ((core.done t e done).2.mp none)

/-- A task that is over is not retried. -/
theorem retryable_of_sink (sink : (s.status t).isSink = true) : retryableAt r s t = false := by
  rw [retryableAt, TaskStatus.canTransitionTo_of_isSink sink, Bool.false_and, Bool.and_false]

/-- A marked task is not retried. -/
theorem retryable_of_marked (marked : Marked r s t) : retryableAt r s t = false := by
  have pending : r.world.status t = .pending := marked.pending
  simp [retryableAt, marked.blocked, entering, pending]

/-- A task that is submitted in this run is not retried in it. -/
theorem retryable_of_submitted (submitted : s.stage t ≠ .absent) : retryableAt r s t = false := by
  rw [retryableAt, beq_eq_false_iff_ne.mpr submitted, Bool.false_and]

/-- A task that is still active has been left alone. -/
theorem waiting_of_active (core : Core r s) (told : Told r s) (active : inactiveAt r s t = false) :
    s.stage t = .absent ∧ s.status t = entered r t ∧ (entered r t).isSink = false := by
  have absent : s.stage t = .absent := by
    by_contra submitted
    rw [inactiveAt, if_pos (bne_iff_ne.mpr submitted), told.done t submitted] at active
    cases active
  rw [inactiveAt, if_neg (by simp [absent]), Bool.or_eq_false_iff] at active
  have quiet : ∀ {status}, s.status t = status → status.isTerminal = true →
      retryableAt r s t = false → False := by
    intro status same terminal spent
    rw [same, terminal, spent] at active
    exact absurd active.1 (by simp)
  rcases core.absent t absent with same | marked
  · refine ⟨absent, same, ?_⟩
    rw [← Bool.not_eq_true]
    intro sink
    refine quiet same ?_ (retryable_of_sink (same ▸ sink))
    cases h : entered r t <;> rw [h] at sink <;> first | rfl | exact absurd sink (by decide)
  · exact (quiet marked.blocked rfl (retryable_of_marked marked)).elim

/-- A task that was neither submitted nor marked is left over. -/
def Spared (r : Run) (s : Shared) (t : TaskId) : Prop :=
  s.stage t = .absent → s.status t = entered r t → (entered r t).isSink = false → verdict r t = .left

section Told

variable (valid : r.graph.Valid r.world) (core : Core r s) (told : Told r s)
  (key : d ∈ r.graph.keys) (judged : Judged r s d) (spared : Spared r s d)

include valid core told key judged spared

/-- A good verdict has come true. -/
theorem succeeded_of_good (good : (verdict r d).good r d = true) : s.status d = .succeeded := by
  by_cases absent : s.stage d = .absent
  · rcases core.absent d absent with same | marked
    · cases sink : (entered r d).isSink with
      | true =>
        rw [verdict_kept valid key sink] at good
        exact same.trans (by simpa [Verdict.good] using good)
      | false =>
        rw [spared absent same sink] at good
        cases good
    · rw [judged.marked absent marked] at good
      cases good
  · rw [judged.submitted absent] at good
    obtain ⟨e, he⟩ := Stage.isDone_iff.mp (told.done d absent)
    exact (core.done d e he).1.trans (by simpa [Verdict.good] using good)

/-- A bad verdict has come true. -/
theorem badAt_of_bad (bad : (verdict r d).bad r d = true) : badAt r s d = true := by
  have shown : (s.stage d = .absent ∨ (s.stage d).isDone = true) →
      ((s.errors d).isSome = true ∨ (s.status d).isBad = true) → retryableAt r s d = false →
      badAt r s d = true := by
    intro settled either spent
    rcases settled with absent | done <;> rcases either with error | status <;> simp [badAt, *]
  by_cases absent : s.stage d = .absent
  · rcases core.absent d absent with same | marked
    · cases sink : (entered r d).isSink with
      | true =>
        rw [verdict_kept valid key sink] at bad
        have cancelled : s.status d = .cancelled := same.trans (by simpa [Verdict.bad] using bad)
        refine shown (.inl absent) (.inr (by rw [cancelled]; rfl)) (retryable_of_sink ?_)
        rw [cancelled]
        rfl
      | false =>
        rw [spared absent same sink] at bad
        cases bad
    · exact shown (.inl absent) (.inr (by rw [marked.blocked]; rfl)) (retryable_of_marked marked)
  · rw [judged.submitted absent] at bad
    have failed : ending r d ≠ .succeeded := by simpa [Verdict.bad] using bad
    obtain ⟨e, he⟩ := Stage.isDone_iff.mp (told.done d absent)
    refine shown (.inr (told.done d absent)) ?_ (retryable_of_submitted absent)
    rw [(core.done d e he).1]
    exact told.told d absent failed

end Told

/-- Where `schedule` finds nothing to do, what it has not dealt with is left over. -/
theorem left_of_skipped (valid : r.graph.Valid r.world) (coherent : Coherent r s) (core : Core r s)
    (told : Told r s) (skip : AllSkip r s) : ∀ t ∈ r.graph.keys, Spared r s t := by
  refine valid_induction valid fun t key ih absent same open_ => ?_
  have judges := judged valid coherent core
  -- a task that is not over, and not RUNNING on entry, could be started
  have startable : (s.status t).canTransitionTo .running = true := by
    have still := valid.notRunning t key
    rw [TaskStatus.canTransitionTo_running_iff, same]
    unfold entered at open_ ⊢
    cases h : r.world.status t <;> rw [h] at open_ still <;> simp_all [TaskStatus.isSink]
  have notReady : decisionReadyAt r s t = .skip → readyAt r s t = false := by
    intro skips
    rw [decisionReadyAt, startable, Bool.and_true] at skips
    cases ready : readyAt r s t with
    | false => rfl
    | true => rw [ready] at skips; cases skips
  have decision := skip t key
  rw [decisionAt, if_neg (by simp [absent]), if_neg (by simp [same, open_]), if_neg (by
    rw [same]
    unfold entering entered
    simp)] at decision
  cases final : r.graph.isFinally t with
  -- a finally task that is not ready has a dependency which is still active, and that one is left
  -- over
  | true =>
    rw [if_pos final] at decision
    have notReady := notReady decision
    rw [readyAt, if_pos final, List.all_eq_false] at notReady
    obtain ⟨d, hd, active⟩ := notReady
    obtain ⟨absentd, samed, opend⟩ := waiting_of_active core told (by simpa using active)
    rw [verdict_finally valid key open_ final, if_pos]
    exact ⟨d, hd, (ih d hd).2 absentd samed opend⟩
  | false =>
    rw [if_neg (by simp [final])] at decision
    rw [verdict_normal valid key open_ final]
    cases found : (r.graph.deps t).find? (badAt r s) with
    -- a normal task with a bad parent is marked if it is PENDING, so it is not
    | some bad =>
      rw [found] at decision
      have pending : entered r t ≠ .pending := by
        rw [← same]
        intro pending
        simp [pending] at decision
      have hd := List.mem_of_find?_eq_some found
      have shows := List.find?_some found
      have hopeless : Hopeless r s bad := by
        simp only [badAt, Bool.and_eq_true, Bool.or_eq_true, Bool.not_eq_true', Bool.and_eq_false_iff]
          at shows
        refine hopeless_of_bad coherent core (shows.1.imp (by simp) (by simp)) ?_
        exact shows.2
      rw [if_pos, if_neg pending]
      exact ⟨bad, hd, bad_of_hopeless valid coherent core (ih bad hd).1 (judges bad (ih bad hd).1)
        hopeless⟩
    -- and without one it has a parent that has not succeeded
    | none =>
      rw [found] at decision
      have notReady := notReady decision
      rw [readyAt, if_neg (by simp [final]), List.all_eq_false] at notReady
      obtain ⟨d, hd, other⟩ := notReady
      rw [if_neg, if_neg]
      · intro good
        have succeeded := succeeded_of_good valid core told (ih d hd).1 (judges d (ih d hd).1)
          (ih d hd).2 (good d hd)
        exact other (by simp [succeeded])
      · rintro ⟨e, he, bad⟩
        have shows := badAt_of_bad valid core told (ih e he).1 (judges e (ih e he).1) (ih e he).2 bad
        exact List.find?_eq_none.mp found e he shows

/-- Where `schedule` finds nothing to do and no task is stranded, the run is at its end. -/
theorem finished_of_skipped (valid : r.graph.Valid r.world) (coherent : Coherent r s)
    (core : Core r s) (told : Told r s) (skip : AllSkip r s)
    (none : ∀ t ∈ r.graph.keys, ¬ Stranded r t) : ∀ t ∈ r.graph.keys, finishedAt s t = true := by
  intro t key
  by_cases absent : s.stage t = .absent
  · have terminal : (s.status t).isTerminal = true := by
      rcases core.absent t absent with same | marked
      · cases open_ : (entered r t).isSink with
        | true =>
          rw [same]
          cases h : entered r t <;> rw [h] at open_ <;> first | rfl | exact absurd open_ (by decide)
        | false =>
          have left := left_of_skipped valid coherent core told skip t key absent same open_
          have notPending : entered r t ≠ .pending := fun pending => none t key ⟨pending, left⟩
          have notRunning : entered r t ≠ .running := valid.notRunning t key
          rw [same]
          cases h : entered r t <;> simp_all [TaskStatus.isTerminal]
      · rw [marked.blocked]
        rfl
    rw [finishedAt, terminal, Bool.true_or]
  · rw [finishedAt, told.done t absent, bne_iff_ne.mpr absent, Bool.and_true, Bool.or_true]

end Valid

end Verdict

end TTasks.Scheduler
