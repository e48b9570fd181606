import TTasks.Laws.Retrying.Loop
import TTasks.Laws.Executor.Sequence

/-!
# What a retried execution comes to

From the loop to the runs of the machine: a timely cancel is what the loop's contract relies on, so
what the loop comes to on its own is what every timely run comes to. The last section is the run in
which a cancel comes between the two status reads.
-/

namespace TTasks

open Interleave
open Prog (Contract)

namespace Retrying

variable {x : Executor} {t : TaskId} {base : Nat}

/-- `execute` with several attempts and a handler. -/
theorem wp_execute (upstream : List TaskId) (policy : RetryPolicy) (w : World)
    (startable : (w.status t).canTransitionTo .running = true)
    (registered : x.handlers (w.tasks t).type = true) (several : 2 ≤ policy.maxAttempts)
    (ordinary : ∀ k, (x.behaviour t k).outcome.isOrdinary = true) :
    (execute x t upstream policy).wp (sem x) (cancellable x t (w.callCount t))
      (Retried x t (w.callCount t) policy.maxAttempts) { world := w } := by
  obtain ⟨left, total⟩ := Nat.exists_eq_add_of_le several
  have many : (policy.maxAttempts == 1) = false := by
    rw [total]
    simp
    omega
  have here : Now t (w.tasks t) (w.callCount t) { world := w } := ⟨rfl, rfl, rfl⟩
  rw [execute, many, if_neg (by decide), Prog.bind_eq, Prog.wp_bind]
  intro q moved
  obtain rfl := moved.still (.inl (here.not_between (.inr (Nat.le_refl _))))
  refine ⟨trivial, fun _ => ⟨trivial, ?_⟩⟩
  show Prog.wp _ _ (if (!x.handlers (w.tasks t).type) = true then _ else _) _ _
  rw [if_neg (by simp [registered])]
  have attempts : policy.maxAttempts = (1 + left) + 1 := by omega
  rw [attempts]
  exact wp_retryLoop (m := 0) policy upstream ordinary (1 + left) (by omega)
    (fun j none => absurd none (Nat.not_lt_zero j)) (.inl here) registered startable

/-! ## Runs -/

/-- What remains of the call comes to what it should. -/
def OnCourse (x : Executor) (t : TaskId) (base n : Nat) (s : State) : Prop :=
  s.rest.wp (sem x) (cancellable x t base) (Retried x t base n) s.shared

theorem OnCourse.step {n : Nat} {s s' : State} {l : Label} (here : OnCourse x t base n s)
    (timely : Timely t base s l) (moved : (machine x t).step l s = some s') :
    OnCourse x t base n s' := by
  cases l with
  | cancel =>
    cases moved
    obtain ⟨acting, between⟩ := timely.1 rfl
    exact Prog.wp_stable_acting Undergoes.trans acting (.inr ⟨between, timely.2 rfl, rfl⟩) here
  | execute =>
    obtain ⟨shared, rest⟩ := s
    cases rest with
    | ret _ => cases moved
    | fail _ => cases moved
    | act o k =>
      cases moved
      exact ((here shared (.inl rfl)).2 trivial).2

theorem OnCourse.outcome {n : Nat} {s : State} (here : OnCourse x t base n s)
    {r : Except Exc TaskResult} (ended : s.outcome = some r) : Retried x t base n r s.shared := by
  obtain ⟨shared, rest⟩ := s
  cases rest with
  | ret _ => cases ended; exact here
  | fail _ => cases ended; exact here
  | act o k => cases ended

/-- A run can only come to an end: `execute` has so many operations left, and a cancel leaves the
task in a status in which no other may come. -/
theorem inevitably_over (s : State) :
    Inevitably ((machine x t).Via (Timely t base)) (fun s => ∃ r, s.outcome = some r) s := by
  let rank : State → Exec TaskResult ×ₗ Nat := fun s =>
    toLex (s.rest, if s.shared.world.status t = .failed then 1 else 0)
  have wf : WellFounded (Prod.Lex (Prog.After : Exec TaskResult → Exec TaskResult → Prop)
    (fun a b : Nat => a < b)) := WellFounded.prod_lex Prog.after_wf Nat.lt_wfRel.wf
  apply inevitably_of_rank wf (I := fun _ => True) rank
  · exact fun _ _ _ _ => trivial
  · rintro a b - ⟨l, timely, moved⟩
    cases l with
    | cancel =>
      cases moved
      obtain ⟨-, between⟩ := timely.1 rfl
      apply Prod.Lex.right
      simp [status_arrive between, between.1]
    | execute =>
      obtain ⟨shared, rest⟩ := a
      cases rest with
      | ret _ => cases moved
      | fail _ => cases moved
      | act o k =>
        cases moved
        exact Prod.Lex.left _ _ (.act o k _)
  · rintro ⟨shared, rest⟩ - going
    cases rest with
    | ret result => exact absurd ⟨_, rfl⟩ going
    | fail e => exact absurd ⟨_, rfl⟩ going
    | act o k => exact ⟨_, .execute, ⟨nofun, nofun⟩, rfl⟩
  · trivial

/-- In every run without a cancel between the two status reads, `execute` comes to an end, and it
ends as its attempts and the cancels that arrived say. -/
theorem retried_of_timely (x : Executor) (t : TaskId) (upstream : List TaskId)
    (policy : RetryPolicy) (w : World) (startable : (w.status t).canTransitionTo .running = true)
    (registered : x.handlers (w.tasks t).type = true) (several : 2 ≤ policy.maxAttempts)
    (ordinary : ∀ k, (x.behaviour t k).outcome.isOrdinary = true) :
    Inevitably ((machine x t).Via (Timely t (w.callCount t))) (fun s => ∃ r, s.outcome = some r)
        (start x t upstream policy w) ∧
      ∀ s, (machine x t).Reaches (Timely t (w.callCount t)) (start x t upstream policy w) s →
        ∀ r, s.outcome = some r → Retried x t (w.callCount t) policy.maxAttempts r s.shared := by
  constructor
  · exact inevitably_over _
  · intro s run r ended
    have course : OnCourse x t (w.callCount t) policy.maxAttempts s := by
      apply run.invariant (I := OnCourse x t (w.callCount t) policy.maxAttempts)
      · exact wp_execute upstream policy w startable registered several ordinary
      · exact fun _ _ _ here timely moved => here.step timely moved
    exact course.outcome ended

/-- `RetryPolicy(max_attempts=2)`. -/
def twice : RetryPolicy where
  maxAttempts := 2
  one_le := Nat.le_succ 1
  nonneg := RetryPolicy.default.nonneg

/-- Every task is PENDING, and nothing has happened. -/
def fresh : World where
  tasks := fun _ => {}

theorem retried_of_timely_flaky :
    Inevitably ((machine flaky "t").Via (Timely "t" 0)) (fun s => ∃ r, s.outcome = some r)
        (start flaky "t" [] twice fresh) ∧
      ∀ s, (machine flaky "t").Reaches (Timely "t" 0) (start flaky "t" [] twice fresh) s →
        ∀ r, s.outcome = some r → Retried flaky "t" 0 2 r s.shared :=
  retried_of_timely flaky "t" [] twice fresh (by decide) rfl (by decide) fun k => by
    simp only [flaky]
    split <;> rfl

/-! ## Between the two status reads -/

/-- The first attempt fails, and a cancel arrives after `execute` has found the task not CANCELLED
and before it looks whether it is still FAILED. -/
def straddled : List Label := List.replicate 17 .execute ++ [.cancel, .execute]

/-- `execute` raises the exception of the first attempt on a CANCELLED task, after one call of two. -/
theorem cancel_unseen : ∃ s, (machine flaky "t").Reaches (Arrives "t" 0)
    (start flaky "t" [] twice fresh) s ∧ s.outcome = some (.error (.exception "e")) ∧
      s.shared.world.status "t" = .cancelled ∧ s.shared.world.callCount "t" = 1 ∧
      ¬ Retried flaky "t" 0 2 (.error (.exception "e")) s.shared := by
  have ran : ∃ s ∈ (machine flaky "t").exec (Arrives "t" 0) straddled (start flaky "t" [] twice fresh),
      s.outcome = some (.error (.exception "e")) ∧ s.shared.world.status "t" = .cancelled ∧
        s.shared.world.callCount "t" = 1 ∧ s.shared.arrivals = [1] := by decide +kernel
  obtain ⟨s, run, outcome, status, calls, arrivals⟩ := ran
  refine ⟨s, Machine.reaches_of_exec run, outcome, status, calls, fun retried => ?_⟩
  have first : FirstStop flaky "t" 0 s.shared 0 :=
    ⟨.inr (by rw [arrivals]; decide), fun j none => absurd none (Nat.not_lt_zero j)⟩
  have ends := (retried.stopped 0 (by decide) first).outcome
  rw [if_neg (by decide)] at ends
  obtain ⟨message, same⟩ := ends
  cases same

end Retrying

end TTasks
