import TTasks.Laws.Retrying.Between
import TTasks.Laws.Executor.Undisturbed

/-!
# The retry loop

`Attempted` says what one attempt leaves and `Decided` what the loop knows once it has dealt with an
exception; the loop is then an induction on the attempts left. Of the two status reads after a FAILED
event the second follows the first at once: no timely cancel comes between them.
-/

namespace TTasks

open Interleave
open Prog (Contract)

namespace Retrying

variable {x : Executor} {t : TaskId} {base : Nat}

/-! ## One attempt -/

/-- The task as attempt `m` leaves it. -/
structure Left (x : Executor) (t : TaskId) (base m : Nat) (status : TaskStatus) (task : Task) : Prop where
  status : task.status = status
  result : task.result = some ((x.behaviour t (base + m)).result t)
  registered : x.handlers task.type = true

/-- How attempt `m` ends. -/
inductive Attempted (x : Executor) (t : TaskId) (base m : Nat) : Except Exc TaskResult → Shared → Prop
  | succeeded {s : Shared} {task : Task} (ending : (x.behaviour t (base + m)).ending = .succeeded)
      (here : Now t task (base + m + 1) s) (left : Left x t base m .succeeded task) :
      Attempted x t base m (.ok ((x.behaviour t (base + m)).result t)) s
  | cancelled {s : Shared} {task : Task} {message : String}
      (ending : (x.behaviour t (base + m)).ending = .cancelled)
      (here : Now t task (base + m + 1) s) (left : Left x t base m .cancelled task) :
      Attempted x t base m (.error (.taskCancelled message)) s
  | failed {s : Shared} {task : Task} {e : Exc}
      (ending : (x.behaviour t (base + m)).ending = .failed)
      (raised : (x.behaviour t (base + m)).outcome = .raises e)
      (here : Since x t base task (base + m + 1) s) (left : Left x t base m .failed task)
      (fresh : s.looks = 0) : Attempted x t base m (.error e) s
  | struck {s : Shared} {message : String} (begun : 0 < m) (late : Struck x t (base + m) s) :
      Attempted x t base m (.error (.valueError message)) s

section Attempt

variable {task : Task} {m : Nat} {p : Shared}

/-- `except TaskCancelled`, and `except Exception` on a task that the handler has cancelled. -/
theorem wp_cancelledResult (here : Now t task (base + m + 1) p) (registered : x.handlers task.type = true)
    (active : task.status = .running ∨ task.status = .cancelled)
    (ending : (x.behaviour t (base + m)).ending = .cancelled) {e : Exc}
    (result : (x.behaviour t (base + m)).result t = cancelledResult t e) (message : String) :
    ((terminalize x t (cancelledResult t e) .cancelled .running .cancelled (some e.text)).bind
      fun _ => .fail (.taskCancelled message)).wp (sem x) (cancellable x t base)
        (Attempted x t base m) p := by
  have firm : task.status ≠ .failed := by rcases active with h | h <;> rw [h] <;> decide
  rw [Prog.wp_bind]
  refine wp_terminalize here registered firm ?_ (by decide) (by decide) ?_
  · intro other
    rcases active with running | cancelled
    · rw [running]; decide
    · exact absurd cancelled other
  · intro q task' here' status' result' registered'
    exact .cancelled ending here' ⟨status', result.symm ▸ result', registered'⟩

/-- The `except` clauses for an exception of the handler. -/
theorem wp_handleError {e : Exc} (raised : (x.behaviour t (base + m)).outcome = .raises e)
    (ordinary : e.isOrdinary = true) (here : Now t task (base + m + 1) p)
    (registered : x.handlers task.type = true)
    (status : task.status =
      if (x.behaviour t (base + m)).cancels = 0 then .running else .cancelled) :
    (handleError x t e).wp (sem x) (cancellable x t base) (Attempted x t base m) p := by
  have active : task.status = .running ∨ task.status = .cancelled := by
    rw [status]; split <;> simp
  have firm : task.status ≠ .failed := by rcases active with h | h <;> rw [h] <;> decide
  -- `except TaskCancelled`, and `except Exception` for all the others that are ordinary
  by_cases named : ∃ message, e = .taskCancelled message
  · obtain ⟨message, rfl⟩ := named
    refine wp_cancelledResult here registered active ?_ ?_ message
    · simp [HandlerCall.ending, raised]
    · simp [HandlerCall.result, raised]
  · have clause : handleError x t e = exceptException x t e := by
      cases e with
      | taskCancelled message => exact absurd ⟨message, rfl⟩ named
      | baseException | unprintable | unprintableCancelled | unreadable => cases ordinary
      | _ => rfl
    rw [clause, exceptException, Prog.bind_eq, Prog.wp_bind]
    refine wp_status_firm here registered firm fun q here' => ?_
    show Prog.wp _ _ (if (task.status == .cancelled) = true then _ else _) _ _
    -- without a cancel of the handler's own the task is still RUNNING, and FAILED from here on
    by_cases none : (x.behaviour t (base + m)).cancels = 0
    · rw [if_pos none] at status
      rw [if_neg (by rw [status]; decide), Prog.bind_eq, Prog.wp_bind]
      refine wp_terminalize_failed here' registered status ?_
      intro q' task' since status' result' registered' fresh
      refine .failed ?_ raised since ⟨status', ?_, registered'⟩ fresh
      · cases e with
        | taskCancelled message => exact absurd ⟨message, rfl⟩ named
        | baseException | unprintable | unprintableCancelled | unreadable => cases ordinary
        | _ => simp [HandlerCall.ending, raised, none]
      · rw [result']
        cases e with
        | taskCancelled message => exact absurd ⟨message, rfl⟩ named
        | _ => simp [HandlerCall.result, raised, none]
    -- with one it is CANCELLED already, and stays so
    · rw [if_neg none] at status
      rw [if_pos (by rw [status]; decide)]
      refine wp_cancelledResult here' registered active ?_ ?_ _
      · simp [HandlerCall.ending, none]
      · cases e with
        | taskCancelled message => exact absurd ⟨message, rfl⟩ named
        | _ => simp [HandlerCall.result, raised, none]

/-- The `try` statement of `_execute_once`. -/
theorem wp_attempt (ordinary : (x.behaviour t (base + m)).outcome.isOrdinary = true)
    (here : Now t task (base + m) p) (registered : x.handlers task.type = true)
    (running : task.status = .running) (upstream : List TaskId) :
    ((attempt x t upstream).tryCatch (handleError x t)).wp (sem x) (cancellable x t base)
      (Attempted x t base m) p := by
  rw [Prog.wp_tryCatch, attempt, Prog.bind_eq, Prog.wp_bind]
  refine wp_callHandler here registered running upstream fun q task' here' status' registered' => ?_
  cases outcome : (x.behaviour t (base + m)).outcome with
  | raises e =>
    rw [outcome] at ordinary
    exact wp_handleError outcome ordinary here' registered' status'
  | returns raw =>
    have firm : task'.status ≠ .failed := by rw [status']; split <;> decide
    show Prog.wp _ _ ((raiseIfCancelled t).bind _) _ _
    simp only [raiseIfCancelled, Prog.bind_eq, Prog.wp_bind]
    refine wp_status_firm here' registered' firm fun q' here'' => ?_
    show Prog.wp _ _ (if (task'.status == .cancelled) = true then _ else _) _ _
    by_cases none : (x.behaviour t (base + m)).cancels = 0
    · rw [if_pos none] at status'
      rw [if_neg (by rw [status']; decide)]
      refine wp_terminalize here'' registered' firm (fun _ => by rw [status']; decide) (by decide)
        (by decide) fun q₃ task₃ here₃ status₃ result₃ registered₃ => ?_
      have result : (x.behaviour t (base + m)).result t = .fromRaw t raw .succeeded := by
        simp [HandlerCall.result, outcome, none]
      have ends : Attempted x t base m (.ok ((x.behaviour t (base + m)).result t)) q₃ :=
        .succeeded (by simp [HandlerCall.ending, outcome, none]) here₃
          ⟨status₃, result ▸ result₃, registered₃⟩
      rw [result] at ends
      exact ends
    · rw [if_neg none] at status'
      rw [if_pos (by rw [status']; decide)]
      refine wp_cancelledResult here'' registered' (.inr status') ?_ ?_ _
      · simp [HandlerCall.ending, none]
      · simp [HandlerCall.result, outcome, none, cancelledError]

/-- `_execute_once`, from a task that may start or one that a cancel has reached. -/
theorem wp_executeOnce (ordinary : (x.behaviour t (base + m)).outcome.isOrdinary = true)
    (here : Since x t base task (base + m) p) (registered : x.handlers task.type = true)
    (startable : task.status.canTransitionTo .running = true) (upstream : List TaskId) :
    (executeOnce x t upstream).wp (sem x) (cancellable x t base) (Attempted x t base m) p := by
  have begun : base < base + m → 0 < m := by omega
  rw [executeOnce, Prog.bind_eq, Prog.wp_bind]
  refine wp_status here registered (fun q₁ here₁ => ?_) (fun q₁ late struck => ?_)
  · show Prog.wp _ _ (if (!task.status.canTransitionTo .running) = true then _ else _) _ _
    rw [if_neg (by simp [startable]), Prog.bind_eq, Prog.wp_bind]
    refine (skips x t base).wp_quiet (o := .type t) rfl fun b moved passes _ => ?_
    have type : x.handlers ((TaskOp.type t).perform x b.world).1 = true := by
      show x.handlers (b.world.tasks t).type = true
      rcases moved.passes.since _ _ registered (.inl here₁) with still | ⟨-, struck⟩
      · rw [still.task]; exact registered
      · exact struck.registered
    have here₂ := passes.since _ _ registered (.inl here₁)
    show Prog.wp _ _ (if (!x.handlers ((TaskOp.type t).perform x b.world).1) = true then _ else _) _ _
    rw [if_neg (by simp [type])]
    simp only [Prog.bind_eq, Prog.tryCatch_eq, Prog.wp_bind]
    refine wp_previous here₂ registered fun q₃ previous here₃ => ?_
    refine wp_running here₃ registered startable (fun q₄ here₄ => ?_) fun q₄ message late struck => ?_
    · refine wp_emit here₄ registered (by simp) fun q₅ here₅ => ?_
      exact wp_attempt ordinary here₅ registered rfl upstream
    · exact .struck (begun late) struck
  · show Prog.wp _ _ (if (!TaskStatus.cancelled.canTransitionTo .running) = true then _ else _) _ _
    rw [if_pos (by decide), Prog.bind_eq, Prog.wp_bind]
    refine (skips x t base).wp_readStatus fun q₂ passes => ?_
    exact .struck (begun late) (passes.struck _ struck)

end Attempt

/-! ## Between two attempts -/

section Loop

variable {n m : Nat} {p : Shared}

theorem FirstStop.unique {s : Shared} {i j : Nat} (hi : FirstStop x t base s i)
    (hj : FirstStop x t base s j) : i = j := by
  rcases Nat.lt_trichotomy i j with before | same | after
  · exact absurd hi.1 (hj.2 i before)
  · exact same
  · exact absurd hj.1 (hi.2 j after)

/-- A call that attempt `m` stops has come to what it should. -/
theorem StoppedAt.retried {r : Except Exc TaskResult} {s : Shared} (here : m < n)
    (first : FirstStop x t base s m) (stopped : StoppedAt x t base m r s) :
    Retried x t base n r s where
  stopped i _ other := by
    obtain rfl := first.unique other
    exact stopped
  exhausted none := absurd first.1 (none m here)

/-- An attempt that does not fail is the last. -/
theorem retried_left {r : Except Exc TaskResult} {s : Shared} {status : TaskStatus} {task : Task}
    (prior : ∀ j < m, (x.behaviour t (base + j)).ending = .failed) (bound : m < n)
    (ending : (x.behaviour t (base + m)).ending = status)
    (ends : status = .succeeded ∧ r = .ok ((x.behaviour t (base + m)).result t) ∨
      status = .cancelled ∧ ∃ message, r = .error (.taskCancelled message))
    (here : Now t task (base + m + 1) s) (left : Left x t base m status task) :
    Retried x t base n r s := by
  have quiet : ∀ i, i ∉ s.arrivals := by simp [here.arrivals]
  have first : FirstStop x t base s m := by
    refine ⟨.inl ?_, fun j before stops => ?_⟩
    · rw [ending]
      rcases ends with ⟨rfl, -⟩ | ⟨rfl, -⟩ <;> decide
    · exact stops.elim (fun other => other (prior j before)) (quiet _)
  refine StoppedAt.retried bound first ⟨here.count, ?_, ?_, ?_⟩
  · rw [ending]
    rcases ends with ⟨rfl, returned⟩ | ⟨rfl, raised⟩
    · exact returned
    · exact raised
  · rw [ending, here.status, left.status]
    rcases ends with ⟨rfl, -⟩ | ⟨rfl, -⟩ <;> rfl
  · rw [if_neg (quiet _), here.task, left.result]

/-- A cancel between two attempts makes the one before it the last. -/
theorem Struck.retried {s : Shared} (prior : ∀ j ≤ m, (x.behaviour t (base + j)).ending = .failed)
    (bound : m < n) (late : Struck x t (base + m + 1) s) (message : String) :
    Retried x t base n (.error (.taskCancelled message)) s := by
  have stops : base + m + 1 ∈ s.arrivals := by simp [late.arrivals]
  have first : FirstStop x t base s m := by
    refine ⟨.inr stops, fun j before other => ?_⟩
    rcases other with other | other
    · exact other (prior j (by omega))
    · rw [late.arrivals, List.mem_singleton] at other
      omega
  have ending := prior m (Nat.le_refl m)
  refine StoppedAt.retried bound first ⟨late.count, ?_, ?_, ?_⟩
  · rw [ending]
    exact ⟨message, rfl⟩
  · rw [ending, late.status]
    rfl
  · rw [if_pos stops, late.result]

/-- The last attempt fails, and no cancel has come. -/
theorem retried_exhausted {s : Shared} {task : Task} {e : Exc} (bound : m + 1 = n)
    (ending : (x.behaviour t (base + m)).ending = .failed)
    (raised : (x.behaviour t (base + m)).outcome = .raises e)
    (prior : ∀ j < m, (x.behaviour t (base + j)).ending = .failed)
    (here : Now t task (base + m + 1) s) (left : Left x t base m .failed task) :
    Retried x t base n (.error e) s := by
  subst bound
  have none : ∀ i < m + 1, ¬ Stops x t base s i := by
    intro i bound stops
    rcases stops with other | came
    · rcases Nat.lt_succ_iff_lt_or_eq.mp bound with before | rfl
      · exact other (prior i before)
      · exact other ending
    · simp [here.arrivals] at came
  have last : base + (m + 1) - 1 = base + m := by omega
  refine ⟨fun i bound first => absurd first.1 (none i bound), fun _ => ⟨here.count, ?_, ?_, ?_⟩⟩
  · rw [last]
    exact ⟨e, raised, rfl⟩
  · exact here.status.trans left.status
  · rw [last, here.task, left.result]

/-- What the loop knows once it has dealt with an exception. -/
def Decided (x : Executor) (t : TaskId) (base m n : Nat) : Except Exc Unit → Shared → Prop
  | .error e, s => Retried x t base n (.error e) s
  | .ok _, s => m + 1 < n ∧ (x.behaviour t (base + m)).ending = .failed ∧
    ∃ task, Since x t base task (base + (m + 1)) s ∧ Left x t base m .failed task

/-- The first status read after the FAILED event. -/
theorem wp_firstLook {task : Task} {calls : Nat} (here : Since x t base task calls p)
    (registered : x.handlers task.type = true) (fresh : p.looks = 0)
    {Q : Except Exc TaskStatus → Shared → Prop}
    (now : ∀ q, Now t task calls q → q.looks = 1 → Q (.ok task.status) q)
    (struck : ∀ q, Struck x t calls q → Q (.ok .cancelled) q) :
    (readStatus t).wp (sem x) (cancellable x t base) Q p := by
  intro q moved
  refine ⟨trivial, fun _ => ⟨trivial, ?_⟩⟩
  have looks : q.looks = 0 := by
    rcases moved with rfl | ⟨-, -, rfl⟩ <;> exact fresh
  have same : Passes x t base q (sem x (.status t) q).2 := sem_passes rfl rfl
  show Q (.ok (q.world.status t)) _
  rcases moved.passes.since _ _ registered here with still | ⟨-, late⟩
  · rw [still.status]
    exact now _ ⟨still.task, still.count, still.arrivals⟩ (by simp [sem, looksAfter, looks])
  · rw [late.status]
    exact struck _ (same.struck _ late)

/-- The status read that follows it, before which no cancel comes. -/
theorem wp_secondLook {task : Task} {calls : Nat} (here : Now t task calls p) (one : p.looks = 1)
    {Q : Except Exc TaskStatus → Shared → Prop}
    (next : ∀ q, Now t task calls q → Q (.ok task.status) q) :
    (readStatus t).wp (sem x) (cancellable x t base) Q p := by
  intro q moved
  obtain rfl := moved.still (.inr one)
  refine ⟨trivial, fun _ => ⟨trivial, ?_⟩⟩
  show Q (.ok (q.world.status t)) _
  rw [here.status]
  exact next _ ⟨here.task, here.count, here.arrivals⟩

/-- The `except Exception` clause of the loop. -/
def exceptClause (policy : RetryPolicy) (t : TaskId) (last : Bool) (e : Exc) : Exec Unit :=
  (readStatus t).bind fun status =>
    if status == .cancelled then .fail (cancelledError t)
    else if last then .fail e
    else (readStatus t).bind fun status =>
      if status != .failed then .fail e
      else (if policy.backoff ≠ 0 then sleep t else .ret ()).bind fun _ =>
        (readStatus t).bind fun status =>
          if status == .cancelled then .fail (cancelledError t) else .ret ()

theorem afterFailure_of_retryable (policy : RetryPolicy) (t : TaskId) (last : Bool) {e : Exc}
    (retryable : e.Retryable) : afterFailure policy t last e = exceptClause policy t last e := by
  have clause : ∀ e : Exc, exceptClause policy t last e = (do
      let status ← readStatus t
      if status == .cancelled then
        throw (cancelledError t)
      else if last then
        throw e
      else
        let status ← readStatus t
        if status != .failed then
          throw e
        else
          if policy.backoff ≠ 0 then
            sleep t
          let status ← readStatus t
          if status == .cancelled then
            throw (cancelledError t)
          else
            pure () : Exec Unit) := by
    intro e
    unfold exceptClause
    by_cases backoff : policy.backoff = 0 <;> simp [backoff, Prog.bind]
  rw [clause]
  cases e with
  | taskCancelled message => exact retryable.elim
  | unprintableCancelled raised => exact retryable.elim
  | baseException message => exact retryable.elim
  | _ => rfl

/-- The clause on a task that a cancel has reached before it. -/
theorem wp_exceptClause_struck (policy : RetryPolicy) (last : Bool) (e : Exc)
    (prior : ∀ j ≤ m, (x.behaviour t (base + j)).ending = .failed) (bound : m < n)
    (late : Struck x t (base + m + 1) p) {k : Nat} :
    (exceptClause policy t last e).wp (sem x) (cancellable x t base) (Decided x t base k n) p := by
  rw [exceptClause, Prog.wp_bind]
  refine (skips x t base).wp_readStatus fun q passes => ?_
  have late' := passes.struck _ late
  rw [late'.status]
  exact late'.retried prior bound _

/-- The clause after an attempt that failed: it raises the exception of the last attempt, raises
`TaskCancelled` after a cancel, and lets the loop go on otherwise. -/
theorem wp_exceptClause_failed (policy : RetryPolicy) {last : Bool} (isLast : last = true ↔ m + 1 = n)
    {e : Exc} (prior : ∀ j < m, (x.behaviour t (base + j)).ending = .failed) (bound : m < n)
    (ending : (x.behaviour t (base + m)).ending = .failed)
    (raised : (x.behaviour t (base + m)).outcome = .raises e) {task : Task}
    (here : Since x t base task (base + m + 1) p) (left : Left x t base m .failed task)
    (fresh : p.looks = 0) :
    (exceptClause policy t last e).wp (sem x) (cancellable x t base) (Decided x t base m n) p := by
  have all : ∀ j ≤ m, (x.behaviour t (base + j)).ending = .failed := by
    intro j upto
    rcases Nat.lt_or_eq_of_le upto with before | rfl
    · exact prior j before
    · exact ending
  -- the first look at the status: a cancel that came since the failure ends the loop here
  rw [exceptClause, Prog.wp_bind]
  refine wp_firstLook here left.registered fresh (fun q₁ here₁ one => ?_) fun q₁ late => ?_
  · show Prog.wp _ _ (if (task.status == .cancelled) = true then _ else _) _ _
    rw [if_neg (by rw [left.status]; decide)]
    -- the last attempt raises without a further look
    by_cases final : last = true
    · rw [if_pos final]
      exact retried_exhausted (isLast.mp final) ending raised prior here₁ left
    · rw [if_neg final, Prog.wp_bind]
      refine wp_secondLook here₁ one fun q₂ here₂ => ?_
      show Prog.wp _ _ (if (task.status != .failed) = true then _ else _) _ _
      rw [if_neg (by rw [left.status]; decide), Prog.wp_bind]
      -- during the sleep a cancel may come, and the third look finds it
      have slept : (if policy.backoff ≠ 0 then sleep t else .ret () : Exec Unit).wp (sem x)
          (cancellable x t base) (Prog.Returns fun _ q => Since x t base task (base + m + 1) q) q₂ := by
        split
        · refine (skips x t base).wp_quiet (o := .sleep t) rfl fun b _ passes _ => ?_
          exact passes.since _ _ left.registered (.inl here₂)
        · exact .inl here₂
      refine Prog.wp_mono slept fun r q₃ here₃ => ?_
      cases r with
      | error e => exact here₃.elim
      | ok _ =>
        show Prog.wp _ _ ((readStatus t).bind _) _ _
        rw [Prog.wp_bind]
        refine wp_status here₃ left.registered (fun q₄ here₄ => ?_) fun q₄ _ late => ?_
        · show Prog.wp _ _ (if (task.status == .cancelled) = true then _ else _) _ _
          rw [if_neg (by rw [left.status]; decide)]
          have more : m + 1 < n := by
            have other : m + 1 ≠ n := fun same => final (isLast.mpr same)
            omega
          exact ⟨more, ending, task, .inl here₄, left⟩
        · exact late.retried all bound _
  · exact late.retried all bound _

/-- What the loop does with the exception of an attempt. -/
theorem wp_afterFailure (policy : RetryPolicy) {last : Bool} (isLast : last = true ↔ m + 1 = n)
    {e : Exc} (prior : ∀ j < m, (x.behaviour t (base + j)).ending = .failed) (bound : m < n)
    (attempted : Attempted x t base m (.error e) p) :
    (afterFailure policy t last e).wp (sem x) (cancellable x t base) (Decided x t base m n) p := by
  cases attempted with
  | cancelled ending here left =>
    exact retried_left prior bound ending (.inr ⟨rfl, _, rfl⟩) here left
  | failed ending raised here left fresh =>
    have retryable : e.Retryable := by
      cases e with
      | taskCancelled | unprintableCancelled | baseException =>
        unfold HandlerCall.ending at ending
        rw [raised] at ending
        split at ending <;> cases ending
      | _ => trivial
    rw [afterFailure_of_retryable policy t last retryable]
    exact wp_exceptClause_failed policy isLast prior bound ending raised here left fresh
  | struck begun late =>
    obtain ⟨k, rfl⟩ := Nat.exists_eq_succ_of_ne_zero (Nat.pos_iff_ne_zero.mp begun)
    rename_i message
    have retryable : (Exc.valueError message).Retryable := trivial
    rw [afterFailure_of_retryable policy t last retryable]
    exact wp_exceptClause_struck policy last _ (fun j upto => prior j (by omega)) (by omega) late

/-- One round of the loop, with what follows it. -/
theorem wp_round (policy : RetryPolicy) (upstream : List TaskId) {last : Bool}
    (isLast : last = true ↔ m + 1 = n) (bound : m < n)
    (ordinary : ∀ k, (x.behaviour t k).outcome.isOrdinary = true) {task : Task}
    (prior : ∀ j < m, (x.behaviour t (base + j)).ending = .failed)
    (here : Since x t base task (base + m) p) (registered : x.handlers task.type = true)
    (startable : task.status.canTransitionTo .running = true) {rest : Exec TaskResult}
    (next : ∀ q task', m + 1 < n → (∀ j < m + 1, (x.behaviour t (base + j)).ending = .failed) →
      Since x t base task' (base + (m + 1)) q → x.handlers task'.type = true →
      task'.status.canTransitionTo .running = true →
      rest.wp (sem x) (cancellable x t base) (Retried x t base n) q) :
    ((executeOnce x t upstream).tryCatch fun e => (afterFailure policy t last e).bind fun _ =>
      rest).wp (sem x) (cancellable x t base) (Retried x t base n) p := by
  rw [Prog.wp_tryCatch]
  apply Prog.wp_mono (wp_executeOnce (ordinary _) here registered startable upstream)
  rintro (e | result) q attempted
  · show Prog.wp _ _ ((afterFailure policy t last e).bind _) _ q
    rw [Prog.wp_bind]
    apply Prog.wp_mono (wp_afterFailure policy isLast prior bound attempted)
    rintro (e' | _) q' decided
    · exact decided
    · obtain ⟨more, ending, task', since, left⟩ := decided
      apply next q' task' more ?_ since left.registered
      · rw [left.status]; decide
      · intro j upto
        rcases Nat.lt_succ_iff_lt_or_eq.mp upto with before | rfl
        · exact prior j before
        · exact ending
  · cases attempted with
    | succeeded ending here' left => exact retried_left prior bound ending (.inl ⟨rfl, rfl⟩) here' left

/-- By induction on the attempts left: each attempt that fails hands on to the next. -/
theorem wp_retryLoop (policy : RetryPolicy) (upstream : List TaskId)
    (ordinary : ∀ k, (x.behaviour t k).outcome.isOrdinary = true) (left : Nat) {task : Task}
    (total : m + left + 1 = n) (prior : ∀ j < m, (x.behaviour t (base + j)).ending = .failed)
    (here : Since x t base task (base + m) p) (registered : x.handlers task.type = true)
    (startable : task.status.canTransitionTo .running = true) :
    (retryLoop x policy t upstream (left + 1)).wp (sem x) (cancellable x t base)
      (Retried x t base n) p := by
  induction left generalizing m p task with
  | zero =>
    apply wp_round policy upstream (by simp; omega) (by omega) ordinary prior here registered startable
    intro q task' more
    omega
  | succ left ih =>
    apply wp_round policy upstream (by simp; omega) (by omega) ordinary prior here registered startable
    intro q task' _ prior' here' registered' startable'
    exact ih (by omega) prior' here' registered' startable'

end Loop

end Retrying

end TTasks
