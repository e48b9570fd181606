import TTasks.Laws.Race.Account

/-!
# The attempt's side

The weakest preconditions of `_execute_once` and its parts while cancels come in between. The
attempt goes from `Unstarted` to `Active` at its transition to RUNNING, and from there to `Done` by
way of `Owing` an event. A cancel that comes while it is `Active` moves the task to CANCELLED and
leaves the event to the attempt; the one place where that defeats the attempt's own transition
without making it stale is on the way to SUCCEEDED, and there the `except` clause recovers.
-/

namespace TTasks

open Interleave
open Prog (Contract)

namespace Race

variable {n : Nat}

section Attempt

variable (x : Executor) {t : TaskId} {p q : Noted n}

/-- The account after the attempt's transition. -/
def owesAfter (target : TaskStatus) (a : Account n) : Account n :=
  if isFinal target then { a with attemptOwes := some target } else a

/-- Quiet operations of the attempt may be passed over. -/
theorem attemptSkips (x : Executor) (t : TaskId) :
    Skips x t (fun p : Noted n => p.1.world) (act x t .attempt) (attemptContract x t) Quiet
      fun p q => Balanced t q ∧ AttemptRely t p q where
  answer _ _ := rfl
  trans h h' := ⟨h'.1, h.2.trans h'.2⟩
  rely h := h
  ready _ _ := trivial
  step {o a b} quiet h := by
    have same := act_quiet x (t := t) quiet .attempt b
    have balanced := same.balanced h.1
    exact ⟨⟨balanced, same.movedByAttempt rfl⟩, ⟨balanced, same.attemptRely⟩, same.status⟩
  read := trivial
  save := trivial
  record _ := trivial
  failed e he := by simp [Quiet, isTerminalEvent, he, TaskEventType.status]

/-- Entering RUNNING keeps the balance, as the result is cleared with it. -/
theorem Balanced.moved_running (balanced : Balanced t p) (open_ : (p.status t).isSink = false)
    (none : p.2.attemptOwes = none) (error : Option String) :
    Balanced t (p.moved t .running error p.2) where
  events s final := by
    have other : s ≠ .running := by rintro rfl; cases final
    have same : (p.1.entered ++ [TaskStatus.running]).count s = p.1.entered.count s := by
      simp [List.count_append, other.symm]
    exact (balanced.events s final).trans same.symm
  result s final here := by rw [moved_status] at here; rw [← here] at final; cases final
  cancelOwes owed := by
    have := (balanced.cancelOwes owed).1
    rw [this] at open_; cases open_
  attemptOwes s owed := by rw [Noted.moved, none] at owed; cases owed
  succeeded entered := by
    have before : .succeeded ∈ p.1.entered := by simpa [Noted.moved] using entered
    rw [balanced.succeeded before] at open_; cases open_

/-- The attempt's transition to a terminal status whose result is written. -/
theorem Balanced.moved_final (balanced : Balanced t p) (open_ : (p.status t).isSink = false)
    (none : p.2.attemptOwes = none) {target : TaskStatus} (final : isFinal target = true)
    (result : ∃ r, p.result t = some r ∧ r.status = target) (error : Option String) :
    Balanced t (p.moved t target error (owesAfter target p.2)) where
  events s final' := by
    have paid := balanced.cancelOwes_none (by intro h; rw [h] at open_; cases open_)
    have before := balanced.events s final'
    by_cases same : target = s
    · subst same
      simpa [Noted.moved, owesAfter, final, reported, none, paid, List.count_append] using before
    · simpa [Noted.moved, owesAfter, final, reported, none, paid, List.count_append, same]
        using before
  result s final' here := by
    rw [moved_status] at here
    subst here
    have other : target ≠ .running := by rintro rfl; cases final'
    exact .inl (by simpa [other] using result)
  cancelOwes owed := by
    have paid := balanced.cancelOwes_none (by intro h; rw [h] at open_; cases open_)
    simp [Noted.moved, owesAfter, final, paid] at owed
  attemptOwes s owed := by
    have same : target = s := by simpa [Noted.moved, owesAfter, final] using owed
    subst same
    exact ⟨final, .inl (by simp)⟩
  succeeded entered := by
    rcases List.mem_append.mp entered with before | now
    · rw [balanced.succeeded before] at open_; cases open_
    · simpa using (List.mem_singleton.mp now).symm

/-- What the cancelling threads see of a transition of the attempt. -/
theorem movedByAttempt_moved (balanced : Balanced t p) (open_ : (p.status t).isSink = false)
    {target : TaskStatus} (late : target ≠ .pending ∧ target ≠ .blocked) (error : Option String) :
    MovedByAttempt t p (p.moved t target error (owesAfter target p.2)) where
  cancelOwes := by unfold owesAfter; split <;> rfl
  kept := by
    rintro ⟨i, owed⟩
    rw [(balanced.cancelOwes (by rw [owed]; rfl)).1] at open_; cases open_
  sink sink := by rw [open_] at sink; cases sink
  back early := by
    rw [moved_status] at early
    exact (early.elim late.1 late.2).elim
  reads := rfl

/-- One transition of the attempt: it is carried out or refused. -/
theorem wp_attempt_transition {target : TaskStatus} {error : Option String}
    (late : target ≠ .pending ∧ target ≠ .blocked) {Q : Except Exc Unit → Noted n → Prop}
    (moved : ∀ q, Balanced t q → AttemptRely t p q →
      attemptFresh t (.transition t target error) q.1 = true →
      (q.status t).canTransitionTo target = true →
      Balanced t (q.moved t target error (owesAfter target q.2)) ∧
        Q (.ok ()) (q.moved t target error (owesAfter target q.2)))
    (refused : ∀ q m, Balanced t q → AttemptRely t p q →
      attemptFresh t (.transition t target error) q.1 = true →
      (q.status t).canTransitionTo target = false → Q (.error (.valueError m)) q) :
    (transitionTo t target error).wp (act x t .attempt) (attemptContract x t) Q p := by
  rw [transitionTo, Prog.bind_eq, Prog.wp_bind]
  rintro q ⟨balanced, rely⟩
  refine ⟨trivial, fun fresh => ?_⟩
  cases allowed : (q.status t).canTransitionTo target with
  | true =>
    obtain ⟨answer, after⟩ := act_moved x allowed .attempt error
    obtain ⟨balanced', hq⟩ := moved q balanced rely fresh allowed
    refine ⟨⟨?_, ?_⟩, ?_⟩
    · rw [after]; exact balanced'
    · rw [after]
      exact movedByAttempt_moved balanced (not_sink_of_allowed allowed) late error
    · rw [answer, after]; exact hq
  | false =>
    obtain ⟨⟨m, answer⟩, after⟩ := act_refused x allowed (.attempt : Who n) error
    refine ⟨⟨?_, ?_⟩, ?_⟩
    · rw [after]; exact balanced
    · rw [after]
      exact (SameView.mk rfl (fun _ _ => rfl) rfl rfl).movedByAttempt rfl
    · rw [answer, after]; exact refused q m balanced rely fresh allowed

/-- The attempt writes a result. -/
theorem wp_attempt_setResult {r : TaskResult} {Q : Except Exc Unit → Noted n → Prop}
    (next : ∀ q, Balanced t q → AttemptRely t p q →
      attemptFresh t (.setResult t r) q.1 = true →
      Balanced t (q.written t r q.2) ∧ ((∃ i, q.2.cancelOwes = some (i, true)) → False) ∧
        Q (.ok ()) (q.written t r q.2)) :
    (setResult t r).wp (act x t .attempt) (attemptContract x t) Q p := by
  rintro q ⟨balanced, rely⟩
  refine ⟨trivial, fun fresh => ?_⟩
  obtain ⟨balanced', unpaid, hq⟩ := next q balanced rely fresh
  have after := act_written x (t := t) (p := q) .attempt r
  refine ⟨⟨?_, ?_⟩, ?_⟩
  · rw [after]; exact balanced'
  · rw [after]
    exact ⟨rfl, fun owed => (unpaid owed).elim, fun _ => written_status r q.2,
      fun _ => (written_status r q.2).symm, rfl⟩
  · rw [after]; exact hq

/-! ### Announcing -/

/-- The attempt has the event of a terminal status still to publish. -/
def Owing (t : TaskId) (s : TaskStatus) (p : Noted n) : Prop :=
  p.2.attemptOwes = some s ∧ (s = .cancelled → ∃ r, p.result t = some r ∧ r.status = .cancelled)

/-- The attempt has nothing left to do to the task. -/
def Done (t : TaskId) (p : Noted n) : Prop :=
  p.2.attemptOwes = none ∧ isFinal (p.status t) = true

/-- Nobody else publishes the event that the attempt owes. -/
theorem Owing.stable {s : TaskStatus} (h : Owing t s p) (rely : AttemptRely t p q) :
    Owing t s q := by
  refine ⟨(rely.owes (by rw [h.1]; rfl)).trans h.1, fun cancelled => ?_⟩
  rw [rely.kept (cancelled ▸ h.1)]
  exact h.2 cancelled

/-- Once it is over, only a cancel moves the task. -/
theorem Done.stable (h : Done t p) (rely : AttemptRely t p q) : Done t q := by
  refine ⟨rely.idle ?_ h.1, ?_⟩
  · intro running; rw [Done, running] at h; cases h.2
  · rcases rely.status with hs | hs <;> rw [hs]
    · exact h.2
    · rfl

/-- The event that was owed is out, and the books are even again. -/
theorem Balanced.announced {s : TaskStatus} (balanced : Balanced t p) (owing : Owing t s p)
    (h : Announced t s { p.2 with attemptOwes := none } p q) : Balanced t q where
  events s' final := by
    have before := balanced.events s' final
    rw [h.reported, h.account, h.entered, ← before, owing.1]
    by_cases same : s = s' <;> simp [same]
  result s' final here := by
    rw [h.status] at here
    rw [h.result, h.account]
    rcases balanced.result s' final here with hr | ⟨rfl, owed | owed⟩
    · exact .inl hr
    · exact .inr ⟨rfl, .inl owed⟩
    · exact .inl (owing.2 (Option.some.inj (owing.1.symm.trans owed)))
  cancelOwes owed := by
    rw [h.account] at owed ⊢
    exact ⟨h.status.trans (balanced.cancelOwes owed).1, fun h => by cases h⟩
  attemptOwes s' owed := by rw [h.account] at owed; cases owed
  succeeded entered := by
    rw [h.entered] at entered
    exact h.status.trans (balanced.succeeded entered)

/-- The attempt publishes the event it owes. -/
theorem wp_attempt_announce {s : TaskStatus} (owing : Owing t s p) (balanced : Balanced t p)
    {type : TaskEventType} (named : type.status = some s) {previous : Option TaskStatus}
    {error : Option String} {Q : Except Exc Unit → Noted n → Prop}
    (next : ∀ q, Balanced t q → Done t q → Q (.ok ()) q) :
    (emit x t type previous error).wp (act x t .attempt) (attemptContract x t) Q p := by
  have S := attemptSkips (n := n) x t
  simp only [emit, Prog.bind_eq, Prog.wp_bind]
  refine S.wp_persist ?_ ⟨balanced, .refl p⟩
  rintro q ⟨_, rely⟩
  refine S.wp_readStatus ?_
  rintro r ⟨_, rely'⟩
  rintro b ⟨balanced', rely''⟩
  refine ⟨trivial, fun _ => ?_⟩
  have owing' := owing.stable ((rely.trans rely').trans rely'')
  obtain ⟨final, here⟩ := balanced'.attemptOwes s owing'.1
  have after := act_announced x (t := t) (p := b) (e := ⟨type, t, previous, r.1.world.status t, error⟩)
    rfl named final .attempt
  have balanced'' := balanced'.announced owing' after
  refine ⟨⟨balanced'', ?_⟩, next _ balanced'' ⟨by rw [after.account], ?_⟩⟩
  · exact ⟨by rw [after.account], fun _ => after.result, fun _ => after.status,
      fun _ => after.status.symm, rfl⟩
  · rw [after.status]
    rcases here with here | ⟨-, here⟩ <;> rw [here]
    · exact final
    · rfl

/-! ### From RUNNING to a terminal status -/

/-- The attempt is under way: the task is RUNNING, or a cancel has taken it from there and left
the event to the attempt. -/
structure Active (t : TaskId) (p : Noted n) : Prop where
  started : .running ∈ p.1.entered
  phase : (p.status t = .running ∧ p.2.attemptOwes = none) ∨
    (p.status t = .cancelled ∧ p.2.attemptOwes = some .cancelled)

/-- The attempt stays under way: the most that the others do is to cancel it. -/
theorem Active.stable (h : Active t p) (rely : AttemptRely t p q) : Active t q := by
  refine ⟨rely.started.mpr h.started, ?_⟩
  rcases h.phase with ⟨hs, ho⟩ | ⟨hs, ho⟩
  · exact (rely.active hs ho).2
  · exact .inr ⟨(rely.sink (by rw [hs]; rfl)).trans hs, (rely.owes (by rw [ho]; rfl)).trans ho⟩

/-- What the active attempt has written stays. -/
theorem Active.result_stable (h : Active t p) (rely : AttemptRely t p q) :
    q.result t = p.result t := by
  rcases h.phase with ⟨hs, ho⟩ | ⟨-, ho⟩
  · exact (rely.active hs ho).1
  · exact rely.kept ho

/-- No cancelling thread owes an event while the attempt is under way. -/
theorem Active.cancelOwes_none (h : Active t p) (balanced : Balanced t p) :
    p.2.cancelOwes = none := by
  cases owed : p.2.cancelOwes with
  | none => rfl
  | some _ =>
    have holds := balanced.cancelOwes (by rw [owed]; rfl)
    rcases h.phase with ⟨hs, -⟩ | ⟨-, ho⟩
    · rw [hs] at holds; cases holds.1
    · exact absurd ho holds.2

/-- Storing a result while the attempt is under way. -/
theorem Active.written (h : Active t p) (balanced : Balanced t p) (r : TaskResult) :
    Active t (p.written t r p.2) ∧ Balanced t (p.written t r p.2) := by
  refine ⟨⟨h.started, by rw [written_status]; exact h.phase⟩, balanced.events, ?_, ?_, ?_, ?_⟩
  · intro s final here
    rw [written_status] at here
    rcases h.phase with ⟨hs, -⟩ | ⟨hs, ho⟩ <;> rw [hs] at here <;> subst here
    · cases final
    · exact .inr ⟨rfl, .inr ho⟩
  · rw [written_status]; exact balanced.cancelOwes
  · rw [written_status]; exact balanced.attemptOwes
  · rw [written_status]; exact balanced.succeeded

/-- An active attempt's `_terminalize` publishes the terminal event, unless a cancel came before
its transition to SUCCEEDED; the cancels that come before the other two are stale steps. -/
theorem wp_attempt_terminalize (active : Active t p) {s : TaskStatus}
    (final : isFinal s = true) {r : TaskResult} (own : r.status = s) {previous : TaskStatus}
    {type : TaskEventType} (named : type.status = some s) {error : Option String}
    {Q : Except Exc Unit → Noted n → Prop}
    (done : ∀ q, Balanced t q → Done t q → Q (.ok ()) q)
    (lost : ∀ q m, Balanced t q → s = .succeeded → Active t q → q.status t = .cancelled →
      Q (.error (.valueError m)) q) :
    (terminalize x t r s previous type error).wp (act x t .attempt) (attemptContract x t) Q p := by
  have S := attemptSkips (n := n) x t
  simp only [terminalize, Prog.bind_eq, Prog.wp_bind]
  refine wp_attempt_setResult x fun q balanced₁ rely _ => ?_
  have active₁ := active.stable rely
  obtain ⟨active₂, balanced₂⟩ := active₁.written balanced₁ r
  refine ⟨balanced₂, ?_, ?_⟩
  · rintro ⟨i, owed⟩
    rw [active₁.cancelOwes_none balanced₁] at owed
    cases owed
  -- between the result and the status a cancel may come
  refine S.wp_readStatus ?_
  rintro q₃ ⟨balanced₃, rely₃⟩
  have active₃ := active₂.stable rely₃
  have result₃ : q₃.result t = some r :=
    (active₂.result_stable rely₃).trans (written_result r q.2)
  show Prog.wp _ _ (if (q₃.status t != s) = true then _ else _) Q q₃
  split
  -- the task has to be moved, which succeeds unless it was cancelled meanwhile
  · simp only [Prog.wp_bind]
    have late : s ≠ .pending ∧ s ≠ .blocked := by
      constructor <;> rintro rfl <;> cases final
    refine wp_attempt_transition x late (fun q₄ balanced₄ rely₄ _ allowed => ?_)
      fun q₄ m balanced₄ rely₄ fresh refused => ?_
    · have active₄ := active₃.stable rely₄
      have owes : q₄.2.attemptOwes = none := by
        rcases active₄.phase with ⟨-, ho⟩ | ⟨hs, -⟩
        · exact ho
        · rw [hs] at allowed; cases s <;> cases allowed
      have balanced₅ := balanced₄.moved_final (not_sink_of_allowed allowed) owes final
        ⟨r, (active₃.result_stable rely₄).trans result₃, own⟩ error
      refine ⟨balanced₅, wp_attempt_announce x ⟨?_, ?_⟩ balanced₅ named done⟩
      · simp [Noted.moved, owesAfter, final]
      · rintro rfl
        exact ⟨r, by simpa [active₃.result_stable rely₄] using result₃, own⟩
    · have active₄ := active₃.stable rely₄
      have cancelled : q₄.status t = .cancelled := by
        rcases active₄.phase with ⟨hs, -⟩ | ⟨hs, -⟩
        · rw [hs] at refused
          cases s <;> first | exact absurd final (by decide) | exact absurd refused (by decide)
        · exact hs
      refine lost q₄ m balanced₄ ?_ active₄ cancelled
      have here : q₄.1.world.status t = .cancelled := cancelled
      simp only [attemptFresh, here, active₄.started, List.contains_eq_mem] at fresh
      cases s <;> first | rfl | exact absurd final (by decide) | simp at fresh
  -- the task is in the status already: it was cancelled while its handler ran
  · rename_i same
    have here : q₃.status t = s := by simpa using same
    have owing : Owing t s q₃ := by
      rcases active₃.phase with ⟨hs, -⟩ | ⟨hs, ho⟩
      · rw [hs] at here; subst here; cases final
      · rw [hs] at here
        subst here
        exact ⟨ho, fun _ => ⟨r, result₃, own⟩⟩
    exact wp_attempt_announce x owing balanced₃ named done

/-- The attempt has not moved the task to RUNNING. -/
structure Unstarted (t : TaskId) (p : Noted n) : Prop where
  owes : p.2.attemptOwes = none
  status : p.status t ≠ .running
  started : .running ∉ p.1.entered

/-- A task that nobody else starts. -/
theorem Unstarted.stable (h : Unstarted t p) (rely : AttemptRely t p q) : Unstarted t q where
  owes := rely.idle h.status h.owes
  status := by
    rcases rely.status with hs | hs
    · rw [hs]; exact h.status
    · rw [hs]; decide
  started := by rw [rely.started]; exact h.started

/-- An attempt that finds a sink is done. -/
theorem Unstarted.done (h : Unstarted t p) (sink : (p.status t).isSink = true) : Done t p := by
  refine ⟨h.owes, ?_⟩
  cases hs : p.status t <;> rw [hs] at sink <;> first | rfl | cases sink

/-- The transition to RUNNING starts the attempt, unless the task has become a sink. -/
theorem wp_attempt_start (unstarted : Unstarted t p) {Q : Except Exc Unit → Noted n → Prop}
    (started : ∀ q, Balanced t q → Active t q → Q (.ok ()) q)
    (done : ∀ q m, Balanced t q → Done t q → Q (.error (.valueError m)) q) :
    (transitionTo t .running).wp (act x t .attempt) (attemptContract x t) Q p := by
  refine wp_attempt_transition x (by decide) (fun q balanced rely _ allowed => ?_)
    fun q m balanced rely _ refused => ?_
  · have here := unstarted.stable rely
    have balanced' := balanced.moved_running (not_sink_of_allowed allowed) here.owes none
    refine ⟨balanced', started _ balanced' ⟨?_, .inl ⟨by simp, here.owes⟩⟩⟩
    simp [Noted.moved]
  · refine done q m balanced ((unstarted.stable rely).done ?_)
    have notRunning := (unstarted.stable rely).status
    cases hs : q.status t <;> rw [hs] at refused notRunning <;>
      first | rfl | exact absurd refused (by decide) | exact absurd rfl notRunning

/-- The terminal write of an attempt on a PENDING task without a handler, which never passes
through RUNNING: a cancel that comes before the transition keeps the task to itself. -/
theorem wp_attempt_terminalize_pending (unstarted : Unstarted t p)
    (pending : p.status t = .pending) {r : TaskResult} (own : r.status = .failed)
    {previous : TaskStatus} {error : Option String} {Q : Except Exc Unit → Noted n → Prop}
    (done : ∀ q e, Balanced t q → Done t q → Q e q) :
    (terminalize x t r .failed previous .failed error).wp (act x t .attempt)
      (attemptContract x t) Q p := by
  have S := attemptSkips (n := n) x t
  have early : ∀ {q : Noted n}, AttemptRely t p q → q.status t = .pending ∨
      q.status t = .cancelled := fun rely => rely.status.imp_left fun hs => hs.trans pending
  simp only [terminalize, Prog.bind_eq, Prog.wp_bind]
  refine wp_attempt_setResult x fun q balanced₁ rely fresh => ?_
  have unstarted₁ := unstarted.stable rely
  -- a CANCELLED task's result is either there, and then the write is stale, or still owed
  have owed : q.status t = .cancelled → ∃ i, q.2.cancelOwes = some (i, false) := by
    intro cancelled
    have here : q.1.world.status t = .cancelled := cancelled
    rcases balanced₁.result .cancelled rfl cancelled with ⟨r', hr', hs'⟩ | ⟨-, hi | ho⟩
    · have there : (q.1.world.tasks t).result = some r' := hr'
      simp [attemptFresh, own, here, there, hs'] at fresh
    · exact hi
    · rw [unstarted₁.owes] at ho; cases ho
  have unstarted₂ : Unstarted t (q.written t r q.2) :=
    ⟨unstarted₁.owes, by rw [written_status]; exact unstarted₁.status, unstarted₁.started⟩
  refine ⟨⟨balanced₁.events, ?_, ?_, ?_, ?_⟩, ?_, ?_⟩
  · intro s final here
    rw [written_status] at here
    rcases early rely with hs | hs <;> rw [hs] at here <;> subst here
    · cases final
    · exact .inr ⟨rfl, .inl (owed hs)⟩
  · rw [written_status]; exact balanced₁.cancelOwes
  · rw [written_status]; exact balanced₁.attemptOwes
  · rw [written_status]; exact balanced₁.succeeded
  · rintro ⟨i, paid⟩
    obtain ⟨j, unpaid⟩ := owed (balanced₁.cancelOwes (by rw [paid]; rfl)).1
    rw [paid] at unpaid
    cases unpaid
  refine S.wp_readStatus ?_
  rintro q₃ ⟨balanced₃, rely₃⟩
  have status₃ : q₃.status t = .pending ∨ q₃.status t = .cancelled := by
    rcases rely₃.status with hs | hs
    · rw [hs, written_status]; exact early rely
    · exact .inr hs
  show Prog.wp _ _ (if (q₃.status t != .failed) = true then _ else _) Q q₃
  rw [if_pos (by rcases status₃ with hs | hs <;> rw [hs] <;> rfl)]
  simp only [Prog.wp_bind]
  refine wp_attempt_transition x (by decide) (fun q₄ balanced₄ rely₄ _ allowed => ?_)
    fun q₄ m balanced₄ rely₄ _ refused => ?_
  · have notCancelled : q₄.status t ≠ .cancelled := by
      intro hs; rw [hs] at allowed; cases allowed
    have result : q₄.result t = some r := by
      have rely' := rely₃.trans rely₄
      rcases rely'.result with hr | hs
      · exact hr.trans (written_result r q.2)
      · exact absurd hs notCancelled
    have balanced₅ := balanced₄.moved_final (not_sink_of_allowed allowed)
      ((unstarted₂.stable rely₃).stable rely₄).owes (show isFinal .failed = true from rfl)
      ⟨r, result, own⟩ error
    refine ⟨balanced₅, wp_attempt_announce x (s := .failed) ⟨?_, fun h => by cases h⟩ balanced₅ rfl
      fun q h h' => done q _ h h'⟩
    simp [Noted.moved, owesAfter, isFinal]
  · refine done q₄ _ balanced₄ (((unstarted₂.stable rely₃).stable rely₄).done ?_)
    rcases (rely₃.trans rely₄).status with hs | hs
    · rw [hs, written_status] at refused ⊢
      rcases early rely with h | h <;> rw [h] at refused ⊢
      · exact absurd refused (by decide)
      · rfl
    · rw [hs]; rfl

/-! ### The handler and its outcome -/

section Outcome

variable {Q : Except Exc TaskResult → Noted n → Prop}
  (done : ∀ q r, Balanced t q → Done t q → Q r q)

include done

/-- `except TaskCancelled` announces CANCELLED. -/
theorem wp_exceptCancelled (active : Active t p) (e : Exc) :
    (exceptCancelled x t e).wp (act x t .attempt) (attemptContract x t) Q p := by
  simp only [exceptCancelled, Prog.bind_eq, Prog.wp_bind]
  exact wp_attempt_terminalize x active rfl rfl rfl (fun q balanced hd => done q _ balanced hd)
    fun _ _ _ wrong => by cases wrong

/-- `except Exception` announces FAILED, or CANCELLED where a cancel came first. -/
theorem wp_exceptException (active : Active t p) (e : Exc) :
    (exceptException x t e).wp (act x t .attempt) (attemptContract x t) Q p := by
  simp only [exceptException, Prog.bind_eq, Prog.wp_bind]
  refine (attemptSkips x t).wp_readStatus ?_
  rintro q ⟨balanced, rely⟩
  have active' := active.stable rely
  show Prog.wp _ _ (if (q.status t == .cancelled) = true then _ else _) Q q
  split
  · simp only [Prog.wp_bind]
    exact wp_attempt_terminalize x active' rfl rfl rfl
      (fun q balanced hd => done q _ balanced hd) fun _ _ _ wrong => by cases wrong
  · simp only [Prog.wp_bind]
    exact wp_attempt_terminalize x active' rfl (failedResult_status t e) rfl
      (fun q balanced hd => done q _ balanced hd) fun _ _ _ wrong => by cases wrong

/-- Whatever ordinary exception the handler raises, one of the clauses announces the end. -/
theorem wp_handleError (active : Active t p) {e : Exc} (ordinary : e.isOrdinary = true) :
    (handleError x t e).wp (act x t .attempt) (attemptContract x t) Q p := by
  cases e with
  | taskCancelled m => exact wp_exceptCancelled x done active _
  | baseException | unprintable | unprintableCancelled | unreadable => cases ordinary
  | _ => exact wp_exceptException x done active _

/-- The `try` statement of an active attempt. A cancel that comes before the transition to
SUCCEEDED makes the attempt raise, and its `except` clause then finds the task CANCELLED. -/
theorem wp_attempt (active : Active t p) (upstream : List TaskId)
    (ordinary : ∀ k, (x.behaviour t k).outcome.isOrdinary = true)
    (noCancels : ∀ k, (x.behaviour t k).cancels = 0) :
    ((attempt x t upstream).tryCatch (handleError x t)).wp (act x t .attempt)
      (attemptContract x t) Q p := by
  have S := attemptSkips (n := n) x t
  simp only [Prog.wp_tryCatch, attempt, Prog.bind_eq, Prog.wp_bind, callHandler]
  refine S.wp_quiet (o := .call t upstream) trivial ?_
  rintro b _ ⟨balanced₁, rely₁⟩ _
  have active₁ := active.stable rely₁
  obtain ⟨k, hk⟩ : ∃ k, ((TaskOp.call t upstream).perform x b.1.world).1 = x.behaviour t k :=
    ⟨_, rfl⟩
  rw [hk]
  have ordinary' := ordinary k
  show Prog.wp _ _ (ownCancels x t (x.behaviour t k).cancels) _ _
  rw [noCancels k]
  cases outcome : (x.behaviour t k).outcome with
  | raises e =>
    rw [outcome] at ordinary'
    exact wp_handleError x done active₁ ordinary'
  | returns raw =>
    simp only [raiseIfCancelled, Prog.bind_eq, Prog.wp_bind]
    refine S.wp_readStatus ?_
    rintro q ⟨balanced₂, rely₂⟩
    have active₂ := active₁.stable rely₂
    show Prog.wp _ _ (if (q.status t == .cancelled) = true then _ else _) _ q
    split
    · exact wp_handleError x done active₂ rfl
    · refine wp_attempt_terminalize x active₂ rfl (TaskResult.fromRaw_status t raw _) rfl
        (fun q balanced hd => done q _ balanced hd) fun q m _ _ active₃ _ => ?_
      exact wp_handleError x done active₃ rfl

/-- One attempt, from a task that is not RUNNING. -/
theorem wp_executeOnce (unstarted : Unstarted t p)
    (upstream : List TaskId) (ordinary : ∀ k, (x.behaviour t k).outcome.isOrdinary = true)
    (noCancels : ∀ k, (x.behaviour t k).cancels = 0) :
    (executeOnce x t upstream).wp (act x t .attempt) (attemptContract x t) Q p := by
  have S := attemptSkips (n := n) x t
  simp only [executeOnce, Prog.bind_eq, Prog.wp_bind]
  refine S.wp_readStatus ?_
  rintro q₁ ⟨balanced₁, rely₁⟩
  have unstarted₁ := unstarted.stable rely₁
  show Prog.wp _ _ (if (!(q₁.status t).canTransitionTo .running) = true then _ else _) Q q₁
  -- a task that may not start is over, since nobody else starts it
  split
  · rename_i rejected
    have sink : (q₁.status t).isSink = true := by
      have := unstarted₁.status
      cases hs : q₁.status t <;> simp_all [TaskStatus.canTransitionTo,
        TaskStatus.allowedTransitions, TaskStatus.isSink]
    simp only [Prog.wp_bind]
    refine S.wp_readStatus ?_
    rintro q₂ ⟨balanced₂, rely₂⟩
    exact done q₂ _ balanced₂ ((unstarted₁.done sink).stable rely₂)
  · simp only [Prog.wp_bind]
    refine S.wp_readType trivial ?_
    rintro q₂ type ⟨balanced₂, rely₂⟩
    have unstarted₂ := unstarted₁.stable rely₂
    show Prog.wp _ _ (if (!x.handlers type) = true then _ else _) Q q₂
    -- no handler: FAILED, by way of RUNNING where the table asks for it
    split
    · simp only [missingHandler, Prog.bind_eq, Prog.wp_bind]
      refine S.wp_readStatus ?_
      rintro q₃ ⟨balanced₃, rely₃⟩
      refine S.wp_readStatus ?_
      rintro q₄ ⟨balanced₄, rely₄⟩
      have unstarted₄ := (unstarted₂.stable rely₃).stable rely₄
      show Prog.wp _ _ (if (!(q₄.status t).canTransitionTo .failed) = true then _ else _) Q q₄
      split
      · simp only [Prog.wp_bind]
        refine wp_attempt_start x unstarted₄ (fun q₅ balanced₅ active => ?_)
          fun q₅ m balanced₅ hd => done q₅ _ balanced₅ hd
        exact wp_attempt_terminalize x active rfl rfl rfl
          (fun q balanced hd => done q _ balanced hd) fun _ _ _ wrong => by cases wrong
      · rename_i direct
        have pending : q₄.status t = .pending := by
          have := unstarted₄.status
          cases hs : q₄.status t <;> simp_all [TaskStatus.canTransitionTo,
            TaskStatus.allowedTransitions]
        simp only [Prog.wp_bind]
        refine wp_attempt_terminalize_pending x unstarted₄ pending rfl
          fun q e balanced hd => ?_
        cases e <;> exact done q _ balanced hd
    -- a handler: RUNNING, its event, and the attempt
    · simp only [Prog.wp_bind]
      refine S.wp_readStatus ?_
      rintro q₃ ⟨balanced₃, rely₃⟩
      refine wp_attempt_start x (unstarted₂.stable rely₃) (fun q₄ balanced₄ active => ?_)
        fun q₄ m balanced₄ hd => done q₄ _ balanced₄ hd
      refine S.wp_emit (by exact fun _ => rfl) ?_ ⟨balanced₄, .refl q₄⟩
      rintro q₅ ⟨_, rely₅⟩
      exact wp_attempt x done (active.stable rely₅) upstream ordinary noCancels

end Outcome

end Attempt

end Race

end TTasks
