import TTasks.Laws.Race.Account

/-!
# A cancel's side

The weakest precondition of `cancel` while the attempt and other cancels come in between. The first
three status reads fix what it takes for `previous`; a cancel that moves an idle task to CANCELLED
then owes the result and the event, and it is the only one that does.
-/

namespace TTasks

open Interleave
open Prog (Contract)

namespace Race

variable {n : Nat}

section Cancel

variable (x : Executor) {t : TaskId} {i : Fin n} {p q : Noted n}

theorem cancelSkips (x : Executor) (t : TaskId) (i : Fin n) :
    Skips x t (fun p : Noted n => p.1.world) (act x t (.cancel i)) (cancelContract x t i) Quiet
      fun p q => Balanced t q ∧ CancelRely t i p q where
  answer _ _ := rfl
  trans h h' := ⟨h'.1, h.2.trans h'.2⟩
  rely h := ⟨h.1, h.2.1⟩
  ready _ _ := trivial
  read := trivial
  save := trivial
  record _ := trivial
  failed e he := by simp [Quiet, isTerminalEvent, he, TaskEventType.status]
  step {o a b} quiet h := by
    have same := act_quiet x (t := t) quiet (.cancel i) b
    have balanced := same.balanced h.1
    exact ⟨⟨balanced, same.movedByCancel fun j other => if_neg other⟩,
      ⟨balanced, same.cancelRely i⟩, same.status⟩

/-- The cancel owes neither a result nor an event. -/
def Paid (i : Fin n) (p : Noted n) : Prop := ∀ b, p.2.cancelOwes ≠ some (i, b)

theorem Paid.stable (h : Paid i p) (rely : CancelRely t i p q) : Paid i q :=
  fun b owed => h b ((rely.mine b).mp owed)

/-- A status read of a cancel, by the number of statuses it has read before. -/
theorem wp_cancel_readStatus {Q : Except Exc TaskStatus → Noted n → Prop}
    (next : ∀ q, Balanced t q → CancelRely t i p q → q.1.reads i = p.1.reads i ++ [q.status t] →
      ((p.1.reads i).length = 2 → ((p.1.reads i)[1]?).any isIdle = true →
        (q.status t).isSink = false) → Q (.ok (q.status t)) q) :
    (readStatus t).wp (act x t (.cancel i)) (cancelContract x t i) Q p := by
  rintro b ⟨balanced, rely, reads⟩
  refine ⟨trivial, fun fresh => ?_⟩
  have same := act_quiet x (t := t) (o := .status t) trivial (.cancel i) b
  refine ⟨⟨same.balanced balanced, same.movedByCancel fun j other => if_neg other⟩, ?_⟩
  show Q (.ok (b.status t)) _
  rw [← same.status]
  refine next _ (same.balanced balanced) (rely.trans (same.cancelRely i)) ?_ ?_
  · rw [same.status, ← reads]
    exact if_pos rfl
  · intro two idle
    rw [same.status]
    have fresh' : cancelFresh t i (.status t) b.1 = true := fresh
    simp only [cancelFresh, previous, reads, two, idle, BEq.rfl, Bool.and_true, Bool.true_and,
      Bool.not_eq_true'] at fresh'
    exact fresh'

/-- The account after a cancel's transition. -/
def cancelAccount (i : Fin n) (s : TaskStatus) (a : Account n) : Account n :=
  if s = .running then { a with attemptOwes := some .cancelled }
  else { a with cancelOwes := some (i, false) }

theorem Balanced.moved_cancelled (balanced : Balanced t p)
    (open_ : (p.status t).isSink = false) (error : Option String) :
    Balanced t (p.moved t .cancelled error (cancelAccount i (p.status t) p.2)) := by
  have unpaid := balanced.cancelOwes_none (by intro h; rw [h] at open_; cases open_)
  have count : ∀ s, (p.1.entered ++ [TaskStatus.cancelled]).count s =
      p.1.entered.count s + if s = .cancelled then 1 else 0 := by
    intro s
    by_cases same : s = .cancelled
    · subst same; simp [List.count_append]
    · simp [List.count_append, same, Ne.symm same]
  have succeeded : .succeeded ∈ (p.moved t .cancelled error
      (cancelAccount i (p.status t) p.2)).1.entered → False := by
    intro entered
    have before : .succeeded ∈ p.1.entered := by simpa [Noted.moved] using entered
    rw [balanced.succeeded before] at open_; cases open_
  -- a RUNNING task's terminal event is from now on the attempt's to publish
  by_cases running : p.status t = .running
  · have owes : p.2.attemptOwes = none := by
      cases owed : p.2.attemptOwes with
      | none => rfl
      | some s =>
        obtain ⟨final, here⟩ := balanced.attemptOwes s owed
        rw [running] at here
        rcases here with rfl | ⟨-, here⟩
        · cases final
        · cases here
    simp only [cancelAccount, running, if_true] at succeeded ⊢
    refine ⟨fun s final => ?_, fun s final here => ?_, fun owed => ?_, fun s owed => ?_,
      fun entered => (succeeded entered).elim⟩
    · have before := balanced.events s final
      simp only [owes, unpaid, Option.isSome_none, Bool.false_eq_true, and_false, if_false,
        Nat.add_zero] at before
      show reported p.1.world t s + (if some .cancelled = some s then 1 else 0) +
        (if s = .cancelled ∧ p.2.cancelOwes.isSome then 1 else 0) = _
      rw [show (p.moved t .cancelled error { p.2 with attemptOwes := some .cancelled }).1.entered =
        p.1.entered ++ [TaskStatus.cancelled] from rfl, count, unpaid]
      by_cases same : s = .cancelled
      · subst same; simpa using before
      · simpa [same, Ne.symm same] using before
    · rw [moved_status] at here
      exact .inr ⟨here.symm, .inr rfl⟩
    · rw [show (p.moved t .cancelled error { p.2 with attemptOwes := some .cancelled }).2.cancelOwes =
        p.2.cancelOwes from rfl, unpaid] at owed
      cases owed
    · have same : .cancelled = s := Option.some.inj owed
      subst same
      exact ⟨rfl, .inl (moved_status _ _ _)⟩
  -- an idle task's is this thread's
  · simp only [cancelAccount, running, if_false] at succeeded ⊢
    have owesNot : p.2.attemptOwes ≠ some .cancelled := by
      intro owed
      rcases (balanced.attemptOwes _ owed).2 with here | ⟨here, -⟩
      · rw [here] at open_; cases open_
      · cases here
    refine ⟨fun s final => ?_, fun s final here => ?_, fun _ => ⟨moved_status _ _ _, owesNot⟩,
      fun s owed => ?_, fun entered => (succeeded entered).elim⟩
    · have before := balanced.events s final
      simp only [unpaid, Option.isSome_none, Bool.false_eq_true, and_false, if_false,
        Nat.add_zero] at before
      show reported p.1.world t s + (if p.2.attemptOwes = some s then 1 else 0) +
        (if s = .cancelled ∧ (some (i, false)).isSome then 1 else 0) =
          (p.1.entered ++ [TaskStatus.cancelled]).count s
      rw [count, before]
      by_cases same : s = .cancelled <;> simp [same]
    · rw [moved_status] at here
      exact .inr ⟨here.symm, .inl ⟨i, rfl⟩⟩
    · obtain ⟨final, here⟩ := balanced.attemptOwes s owed
      refine ⟨final, .inr ⟨?_, moved_status _ _ _⟩⟩
      rcases here with here | ⟨here, -⟩
      · rw [here] at open_ running
        cases s <;> first | rfl | exact absurd final (by decide) | exact absurd open_ (by decide)
      · exact here

theorem movedByCancel_moved (balanced : Balanced t p) (open_ : (p.status t).isSink = false)
    (error : Option String) :
    MovedByCancel t i p (p.moved t .cancelled error (cancelAccount i (p.status t) p.2)) where
  cancelOwes := by
    by_cases running : p.status t = .running
    · exact .inl (by simp [Noted.moved, cancelAccount, running])
    · refine .inr ⟨.inl (balanced.cancelOwes_none ?_), .inr ⟨false, ?_⟩⟩
      · intro h; rw [h] at open_; cases open_
      · simp [Noted.moved, cancelAccount, running]
  result := .inl (by simp)
  status := .inr ⟨by simp, open_⟩
  attemptOwes := by
    by_cases running : p.status t = .running
    · exact .inr ⟨running, by simp [Noted.moved, cancelAccount, running]⟩
    · exact .inl (by simp [Noted.moved, cancelAccount, running])
  running running := .inr ⟨by simp, by simp [Noted.moved, cancelAccount, running]⟩
  started := by simp [Noted.moved]
  reads _ _ := rfl

/-- The transition of `Task.cancel`. -/
theorem wp_cancel_transition {error : Option String} {Q : Except Exc Unit → Noted n → Prop}
    (moved : ∀ q, Balanced t q → CancelRely t i p q → q.1.reads i = p.1.reads i →
      cancelFresh t i (.transition t .cancelled error) q.1 = true →
      (q.status t).isSink = false →
      Balanced t (q.moved t .cancelled error (cancelAccount i (q.status t) q.2)) →
        Q (.ok ()) (q.moved t .cancelled error (cancelAccount i (q.status t) q.2)))
    (refused : ∀ q m, Balanced t q → CancelRely t i p q → Q (.error (.valueError m)) q) :
    (transitionTo t .cancelled error).wp (act x t (.cancel i)) (cancelContract x t i) Q p := by
  rw [transitionTo, Prog.bind_eq, Prog.wp_bind]
  rintro q ⟨balanced, rely, reads⟩
  refine ⟨trivial, fun fresh => ?_⟩
  cases allowed : (q.status t).canTransitionTo .cancelled with
  | true =>
    obtain ⟨answer, after⟩ := act_moved x allowed (.cancel i) error
    have open_ := not_sink_of_allowed allowed
    have balanced' := balanced.moved_cancelled (i := i) open_ error
    refine ⟨⟨?_, ?_⟩, ?_⟩
    · rw [after]; exact balanced'
    · rw [after]; exact movedByCancel_moved balanced open_ error
    · rw [answer, after]; exact moved q balanced rely reads fresh open_ balanced'
  | false =>
    obtain ⟨⟨m, answer⟩, after⟩ := act_refused x allowed (.cancel i) error
    refine ⟨⟨?_, ?_⟩, ?_⟩
    · rw [after]; exact balanced
    · rw [after]
      exact (SameView.mk rfl (fun _ _ => rfl) rfl rfl).movedByCancel fun _ _ => rfl
    · rw [answer, after]; exact refused q m balanced rely

theorem wp_cancel_readError {Q : Except Exc (Option String) → Noted n → Prop}
    (next : ∀ q e, Balanced t q → CancelRely t i p q → q.1.reads i = p.1.reads i →
      Q (.ok e) q) :
    (readError t).wp (act x t (.cancel i)) (cancelContract x t i) Q p := by
  rintro b ⟨balanced, rely, reads⟩
  refine ⟨trivial, fun _ => ?_⟩
  have same := act_quiet x (t := t) (o := .error t) trivial (.cancel i) b
  refine ⟨⟨same.balanced balanced, same.movedByCancel fun j other => if_neg other⟩, ?_⟩
  refine next _ _ (same.balanced balanced) (rely.trans (same.cancelRely i)) ?_
  exact (if_pos rfl).trans ((List.append_nil _).trans reads)

/-- The result a cancel owes is written. -/
theorem Balanced.written_cancelled (balanced : Balanced t p)
    (owes : p.2.cancelOwes = some (i, false)) {r : TaskResult} (own : r.status = .cancelled) :
    Balanced t (p.written t r { p.2 with cancelOwes := some (i, true) }) := by
  obtain ⟨cancelled, owesNot⟩ := balanced.cancelOwes (by rw [owes]; rfl)
  refine ⟨fun s final => ?_, fun s final here => ?_, fun _ => ⟨?_, owesNot⟩, ?_, ?_⟩
  · have before := balanced.events s final
    rw [owes] at before
    exact before
  · rw [written_status, cancelled] at here
    subst here
    exact .inl ⟨r, written_result _ _, own⟩
  · rw [written_status]; exact cancelled
  · rw [written_status]; exact balanced.attemptOwes
  · rw [written_status]; exact balanced.succeeded

/-- The event a cancel owes is published. -/
theorem Balanced.cancel_announced (balanced : Balanced t p)
    (owes : p.2.cancelOwes = some (i, true))
    (result : ∃ r, p.result t = some r ∧ r.status = .cancelled)
    (h : Announced t .cancelled { p.2 with cancelOwes := none } p q) : Balanced t q where
  events s final := by
    have before := balanced.events s final
    rw [h.reported, h.account, h.entered, ← before, owes]
    by_cases same : s = .cancelled
    · subst same; simp; omega
    · simp [same, Ne.symm same]
  result s final here := by
    rw [h.status] at here
    rw [h.result, h.account]
    have cancelled := (balanced.cancelOwes (by rw [owes]; rfl)).1
    rw [cancelled] at here
    subst here
    exact .inl result
  cancelOwes owed := by rw [h.account] at owed; cases owed
  attemptOwes := by rw [h.status, h.account]; exact balanced.attemptOwes
  succeeded := by rw [h.status, h.entered]; exact balanced.succeeded

/-- The terminal writes of a cancel that moved an idle task to CANCELLED. -/
theorem wp_cancel_terminalize (owes : p.2.cancelOwes = some (i, false)) {r : TaskResult}
    (own : r.status = .cancelled) {previous : TaskStatus} {error : Option String}
    {Q : Except Exc Unit → Noted n → Prop} (paid : ∀ q e, Paid i q → Q e q) :
    (terminalize x t r .cancelled previous .cancelled error).wp (act x t (.cancel i))
      (cancelContract x t i) Q p := by
  have S := cancelSkips x t i
  simp only [terminalize, Prog.bind_eq, Prog.wp_bind]
  -- the result is written with the event still owed, and nobody else moves the task from CANCELLED
  rintro q ⟨balanced, rely, _⟩
  refine ⟨trivial, fun _ => ?_⟩
  have owes₁ := (rely.mine false).mpr owes
  have cancelled := (balanced.cancelOwes (by rw [owes₁]; rfl)).1
  have after := act_written x (t := t) (p := q) (.cancel i) r
  have balanced₁ := balanced.written_cancelled owes₁ own
  refine ⟨⟨by rw [after]; exact balanced₁, ?_⟩, ?_⟩
  · rw [after]
    refine ⟨.inr ⟨.inr ⟨_, owes₁⟩, .inr ⟨_, rfl⟩⟩, .inr owes₁, .inl (written_status _ _), .inl rfl,
      fun running => ?_, .rfl, fun _ _ => rfl⟩
    rw [cancelled] at running
    cases running
  show Prog.wp _ _ _ _ _
  rw [after]
  refine S.wp_readStatus ?_
  rintro q₂ ⟨balanced₂, rely₂⟩
  have status₂ : q₂.status t = .cancelled := by
    have here : (q.written t r { q.2 with cancelOwes := some (i, true) }).status t = .cancelled :=
      (written_status _ _).trans cancelled
    exact (rely₂.sink (by rw [here]; rfl)).trans here
  show Prog.wp _ _ (if (q₂.status t != .cancelled) = true then _ else _) Q q₂
  rw [if_neg (by rw [status₂]; decide)]
  simp only [emit, Prog.bind_eq, Prog.wp_bind]
  -- the save and the read of the status come before the delivery, which pays the debt
  refine S.wp_persist ?_ ⟨balanced₂, .refl q₂⟩
  rintro q₃ ⟨_, rely₃⟩
  refine S.wp_readStatus ?_
  rintro q₄ ⟨_, rely₄⟩
  rintro q₅ ⟨balanced₅, rely₅, _⟩
  refine ⟨trivial, fun _ => ?_⟩
  have rely' := ((rely₂.trans rely₃).trans rely₄).trans rely₅
  have owes₅ := (rely'.mine true).mpr rfl
  have result₅ : q₅.result t = some r := (rely'.kept rfl).trans (written_result _ _)
  have announced := act_announced x (t := t) (p := q₅) (s := .cancelled)
    (e := ⟨.cancelled, t, some previous, q₄.1.world.status t, error⟩) rfl rfl rfl (.cancel i)
  have balanced₆ := balanced₅.cancel_announced owes₅ ⟨r, result₅, own⟩ announced
  refine ⟨⟨balanced₆, ?_⟩, paid _ _ fun b owed => ?_⟩
  · refine ⟨.inr ⟨.inr ⟨_, owes₅⟩, .inl (by rw [announced.account])⟩, .inl announced.result,
      .inl announced.status, .inl (by rw [announced.account]), ?_, by rw [announced.entered],
      fun j other => if_neg other⟩
    exact fun running => .inl (announced.status.trans running)
  · rw [announced.account] at owed; cases owed

/-- A whole cancel, none of whose steps is stale. -/
theorem wp_cancel (start : p.1.reads i = []) (unpaid : Paid i p) {Q : Except Exc Unit → Noted n → Prop}
    (paid : ∀ q e, Paid i q → Q e q) :
    (cancel x t).wp (act x t (.cancel i)) (cancelContract x t i) Q p := by
  have S := cancelSkips x t i
  simp only [cancel, cancelPrevious, Prog.bind_eq, Prog.wp_bind]
  refine wp_cancel_readStatus x fun q₁ _ rely₁ reads₁ _ => ?_
  show Prog.wp _ _ (if (q₁.status t == .succeeded) = true then _ else _) _ q₁
  split
  · exact paid _ _ (unpaid.stable rely₁)
  simp only [Prog.wp_bind]
  refine wp_cancel_readStatus x fun q₂ _ rely₂ reads₂ _ => ?_
  have paid₂ := (unpaid.stable rely₁).stable rely₂
  rw [reads₁, start, List.nil_append] at reads₂
  simp only [Prog.pure_eq, Prog.onOk, Prog.wp_ret, Prog.wp_bind, taskCancel, Prog.bind_eq]
  refine wp_cancel_readStatus x fun q₃ _ rely₃ reads₃ fresh₃ => ?_
  rw [reads₂] at reads₃ fresh₃
  show Prog.wp _ _ (if (q₃.status t).isSink = true then _ else _) _ q₃
  split
  · -- a sink: the task was not idle when `previous` was read, so nothing is left to do
    rename_i sink
    have notIdle : isIdle (q₂.status t) = false := by
      cases idle : isIdle (q₂.status t) with
      | false => rfl
      | true =>
        rw [fresh₃ rfl (by simpa using idle)] at sink
        cases sink
    simp only [Prog.pure_eq, Prog.wp_ret, Prog.onOk, cancelFinish, Prog.bind_eq, Prog.wp_bind]
    refine S.wp_terminateProcess trivial ?_
    rintro q₄ ⟨_, rely₄⟩
    show Prog.wp _ _ (if isIdle (q₂.status t) = true then _ else _) Q q₄
    rw [notIdle]
    exact paid _ _ ((paid₂.stable rely₃).stable rely₄)
  · rename_i notSink
    have open₂ : (q₂.status t).isSink = false := by
      cases sink : (q₂.status t).isSink with
      | false => rfl
      | true => rw [rely₃.sink sink] at notSink; exact absurd sink notSink
    simp only [Prog.wp_bind]
    refine wp_cancel_readError x fun q₄ e _ rely₄ reads₄ => ?_
    rw [reads₃] at reads₄
    refine wp_cancel_transition x (fun q₅ _ rely₅ reads₅ fresh₅ open₅ _ => ?_)
      fun q₅ m _ rely₅ =>
        paid _ _ (((paid₂.stable rely₃).stable rely₄).stable rely₅)
    rw [reads₄] at reads₅
    have paid₅ := ((paid₂.stable rely₃).stable rely₄).stable rely₅
    have previous₅ : previous q₅.1 i = some (q₂.status t) := by
      simp [previous, reads₅]
    have three : (q₅.1.reads i).length = 3 := by simp [reads₅]
    have fresh : ¬ (isIdle (q₂.status t) = true ∧ q₅.status t = .running) ∧
        ¬ (q₂.status t = .running ∧ q₅.status t = .failed) := by
      simp only [cancelFresh, previous₅, three, Option.any_some] at fresh₅
      constructor
      · rintro ⟨idle, running⟩
        have here : q₅.1.world.status t = .running := running
        simp [idle, here] at fresh₅
      · rintro ⟨running, failed⟩
        have here : q₅.1.world.status t = .failed := failed
        simp [running, here] at fresh₅
    simp only [Prog.onOk, cancelFinish, Prog.bind_eq, Prog.wp_bind]
    refine S.wp_terminateProcess trivial ?_
    rintro q₆ ⟨_, rely₆⟩
    show Prog.wp _ _ (if isIdle (q₂.status t) = true then _ else _) Q q₆
    split
    · rename_i idle
      refine wp_cancel_terminalize x ((rely₆.mine false).mpr ?_) rfl paid
      have notRunning : q₅.status t ≠ .running := fun running => fresh.1 ⟨idle, running⟩
      simp [Noted.moved, cancelAccount, notRunning]
    · rename_i notIdle
      -- `previous` was RUNNING, and the task cannot have gone back to PENDING or BLOCKED
      have running₂ : q₂.status t = .running := by
        cases hs : q₂.status t <;> rw [hs] at notIdle open₂ <;>
          first | rfl | exact absurd open₂ (by decide) | exact absurd notIdle (by decide)
      have running₅ : q₅.status t = .running := by
        have rely' := (rely₃.trans rely₄).trans rely₅
        cases hs : q₅.status t with
        | running => rfl
        | pending => exact absurd (rely'.back (.inl hs)) (by rw [hs, running₂]; decide)
        | blocked => exact absurd (rely'.back (.inr hs)) (by rw [hs, running₂]; decide)
        | failed => exact absurd ⟨running₂, hs⟩ fresh.2
        | succeeded => rw [hs] at open₅; cases open₅
        | cancelled => rw [hs] at open₅; cases open₅
      refine paid _ _ (Paid.stable (fun b owed => ?_) rely₆)
      simp only [Noted.moved, cancelAccount, running₅, if_true] at owed
      exact paid₅ b owed

end Cancel

end Race

end TTasks
