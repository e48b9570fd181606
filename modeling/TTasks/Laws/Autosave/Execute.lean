import TTasks.Laws.Autosave.Calls

/-!
# An execution, step by step

From its transition to RUNNING to its terminal writes an `execute` with a handler is `Held` to the
task. It leaves that state through a save, or through an exception that the executor does not deal
with: no `cancel` has left it a save then.
-/

namespace TTasks

open Interleave
open Prog (Contract)

namespace Sqlite

namespace Autosave

variable {ι : Type} [DecidableEq ι] {x : Executor} {t : TaskId} {type : TaskType} {i : ι}
  {p q : Noted ι} {α β : Type}

/-- The thread's handler call is under way; it will come back or not. -/
structure Held (t : TaskId) (i : ι) (back : Bool) (p : Noted ι) : Prop where
  active : Active t i p
  answering : p.1.answering = back
  empty : p.1.holder ≠ some i
  wrote : p.1.wrote i = false
  owes : back = false → p.2.debt ≠ .owed i
  begun : Begun p

section Handled

variable (handled : x.handlers type = true)

include handled

omit [DecidableEq ι] in
/-- Nobody else ends what the thread's `execute` has begun, but for a cancel. -/
theorem active_stable : Stable x t type i (Active t i) :=
  fun _ _ rely active => (rely.active handled active).1

omit [DecidableEq ι] in
/-- The call of the handler stays under way. -/
theorem held_stable (b : Bool) : Stable x t type i (Held t i b) := by
  intro p q rely held
  obtain ⟨active, answering, -⟩ := rely.active handled held.active
  refine ⟨active, answering.trans held.answering, ?_, rely.wrote.trans held.wrote, ?_,
    Begun.stable p q rely held.begun⟩
  · exact fun holds => held.empty (rely.held holds).1
  · intro silent owed
    rcases rely.owed owed with owed' | ⟨-, -, answers⟩
    · exact held.owes silent owed'
    · rw [held.answering, silent] at answers
      cases answers

omit [DecidableEq ι] in
/-- While its handler is out, the thread may be left a save by a cancel. -/
theorem resting_held (b : Bool) : Resting x t type i (Held t i b) where
  stable := held_stable handled b
  wrote _ held := held.wrote
  left p k error held running runner answering owes := by
    refine ⟨⟨held.active.1, .inr (moved_status x _ _)⟩, held.answering, held.empty, held.wrote, ?_, ?_⟩
    · intro silent
      rw [held.answering, silent] at answering
      cases answering
    · exact fun owed => by cases owed
  idle p q held startable _ := by
    rcases held.active.2 with here | here <;> rw [here] at startable <;> cases startable

end Handled

omit [DecidableEq ι] in
/-- A thread whose handler call does not come back leaves nothing behind. -/
theorem Held.free (held : Held t i false p) : Free t i p :=
  ⟨held.empty, fun _ _ => held.answering, held.owes rfl, held.wrote⟩

/-- Storing a result leaves the attempt under way. -/
theorem Active.written (active : Active t i p) (r : TaskResult) : Active t i (p.written t i r) := by
  refine ⟨active.1, ?_⟩
  rw [written_status]
  exact active.2

section Attempt

variable (store : x.store = true) (handled : x.handlers type = true)

include store handled

/-- A handler that cancels its own task comes back to the attempt, with or without the `ValueError`.
-/
theorem leads_ownCancels (b : Bool) (n : Nat) (held : Held t i b p)
    {Q : Except Exc Unit → Noted ι → Prop} (done : ∀ q, Held t i b q → Q (.ok ()) q)
    (failed : ∀ q m, Held t i b q → Q (.error (.valueError m)) q) :
    Leads x t type i (ownCancels x t n) Q p := by
  induction n generalizing p with
  | zero => exact done p held
  | succ n ih =>
    refine leads_bind (leads_cancel store (resting_held handled b) held ?_ ?_)
    · exact fun q held _ => ih held
    · exact fun q m held _ => failed q m held

/-- How an exception leaves an active attempt. -/
def Leaves (t : TaskId) (i : ι) (e : Exc) (q : Noted ι) : Prop :=
  Active t i q ∧ (e.isOrdinary = false → Held t i false q)

/-- The handler's own cancels, and its outcome. -/
theorem leads_callHandler (upstream : List TaskId)
    (held : Held t i (x.behaviour t (p.1.world.callCount t)).outcome.isOrdinary p)
    {Q : Except Exc (Option Raw) → Noted ι → Prop}
    (done : ∀ q raw, Active t i q → Q (.ok raw) q) (failed : ∀ q e, Leaves t i e q → Q (.error e) q) :
    Leads x t type i (callHandler x t upstream) Q p := by
  refine leads_bind ?_
  rintro q ⟨inv, rely, -⟩
  have same := (rely.active handled held.active).2.2
  have held₁ := held_stable handled _ p q rely held
  refine ⟨trivial, fun _ => ⟨⟨rfl, rfl, fun _ => held₁.active.1⟩, ?_⟩⟩
  rw [← same] at held₁
  have held₂ : Held t i (x.behaviour t (q.1.world.callCount t)).outcome.isOrdinary
      (act x i (.task (.call t upstream)) q).2 :=
    ⟨held₁.active, held₁.answering, held₁.empty, held₁.wrote, held₁.owes, held₁.begun⟩
  have answer : (act x i (.task (.call t upstream)) q).1 = x.behaviour t (q.1.world.callCount t) :=
    rfl
  refine leads_bind (leads_ownCancels store handled _ _ held₂ ?_ ?_)
  · intro r held₃
    unfold Prog.onOk
    dsimp only
    rw [answer]
    cases ends : (x.behaviour t (q.1.world.callCount t)).outcome with
    | returns raw => exact done r raw held₃.active
    | raises e =>
      refine failed r e ⟨held₃.active, fun outside => ?_⟩
      rw [ends] at held₃
      exact (show e.isOrdinary = false from outside) ▸ held₃
  · exact fun r m held₃ => failed r _ ⟨held₃.active, fun outside => by cases outside⟩

/-- An attempt: the handler, and the end if it comes back. -/
theorem leads_attempt (upstream : List TaskId)
    (held : Held t i (x.behaviour t (p.1.world.callCount t)).outcome.isOrdinary p)
    {Q : Except Exc TaskResult → Noted ι → Prop}
    (done : ∀ q r, Free t i q → Begun q → Q (.ok r) q)
    (failed : ∀ q e, Leaves t i e q → Q (.error e) q) :
    Leads x t type i (attempt x t upstream) Q p := by
  refine leads_bind (leads_callHandler store handled upstream held ?_ failed)
  intro q raw active
  refine leads_bind (leads_bind (leads_readStatus fun q₁ _ rely _ => ?_))
  have active₁ := active_stable handled q q₁ rely active
  change Leads x t type i (if (q₁.status t == .cancelled) = true then _ else _) _ q₁
  split
  · exact failed q₁ _ ⟨active₁, fun outside => by cases outside⟩
  · refine leads_bind (leads_terminalize store (by decide) (fun _ _ => active₁) ?_ ?_)
    · exact fun q₂ free begun => done q₂ _ free begun
    · intro q₂ q₃ m _ rely₂ rely₃
      have active₂ := (active_stable handled q₁ q₂ rely₂ active₁).written
        (TaskResult.fromRaw t raw .succeeded)
      exact failed q₃ _ ⟨active_stable handled _ q₃ rely₃ active₂, fun outside => by cases outside⟩

/-- The except clauses save what they write. -/
theorem leads_handleError (e : Exc) (leaving : Leaves t i e p)
    {Q : Except Exc TaskResult → Noted ι → Prop}
    (failed : ∀ q e, Free t i q → Begun q → Q (.error e) q) :
    Leads x t type i (handleError x t e) Q p := by
  -- a clause that ends the attempt as CANCELLED saves what it writes
  have cancels : ∀ {q : Noted ι} {e e' : Exc},
      Leads x t type i (Prog.bind (terminalize x t (cancelledResult t e) .cancelled .running .cancelled
        (some e.text)) fun _ => (throw e' : Exec TaskResult)) Q q := by
    intro q e e'
    refine leads_bind (leads_terminalize store (by decide) ?_ ?_ ?_)
    · rintro _ (final | final) <;> cases final
    · exact fun q' free begun => failed q' _ free begun
    · intro _ _ _ final
      cases final
  have ordinary : ∀ e' : Exc, Leads x t type i (exceptException x t e') Q p := by
    intro e'
    refine leads_bind (leads_readStatus fun q _ rely _ => ?_)
    have active := active_stable handled p q rely leaving.1
    change Leads x t type i (if (q.status t == .cancelled) = true then _ else _) Q q
    split
    · exact cancels
    · refine leads_bind (leads_terminalize store (by decide) (fun _ _ => active) ?_ ?_)
      · exact fun q' free begun => failed q' _ free begun
      · intro _ _ _ final
        cases final
  -- what leaves the clauses at once leaves the task RUNNING, with its last save made
  have escapes : Held t i false p → ∀ e', Q (.error e') p := fun held e' =>
    failed p e' held.free held.begun
  cases e with
  | taskCancelled m => exact cancels
  | baseException m => exact escapes (leaving.2 rfl) _
  | unprintableCancelled raised => exact escapes (leaving.2 rfl) raised
  | unprintable raised =>
    refine leads_bind (leads_readStatus fun q _ rely _ => ?_)
    have held := held_stable handled _ p q rely (leaving.2 rfl)
    exact failed q raised held.free held.begun
  | unreadable m raised =>
    refine leads_bind (leads_readStatus fun q _ rely _ => ?_)
    have held := held_stable handled _ p q rely (leaving.2 rfl)
    change Leads x t type i (if (q.status t == .cancelled) = true then _ else _) Q q
    split
    · exact cancels (e := .unreadable m raised)
    · exact failed q raised held.free held.begun
  | _ => exact ordinary _

/-- A task that may start: the transition, the event and the attempt. -/
theorem leads_startable (upstream : List TaskId) (free : Free t i p)
    {Q : Except Exc TaskResult → Noted ι → Prop} (finish : ∀ r q, Free t i q → Begun q → Q r q)
    {previous : Option TaskStatus} :
    Leads x t type i (Prog.bind (transitionTo t .running) fun _ =>
      Prog.bind (emit x t .started previous) fun _ =>
        Prog.tryCatch (attempt x t upstream) (handleError x t)) Q p := by
  refine leads_bind (leads_transition ?_ ?_ ?_)
  · rintro _ _ _ _ (final | final) <;> cases final
  · intro q inv rely _ _ _
    have calls : (q.moved x t i .running none).1.world.callCount t = q.1.world.callCount t := rfl
    have answering : (q.moved x t i .running none).1.answering =
        (x.behaviour t (q.1.world.callCount t)).outcome.isOrdinary := by
      change answers x t q.1.world = _
      unfold answers
      rw [inv.type, handled]
      rfl
    have active : Active t i (q.moved x t i .running none) := ⟨rfl, .inl (moved_status x _ _)⟩
    refine leads_bind (leads_emit store fun q' r rely' rely'' inv' empty => ?_)
    obtain ⟨active', answering', calls'⟩ := rely'.active handled active
    obtain ⟨active'', answering'', calls''⟩ :=
      rely''.active handled (show Active t i (q'.snapped t i) from active')
    have same : r.1.world.callCount t = q.1.world.callCount t := calls''.trans (calls'.trans calls)
    have held : Held t i (x.behaviour t (r.1.world.callCount t)).outcome.isOrdinary r := by
      refine ⟨active'', ?_, empty, ?_, ?_, ?_⟩
      · rw [same]
        exact answering''.trans (answering'.trans answering)
      · rw [rely''.wrote]
        exact Function.update_self _ _ _
      · intro silent owed
        rcases rely''.owed owed with owed' | ⟨-, -, answers⟩
        · cases owed'
        · rw [same, ← answering, ← answering', show q'.1.answering = true from answers] at silent
          cases silent
      · exact fun owed => by cases rely''.fresh owed
    refine leads_tryCatch (leads_attempt store handled upstream held ?_ ?_)
    · exact fun q₁ result free begun => finish _ q₁ free begun
    · exact fun q₁ e leaving => leads_handleError store handled e leaving fun q₂ _ => finish _ q₂
  · intro q m inv rely _ refused
    exact finish _ q (Free.stable p q rely free) (begun_of_not_startable inv refused)

end Attempt

/-! ## From the first status read to the last -/

section Whole

variable (store : x.store = true)

include store

/-- A task without a handler is made FAILED, and saved. -/
theorem leads_missingHandler (missing : x.handlers type = false) (free : Free t i p)
    {Q : Except Exc TaskResult → Noted ι → Prop} (finish : ∀ r q, Free t i q → Begun q → Q r q) :
    Leads x t type i (missingHandler x t type) Q p := by
  have ends : ∀ {q : Noted ι} {r : TaskResult} {previous : TaskStatus} {m : String},
      Leads x t type i (Prog.bind (terminalize x t r .failed previous .failed (some m))
        fun _ => (throw (.valueError m) : Exec TaskResult)) Q q := by
    intro q r previous m
    refine leads_bind (leads_terminalize store (by decide) ?_ ?_ ?_)
    · intro handled
      rw [missing] at handled
      cases handled
    · exact fun q' free begun => finish _ q' free begun
    · intro _ _ _ final
      cases final
  refine leads_bind (leads_readStatus fun q _ rely _ => ?_)
  refine leads_bind (leads_readStatus fun q' _ rely' _ => ?_)
  change Leads x t type i (if (!(q'.status t).canTransitionTo .failed) = true then _ else _) Q q'
  split
  · refine leads_bind (leads_transition ?_ ?_ ?_)
    · rintro _ _ _ _ (final | final) <;> cases final
    · exact fun _ _ _ _ _ _ => ends
    · intro q'' m inv rely'' _ refused
      have free'' := Free.stable p q'' ((rely.trans rely').trans rely'') free
      exact finish _ q'' free'' (begun_of_not_startable inv refused)
  · exact ends

/-- `_execute_once` leaves nothing to save. -/
theorem leads_executeOnce (upstream : List TaskId) (free : Free t i p)
    {Q : Except Exc TaskResult → Noted ι → Prop} (finish : ∀ r q, Free t i q → Begun q → Q r q) :
    Leads x t type i (executeOnce x t upstream) Q p := by
  refine leads_bind (leads_readStatus fun q inv rely _ => ?_)
  have free₁ := Free.stable p q rely free
  change Leads x t type i (if (!(q.status t).canTransitionTo .running) = true then _ else _) Q q
  split
  · rename_i refused
    have begun := begun_of_not_startable inv (by simpa using refused)
    refine leads_bind (leads_readStatus fun q' _ rely' _ => ?_)
    exact finish _ q' (Free.stable q q' rely' free₁) (Begun.stable q q' rely' begun)
  · refine leads_bind (leads_glance (o := .type t) rfl rfl (fun _ other => by cases other)
      fun q' inv' rely' _ => ?_)
    have answer : ((TaskOp.type t).perform x q'.1.world).1 = type := inv'.type
    have free₂ := Free.stable q q' rely' free₁
    rw [answer]
    change Leads x t type i (if (!x.handlers type) = true then _ else _) Q q'
    cases handled : x.handlers type with
    | false => exact leads_missingHandler store handled free₂ finish
    | true =>
      refine leads_bind (leads_readStatus fun q'' _ rely'' _ => ?_)
      exact leads_startable store handled upstream (Free.stable q' q'' rely'' free₂) finish

omit store in
/-- What is decided after a failure writes nothing. -/
theorem leads_afterFailure {H : Noted ι → Prop} (stable : Stable x t type i H) (here : H p)
    (policy : RetryPolicy) (last : Bool) (e : Exc) {Q : Except Exc Unit → Noted ι → Prop}
    (finish : ∀ r q, H q → Q r q) : Leads x t type i (afterFailure policy t last e) Q p := by
  have looking : ∀ {q : Noted ι}, H q → ∀ {q'}, Rely x t type i q q' → H q' :=
    fun here _ rely => stable _ _ rely here
  have waits : ∀ {q : Noted ι}, H q → Leads x t type i (Prog.bind (readStatus t) fun status =>
      if status == .cancelled then throw (cancelledError t) else pure ()) Q q := by
    intro q here
    refine leads_bind (leads_readStatus fun q' _ rely _ => ?_)
    change Leads x t type i (if (q'.status t == .cancelled) = true then _ else _) Q q'
    split <;> exact finish _ q' (looking here rely)
  unfold afterFailure
  split
  · exact finish _ p here
  · exact finish _ p here
  · exact finish _ p here
  · refine leads_bind (leads_readStatus fun q _ rely _ => ?_)
    have here₁ := looking here rely
    change Leads x t type i (if (q.status t == .cancelled) = true then _ else _) Q q
    split
    · exact finish _ q here₁
    split
    · exact finish _ q here₁
    refine leads_bind (leads_readStatus fun q' _ rely' _ => ?_)
    have here₂ := looking here₁ rely'
    change Leads x t type i (if (q'.status t != .failed) = true then _ else _) Q q'
    split
    · exact finish _ q' here₂
    change Leads x t type i (if policy.backoff ≠ 0 then _ else _) Q q'
    split
    · refine leads_bind (leads_glance (o := .sleep t) rfl rfl (fun _ other => by cases other)
        fun q'' _ rely'' _ => ?_)
      exact waits (looking here₂ rely'')
    · exact waits here₂

/-- The loop over attempts leaves nothing to save: by induction on the attempts that are left. -/
theorem leads_retryLoop (policy : RetryPolicy) (upstream : List TaskId) (n : Nat)
    (free : Free t i p) (begun : n = 0 → Begun p) {Q : Except Exc TaskResult → Noted ι → Prop}
    (finish : ∀ r q, Free t i q → Begun q → Q r q) :
    Leads x t type i (retryLoop x policy t upstream n) Q p := by
  induction n generalizing p with
  | zero => exact finish _ p free (begun rfl)
  | succ n ih =>
    refine leads_tryCatch (leads_executeOnce store upstream free ?_)
    rintro (e | r) q free begun
    · have stable : Stable x t type i fun q => Free t i q ∧ Begun q := fun a b rely here =>
        ⟨Free.stable a b rely here.1, Begun.stable a b rely here.2⟩
      refine leads_bind (leads_afterFailure stable ⟨free, begun⟩ policy _ e ?_)
      rintro (e' | _) q' ⟨free', begun'⟩
      · exact finish _ q' free' begun'
      · exact ih free' fun _ => begun'
    · exact finish _ q free begun

/-- `execute` leaves nothing to save. -/
theorem leads_execute (policy : RetryPolicy) (upstream : List TaskId) (free : Free t i p)
    {Q : Except Exc TaskResult → Noted ι → Prop} (finish : ∀ r q, Free t i q → Begun q → Q r q) :
    Leads x t type i (execute x t upstream policy) Q p := by
  unfold execute
  split
  · exact leads_executeOnce store upstream free finish
  · refine leads_bind (leads_glance (o := .type t) rfl rfl (fun _ other => by cases other)
      fun q _ rely _ => ?_)
    have free' := Free.stable p q rely free
    unfold Prog.onOk
    dsimp only
    split
    · exact leads_executeOnce store upstream free' finish
    · refine leads_retryLoop store policy upstream _ free' ?_ finish
      intro none
      exact absurd none (Nat.ne_of_gt policy.one_le)

/-- A call that is over leaves its thread free, and the task saved or owed by another. -/
theorem leads_request (request : Request) (free : Free t i p) :
    Leads x t type i (request.program x t) (fun _ q => Free t i q ∧ Begun q) p := by
  cases request with
  | execute upstream policy =>
    refine leads_bind (leads_execute store policy upstream free ?_)
    rintro (_ | _) q free' begun <;> exact ⟨free', begun⟩
  | cancel =>
    exact leads_cancel store resting_free free (fun q free' begun => ⟨free', begun⟩)
      fun q _ free' begun => ⟨free', begun⟩

end Whole

end Autosave

end Sqlite

end TTasks
