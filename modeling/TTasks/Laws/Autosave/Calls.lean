import TTasks.Laws.Autosave.Contract

/-!
# The calls, step by step

The weakest preconditions of `execute`, `cancel` and their parts, with every save in its two steps.
Between its calls a thread is `Free`: it owes nothing, holds no snapshot, and has no active
`execute`. A call that comes to its end leaves the thread `Free` again, and the task saved or owed
by somebody else (`Begun`). Between the transition to RUNNING and the terminal writes of an
`execute` the thread is `Held` to the task: a `cancel`, its handler's own included, may move the
task to CANCELLED and leave the save to it.
-/

namespace TTasks

open Interleave
open Prog (Contract)

namespace Sqlite

namespace Autosave

variable {ι : Type} [DecidableEq ι]

section Calls

variable (x : Executor) (t : TaskId) (type : TaskType) (i : ι)

/-- The weakest precondition of an executor's program whose saves take two steps. -/
def Leads {α : Type} (p : Exec α) (Q : Except Exc α → Noted ι → Prop) (s : Noted ι) : Prop :=
  (p.expand split).wp (act x i) (contract x t type i) Q s

/-- Nothing that the others do undoes the assertion. -/
def Stable (H : Noted ι → Prop) : Prop := ∀ p q, Rely x t type i p q → H p → H q

/-- The thread has nothing left to do to the task. -/
structure Free (p : Noted ι) : Prop where
  empty : p.1.holder ≠ some i
  calm : p.1.runner = some i → p.status t = .running → p.1.answering = false
  owes : p.2.debt ≠ .owed i
  wrote : p.1.wrote i = false

/-- The task has been changed or saved since the calls began. -/
def Begun (p : Noted ι) : Prop := p.2.debt ≠ .start

variable {x t type i} {p q : Noted ι} {α β : Type}

/-- A sequence leads where its second part does from wherever the first ends. -/
theorem leads_bind {c : Exec α} {f : α → Exec β} {Q : Except Exc β → Noted ι → Prop}
    (h : Leads x t type i c (Prog.onOk (fun a q => Leads x t type i (f a) Q q) Q) p) :
    Leads x t type i (c.bind f) Q p := by
  rw [Leads, Prog.expand_bind, Prog.wp_bind]
  exact h

/-- A split operation never raises, so it can be taken out of a `try` block. -/
theorem split_tryCatch (o : TaskOp) (k : o.Ans → Prog Op.Ans Exc α)
    (h : Exc → Prog Op.Ans Exc α) :
    ((split o).bind k).tryCatch h = (split o).bind fun a => (k a).tryCatch h := by
  cases o <;> rfl

/-- A `try` block leads where its handler does from wherever the body raises. -/
theorem leads_tryCatch {c : Exec α} {f : Exc → Exec α} {Q : Except Exc α → Noted ι → Prop}
    (h : Leads x t type i c (Prog.onError (fun e q => Leads x t type i (f e) Q q) Q) p) :
    Leads x t type i (c.tryCatch f) Q p := by
  rw [Leads, Prog.expand_tryCatch split fun o {_} => split_tryCatch o, Prog.wp_tryCatch]
  exact h

/-! ## Single operations -/

/-- What an operation that only looks leaves. -/
theorem leads_looks {o : TaskOp} (own : o.task = t) (only : looks o = true)
    {Q : Except Exc o.Ans → Noted ι → Prop}
    (next : ∀ q, Inv t type q → Rely x t type i p q → q.1.reads i = p.1.reads i →
      Q (.ok (o.perform x q.1.world).1) (act x i (.task o) q).2) :
    Leads x t type i (.op o) Q p := by
  have expanded : split o = .op (Op.task o) := by
    cases o <;> first | exact absurd only Bool.false_ne_true | rfl
  have plain : ∀ q : Noted ι, Timely i (.task o) q.1 ∧ Lawful x t type i (.task o) q := by
    intro q
    cases o <;> first | exact absurd only Bool.false_ne_true | exact ⟨rfl, own⟩
  unfold Leads
  rw [Prog.op, Prog.expand, expanded]
  rintro q ⟨inv, rely, reads⟩
  exact ⟨trivial, fun _ => ⟨plain q, next q inv rely reads⟩⟩

/-- Reading the status, which the thread notes. -/
theorem leads_readStatus {Q : Except Exc TaskStatus → Noted ι → Prop}
    (next : ∀ q, Inv t type q → Rely x t type i p q → q.1.reads i = q.status t :: p.1.reads i →
      Q (.ok (q.status t)) q) : Leads x t type i (readStatus t) Q p := by
  refine leads_looks (o := .status t) rfl rfl fun q inv rely reads => ?_
  have same := act_looks (t := t) x (o := .status t) rfl i q
  refine (congrArg (fun s => Q (.ok s) _) same.status).mp ?_
  refine next _ (same.inv inv) (rely.trans same.rely) ?_
  rw [same.status, ← reads]
  exact Function.update_self _ _ _

/-- An operation that only looks, and does not look at the status. -/
theorem leads_glance {o : TaskOp} (own : o.task = t) (only : looks o = true)
    (aside : ∀ u, o ≠ .status u) {Q : Except Exc o.Ans → Noted ι → Prop}
    (next : ∀ q, Inv t type q → Rely x t type i p q → q.1.reads i = p.1.reads i →
      Q (.ok (o.perform x q.1.world).1) q) : Leads x t type i (.op o) Q p := by
  refine leads_looks own only fun q inv rely reads => ?_
  have same := act_looks (t := t) x only i q
  have answer : (o.perform x (act x i (.task o) q).2.1.world).1 = (o.perform x q.1.world).1 := by
    cases o <;> first | exact absurd only Bool.false_ne_true | rfl
  rw [← answer]
  refine next _ (same.inv inv) (rely.trans same.rely) ?_
  rw [← reads]
  cases o <;> first
    | exact absurd only Bool.false_ne_true
    | exact absurd rfl (aside _)
    | rfl

/-- Delivering an event changes nothing of the account. -/
theorem leads_deliver {event : TaskEvent} {Q : Except Exc Unit → Noted ι → Prop}
    (next : ∀ q, Inv t type q → Rely x t type i p q → Q (.ok ()) q) :
    Leads x t type i (deliver t event) Q p :=
  leads_glance (o := .deliver t event) rfl rfl (fun _ other => by cases other)
    fun q inv rely _ => next q inv rely

/-- Storing a result, which leaves it to be saved. -/
theorem leads_setResult {r : TaskResult} {Q : Except Exc Unit → Noted ι → Prop}
    (next : ∀ q, Inv t type (q.written t i r) → Rely x t type i p q →
      Q (.ok ()) (q.written t i r)) : Leads x t type i (setResult t r) Q p := by
  rintro q ⟨inv, rely, -⟩
  exact ⟨trivial, fun _ => ⟨⟨rfl, rfl⟩, next q (written_inv inv r) rely⟩⟩

/-- A transition is carried out or refused. -/
theorem leads_transition {target : TaskStatus} {error : Option String}
    {Q : Except Exc Unit → Noted ι → Prop}
    (mine : ∀ q, Rely x t type i p q → x.handlers type = true → q.status t = .running →
      target = .succeeded ∨ target = .failed → q.1.runner = some i)
    (moved : ∀ q, Inv t type q → Rely x t type i p q → q.1.reads i = p.1.reads i →
      leaves i t target q.1 = true → (q.status t).canTransitionTo target = true →
      Q (.ok ()) (q.moved x t i target error))
    (refused : ∀ q m, Inv t type q → Rely x t type i p q → moves i t target q.1 = true →
      (q.status t).canTransitionTo target = false → Q (.error (.valueError m)) q) :
    Leads x t type i (transitionTo t target error) Q p := by
  refine leads_bind ?_
  rintro q ⟨inv, rely, reads⟩
  refine ⟨trivial, fun timely => ⟨⟨timely, rfl, mine q rely⟩, ?_⟩⟩
  obtain ⟨moves, left⟩ := Bool.and_eq_true_iff.mp timely
  cases allowed : (q.status t).canTransitionTo target with
  | true =>
    rw [act_moved x allowed]
    exact moved q inv rely reads left allowed
  | false =>
    obtain ⟨m, same⟩ := act_refused x allowed i error
    rw [same]
    exact refused q m inv rely moves allowed

/-- A save: the snapshot `q.snapped` of some state on the way, and later its commit. -/
theorem leads_save {Q : Except Exc Unit → Noted ι → Prop}
    (next : ∀ q r, Rely x t type i p q → Rely x t type i (q.snapped t i) r → Inv t type r →
      r.1.holder ≠ some i → Q (.ok ()) r) : Leads x t type i (save t) Q p := by
  refine leads_bind ?_
  rintro q ⟨inv, rely, -⟩
  refine ⟨trivial, fun _ => ⟨⟨rfl, rfl⟩, ?_⟩⟩
  rintro r ⟨inv', rely', -⟩
  have own : r.1.holder = some i → r.2.latest = some (q.1.world.tasks t).dropRaw := fun held =>
    (rely'.held held).2
  refine ⟨trivial, fun timely => ⟨⟨timely, rfl, own⟩, ?_⟩⟩
  refine next q _ rely (rely'.trans (committed_rely x _)) (committed_inv x inv' timely own) ?_
  change (if r.1.holder = some i then none else r.1.holder) ≠ some i
  split
  · exact fun held => by cases held
  · assumption

/-- Saving and announcing. -/
theorem leads_emit (store : x.store = true) {event : TaskEventType} {previous : Option TaskStatus}
    {error : Option String} {Q : Except Exc Unit → Noted ι → Prop}
    (next : ∀ q r, Rely x t type i p q → Rely x t type i (q.snapped t i) r → Inv t type r →
      r.1.holder ≠ some i → Q (.ok ()) r) :
    Leads x t type i (emit x t event previous error) Q p := by
  refine leads_bind ?_
  unfold persist
  rw [if_pos store]
  refine leads_tryCatch (leads_save fun q r rely rely' _ empty => ?_)
  refine leads_bind (leads_readStatus fun r' _ rely'' _ => ?_)
  refine leads_deliver fun r'' inv rely''' => ?_
  have later := rely''.trans rely'''
  exact next q r'' rely (rely'.trans later) inv fun held => empty (later.held held).1

/-! ## Assertions -/

omit [DecidableEq ι] in
/-- A thread that is free stays so, as the others leave no save to it. -/
theorem Free.stable : Stable x t type i (Free t i) := by
  intro p q rely free
  constructor
  · exact fun held => free.empty (rely.held held).1
  · intro runner running
    obtain ⟨runner', running', same⟩ := rely.running runner running
    exact same.trans (free.calm runner' running')
  · intro owed
    rcases rely.owed owed with owed' | ⟨runner, running, answering⟩
    · exact free.owes owed'
    · rw [free.calm runner running] at answering
      cases answering
  · exact rely.wrote.trans free.wrote

omit [DecidableEq ι] in
/-- What has been begun stays begun. -/
theorem Begun.stable : Stable x t type i (Begun : Noted ι → Prop) :=
  fun _ _ rely begun owed => begun (rely.fresh owed)

omit [DecidableEq ι] in
/-- A task that may not be started has been touched. -/
theorem begun_of_not_startable (inv : Inv t type p)
    (other : (p.status t).canTransitionTo .running = false) : Begun p := by
  intro owed
  rw [inv.fresh owed] at other
  cases other

/-- After a snapshot the thread owes nothing, if the task was not RUNNING. -/
theorem free_of_snapped {q r s : Noted ι} (still : q.status t ≠ .running)
    (rely : Rely x t type i q r) (rely' : Rely x t type i (r.snapped t i) s)
    (empty : s.1.holder ≠ some i) : Free t i s ∧ Begun s := by
  have idle : r.1.runner = some i → r.status t ≠ .running := fun runner running =>
    still (rely.running runner running).2.1
  refine ⟨⟨empty, ?_, ?_, ?_⟩, ?_⟩
  · intro runner running
    obtain ⟨runner', running', -⟩ := rely'.running runner running
    exact absurd running' (idle runner')
  · intro owed
    rcases rely'.owed owed with owed' | ⟨runner, running, -⟩
    · cases owed'
    · exact idle runner running
  · rw [rely'.wrote]
    exact Function.update_self _ _ _
  · exact fun owed => by cases rely'.fresh owed

/-- A terminal write: unless its own transition to SUCCEEDED is refused, it saves what it wrote. -/
theorem leads_terminalize (store : x.store = true) {r : TaskResult} {target previous : TaskStatus}
    {event : TaskEventType} {error : Option String} {Q : Except Exc Unit → Noted ι → Prop}
    (other : target ≠ .running)
    (mine : x.handlers type = true → target = .succeeded ∨ target = .failed → Active t i p)
    (done : ∀ q, Free t i q → Begun q → Q (.ok ()) q)
    (lost : ∀ q q' m, target = .succeeded → Rely x t type i p q →
      Rely x t type i (q.written t i r) q' → Q (.error (.valueError m)) q') :
    Leads x t type i (terminalize x t r target previous event error) Q p := by
  have saved : ∀ {q : Noted ι}, q.status t = target →
      Leads x t type i (emit x t event (some previous) error) Q q := by
    intro q here
    refine leads_emit store fun r s rely rely' _ none => ?_
    obtain ⟨free, begun⟩ := free_of_snapped (by rw [here]; exact other) rely rely' none
    exact done s free begun
  refine leads_bind (leads_setResult fun q _ rely => ?_)
  refine leads_bind (leads_readStatus fun q' _ rely' _ => ?_)
  change Leads x t type i (if (q'.status t != target) = true then _ else _) Q q'
  split
  · have wrote : ∀ {q''}, Rely x t type i q' q'' → q''.1.wrote i = true := by
      intro q'' rely''
      rw [rely''.wrote, rely'.wrote]
      exact Function.update_self _ _ _
    refine leads_bind (leads_transition ?_ ?_ ?_)
    · intro q'' rely'' handled _ final
      have active := (rely.active handled (mine handled final)).1
      have active' : Active t i (q.written t i r) := by
        refine ⟨active.1, ?_⟩
        rw [written_status]
        exact active.2
      exact (((rely'.trans rely'').active handled active').1).1
    · intro q'' _ _ _ _ _
      exact saved (moved_status x _ _)
    · intro q'' m _ rely'' moves refused
      have final : target = .succeeded := by
        simpa [Autosave.moves, wrote rely'', show (q''.1.world.status t).canTransitionTo target = false
          from refused] using moves
      exact lost q q'' m final rely (rely'.trans rely'')
  · rename_i same
    exact saved (by simpa using same)

/-! ## `cancel` -/

/-- An assertion that a `cancel` by this thread does not disturb: a cancel of its own active
`execute` keeps it, and where the task may be started the thread is free. -/
structure Resting (x : Executor) (t : TaskId) (type : TaskType) (i : ι) (H : Noted ι → Prop) :
    Prop where
  stable : Stable x t type i H
  wrote : ∀ p, H p → p.1.wrote i = false
  left : ∀ p k error, H p → p.status t = .running → p.1.runner = some k →
    p.1.answering = true → debtor i .cancelled p.1 = k → H (p.moved x t i .cancelled error)
  idle : ∀ p q, H p → (p.status t).canTransitionTo .running = true → Free t i q → H q

omit [DecidableEq ι] in
/-- A free thread may be left alone. -/
theorem resting_free : Resting x t type i (Free t i) where
  stable := Free.stable
  wrote _ free := free.wrote
  left p k error free running runner answering owes := by
    refine ⟨free.empty, ?_, ?_, free.wrote⟩
    · intro _ running'
      rw [moved_status] at running'
      cases running'
    · intro owed
      have same : k = i := by
        injection owed with owed
        exact owes.symm.trans owed
      subst same
      rw [free.calm runner running] at answering
      cases answering
  idle _ _ _ _ free := free

/-- The end of `cancel`: a task that waited is finished here, and one that was RUNNING is left to
its attempt. -/
theorem leads_cancelFinish (store : x.store = true) {previous : TaskStatus}
    {H : Noted ι → Prop} (rest : Resting x t type i H)
    (here : previous.canTransitionTo .running = false → H p ∧ Begun p)
    (idle : previous.canTransitionTo .running = true → ∀ q, Free t i q → H q)
    {Q : Except Exc Unit → Noted ι → Prop} (done : ∀ q, H q → Begun q → Q (.ok ()) q) :
    Leads x t type i (cancelFinish x t previous) Q p := by
  refine leads_bind (leads_glance (o := .terminateProcess t) rfl rfl
    (fun _ other => by cases other) fun q _ rely _ => ?_)
  change Leads x t type i
    (if (previous == .pending || previous == .failed || previous == .blocked) = true then _ else _) Q q
  split
  · rename_i waiting
    have startable : previous.canTransitionTo .running = true := by
      cases previous <;> first | rfl | cases waiting
    refine leads_terminalize store (by decide) ?_ ?_ ?_
    · rintro _ (final | final) <;> cases final
    · exact fun q' free begun => done q' (idle startable q' free) begun
    · intro _ _ _ final
      cases final
  · rename_i working
    have notStartable : previous.canTransitionTo .running = false := by
      cases previous <;> first | rfl | exact absurd rfl working
    obtain ⟨kept, begun⟩ := here notStartable
    exact done q (rest.stable p q rely kept) (Begun.stable p q rely begun)

/-- A whole `cancel`. -/
theorem leads_cancel (store : x.store = true) {H : Noted ι → Prop} (rest : Resting x t type i H)
    (here : H p) {Q : Except Exc Unit → Noted ι → Prop}
    (done : ∀ q, H q → Begun q → Q (.ok ()) q)
    (failed : ∀ q m, H q → Begun q → Q (.error (.valueError m)) q) :
    Leads x t type i (cancel x t) Q p := by
  refine leads_bind (leads_bind (leads_readStatus fun q₁ inv₁ rely₁ _ => ?_))
  have here₁ := rest.stable p q₁ rely₁ here
  change Leads x t type i (if (q₁.status t == .succeeded) = true then _ else _) _ q₁
  split
  · rename_i succeeded
    refine done q₁ here₁ (begun_of_not_startable inv₁ ?_)
    rw [eq_of_beq succeeded]
    rfl
  refine leads_bind (leads_readStatus fun q₂ inv₂ rely₂ reads₂ => ?_)
  have here₂ := rest.stable q₁ q₂ rely₂ here₁
  refine leads_bind (leads_bind (leads_readStatus fun q₃ inv₃ rely₃ reads₃ => ?_))
  have here₃ := rest.stable q₂ q₃ rely₃ here₂
  have idle : (q₂.status t).canTransitionTo .running = true → ∀ q, Free t i q → H q :=
    fun startable q free => rest.idle q₂ q here₂ startable free
  change Leads x t type i (if (q₃.status t).isSink = true then _ else _) _ q₃
  split
  · rename_i sink
    have begun : Begun q₃ :=
      begun_of_not_startable inv₃ (TaskStatus.canTransitionTo_of_isSink sink _)
    exact leads_cancelFinish store rest (fun _ => ⟨here₃, begun⟩) idle done
  · rename_i notSink
    refine leads_bind (leads_glance (o := .error t) rfl rfl (fun _ other => by cases other)
      fun q₄ inv₄ rely₄ reads₄ => ?_)
    have here₄ := rest.stable q₃ q₄ rely₄ here₃
    refine leads_transition ?_ ?_ ?_
    · rintro _ _ _ _ (final | final) <;> cases final
    · intro q₅ inv₅ rely₅ reads₅ left allowed
      have here₅ := rest.stable q₄ q₅ rely₅ here₄
      refine leads_cancelFinish store rest ?_ idle done
      intro notStartable
      -- `previous` was no sink, or `Task.cancel` would have found one: it was RUNNING
      have running : q₂.status t = .running := by
        cases previous : q₂.status t with
        | running => rfl
        | succeeded => exact absurd (by rw [rely₃.sink (by rw [previous]; rfl), previous]; rfl) notSink
        | cancelled => exact absurd (by rw [rely₃.sink (by rw [previous]; rfl), previous]; rfl) notSink
        | _ => rw [previous] at notStartable; cases notStartable
      have reads : (q₅.1.reads i)[1]? = some .running := by
        rw [reads₅, reads₄, reads₃, reads₂, running]
        rfl
      obtain ⟨still, runs, answering⟩ :=
        leaves_iff.mp left (rest.wrote q₅ here₅) rfl reads allowed
      obtain ⟨k, runner⟩ := Option.isSome_iff_exists.mp runs
      refine ⟨rest.left q₅ k _ here₅ still runner answering ?_, fun owed => by cases owed⟩
      unfold debtor
      rw [if_pos ⟨rest.wrote q₅ here₅, rfl, reads⟩, runner, Option.getD_some]
    · intro q₅ m inv₅ rely₅ _ refused
      refine failed q₅ m (rest.stable q₄ q₅ rely₅ here₄) (begun_of_not_startable inv₅ ?_)
      have sink : (q₅.status t).isSink = true := by
        cases here : q₅.status t <;> rw [here] at refused <;> first | rfl | cases refused
      exact TaskStatus.canTransitionTo_of_isSink sink _

end Calls

end Autosave

end Sqlite

end TTasks
