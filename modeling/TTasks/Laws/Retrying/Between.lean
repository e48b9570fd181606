import TTasks.Retrying
import TTasks.Laws.Executor.Attempt
import TTasks.Laws.Executor.Quiet

/-!
# What may reach an execution between two attempts

While a task is RUNNING nothing comes to it from outside, so the operations of an attempt are known
exactly: `Now` is the task and the number of its calls. From the moment it is FAILED a cancel may
come, and `Struck` is the same point after a cancel; `Since` is either. Each operation and each
helper of an attempt has one lemma here.
-/

namespace TTasks

open Interleave
open Prog (Contract)

namespace Retrying

variable {x : Executor} {t : TaskId} {base : Nat}

/-! ## What may come in between -/

/-- Other threads do nothing, or a timely cancel arrives. -/
def Undergoes (x : Executor) (t : TaskId) (base : Nat) (a b : Shared) : Prop :=
  b = a ∨ Between t base a ∧ a.looks ≠ 1 ∧ b = arrive x t a

/-- The contract of an `execute` that somebody may cancel between two attempts. -/
abbrev cancellable (x : Executor) (t : TaskId) (base : Nat) : Contract TaskOp Shared where
  rely := Undergoes x t base

/-- The task and the number of its calls, with no cancel so far. -/
structure Now (t : TaskId) (task : Task) (calls : Nat) (s : Shared) : Prop where
  task : s.world.tasks t = task
  count : s.world.callCount t = calls
  arrivals : s.arrivals = []

/-- A cancel has arrived after so many calls. -/
structure Struck (x : Executor) (t : TaskId) (calls : Nat) (s : Shared) : Prop where
  status : s.world.status t = .cancelled
  result : (s.world.tasks t).result = some (cancelResult t)
  registered : x.handlers (s.world.tasks t).type = true
  count : s.world.callCount t = calls
  arrivals : s.arrivals = [calls]

section Rely

variable {task : Task} {calls : Nat} {a b c : Shared}

/-- The task's status. -/
theorem Now.status (h : Now t task calls a) : a.world.status t = task.status := by
  rw [World.status, h.task]

/-- Before the first failure, and while the task is not FAILED, it is not between two attempts. -/
theorem Now.not_between (h : Now t task calls a) (safe : task.status ≠ .failed ∨ calls ≤ base) :
    ¬ Between t base a := by
  rintro ⟨failed, begun⟩
  rw [h.status] at failed
  rw [h.count] at begun
  rcases safe with other | early
  · exact other failed
  · omega

/-- After the cancel it is not between two attempts any more. -/
theorem Struck.not_between (h : Struck x t calls a) : ¬ Between t base a := by
  rintro ⟨failed, -⟩
  rw [h.status] at failed
  cases failed

/-- No cancel arrives outside those gaps, nor within the step that looks at the status. -/
theorem Undergoes.still (moved : Undergoes x t base a b) (safe : ¬ Between t base a ∨ a.looks = 1) :
    b = a := by
  rcases moved with same | ⟨between, other, -⟩
  · exact same
  · rcases safe with not | one
    · exact absurd between not
    · exact absurd one other

/-- A cancel that finds the task FAILED leaves it CANCELLED, with the result of a cancel. -/
theorem arrive_struck (h : Now t task calls a) (failed : task.status = .failed)
    (registered : x.handlers task.type = true) : Struck x t calls (arrive x t a) := by
  have idle : a.world.status t = .failed := h.status.trans failed
  have after := run_cancel_of_idle x (t := t) (w := a.world) (.inr (.inl idle))
  have count : a.world.callCount t = calls := h.count
  constructor <;> simp only [arrive, Executor.after, after]
  · simp [World.status]
  · simp
  · simpa [h.task, Task.enter] using registered
  · simpa [World.callCount] using count
  · simp [h.arrivals, count]

/-- A cancel between two attempts leaves the task CANCELLED. -/
theorem status_arrive (between : Between t base a) : (arrive x t a).world.status t = .cancelled := by
  have after := run_cancel_of_idle x (t := t) (w := a.world) (.inr (.inl between.1))
  simp [arrive, Executor.after, after, World.status]

/-- The others send one cancel at most: after it the task is not between two attempts. -/
theorem Undergoes.trans (h : Undergoes x t base a b) (h' : Undergoes x t base b c) :
    Undergoes x t base a c := by
  rcases h with rfl | ⟨between, other, rfl⟩
  · exact h'
  · have sunk : ¬ Between t base (arrive x t a) := by
      rintro ⟨failed, -⟩
      rw [status_arrive between] at failed
      cases failed
    exact .inr ⟨between, other, h'.still (.inl sunk)⟩

/-- The task and the number of its calls, or the same after a cancel between two attempts. -/
def Since (x : Executor) (t : TaskId) (base : Nat) (task : Task) (calls : Nat) (s : Shared) : Prop :=
  Now t task calls s ∨ (task.status = .failed ∧ base < calls) ∧ Struck x t calls s

/-- A task that is not FAILED has not been cancelled in between. -/
theorem Since.now (h : Since x t base task calls a) (firm : task.status ≠ .failed) :
    Now t task calls a :=
  h.resolve_right fun struck => firm struck.1.1

/-- What other threads and operations that write no task do. -/
structure Passes (x : Executor) (t : TaskId) (base : Nat) (a b : Shared) : Prop where
  since : ∀ task calls, x.handlers task.type = true → Since x t base task calls a →
    Since x t base task calls b
  struck : ∀ calls, Struck x t calls a → Struck x t calls b

/-- A task that has been cancelled is left alone. -/
theorem Struck.undergoes (here : Struck x t calls a) (moved : Undergoes x t base a b) :
    Struck x t calls b := by
  obtain rfl := moved.still (.inl here.not_between)
  exact here

/-- The moves of the others are among those that the task's story allows. -/
theorem Undergoes.passes (moved : Undergoes x t base a b) : Passes x t base a b where
  since task calls registered := by
    rintro (here | ⟨failed, here⟩)
    · rcases moved with rfl | ⟨between, -, rfl⟩
      · exact .inl here
      · have failed : task.status = .failed := here.status.symm.trans between.1
        exact .inr ⟨⟨failed, here.count ▸ between.2⟩, arrive_struck here failed registered⟩
    · exact .inr ⟨failed, here.undergoes moved⟩
  struck calls here := here.undergoes moved

/-- Two stretches are one. -/
theorem Passes.trans (h : Passes x t base a b) (h' : Passes x t base b c) : Passes x t base a c where
  since task calls registered here := h'.since task calls registered (h.since task calls registered here)
  struck calls here := h'.struck calls (h.struck calls here)

/-- Nothing has happened yet. -/
theorem Passes.refl (a : Shared) : Passes x t base a a := ⟨fun _ _ _ => id, fun _ => id⟩

/-- An operation that leaves the task and the calls as they are. -/
theorem sem_passes {o : TaskOp} (task : (o.perform x a.world).2.tasks t = a.world.tasks t)
    (calls : (o.perform x a.world).2.calls = a.world.calls) : Passes x t base a (sem x o a).2 := by
  have count : (sem x o a).2.world.callCount t = a.world.callCount t := by
    show ((o.perform x a.world).2.calls.filter _).length = _
    rw [calls]
    rfl
  have struck : ∀ calls, Struck x t calls a → Struck x t calls (sem x o a).2 := by
    intro _ here
    refine ⟨?_, ?_, ?_, count.trans here.count, here.arrivals⟩
    · exact (congrArg Task.status task).trans here.status
    · exact (congrArg Task.result task).trans here.result
    · exact (congrArg (fun task => x.handlers task.type) task).trans here.registered
  refine ⟨?_, struck⟩
  rintro _ _ _ (here | ⟨failed, here⟩)
  · exact .inl ⟨task.trans here.task, count.trans here.count, here.arrivals⟩
  · exact .inr ⟨failed, struck _ here⟩

end Rely

/-- The operations that write no task may be passed over, whether or not a cancel arrives at them.
-/
theorem skips (x : Executor) (t : TaskId) (base : Nat) :
    Skips x t Shared.world (sem x) (cancellable x t base) (fun o => o.isSilent = true)
      (Passes x t base) where
  answer _ _ := rfl
  trans := Passes.trans
  rely := Undergoes.passes
  ready _ _ := trivial
  step {o a b} silent _ := by
    obtain ⟨tasks, calls⟩ := TaskOp.perform_silent x silent b.world
    exact ⟨trivial, sem_passes (congrFun tasks t) calls, congrArg (fun f => (f t).status) tasks⟩
  read := rfl
  save := rfl
  record _ := rfl
  failed _ _ := rfl

/-! ## The operations of an attempt -/

section Parts

variable {task : Task} {calls : Nat} {p : Shared}

/-- A status read between two attempts. -/
theorem wp_status (here : Since x t base task calls p) (registered : x.handlers task.type = true)
    {Q : Except Exc TaskStatus → Shared → Prop}
    (now : ∀ q, Now t task calls q → Q (.ok task.status) q)
    (struck : ∀ q, base < calls → Struck x t calls q → Q (.ok .cancelled) q) :
    (readStatus t).wp (sem x) (cancellable x t base) Q p := by
  refine (skips x t base).wp_readStatus fun q passes => ?_
  rcases passes.since task calls registered here with still | ⟨⟨-, begun⟩, late⟩
  · rw [still.status]
    exact now q still
  · rw [late.status]
    exact struck q begun late

/-- A status read that only goes into an event. -/
theorem wp_previous (here : Since x t base task calls p) (registered : x.handlers task.type = true)
    {Q : Except Exc TaskStatus → Shared → Prop}
    (next : ∀ q s, Since x t base task calls q → Q (.ok s) q) :
    (readStatus t).wp (sem x) (cancellable x t base) Q p :=
  (skips x t base).wp_readStatus fun q passes => next q _ (passes.since task calls registered here)

/-- A status read on a task that nothing comes to from outside. -/
theorem wp_status_firm (here : Now t task calls p) (registered : x.handlers task.type = true)
    (firm : task.status ≠ .failed) {Q : Except Exc TaskStatus → Shared → Prop}
    (next : ∀ q, Now t task calls q → Q (.ok task.status) q) :
    (readStatus t).wp (sem x) (cancellable x t base) Q p := by
  refine (skips x t base).wp_readStatus fun q passes => ?_
  have still := (passes.since task calls registered (.inl here)).now firm
  rw [still.status]
  exact next q still

/-- `_emit` while the task is not FAILED. -/
theorem wp_emit (here : Now t task calls p) (registered : x.handlers task.type = true)
    (firm : task.status ≠ .failed) {type : TaskEventType} {previous : Option TaskStatus}
    {error : Option String} {Q : Except Exc Unit → Shared → Prop}
    (next : ∀ q, Now t task calls q → Q (.ok ()) q) :
    (emit x t type previous error).wp (sem x) (cancellable x t base) Q p :=
  (skips x t base).wp_emit (fun _ => rfl)
    (fun q passes => next q ((passes.since task calls registered (.inl here)).now firm))
    (.refl _)

/-- The FAILED event: from here on a cancel may come, and the count of status reads starts anew. -/
theorem wp_emit_failed (here : Since x t base task calls p) (registered : x.handlers task.type = true)
    {previous : Option TaskStatus} {error : Option String} {Q : Except Exc Unit → Shared → Prop}
    (next : ∀ q, Since x t base task calls q → q.looks = 0 → Q (.ok ()) q) :
    (emit x t .failed previous error).wp (sem x) (cancellable x t base) Q p := by
  simp only [emit, Prog.bind_eq, Prog.wp_bind]
  refine (skips x t base).wp_persist (fun q passes => ?_) (.refl _)
  refine (skips x t base).wp_readStatus fun r passes' => ?_
  refine (skips x t base).wp_quiet (o := .deliver t _) rfl fun b _ passes'' _ => ?_
  refine next _ ?_ rfl
  exact passes''.since _ _ registered (passes'.since _ _ registered (passes.since _ _ registered here))

/-- A transition that is carried out. -/
theorem wp_carried (here : Now t task calls p) {target : TaskStatus}
    (allowed : task.status.canTransitionTo target = true) {error : Option String}
    {Q : Except Exc Unit → Shared → Prop}
    (next : ∀ q, Now t (task.enter target error) calls q → Q (.ok ()) q) :
    (orRaise ((TaskOp.transition t target error).perform x p.world).1).wp (sem x)
      (cancellable x t base) Q (sem x (.transition t target error) p).2 := by
  have carried := TaskOp.perform_moved x (t := t) (w := p.world) (here.status ▸ allowed) error
  have state : (sem x (.transition t target error) p).2.world = _ := congrArg Prod.snd carried
  rw [congrArg Prod.fst carried]
  refine next _ ⟨?_, ?_, here.arrivals⟩
  · rw [state, here.task]; simp
  · rw [state]; exact here.count

/-- A transition that the table allows, while the task is not FAILED. -/
theorem wp_transition (here : Now t task calls p) (firm : task.status ≠ .failed)
    {target : TaskStatus} (allowed : task.status.canTransitionTo target = true)
    {error : Option String} {Q : Except Exc Unit → Shared → Prop}
    (next : ∀ q, Now t (task.enter target error) calls q → Q (.ok ()) q) :
    (transitionTo t target error).wp (sem x) (cancellable x t base) Q p := by
  rw [transitionTo, Prog.bind_eq, Prog.wp_bind]
  intro q moved
  obtain rfl := moved.still (.inl (here.not_between (.inl firm)))
  exact ⟨trivial, fun _ => ⟨trivial, wp_carried here allowed next⟩⟩

/-- The transition to RUNNING, on a task that a cancel may have reached. -/
theorem wp_running (here : Since x t base task calls p) (registered : x.handlers task.type = true)
    (startable : task.status.canTransitionTo .running = true)
    {Q : Except Exc Unit → Shared → Prop}
    (moved : ∀ q, Now t (task.enter .running none) calls q → Q (.ok ()) q)
    (refused : ∀ q message, base < calls → Struck x t calls q →
      Q (.error (.valueError message)) q) :
    (transitionTo t .running).wp (sem x) (cancellable x t base) Q p := by
  rw [transitionTo, Prog.bind_eq, Prog.wp_bind]
  intro q came
  refine ⟨trivial, fun _ => ⟨trivial, ?_⟩⟩
  rcases came.passes.since _ _ registered here with still | ⟨⟨-, begun⟩, struck⟩
  · exact wp_carried still startable moved
  · have sunk : (q.world.status t).canTransitionTo .running = false := by rw [struck.status]; decide
    obtain ⟨message, carried⟩ := TaskOp.perform_refused x sunk none
    have state := congrArg Prod.snd carried
    show Prog.wp _ _ (orRaise ((TaskOp.transition t .running none).perform x q.world).1) Q _
    rw [congrArg Prod.fst carried]
    have kept : Passes x t base q (sem x (.transition t .running none) q).2 :=
      sem_passes (by rw [state]) (by rw [state])
    exact refused _ message begun (kept.struck calls struck)

/-- Storing a result while the task is not FAILED. -/
theorem wp_setResult (here : Now t task calls p) (firm : task.status ≠ .failed) {r : TaskResult}
    {Q : Except Exc Unit → Shared → Prop}
    (next : ∀ q, Now t { task with result := some r } calls q → Q (.ok ()) q) :
    (setResult t r).wp (sem x) (cancellable x t base) Q p := by
  intro q moved
  obtain rfl := moved.still (.inl (here.not_between (.inl firm)))
  refine ⟨trivial, fun _ => ⟨trivial, next _ ⟨?_, here.count, here.arrivals⟩⟩⟩
  show (q.world.setTask t { q.world.tasks t with result := some r }).tasks t = _
  rw [here.task]; simp

/-- `_terminalize` to SUCCEEDED or CANCELLED. -/
theorem wp_terminalize (here : Now t task calls p) (registered : x.handlers task.type = true)
    (firm : task.status ≠ .failed) {status previous : TaskStatus}
    (allowed : task.status ≠ status → task.status.canTransitionTo status = true)
    (other : status ≠ .failed) {r : TaskResult} {type : TaskEventType} {error : Option String}
    (kept : status ≠ .running) {Q : Except Exc Unit → Shared → Prop}
    (next : ∀ q task', Now t task' calls q → task'.status = status → task'.result = some r →
      x.handlers task'.type = true → Q (.ok ()) q) :
    (terminalize x t r status previous type error).wp (sem x) (cancellable x t base) Q p := by
  simp only [terminalize, Prog.bind_eq, Prog.wp_bind]
  refine wp_setResult here firm fun q₁ here₁ => ?_
  refine wp_status_firm here₁ registered firm fun q₂ here₂ => ?_
  show Prog.wp _ _ (if (task.status != status) = true then _ else _) _ _
  split
  · rename_i moves
    rw [Prog.wp_bind]
    refine wp_transition here₂ firm (allowed (by simpa using moves)) fun q₃ here₃ => ?_
    refine wp_emit here₃ registered other fun q₄ here₄ => ?_
    exact next q₄ _ here₄ rfl (by simp [Task.enter, kept]) registered
  · rename_i stays
    refine wp_emit here₂ registered firm fun q₃ here₃ => ?_
    exact next q₃ _ here₃ (by simpa using stays) rfl registered

/-- `_terminalize` to FAILED. -/
theorem wp_terminalize_failed (here : Now t task calls p) (registered : x.handlers task.type = true)
    (running : task.status = .running) {previous : TaskStatus} {r : TaskResult}
    {error : Option String} {Q : Except Exc Unit → Shared → Prop}
    (next : ∀ q task', Since x t base task' calls q → task'.status = .failed →
      task'.result = some r → x.handlers task'.type = true → q.looks = 0 → Q (.ok ()) q) :
    (terminalize x t r .failed previous .failed error).wp (sem x) (cancellable x t base) Q p := by
  have firm : task.status ≠ .failed := by rw [running]; decide
  simp only [terminalize, Prog.bind_eq, Prog.wp_bind]
  refine wp_setResult here firm fun q₁ here₁ => ?_
  refine wp_status_firm here₁ registered firm fun q₂ here₂ => ?_
  show Prog.wp _ _ (if (task.status != .failed) = true then _ else _) _ _
  rw [if_pos (by rw [running]; decide), Prog.wp_bind]
  refine wp_transition here₂ firm (by rw [running]; decide) fun q₃ here₃ => ?_
  refine wp_emit_failed (.inl here₃) registered fun q₄ here₄ fresh => ?_
  exact next q₄ _ here₄ rfl (by simp [Task.enter]) registered fresh

/-- A cancel that the handler makes: it takes a RUNNING task to CANCELLED. -/
theorem wp_cancel (here : Now t task calls p) (registered : x.handlers task.type = true)
    (active : task.status = .running ∨ task.status = .cancelled)
    {Q : Except Exc Unit → Shared → Prop}
    (next : ∀ q task', Now t task' calls q → task'.status = .cancelled →
      x.handlers task'.type = true → Q (.ok ()) q) :
    (cancel x t).wp (sem x) (cancellable x t base) Q p := by
  have firm : task.status ≠ .failed := by rcases active with h | h <;> rw [h] <;> decide
  simp only [cancel, cancelPrevious, Prog.bind_eq, Prog.wp_bind]
  refine wp_status_firm here registered firm fun q₁ here₁ => ?_
  show Prog.wp _ _ (if (task.status == .succeeded) = true then _ else _) _ _
  rw [if_neg (by rcases active with h | h <;> rw [h] <;> decide), Prog.wp_bind]
  refine wp_status_firm here₁ registered firm fun q₂ here₂ => ?_
  show Prog.wp _ _ ((taskCancel t).bind _) _ _
  simp only [taskCancel, Prog.bind_eq, Prog.wp_bind]
  refine wp_status_firm here₂ registered firm fun q₃ here₃ => ?_
  have finish : ∀ q task', Now t task' calls q → task'.status = .cancelled →
      x.handlers task'.type = true →
      (cancelFinish x t task.status).wp (sem x) (cancellable x t base) Q q := by
    intro q task' here' status' registered'
    simp only [cancelFinish, Prog.bind_eq, Prog.wp_bind]
    refine (skips x t base).wp_terminateProcess rfl fun q' passes => ?_
    show Prog.wp _ _ (if _ then _ else _) _ _
    rw [if_neg (by rcases active with h | h <;> rw [h] <;> decide)]
    exact next q' task' ((passes.since _ _ registered' (.inl here')).now (by rw [status']; decide))
      status' registered'
  show Prog.wp _ _ (if task.status.isSink = true then _ else _) _ _
  rcases active with running | cancelled
  · rw [if_neg (by rw [running]; decide), Prog.wp_bind]
    refine (skips x t base).wp_quiet (o := .error t) rfl fun b _ passes _ => ?_
    have here₄ := (passes.since _ _ registered (.inl here₃)).now firm
    refine wp_transition here₄ firm (by rw [running]; decide) fun q₅ here₅ => ?_
    exact finish q₅ _ here₅ rfl registered
  · rw [if_pos (by rw [cancelled]; decide)]
    exact finish q₃ task here₃ cancelled registered

/-- A handler that cancels its own task, which ends CANCELLED unless there are no such cancels. -/
theorem wp_ownCancels (cancels : Nat) (here : Now t task calls p)
    (registered : x.handlers task.type = true)
    (active : task.status = .running ∨ task.status = .cancelled)
    {Q : Except Exc Unit → Shared → Prop}
    (next : ∀ q task', Now t task' calls q →
      task'.status = (if cancels = 0 then task.status else .cancelled) →
      x.handlers task'.type = true → Q (.ok ()) q) :
    (ownCancels x t cancels).wp (sem x) (cancellable x t base) Q p := by
  induction cancels generalizing task p with
  | zero => exact next p task here rfl registered
  | succ cancels ih =>
    simp only [ownCancels, Prog.bind_eq, Prog.wp_bind]
    refine wp_cancel here registered active fun q task' here' status' registered' => ?_
    refine ih here' registered' (.inr status') fun q' task'' here'' status'' registered'' => ?_
    refine next q' task'' here'' ?_ registered''
    rw [status'', status']
    simp

/-- The handler's part of an attempt. -/
theorem wp_callHandler (here : Now t task calls p) (registered : x.handlers task.type = true)
    (running : task.status = .running) (upstream : List TaskId)
    {Q : Except Exc (Option Raw) → Shared → Prop}
    (next : ∀ q task', Now t task' (calls + 1) q →
      task'.status = (if (x.behaviour t calls).cancels = 0 then .running else .cancelled) →
      x.handlers task'.type = true →
      Q (match (x.behaviour t calls).outcome with
        | .returns raw => .ok raw
        | .raises e => .error e) q) :
    (callHandler x t upstream).wp (sem x) (cancellable x t base) Q p := by
  simp only [callHandler, Prog.bind_eq, Prog.wp_bind]
  intro b moved
  obtain rfl := moved.still (.inl (here.not_between (.inl (by rw [running]; decide))))
  refine ⟨trivial, fun _ => ⟨trivial, ?_⟩⟩
  have called : Now t task (calls + 1) (sem x (.call t upstream) b).2 := by
    refine ⟨here.task, ?_, here.arrivals⟩
    show ((b.world.calls ++ [(t, upstream)]).filter _).length = _
    rw [List.filter_append, List.length_append, ← here.count]
    simp [World.callCount]
  have answer : (sem x (.call t upstream) b).1 = x.behaviour t calls := by
    rw [← here.count]; rfl
  show Prog.wp _ _ (ownCancels x t (sem x (.call t upstream) b).1.cancels) _ _
  rw [answer]
  refine wp_ownCancels _ called registered (.inl running) fun q task' here' status' registered' => ?_
  have ends := next q task' here' (running ▸ status') registered'
  show Prog.wp _ _ (match (x.behaviour t calls).outcome with
    | .returns raw => pure raw
    | .raises e => throw e) _ _
  cases outcome : (x.behaviour t calls).outcome with
  | returns raw => rw [outcome] at ends; exact ends
  | raises e => rw [outcome] at ends; exact ends

end Parts

end Retrying

end TTasks
