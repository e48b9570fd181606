import TTasks.Sqlite.Autosave
import TTasks.Laws.Executor.Quiet

/-!
# Who has the last change to save

The argument about auto-saves keeps an account beside the shared state: what the newest snapshot
read, and which thread owes a save for a change that came after it. A change is owed by the thread
that makes it, except that a `cancel` of a RUNNING task leaves it to the active `execute`. `Inv`
says that without a debt the newest snapshot is the live task, and that once the newest snapshot is
committed it is what the store holds.

Each thread relies on the others (`Rely`) not to give it a debt unless its own `execute` is active,
and, where there is a handler, to leave an active `execute` its task. The others guarantee it
because of what each operation is used for (`Lawful`) and because every step is `Timely`.
-/

namespace TTasks

open Interleave
open Prog (Contract)

namespace Sqlite

namespace Autosave

variable {ι : Type}

/-! ## The account -/

/-- Who has to save the last change. -/
inductive Debt (ι : Type)
  /-- Nobody: a snapshot came after it. -/
  | none
  /-- The task has not been saved since before the calls began. -/
  | start
  | owed (i : ι)

/-- What the threads have noted about the saves. -/
structure Account (ι : Type) where
  /-- What the newest snapshot read, or what the store held before the first one. -/
  latest : Option Task
  debt : Debt ι

/-- The shared state with the account beside it. -/
abbrev Noted (ι : Type) := Shared ι × Account ι

section Defs

variable [DecidableEq ι] (x : Executor) (t : TaskId) (type : TaskType)

/-- The thread that has to save after a transition. -/
def debtor (i : ι) (target : TaskStatus) (s : Shared ι) : ι :=
  if s.wrote i = false ∧ target = .cancelled ∧ (s.reads i)[1]? = some .running then
    s.runner.getD i
  else i

/-- How an operation changes the account. -/
def account (i : ι) (o : Op) (s : Shared ι) (a : Account ι) : Account ι :=
  match o with
  | .task (.transition t target _) =>
    if (s.world.status t).canTransitionTo target = true then
      { a with debt := .owed (debtor i target s) }
    else a
  | .task (.setResult _ _) => { a with debt := .owed i }
  | .snapshot t => { latest := some (s.world.tasks t).dropRaw, debt := .none }
  | _ => a

/-- One operation of one thread, with the account kept. -/
abbrev act (i : ι) (o : Op) (p : Noted ι) : o.Ans × Noted ι :=
  Threads.annotate (sem x) account i o p

namespace Noted

/-- The task's status. -/
def status (t : TaskId) (p : Noted ι) : TaskStatus := p.1.world.status t

/-- The state after a transition that is carried out. -/
def moved (p : Noted ι) (i : ι) (target : TaskStatus) (error : Option String) : Noted ι :=
  ({ p.1 with
      world := p.1.world.setTask t ((p.1.world.tasks t).enter target error)
      runner := if target = .running then some i else p.1.runner
      answering := if target = .running then answers x t p.1.world else p.1.answering },
    { p.2 with debt := .owed (debtor i target p.1) })

/-- The state after a result is written. -/
def written (p : Noted ι) (i : ι) (r : TaskResult) : Noted ι :=
  ({ p.1 with
      world := p.1.world.setTask t { p.1.world.tasks t with result := some r }
      wrote := Function.update p.1.wrote i true },
    { p.2 with debt := .owed i })

/-- The state after the first step of a save. -/
def snapped (p : Noted ι) (i : ι) : Noted ι :=
  ({ p.1 with wrote := Function.update p.1.wrote i false, holder := some i },
    { latest := some (p.1.world.tasks t).dropRaw, debt := .none })

end Noted

/-! ## The contracts -/

/-- What holds of the task and its rows in every state that is reached. -/
structure Inv (p : Noted ι) : Prop where
  type : (p.1.world.tasks t).type = type
  settled : p.2.debt = .none → p.2.latest = some (p.1.world.tasks t).dropRaw
  kept : p.1.holder = none → p.1.world.stored t = p.2.latest
  fresh : p.2.debt = .start → (p.status t).canTransitionTo .running = true

/-- A thread's `execute` has moved the task to RUNNING, and nobody has taken it on from there but to
CANCELLED. -/
def Active (i : ι) (p : Noted ι) : Prop :=
  p.1.runner = some i ∧ (p.status t = .running ∨ p.status t = .cancelled)

/-- What a thread may see the others do, and what its own reads and commits do. -/
structure Rely (i : ι) (p q : Noted ι) : Prop where
  wrote : q.1.wrote i = p.1.wrote i
  held : q.1.holder = some i → p.1.holder = some i ∧ q.2.latest = p.2.latest
  owed : q.2.debt = .owed i → p.2.debt = .owed i ∨
    (p.1.runner = some i ∧ p.status t = .running ∧ p.1.answering = true)
  fresh : q.2.debt = .start → p.2.debt = .start
  running : q.1.runner = some i → q.status t = .running →
    p.1.runner = some i ∧ p.status t = .running ∧ q.1.answering = p.1.answering
  active : x.handlers type = true → Active t i p → Active t i q ∧
    q.1.answering = p.1.answering ∧ q.1.world.callCount t = p.1.world.callCount t
  sink : (p.status t).isSink = true → q.status t = p.status t

/-- What the operations of `execute` and `cancel` are used for. -/
def Lawful (i : ι) (o : Op) (p : Noted ι) : Prop :=
  match o with
  | .task (.transition u target _) => u = t ∧ (x.handlers type = true → p.status t = .running →
      target = .succeeded ∨ target = .failed → p.1.runner = some i)
  | .task (.call u _) => u = t ∧ (x.handlers type = true → p.1.runner = some i)
  | .task (.save _) | .task (.setBlockedBy _ _) => False
  | .task o => o.task = t
  | .snapshot u => u = t
  | .commit u snapshot => u = t ∧ (p.1.holder = some i → p.2.latest = some snapshot)

/-- Each thread keeps the invariant and moves as the others expect; only it takes notes of its
reads. -/
def contract (i : ι) : Contract Op (Noted ι) where
  rely p q := Inv t type q ∧ Rely x t type i p q ∧ q.1.reads i = p.1.reads i
  allow o p := Timely i o p.1
  guar o p := Timely i o p.1 ∧ Lawful x t type i o p

end Defs

/-! ## Relations between states -/

section Relations

variable {x : Executor} {t : TaskId} {type : TaskType} {i : ι} {p q r : Noted ι}

/-- The others may do nothing. -/
theorem Rely.refl (p : Noted ι) : Rely x t type i p p where
  wrote := rfl
  held h := ⟨h, rfl⟩
  owed := .inl
  fresh := id
  running h h' := ⟨h, h', rfl⟩
  active _ h := ⟨h, rfl, rfl⟩
  sink _ := rfl

/-- Two stretches of moves by the others are one. -/
theorem Rely.trans (h : Rely x t type i p q) (h' : Rely x t type i q r) :
    Rely x t type i p r := by
  constructor
  · exact h'.wrote.trans h.wrote
  · intro held
    obtain ⟨held', same'⟩ := h'.held held
    obtain ⟨held'', same⟩ := h.held held'
    exact ⟨held'', same'.trans same⟩
  · intro owed
    rcases h'.owed owed with owed' | ⟨runner, running, answering⟩
    · exact h.owed owed'
    · obtain ⟨runner', running', same⟩ := h.running runner running
      exact .inr ⟨runner', running', same ▸ answering⟩
  · exact fun fresh => h.fresh (h'.fresh fresh)
  · intro runner running
    obtain ⟨runner', running', same'⟩ := h'.running runner running
    obtain ⟨runner'', running'', same⟩ := h.running runner' running'
    exact ⟨runner'', running'', same'.trans same⟩
  · intro handled active
    obtain ⟨active', answering, calls⟩ := h.active handled active
    obtain ⟨active'', answering', calls'⟩ := h'.active handled active'
    exact ⟨active'', answering'.trans answering, calls'.trans calls⟩
  · intro sink
    have same := h.sink sink
    exact (h'.sink (by rw [same]; exact sink)).trans same

/-- Nothing that the contracts speak of differs, apart from the reads. -/
structure Same (t : TaskId) (p q : Noted ι) : Prop where
  tasks : q.1.world.tasks = p.1.world.tasks
  stored : q.1.world.stored = p.1.world.stored
  calls : q.1.world.calls = p.1.world.calls
  wrote : q.1.wrote = p.1.wrote
  runner : q.1.runner = p.1.runner
  answering : q.1.answering = p.1.answering
  holder : q.1.holder = p.1.holder
  account : q.2 = p.2

/-- States that agree on the task agree on its status. -/
theorem Same.status (h : Same t p q) : q.status t = p.status t := by
  simp only [Noted.status, World.status, h.tasks]

/-- The invariant is a matter of the task, the rows and the account. -/
theorem Same.inv (h : Same t p q) (inv : Inv t type p) : Inv t type q where
  type := by rw [h.tasks]; exact inv.type
  settled := by rw [h.account, h.tasks]; exact inv.settled
  kept := by rw [h.holder, h.stored, h.account]; exact inv.kept
  fresh := by rw [h.account, h.status]; exact inv.fresh

/-- A thread does not notice a move that leaves them as they are. -/
theorem Same.rely (h : Same t p q) : Rely x t type i p q where
  wrote := by rw [h.wrote]
  held held := ⟨h.holder ▸ held, by rw [h.account]⟩
  owed owed := .inl (h.account ▸ owed)
  fresh fresh := h.account ▸ fresh
  running runner running := ⟨h.runner ▸ runner, h.status ▸ running, h.answering⟩
  active _ active := by
    refine ⟨⟨h.runner.trans active.1, ?_⟩, h.answering, ?_⟩
    · rw [h.status]; exact active.2
    · simp only [World.callCount, h.calls]
  sink _ := h.status

end Relations

/-! ## What the operations do -/

section Steps

variable [DecidableEq ι] (x : Executor) {t : TaskId} {type : TaskType} {i j : ι} {p q : Noted ι}

/-- The operations that only look, announce, wait or reap. -/
def looks : TaskOp → Bool
  | .status _ | .error _ | .type _ | .deliver _ _ | .recordSaveError _ _ | .terminateProcess _
  | .sleep _ => true
  | _ => false

/-- An operation that only looks leaves the task, the rows and the account. -/
theorem act_looks {o : TaskOp} (only : looks o = true) (i : ι) (p : Noted ι) :
    Same t p (act x i (.task o) p).2 := by
  cases o <;> first | exact absurd only Bool.false_ne_true | constructor <;> rfl

/-- Another thread's look is not noted as one's own. -/
theorem act_looks_reads {o : TaskOp} (only : looks o = true) (ne : j ≠ i) (p : Noted ι) :
    (act x i (.task o) p).2.1.reads j = p.1.reads j := by
  cases o <;>
    first | exact absurd only Bool.false_ne_true | rfl | exact Function.update_of_ne ne _ _

/-- A transition that the table allows, with the debt it brings. -/
theorem act_moved {target : TaskStatus} (allowed : (p.status t).canTransitionTo target = true)
    (i : ι) (error : Option String) :
    act x i (.task (.transition t target error)) p = (.ok (), p.moved x t i target error) := by
  have allowed' : (p.1.world.status t).canTransitionTo target = true := allowed
  have performs := TaskOp.perform_moved x allowed' error
  by_cases running : target = .running
  · subst running
    simp [act, Threads.annotate, sem, note, account, performs, allowed', Noted.moved,
      Except.isOk, Except.toBool]
  · simp [act, Threads.annotate, sem, note, account, performs, allowed', running, Noted.moved]

/-- A transition that the table refuses raises, and nothing is noted. -/
theorem act_refused {target : TaskStatus} (refused : (p.status t).canTransitionTo target = false)
    (i : ι) (error : Option String) :
    ∃ m, act x i (.task (.transition t target error)) p = (.error (.valueError m), p) := by
  have refused' : (p.1.world.status t).canTransitionTo target = false := refused
  obtain ⟨m, performs⟩ := TaskOp.perform_refused x refused' error
  exact ⟨m, by simp [act, Threads.annotate, sem, note, account, performs, refused',
    Except.isOk, Except.toBool]⟩

/-! ### A transition -/

omit [DecidableEq ι] in
/-- When a transition leaves its save to another thread: the second read of a cancel says RUNNING,
and by then the attempt has moved the task on. -/
theorem leaves_iff {target : TaskStatus} {s : Shared ι} : leaves i t target s = true ↔
    (s.wrote i = false → target = .cancelled → (s.reads i)[1]? = some .running →
      (s.world.status t).canTransitionTo target = true →
      s.world.status t = .running ∧ s.runner.isSome = true ∧ s.answering = true) := by
  simp only [leaves, Bool.or_eq_true, Bool.and_eq_true, bne_iff_ne, beq_iff_eq,
    Bool.not_eq_true', ← Bool.not_eq_true]
  tauto

omit [DecidableEq ι] in
/-- A transition keeps the invariant, as it leaves a debt. -/
theorem moved_inv (inv : Inv t type p) (target : TaskStatus) (error : Option String) :
    Inv t type (p.moved x t i target error) where
  type := by simpa [Noted.moved, Task.enter] using inv.type
  settled owed := by cases owed
  kept := inv.kept
  fresh owed := by cases owed

omit [DecidableEq ι] in
/-- A transition shows its target. -/
@[simp] theorem moved_status (target : TaskStatus) (error : Option String) :
    (p.moved x t i target error).status t = target := by simp [Noted.moved, Noted.status]

omit [DecidableEq ι] in
/-- What a transition does to another thread. -/
theorem moved_rely {target : TaskStatus} (allowed : (p.status t).canTransitionTo target = true)
    (left : leaves i t target p.1 = true)
    (lawful : Lawful x t type i (.task (.transition t target none)) p) (ne : j ≠ i)
    (error : Option String) : Rely x t type j p (p.moved x t i target error) := by
  constructor
  · rfl
  · exact fun held => ⟨held, rfl⟩
  · intro owed
    have owes : debtor i target p.1 = j := by injection owed
    unfold debtor at owes
    split at owes
    · rename_i quick
      obtain ⟨running, some_, answering⟩ := leaves_iff.mp left quick.1 quick.2.1 quick.2.2 allowed
      obtain ⟨k, runner⟩ := Option.isSome_iff_exists.mp some_
      rw [runner, Option.getD_some] at owes
      exact .inr ⟨owes ▸ runner, running, answering⟩
    · exact absurd owes.symm ne
  · intro owed
    cases owed
  · intro runner running
    rw [moved_status] at running
    simp only [Noted.moved, running, if_true] at runner
    exact absurd (Option.some.inj runner).symm ne
  · rintro handled ⟨runner, active⟩
    have other : p.1.runner ≠ some i := fun same => ne (Option.some.inj (runner.symm.trans same))
    have cancelled : target = .cancelled := by
      rcases active with running | cancelled
      · cases target <;> first
          | rfl
          | exact absurd (lawful.2 handled running (.inl rfl)) other
          | exact absurd (lawful.2 handled running (.inr rfl)) other
          | (rw [running] at allowed; cases allowed)
      · rw [cancelled] at allowed
        cases target <;> cases allowed
    subst cancelled
    exact ⟨⟨runner, .inr (moved_status x _ _)⟩, rfl, rfl⟩
  · intro sink
    rw [TaskStatus.canTransitionTo_of_isSink sink] at allowed
    cases allowed

/-! ### The other operations that change something -/

/-- Storing a result keeps the invariant, as it leaves a debt. -/
theorem written_inv (inv : Inv t type p) (r : TaskResult) : Inv t type (p.written t i r) where
  type := by simpa [Noted.written] using inv.type
  settled owed := by cases owed
  kept := inv.kept
  fresh owed := by cases owed

omit x in
/-- Storing a result leaves the status. -/
@[simp] theorem written_status (r : TaskResult) : (p.written t i r).status t = p.status t := by
  simp [Noted.written, Noted.status, World.status]

/-- Storing a result is a move that the others expect. -/
theorem written_rely (ne : j ≠ i) (r : TaskResult) : Rely x t type j p (p.written t i r) where
  wrote := Function.update_of_ne ne _ _
  held held := ⟨held, rfl⟩
  owed owed := by
    injection owed with same
    exact absurd same.symm ne
  fresh owed := by cases owed
  running runner running := ⟨runner, by rwa [written_status] at running, rfl⟩
  active _ active := by
    refine ⟨⟨active.1, ?_⟩, rfl, rfl⟩
    rw [written_status]
    exact active.2
  sink _ := written_status r

omit x in
/-- A snapshot keeps the invariant: it has read what the task is now. -/
theorem snapped_inv (inv : Inv t type p) : Inv t type (p.snapped t i) where
  type := inv.type
  settled _ := rfl
  kept held := by cases held
  fresh owed := by cases owed

/-- A snapshot is a move that the others expect. -/
theorem snapped_rely (ne : j ≠ i) : Rely x t type j p (p.snapped t i) where
  wrote := Function.update_of_ne ne _ _
  held held := by
    injection held with same
    exact absurd same.symm ne
  owed owed := by cases owed
  fresh owed := by cases owed
  running runner running := ⟨runner, running, rfl⟩
  active _ active := ⟨active, rfl, rfl⟩
  sink _ := rfl

/-- A commit keeps the invariant where the snapshot it writes is still the newest. -/
theorem committed_inv (inv : Inv t type p) {snapshot : Task} (late : newest t snapshot p.1 = true)
    (own : p.1.holder = some i → p.2.latest = some snapshot) :
    Inv t type (act x i (.commit t snapshot) p).2 where
  type := inv.type
  settled := inv.settled
  kept free := by
    have stored : (act x i (.commit t snapshot) p).2.1.world.stored t = some snapshot := if_pos rfl
    rw [stored]
    change (if p.1.holder = some i then none else p.1.holder) = none at free
    split at free
    · rename_i held
      exact (own held).symm
    · simp only [newest, free, Option.isSome_none, Bool.false_or, beq_iff_eq] at late
      exact late ▸ inv.kept free
  fresh := inv.fresh

/-- What a commit does to any thread, the one that commits included. -/
theorem committed_rely (snapshot : Task) :
    Rely x t type j p (act x i (.commit t snapshot) p).2 where
  wrote := rfl
  held held := by
    change (if p.1.holder = some i then none else p.1.holder) = some j at held
    split at held
    · cases held
    · exact ⟨held, rfl⟩
  owed := .inl
  fresh := id
  running runner running := ⟨runner, running, rfl⟩
  active _ active := ⟨active, rfl, rfl⟩
  sink _ := rfl

/-- Calling the handler keeps the invariant. -/
theorem called_inv (inv : Inv t type p) (upstream : List TaskId) :
    Inv t type (act x i (.task (.call t upstream)) p).2 where
  type := inv.type
  settled := inv.settled
  kept := inv.kept
  fresh := inv.fresh

/-- Calling the handler is a move that the others expect. -/
theorem called_rely {upstream : List TaskId}
    (lawful : Lawful x t type i (.task (.call t upstream)) p) (ne : j ≠ i) :
    Rely x t type j p (act x i (.task (.call t upstream)) p).2 where
  wrote := rfl
  held held := ⟨held, rfl⟩
  owed := .inl
  fresh := id
  running runner running := ⟨runner, running, rfl⟩
  active handled active :=
    absurd (Option.some.inj (active.1.symm.trans (lawful.2 handled))) ne
  sink _ := rfl

/-! ### Every operation -/

/-- Each operation keeps the invariant, where it is timely and used as the methods use it. -/
theorem act_inv {o : Op} (inv : Inv t type p) (timely : Timely i o p.1)
    (lawful : Lawful x t type i o p) : Inv t type (act x i o p).2 := by
  cases o with
  | snapshot u =>
    cases lawful
    exact snapped_inv inv
  | commit u snapshot =>
    obtain ⟨rfl, own⟩ := lawful
    exact committed_inv x inv timely own
  | task o =>
    cases o with
    | transition u target error =>
      obtain ⟨rfl, -⟩ := lawful
      cases allowed : (p.status u).canTransitionTo target with
      | true =>
        rw [act_moved x allowed]
        exact moved_inv x inv target error
      | false =>
        obtain ⟨m, same⟩ := act_refused x allowed i error
        rw [same]
        exact inv
    | setResult u r =>
      cases lawful
      exact written_inv inv r
    | call u upstream =>
      obtain ⟨rfl, -⟩ := lawful
      exact called_inv x inv upstream
    | save _ => exact lawful.elim
    | setBlockedBy _ _ => exact lawful.elim
    | _ => exact (act_looks x rfl i p).inv inv

/-- Each operation is a move that the others expect, where it is timely and used as the methods use
it. -/
theorem act_rely {o : Op} (timely : Timely i o p.1) (lawful : Lawful x t type i o p)
    (ne : j ≠ i) :
    Rely x t type j p (act x i o p).2 ∧ (act x i o p).2.1.reads j = p.1.reads j := by
  cases o with
  | snapshot u =>
    cases lawful
    exact ⟨snapped_rely x ne, rfl⟩
  | commit u snapshot =>
    cases lawful.1
    exact ⟨committed_rely x snapshot, rfl⟩
  | task o =>
    cases o with
    | transition u target error =>
      obtain ⟨rfl, runs⟩ := lawful
      have left := (Bool.and_eq_true_iff.mp timely).2
      cases allowed : (p.status u).canTransitionTo target with
      | true =>
        rw [act_moved x allowed]
        exact ⟨moved_rely x allowed left ⟨rfl, runs⟩ ne error, rfl⟩
      | false =>
        obtain ⟨m, same⟩ := act_refused x allowed i error
        rw [same]
        exact ⟨.refl p, rfl⟩
    | setResult u r =>
      cases lawful
      exact ⟨written_rely x ne r, rfl⟩
    | call u upstream =>
      cases lawful.1
      exact ⟨called_rely x lawful ne, rfl⟩
    | save _ => exact lawful.elim
    | setBlockedBy _ _ => exact lawful.elim
    | _ => exact ⟨(act_looks x rfl i p).rely, act_looks_reads x rfl ne p⟩

/-- The contracts of the threads fit together. -/
theorem contracts_compatible {post : ι → Except Exc Unit → Noted ι → Prop}
    (stable : ∀ i r {p q}, Rely x t type i p q → post i r p → post i r q) :
    Threads.Compatible (act x) (contract x t type) (Inv t type) post where
  refl _ p inv := ⟨inv, .refl p, rfl⟩
  trans _ _ _ _ h h' := ⟨h'.1, h.2.1.trans h'.2.1, h'.2.2.trans h.2.2⟩
  inv _ _ _ inv guar := act_inv x inv guar.1 guar.2
  rely _ _ ne _ _ inv guar :=
    ⟨act_inv x inv guar.1 guar.2, act_rely x guar.1 guar.2 ne⟩
  post i r _ _ rely := stable i r rely.2.1

end Steps

end Autosave

end Sqlite

end TTasks
