import TTasks.Sqlite.Clients
import TTasks.Laws.Sqlite.Tasks
import TTasks.Interleave.Keep

/-!
# A success in the store

A task that is live SUCCEEDED stays so, and everything that is stored or has been read SUCCEEDED is
live SUCCEEDED. So an auto-save never takes a success away, and neither does the write of a client
whose read has seen it. The write of a client that was overtaken does.
-/

namespace TTasks.Sqlite.Clients

open Interleave
open Prog (Contract)

variable {κ ι : Type}

/-! ## Success lasts -/

namespace Lasts

variable {a b c : Option Task}

/-- A success that nobody touches lasts. -/
theorem refl (a : Option Task) : Lasts a a := fun task mem done => ⟨task, mem, done, id⟩

/-- What lasts through one change and then another lasts. -/
theorem trans (h : Lasts a b) (h' : Lasts b c) : Lasts a c := by
  intro task mem done
  obtain ⟨task', mem', done', kept⟩ := h task mem done
  obtain ⟨task'', mem'', done'', kept'⟩ := h' task' mem' done'
  exact ⟨task'', mem'', done'', fun has => kept' (kept has)⟩

/-- A stored success is one without its raw result, too. -/
theorem map_dropRaw (a : Option Task) : Lasts (a.map Task.dropRaw) a := by
  intro task mem done
  obtain ⟨old, here, rfl⟩ := Option.mem_map.mp mem
  exact ⟨old, here, done, fun has => by rwa [Task.dropRaw_result_isSome] at has⟩

/-- `Task.cancel` leaves a success alone. -/
theorem cancel (task : Task) : Lasts (some task.cancel) (some task) := by
  intro task' mem done
  cases mem
  unfold Task.cancel at done ⊢
  split at done
  · rename_i sink
    rw [if_pos sink]
    exact ⟨task, rfl, done, id⟩
  · cases done

end Lasts

variable {x : Executor} {t : TaskId}

/-- No operation of an executor ends a live success. -/
theorem perform_lasts (o : TaskOp) (w : World) :
    Lasts (some (w.tasks t)) (some ((o.perform x w).2.tasks t)) := by
  have same : ∀ w' : World, w'.tasks t = w.tasks t → Lasts (some (w.tasks t)) (some (w'.tasks t)) :=
    fun w' h => h ▸ Lasts.refl _
  have written : ∀ (u : TaskId) (task : Task), (u = t → task.status = (w.tasks t).status ∧
      ((w.tasks t).result.isSome = true → task.result.isSome = true)) →
      Lasts (some (w.tasks t)) (some ((w.setTask u task).tasks t)) := by
    intro u task keeps old mem done
    cases mem
    rw [World.setTask_tasks]
    by_cases here : t = u
    · obtain ⟨status, result⟩ := keeps here.symm
      rw [if_pos here]
      exact ⟨task, rfl, status.trans done, result⟩
    · rw [if_neg here]
      exact ⟨w.tasks t, rfl, done, id⟩
  cases o with
  -- no transition leaves SUCCEEDED
  | transition u target message =>
    unfold TaskOp.perform
    dsimp only
    split
    · rename_i task moved
      obtain ⟨allowed, rfl⟩ := Task.transitionTo_ok moved
      intro old mem done
      cases mem
      rw [World.setTask_tasks]
      by_cases here : t = u
      · rw [← here, done] at allowed
        cases target <;> cases allowed
      · rw [if_neg here]
        exact ⟨w.tasks t, rfl, done, id⟩
    · exact Lasts.refl _
  -- a result is replaced by a result
  | setResult u result =>
    refine written u _ ?_
    rintro rfl
    exact ⟨rfl, fun _ => rfl⟩
  | setBlockedBy u parent =>
    refine written u _ ?_
    rintro rfl
    exact ⟨rfl, id⟩
  | save u =>
    unfold TaskOp.perform
    dsimp only
    split
    · exact same _ rfl
    · exact same _ rfl
  | status _ | error _ | type _ | recordSaveError _ _ | deliver _ _ | call _ _ | terminateProcess _
  | sleep _ => exact same _ rfl

/-- An operation of an executor leaves the stored task, or saves the live one. -/
theorem perform_stored (o : TaskOp) (w : World) :
    (o.perform x w).2.stored t = w.stored t ∨
      (o.perform x w).2.stored t = some ((o.perform x w).2.tasks t) := by
  cases o with
  | save u =>
    unfold TaskOp.perform
    dsimp only
    split
    · exact .inl rfl
    · change (if t = u then some (w.tasks u) else w.stored t) = _ ∨
        (if t = u then some (w.tasks u) else w.stored t) = some (w.tasks t)
      split
      · rename_i here
        exact .inr (here ▸ rfl)
      · exact .inl rfl
  | transition u target message =>
    unfold TaskOp.perform
    dsimp only
    split <;> exact .inl rfl
  | status _ | error _ | type _ | setResult _ _ | setBlockedBy _ _ | recordSaveError _ _
  | deliver _ _ | call _ _ | terminateProcess _ | sleep _ => exact .inl rfl

/-! ## The threads -/

/-- Every success that is stored or was read is live. -/
structure Live (t : TaskId) (s : Shared ι) : Prop where
  stored : Lasts (s.world.stored t) (some (s.world.tasks t))
  found : ∀ i, Lasts (s.found i) (some (s.world.tasks t))

/-- A client's write is that of `Task.cancel` on what it read, and not overtaken. -/
def contract (t : TaskId) : Who κ ι → Contract Op (Shared ι)
  | .executor _ => { rely := fun _ _ => True, guar := fun o _ => ∃ o', o = .task o' }
  | .client i =>
    { rely := fun a b => b.found i = a.found i
      allow := Current t (.client i : Who κ ι)
      guar := fun o a =>
        match o with
        | .task _ => False
        | .read u => u = t
        | .write u snapshot => u = t ∧ Current t (.client i : Who κ ι) o a ∧
          ∃ found, a.found i = some found ∧ snapshot = found.cancel }

variable [DecidableEq ι]

/-- What the threads guarantee keeps every success. -/
theorem sem_live (who : Who κ ι) (o : Op) (s : Shared ι) (live : Live t s)
    (guar : (contract t who).guar o s) :
    Live t (sem x who o s).2 ∧ Lasts (s.world.stored t) ((sem x who o s).2.world.stored t) := by
  cases who with
  -- the executor writes the live task, and saves that one or nothing
  | executor k =>
    obtain ⟨o', rfl⟩ := guar
    have goes := perform_lasts (x := x) (t := t) o' s.world
    change Live t { s with world := (o'.perform x s.world).2 } ∧
      Lasts (s.world.stored t) ((o'.perform x s.world).2.stored t)
    rcases perform_stored (x := x) (t := t) o' s.world with same | saved
    · rw [same]
      exact ⟨⟨same ▸ live.stored.trans goes, fun i => (live.found i).trans goes⟩, Lasts.refl _⟩
    · rw [saved]
      exact ⟨⟨saved ▸ Lasts.refl _, fun i => (live.found i).trans goes⟩, live.stored.trans goes⟩
  | client i =>
    cases o with
    | task o' => exact guar.elim
    -- a client reads what is stored, which is what it has found from now on
    | read u =>
      cases guar
      refine ⟨⟨live.stored, fun j => ?_⟩, Lasts.refl _⟩
      change Lasts (Function.update s.found i _ j) _
      by_cases here : j = i
      · subst here
        rw [Function.update_self]
        exact (Lasts.map_dropRaw _).trans live.stored
      · rw [Function.update_of_ne here]
        exact live.found j
    | write u snapshot =>
      obtain ⟨rfl, current, found, read, rfl⟩ := guar
      have seen : Lasts (some found) (some (s.world.tasks u)) := read ▸ live.found i
      have stored : (s.world.setStored u found.cancel).stored u = some found.cancel := if_pos rfl
      change Live u { s with world := s.world.setStored u found.cancel } ∧
        Lasts (s.world.stored u) ((s.world.setStored u found.cancel).stored u)
      rw [stored]
      refine ⟨⟨?_, live.found⟩, fun task mem done => ?_⟩
      · change Lasts ((s.world.setStored u found.cancel).stored u) _
        rw [stored]
        exact (Lasts.cancel found).trans seen
      · -- the write replaces a success: the client has seen it, and `Task.cancel` leaves it alone
        have fresh : overtaken task found = false := by
          change ((s.world.stored u).all fun stored =>
            (s.found i).all fun found => !overtaken stored found) = true at current
          rw [mem, read] at current
          simpa using current
        have both : found.status = .succeeded ∧
            (task.result.isSome = true → found.result.isSome = true) := by
          simpa [overtaken, done, Option.isSome_iff_ne_none] using fresh
        have untouched : found.cancel = found := if_pos (by rw [both.1]; rfl)
        exact ⟨found.cancel, rfl, by rw [untouched]; exact both.1, by rw [untouched]; exact both.2⟩

/-- The contracts of executors and clients fit together. -/
theorem contracts_compatible (κ ι : Type) [DecidableEq κ] [DecidableEq ι] (x : Executor)
    (t : TaskId) : Threads.Compatible (sem x) (contract t : Who κ ι → _) (Live t)
      (fun _ (_ : Except Exc Unit) _ => True) where
  refl
    | .executor _, _, _ => trivial
    | .client _, _, _ => rfl
  trans
    | .executor _, _, _, _, _, _ => trivial
    | .client _, _, _, _, h, h' => h'.trans h
  inv who o s live guar := (sem_live who o s live guar).1
  rely
    | .executor _, _, _, _, _, _, _ => trivial
    | .client i, .executor k, _, o, s, _, guar => by
      obtain ⟨o', rfl⟩ := guar
      rfl
    | .client i, .client j, other, o, s, _, guar => by
      cases o with
      | task o' => exact guar.elim
      | read u =>
        have ne : i ≠ j := by
          rintro rfl
          exact other rfl
        exact Function.update_of_ne ne _ _
      | write u snapshot => rfl
  post _ _ _ _ _ h := h

/-- A client's read and write meet its contract. -/
theorem wp_cancel (i : ι) (s : Shared ι) :
    (cancel t).wp (sem x (.client i : Who κ ι)) (contract t (.client i : Who κ ι)) (fun _ _ => True)
      s := by
  intro a _
  refine ⟨trivial, fun _ => ⟨rfl, ?_⟩⟩
  have noted : ((sem x (.client i : Who κ ι) (.read t) a).2).found i =
      (a.world.stored t).map Task.dropRaw := Function.update_self _ _ _
  have answer : (sem x (.client i : Who κ ι) (.read t) a).1 = (a.world.stored t).map Task.dropRaw :=
    rfl
  rw [answer]
  cases read : (a.world.stored t).map Task.dropRaw with
  | none => trivial
  | some found =>
    intro b rely
    rw [read] at noted
    exact ⟨trivial, fun current => ⟨⟨rfl, current, found, rely.trans noted, rfl⟩, trivial⟩⟩

/-- The executor's calls are programs of its own operations. -/
theorem wp_executor (k : κ) (p : Exec Unit) (s : Shared ι) :
    (p.lift Op.task fun _ => id : Prog Op.Ans Exc Unit).wp (sem x (.executor k : Who κ ι))
      (contract t (.executor k : Who κ ι)) (fun _ _ => True) s := by
  have own : p.Uses fun _ => True := by
    induction p with
    | ret a => trivial
    | fail e => trivial
    | act o k ih => exact ⟨trivial, ih⟩
  have uses : (p.lift Op.task fun _ => id : Prog Op.Ans Exc Unit).Uses fun o =>
      ∃ o', o = .task o' := own.lift fun o _ => ⟨o, rfl⟩
  refine Prog.Keeps.of_uses (H := fun _ => True) ?_ uses s trivial
  intro o of _ _ _ _
  exact ⟨trivial, fun _ => ⟨of, trivial⟩⟩

/-- As long as no client writes over a success that its read has not seen, a success in the store
lasts: its status stays, and so does a result. -/
theorem success_lasts [DecidableEq κ] (x : Executor) (t : TaskId) (calls : κ → Exec Unit) (w : World)
    (saved : Lasts (w.stored t) (some (w.tasks t))) {a b : State κ ι}
    (before : (Threads.machine (sem x)).Reaches (Threads.Allows (Current t)) (start calls t w) a)
    (after : (Threads.machine (sem x)).Reaches (Threads.Allows (Current t)) a b) :
    Lasts (a.shared.world.stored t) (b.shared.world.stored t) := by
  have fit := contracts_compatible κ ι x t
  have allowed : ∀ (s : State κ ι) who, s.Allows (Current t) who →
      s.Allows (fun who => (contract t who).allow) who := by
    intro s who h o k next
    cases who with
    | executor _ => trivial
    | client _ => exact h o k next
  have ready : Threads.Sound (sem x) (contract t) (Live t) (fun _ (_ : Except Exc Unit) _ => True)
      (start calls t w : State κ ι) := by
    refine ⟨⟨saved, fun _ _ mem => by cases mem⟩, ?_⟩
    rintro (k | i)
    · exact wp_executor k (calls k) _
    · exact wp_cancel i _
  have sound := ready.reaches fit (before.mono allowed)
  exact sound.along fit (R := fun a b => Lasts (a.world.stored t) (b.world.stored t))
    (fun _ => Lasts.refl _) Lasts.trans (fun who o s live guar => (sem_live who o s live guar).2)
    (after.mono allowed)

/-- With nothing between its two blocks, a client does to the stored task what the collection's
`cancel` does. -/
theorem cancel_alone {D : Type} {m : TaskId → Option (TaskObject D)} (i : ι) (s : Shared ι)
    (view : s.world.stored t = (m t).map TaskObject.toTask)
    (kept : ∀ snapshot ∈ m t, snapshot.dropRaw = snapshot) :
    (((cancel t).run (sem x (.client i : Who κ ι)) s).2).world.stored t =
      (((TaskCall.cancel t).meaning m).2 t).map TaskObject.toTask := by
  have reads : (sem x (.client i : Who κ ι) (.read t) s).1 = (s.world.stored t).map Task.dropRaw :=
    rfl
  unfold cancel TaskCall.meaning
  rw [Prog.run_act, reads, view]
  cases here : m t with
  | none =>
    dsimp only
    rw [here]
    exact view
  | some snapshot =>
    have same : snapshot.toTask.dropRaw = snapshot.toTask := by
      rw [← TaskObject.toTask_dropRaw, kept snapshot here]
    dsimp only [Option.map_some]
    rw [same, here]
    dsimp only
    rw [Function.update_self, Option.map_some, TaskObject.toTask_cancel]
    exact if_pos rfl

/-! ## Two runs -/

/-- A handler that returns, and a store. -/
def saving : Executor where
  handlers := fun _ => true
  behaviour := fun _ _ => { outcome := .returns none }
  store := true

/-- A stored task is about to be executed, and to be cancelled in the store. -/
def oneEach : State Unit Unit :=
  start (fun _ => (execute saving "a" []).bind fun _ => .ret ()) "a"
    { tasks := fun _ => {}, stored := fun _ => some {} }

/-- The client's read comes after the save of RUNNING; then the task succeeds and is saved. -/
def readEarly : List (Who Unit Unit) :=
  List.replicate 5 (.executor ()) ++ [.client ()] ++ List.replicate 10 (.executor ())

/-- The client's write puts a cancelled task over the success, and the result is gone. -/
theorem success_lost : ∃ a b : State Unit Unit,
    (Threads.machine (sem saving)).Reaches (fun _ _ => True) oneEach a ∧
      (Threads.machine (sem saving)).Reaches (fun _ _ => True) a b ∧
      (a.shared.world.stored "a").map Task.status = some .succeeded ∧
      (b.shared.world.stored "a").map Task.status = some .cancelled ∧
      (b.shared.world.stored "a").bind Task.result = none ∧
      ¬ Lasts (a.shared.world.stored "a") (b.shared.world.stored "a") := by
  have ran : ∃ a ∈ (Threads.machine (sem saving)).exec (fun _ _ => True) readEarly oneEach,
      ∃ b ∈ (Threads.machine (sem saving)).exec (fun _ _ => True) [.client ()] a,
        (a.shared.world.stored "a").map Task.status = some .succeeded ∧
        (b.shared.world.stored "a").map Task.status = some .cancelled ∧
        (b.shared.world.stored "a").bind Task.result = none := by decide +kernel
  obtain ⟨a, first, b, second, done, cancelled, gone⟩ := ran
  refine ⟨a, b, Machine.reaches_of_exec first, Machine.reaches_of_exec second, done, cancelled,
    gone, fun lasts => ?_⟩
  obtain ⟨task, mem, status⟩ := Option.map_eq_some_iff.mp done
  obtain ⟨task', mem', status', -⟩ := lasts task mem status
  rw [mem', Option.map_some, status'] at cancelled
  cases cancelled

/-- A client that reads and writes after the success leaves it alone. -/
theorem success_lasts_lateClient : ∃ a b : State Unit Unit,
    (Threads.machine (sem saving)).Reaches (Threads.Allows (Current "a")) oneEach a ∧
      (Threads.machine (sem saving)).Reaches (Threads.Allows (Current "a")) a b ∧
      (a.shared.world.stored "a").map Task.status = some .succeeded ∧
      Lasts (a.shared.world.stored "a") (b.shared.world.stored "a") := by
  have ran : ∃ a ∈ (Threads.machine (sem saving)).exec (Threads.Allows (Current "a"))
      (List.replicate 15 (.executor ())) oneEach,
      ∃ b ∈ (Threads.machine (sem saving)).exec (Threads.Allows (Current "a"))
        [.client (), .client ()] a,
        (a.shared.world.stored "a").map Task.status = some .succeeded := by decide +kernel
  obtain ⟨a, first, b, second, done⟩ := ran
  refine ⟨a, b, Machine.reaches_of_exec first, Machine.reaches_of_exec second, done, ?_⟩
  exact success_lasts saving "a" _ _ (Lasts.refl _) (Machine.reaches_of_exec first)
    (Machine.reaches_of_exec second)

end TTasks.Sqlite.Clients
