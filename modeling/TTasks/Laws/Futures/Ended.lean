import TTasks.Laws.Futures.Settled

/-!
# Nothing waits for ever

However the threads interleave, all calls come to an end: those of the callers, a `shutdown` that
waits among them, and the work on each submitted task.
-/

namespace TTasks.Futures

open Interleave
open Submission (Who)

variable {κ : Type} (x : Executor)

/-! ## What threads perform -/

/-- An operation of the `n`-th worker on the future that it has taken from the queue. -/
def Op.IsLate (n : Nat) : Op → Prop
  | .finish m _ => m = n
  | .cancelled _ | .task _ => True
  | _ => False

/-- The operation starts the `n`-th future or ends it. -/
def Op.Takes (n : Nat) : Op → Prop
  | .start m | .finish m _ => m = n
  | _ => False

/-- An operation of a caller. -/
def Op.IsOuter (o : Op) : Prop := ∀ n, ¬ o.Takes n

/-- The callback asks whether the future was cancelled, and works on the task. -/
theorem uses_callback {P : Op → Prop} (cancelled : ∀ n, P (.cancelled n)) (task : ∀ o, P (.task o))
    (n : Nat) (t : TaskId) : (callback x n t).Uses P := by
  refine .tryCatch (.bind (.op (cancelled n)) fun answer => ?_) fun e => ?_
  · split
    · exact .lift (fun o _ => task o) (.all (P := fun _ => True) (fun _ => trivial) _)
    · trivial
  · split <;> trivial

/-- Whatever it is answered, the program ends the `n`-th future. -/
def Finishes {α : Type} (n : Nat) : Fut α → Prop
  | .ret _ => False
  | .fail _ => False
  | .act o k => (∃ r, o = .finish n r) ∨ ∀ answer, Finishes n (k answer)

/-- A program that is to end a future has an operation in front. -/
theorem Finishes.acting {α : Type} {n : Nat} {p : Fut α} (finishes : Finishes n p) : p.Acting := by
  cases p with
  | ret a => exact finishes.elim
  | fail e => exact finishes.elim
  | act o k => trivial

/-- Taking the outcome as a value, and ending the future with it. -/
theorem finishes_bind_result {α β : Type} {n : Nat} (p : Fut α) {f : Except Exc α → Fut β}
    (finishes : ∀ r, Finishes n (f r)) : Finishes n (p.result.bind f) := by
  induction p with
  | ret a => exact finishes (.ok a)
  | fail e => exact finishes (.error e)
  | act o k ih => exact .inr ih

/-- A worker takes the future from the queue first, and ends it unless it is cancelled. -/
theorem work_eq (n : Nat) : ∃ k, work x n = .act (.start n) k ∧
    (∀ answer, (k answer).Uses (Op.IsLate n)) ∧ ∀ item, Finishes n (k (some item)) := by
  refine ⟨_, rfl, fun answer => ?_, fun item => ?_⟩
  · cases answer with
    | none => trivial
    | some item =>
      have executes : (liftTask (executeSubmitted x item)).Uses (Op.IsLate n) :=
        .lift (fun _ _ => trivial) (.all (P := fun _ => True) (fun _ => trivial) _)
      show ((liftTask (executeSubmitted x item)).result.bind _).Uses _
      refine .bind executes.result fun outcome => .bind (.op rfl) fun watching => ?_
      cases watching with
      | none => trivial
      | some t => exact uses_callback x (fun _ => trivial) (fun _ => trivial) n t
  · exact finishes_bind_result (liftTask (executeSubmitted x item)) fun r => .inl ⟨r, rfl⟩

/-- No caller takes a worker's part. -/
theorem outer_call (c : Call) : (c.code x).Uses Op.IsOuter := by
  have callback : ∀ n t, (callback x n t).Uses Op.IsOuter :=
    uses_callback x (fun _ _ => id) fun _ _ => id
  cases c with
  | submit item =>
    refine .bind (.op fun _ => id) fun future => ?_
    cases future with
    | none => trivial
    | some n =>
      refine .bind (.op fun _ => id) fun atOnce => ?_
      split
      · exact .bind (callback n item.task) fun _ => trivial
      · trivial
  | cancel n =>
    refine .bind (.op fun _ => id) fun cancelling => ?_
    split
    · trivial
    · trivial
    · trivial
    · exact .bind (callback n _) fun _ => trivial
  | shutdown =>
    refine .bind (.op fun _ => id) fun pool => ?_
    split
    · exact .op fun _ => id
    · trivial

/-! ## The queue -/

section Queue

variable {x} {s : Shared κ} {n : Nat} {who : Who κ} {o : Op}

/-- What an operation does to the stage of a future; `takes` tells whether it is its worker's. -/
def Stage.Moves (takes : Prop) (a b : Stage) : Prop :=
  b = a ∨ (a = .pending ∧ (b = .cancelled ∨ takes)) ∨ (takes ∧ b.isDone = true)

/-- Where a future comes from that is the `n`-th after the operation. -/
inductive Future.ComesFrom (f' : Future κ) (s : Shared κ) (n : Nat) (o : Op) : Prop
  | submitted (none : s.futures[n]? = none) (pending : f'.stage = .pending)
  | old (f : Future κ) (here : s.futures[n]? = some f)
      (moves : f.stage.Moves (o.Takes n) f'.stage)

/-- Each future was there before the operation, or it is the one just submitted. -/
theorem comesFrom_sem {f' : Future κ} (there : (sem x who o s).2.futures[n]? = some f') :
    f'.ComesFrom s n o := by
  have still : s.futures[n]? = some f' → f'.ComesFrom s n o := fun here => .old f' here (.inl rfl)
  have changed : ∀ {m f g}, s.futures[m]? = some f → (s.change m g).futures[n]? = some f' →
      (n = m → f.stage.Moves (o.Takes n) (g f).stage) → f'.ComesFrom s n o := by
    intro m f g here there moves
    rcases of_change here there with ⟨same, rfl⟩ | ⟨-, old⟩
    · exact .old f (same ▸ here) (moves same)
    · exact still old
  -- only these operations write a stage, and each of them at its own number
  cases o with
  | submit item =>
    simp only [sem] at there
    split at there
    · exact still there
    · rw [List.getElem?_append] at there
      split at there
      · exact still there
      · rename_i beyond
        refine .submitted (List.getElem?_eq_none (not_lt.mp beyond)) ?_
        rw [List.mem_singleton.mp (List.mem_of_getElem? there)]
  | addDoneCallback m =>
    cases here : s.futures[m]? with
    | none =>
      simp only [sem, addDoneCallback, here] at there
      exact still there
    | some f =>
      simp only [sem, addDoneCallback_here here] at there
      exact changed here there fun _ => .inl rfl
  | cancelFuture m =>
    cases here : s.futures[m]? with
    | none =>
      simp only [sem, cancelFuture, here] at there
      exact still there
    | some f =>
      by_cases pending : f.stage = .pending
      · simp only [sem, cancelFuture_pending here pending] at there
        exact changed here there fun _ => .inr (.inl ⟨pending, .inl rfl⟩)
      · obtain ⟨answer, -, late⟩ := cancelFuture_late who here pending
        simp only [sem, late] at there
        exact still there
  | start m =>
    cases here : s.futures[m]? with
    | none =>
      simp only [sem, startFuture, here] at there
      exact still there
    | some f =>
      by_cases pending : f.stage = .pending
      · simp only [sem, startFuture_pending here pending] at there
        exact changed here there fun same => .inr (.inl ⟨pending, .inr same.symm⟩)
      · simp only [sem, startFuture_late here pending] at there
        exact still there
  | finish m r =>
    obtain ⟨f, here, rfl⟩ := Option.map_eq_some_iff.mp ((change_get s m _ n).symm.trans there)
    by_cases same : m = n
    · rw [if_pos same]
      exact .old f here (.inr (.inr ⟨same, rfl⟩))
    · rw [if_neg same]
      exact .old f here (.inl rfl)
  | cancelled m => exact still there
  | close => exact still there
  | shutdownWait => exact still there
  | task o => exact still there

/-- A change of one future loses none. -/
theorem length_change (s : Shared κ) (n : Nat) (g : Future κ → Future κ) :
    (s.change n g).futures.length = s.futures.length := List.length_modify ..

/-- Only `submit` adds a future. -/
theorem length_sem (who : Who κ) (s : Shared κ) (adds : ∀ item, o ≠ .submit item) :
    (sem x who o s).2.futures.length = s.futures.length := by
  cases o with
  | submit item => exact absurd rfl (adds item)
  | addDoneCallback m =>
    simp only [Futures.sem, addDoneCallback]
    split
    · rfl
    · exact length_change ..
  | cancelFuture m =>
    simp only [Futures.sem, cancelFuture]
    split
    · rfl
    · split
      · rfl
      · rfl
      · rfl
      · exact length_change ..
  | start m =>
    simp only [Futures.sem, startFuture]
    split
    · rfl
    · split
      · exact length_change ..
      · rfl
  | finish m r => exact length_change ..
  | cancelled m => rfl
  | close => rfl
  | shutdownWait => rfl
  | task o => rfl

/-- No operation removes one. -/
theorem length_le_sem (who : Who κ) (o : Op) (s : Shared κ) :
    s.futures.length ≤ (sem x who o s).2.futures.length := by
  cases o with
  | submit item =>
    simp only [Futures.sem]
    split
    · exact le_rfl
    · simp
  | _ => exact (length_sem who s fun _ same => by cases same).ge

/-- No worker has taken the `n`-th future from the queue; it may not be there yet. -/
def Untaken (n : Nat) (s : Shared κ) : Prop := ∀ f, s.futures[n]? = some f → f.stage.isQueued = true

/-- Only its worker takes a future from the queue. -/
theorem Untaken.sem (untaken : Untaken n s) (who : Who κ) (apart : ¬ o.Takes n) :
    Untaken n (sem x who o s).2 := by
  intro f' there
  cases comesFrom_sem there with
  | submitted _ pending =>
    rw [pending]
    rfl
  | old f here moves =>
    rcases moves with same | ⟨-, cancelled | takes⟩ | ⟨takes, -⟩
    · rw [same]
      exact untaken f here
    · rw [cancelled]
      rfl
    · exact absurd takes apart
    · exact absurd takes apart

/-- What is done stays done. -/
theorem DoneWith.sem (done : DoneWith n s) (who : Who κ) (o : Op) : DoneWith n (sem x who o s).2 := by
  obtain ⟨f, here, isDone⟩ := done
  have below := (List.getElem?_eq_some_iff.mp here).1.trans_le (length_le_sem (x := x) who o s)
  refine ⟨_, List.getElem?_eq_getElem below, ?_⟩
  cases comesFrom_sem (List.getElem?_eq_getElem below) with
  | submitted none =>
    rw [here] at none
    cases none
  | old f' here' moves =>
    rw [here] at here'
    cases here'
    rcases moves with same | ⟨pending, -⟩ | ⟨-, ends⟩
    · rw [same]
      exact isDone
    · rw [pending] at isDone
      cases isDone
    · exact ends

end Queue

/-! ## Every run -/

variable {x} {w : World} {s : State κ} {n : Nat} {o : Op}

/-- Where the `n`-th worker is. -/
inductive Placed (x : Executor) (n : Nat) (s : State κ) : Prop
  | waiting (rest : s.rest (.work n) = work x n) (untaken : Untaken n s.shared)
  | running (below : n < s.shared.futures.length) (late : (s.rest (.work n)).Uses (Op.IsLate n))
      (finishes : Finishes n (s.rest (.work n)))
  | ended (done : DoneWith n s.shared) (late : (s.rest (.work n)).Uses (Op.IsLate n))

/-- Every worker is in its place, and no caller is in one of theirs. -/
structure Staffed (x : Executor) (s : State κ) : Prop where
  workers : ∀ n, Placed x n s
  callers : ∀ k, (s.rest (.outside k)).Uses Op.IsOuter

/-- At the start the workers wait for futures that are not there. -/
theorem staffed_start (callers : κ → Caller) (w : World) : Staffed x (start x callers w) where
  workers n := .waiting rfl fun f there => by cases there
  callers k :=
    .expand (fun c _ => outer_call x c) (.all (P := fun _ => True) (fun _ => trivial) (callers k))

/-- A worker moves only when its future is there, and submits nothing. -/
theorem Placed.performs {k : o.Ans → Fut Unit} (placed : Placed x n s)
    (next : s.rest (.work n) = .act o k) (enabled : Enabled o s.shared) :
    n < s.shared.futures.length ∧ (o = .start n ∨ o.IsLate n) := by
  cases placed with
  | waiting rest =>
    obtain ⟨k', eq, -⟩ := work_eq x n
    rw [rest, eq] at next
    cases next
    obtain ⟨f, here, -⟩ := enabled
    exact ⟨(List.getElem?_eq_some_iff.mp here).1, .inl rfl⟩
  | running below late =>
    rw [next] at late
    exact ⟨below, .inr late.1⟩
  | ended done late =>
    obtain ⟨f, here, -⟩ := done
    rw [next] at late
    exact ⟨(List.getElem?_eq_some_iff.mp here).1, .inr late.1⟩

variable [DecidableEq κ]

/-- A worker's own step keeps it in its place. -/
theorem Placed.step {k : o.Ans → Fut Unit} (placed : Placed x n s)
    (next : s.rest (.work n) = .act o k) (enabled : Enabled o s.shared) :
    Placed x n ⟨(sem x (.work n) o s.shared).2,
      Function.update s.rest (.work n) (k (sem x (.work n) o s.shared).1)⟩ := by
  have below := (placed.performs next enabled).1.trans_le (length_le_sem (x := x) (.work n) o s.shared)
  cases placed with
  | waiting rest =>
    obtain ⟨k', eq, late, finishes⟩ := work_eq x n
    rw [rest, eq] at next
    cases next
    obtain ⟨f, here, queued⟩ := enabled
    by_cases pending : f.stage = .pending
    · refine .running below ?_ ?_
      · simp only [Function.update_self]
        exact late _
      · simp only [Function.update_self, sem, startFuture_pending here pending]
        exact finishes f.item
    · refine .ended ?_ ?_
      · -- it was cancelled in the queue
        simp only [sem, startFuture_late here pending]
        refine ⟨f, here, ?_⟩
        cases stage : f.stage with
        | pending => exact absurd stage pending
        | cancelled => rfl
        | running | finished r =>
          rw [stage] at queued
          cases queued
      · simp only [Function.update_self]
        exact late _
  | running there late finishes =>
    rw [next] at late finishes
    rcases finishes with ⟨r, rfl⟩ | later
    · refine .ended ⟨_, change_here (List.getElem?_eq_getElem there), rfl⟩ ?_
      simp only [Function.update_self]
      exact late.2 _
    · refine .running below ?_ ?_
      · simp only [Function.update_self]
        exact late.2 _
      · simp only [Function.update_self]
        exact later _
  | ended done late =>
    rw [next] at late
    refine .ended (done.sem (.work n) o) ?_
    simp only [Function.update_self]
    exact late.2 _

/-- Another thread's operation leaves a worker where it is. -/
theorem Placed.beside (placed : Placed x n s) {who : Who κ} (other : who ≠ .work n)
    (apart : ¬ o.Takes n) (p : Fut Unit) :
    Placed x n ⟨(sem x who o s.shared).2, Function.update s.rest who p⟩ := by
  have same : Function.update s.rest who p (.work n) = s.rest (.work n) :=
    Function.update_of_ne other.symm ..
  cases placed with
  | waiting rest untaken => exact .waiting (same.trans rest) (untaken.sem who apart)
  | running below late finishes =>
    rw [← same] at late finishes
    exact .running (below.trans_le (length_le_sem who o s.shared)) late finishes
  | ended done late =>
    rw [← same] at late
    exact .ended (done.sem who o) late

/-- Each step keeps every thread in its place. -/
theorem Staffed.step {who : Who κ} {s' : State κ} (staffed : Staffed x s)
    (allowed : s.Allows (fun _ => Enabled) who) (moved : Threads.perform (sem x) who s = some s') :
    Staffed x s' := by
  obtain ⟨o, k, next, rfl⟩ := Threads.perform_eq_some moved
  cases who with
  | outside c =>
    have outer := staffed.callers c
    rw [next] at outer
    refine ⟨fun n => (staffed.workers n).beside (fun same => by cases same) (outer.1 n) _, fun c' => ?_⟩
    by_cases same : c' = c
    · subst same
      simp only [Function.update_self]
      exact outer.2 _
    · have other : Who.outside c' ≠ .outside c := fun back => same (Who.outside.inj back)
      simp only [Function.update_of_ne other]
      exact staffed.callers c'
  | work m =>
    have enabled := allowed o k next
    refine ⟨fun n => ?_, fun c => ?_⟩
    · by_cases same : m = n
      · subst same
        exact (staffed.workers m).step next enabled
      · refine (staffed.workers n).beside (fun back => same (Who.work.inj back)) (fun takes => ?_) _
        rcases ((staffed.workers m).performs next enabled).2 with rfl | kind
        · exact same takes
        · cases o with
          | finish l r => exact same (kind.symm.trans takes)
          | start l => exact kind
          | _ => exact takes
    · have other : Who.outside c ≠ .work m := fun same => by cases same
      simp only [Function.update_of_ne other]
      exact staffed.callers c

/-- All that has been submitted is done, and no thread is under way, unless it is going to cancel a
future that nobody has been given. -/
structure Ended (s : State κ) : Prop where
  done : ∀ f ∈ s.shared.futures, f.stage.isDone = true
  workers : ∀ n < s.shared.futures.length, ¬ (s.rest (.work n)).Acting
  callers : ∀ k, (s.rest (.outside k)).Acting → ∃ n c, s.rest (.outside k) = .act (.cancelFuture n) c ∧
    ∀ f, s.shared.futures[n]? = some f → f.added = false

omit [DecidableEq κ] in
/-- A worker that is over has ended its future. -/
theorem Staffed.done (staffed : Staffed x s) {f : Future κ} (here : s.shared.futures[n]? = some f)
    (halted : ¬ (s.rest (.work n)).Acting) : f.stage.isDone = true := by
  cases staffed.workers n with
  | waiting rest =>
    obtain ⟨k, eq, -⟩ := work_eq x n
    rw [rest, eq] at halted
    exact absurd trivial halted
  | running _ _ finishes => exact absurd finishes.acting halted
  | ended done =>
    obtain ⟨f', here', isDone⟩ := done
    rw [here] at here'
    cases here'
    exact isDone

/-- The worker has taken its future from the queue and is not over. -/
def Busy (n : Nat) (s : State κ) : Prop :=
  (s.rest (.work n)).Acting ∧ (s.rest (.work n)).Uses (Op.IsLate n)

omit [DecidableEq κ] in
/-- With no worker under way, no future is running. -/
theorem Staffed.not_running (staffed : Staffed x s) (idle : ∀ n, ¬ Busy n s) :
    ∀ f ∈ s.shared.futures, f.stage ≠ .running := by
  intro f mem stage
  obtain ⟨n, here⟩ := List.mem_iff_getElem?.mp mem
  cases staffed.workers n with
  | waiting _ untaken =>
    have queued := untaken f here
    rw [stage] at queued
    cases queued
  | running _ late finishes => exact idle n ⟨finishes.acting, late⟩
  | ended done =>
    obtain ⟨f', here', isDone⟩ := done
    rw [here] at here'
    cases here'
    rw [stage] at isDone
    cases isDone

/-- The future waits to be run. -/
def Pending (n : Nat) (s : Shared κ) : Prop := ∃ f ∈ s.futures[n]?, f.stage = .pending

/-- What is asked of the pool: it holds back nothing but futures, and those not all while it is
running none. In which order it takes them is left open. -/
structure Pool (allow : Who κ → Op → Shared κ → Prop) : Prop where
  within : ∀ who o s, allow who o s → Enabled o s
  free : ∀ who o s, Enabled o s → (∀ n, o ≠ .start n) → allow who o s
  next : ∀ s : Shared κ, (∀ f ∈ s.futures, f.stage ≠ .running) → ∀ n, Pending n s →
    ∃ m, Pending m s ∧ allow (.work m) (.start m) s
  /-- Cancelled futures are left. -/
  clears : ∀ s : Shared κ, (∀ f ∈ s.futures, f.stage ≠ .running) → (∀ n, ¬ Pending n s) →
    ∀ n, Enabled (.start n) s → allow (.work n) (.start n) s

omit [DecidableEq κ] in
/-- A worker whose future waits is waiting for it, if none is busy. -/
theorem Staffed.waiting (staffed : Staffed x s) (idle : ∀ n, ¬ Busy n s) (pending : Pending n s.shared) :
    s.rest (.work n) = work x n := by
  cases staffed.workers n with
  | waiting rest _ => exact rest
  | running _ late finishes => exact absurd ⟨finishes.acting, late⟩ (idle n)
  | ended done =>
    obtain ⟨f, here, stage⟩ := pending
    obtain ⟨f', here', isDone⟩ := done
    cases here.symm.trans here'
    rw [stage] at isDone
    cases isDone

omit [DecidableEq κ] in
/-- Some thread can move until all is over. -/
theorem Staffed.exists_able (staffed : Staffed x s) {allow : Who κ → Op → Shared κ → Prop}
    (pool : Pool allow) (going : ¬ Ended s) :
    ∃ who o k, s.rest who = .act o k ∧ allow who o s.shared := by
  by_cases halted : ∀ n < s.shared.futures.length, ¬ (s.rest (.work n)).Acting
  -- the workers are over and so all futures are done: a caller can go on, unless it is to cancel a
  -- future whose callback was never added
  · have done : ∀ f ∈ s.shared.futures, f.stage.isDone = true := by
      intro f mem
      obtain ⟨n, here⟩ := List.mem_iff_getElem?.mp mem
      exact staffed.done here (halted n (List.getElem?_eq_some_iff.mp here).1)
    by_contra none
    refine going ⟨done, halted, fun k acting => ?_⟩
    obtain ⟨o, c, next⟩ := acting.exists_act
    have outer := staffed.callers k
    rw [next] at outer
    have forbidden : ¬ Enabled o s.shared := by
      refine fun enabled => none ⟨_, o, c, next, pool.free _ _ _ enabled ?_⟩
      rintro n rfl
      exact absurd rfl (outer.1 n)
    cases o with
    | cancelFuture n =>
      refine ⟨n, c, next, fun f here => Bool.eq_false_iff.mpr fun added => ?_⟩
      exact forbidden ⟨f, here, added⟩
    | start n => exact absurd rfl (outer.1 n)
    | shutdownWait => exact absurd done forbidden
    | _ => exact absurd trivial forbidden
  · by_cases busy : ∃ n, Busy n s
    -- a worker that is under way is not held up by anything
    · obtain ⟨n, acting, late⟩ := busy
      obtain ⟨o, k, next⟩ := acting.exists_act
      rw [next] at late
      refine ⟨.work n, o, k, next, pool.free _ _ _ ?_ ?_⟩
      · cases o with
        | finish m r => trivial
        | cancelled m => trivial
        | task o => trivial
        | _ => exact late.1.elim
      · rintro m rfl
        exact late.1.elim
    · -- the workers that are not over all wait for their futures, and one may take its own
      have idle := not_exists.mp busy
      by_cases pending : ∃ n, Pending n s.shared
      · obtain ⟨n, pending⟩ := pending
        obtain ⟨m, pending, allowed⟩ := pool.next _ (staffed.not_running idle) n pending
        obtain ⟨k, eq, -⟩ := work_eq x m
        exact ⟨.work m, _, k, (staffed.waiting idle pending).trans eq, allowed⟩
      · obtain ⟨n, work⟩ := not_forall.mp halted
        obtain ⟨below, acting⟩ := Classical.not_imp.mp work
        cases staffed.workers n with
        | waiting rest untaken =>
          obtain ⟨k, eq, -⟩ := work_eq x n
          have here := List.getElem?_eq_getElem below
          exact ⟨.work n, _, k, rest.trans eq, pool.clears _ (staffed.not_running idle)
            (not_exists.mp pending) n ⟨_, here, untaken _ here⟩⟩
        | running _ late => exact absurd ⟨not_not.mp acting, late⟩ (idle n)
        | ended _ late => exact absurd ⟨not_not.mp acting, late⟩ (idle n)

/-- Whatever is called in whatever order, every submitted task is done in the end, and no call lasts
for ever, be it a `shutdown` that waits for the workers. The pool may have any number of workers, and
any order of its queue, if only it lets some waiting future start while it is running none; and every
handler call ends. -/
theorem submitted_end [Fintype κ] (x : Executor) (callers : κ → Caller) (w : World)
    (allow : Who κ → Op → Shared κ → Prop) (pool : Pool allow) :
    Inevitably ((Threads.machine (sem x)).Via (Threads.Allows allow)) Ended (start x callers w) := by
  have enabled : ∀ (s : State κ) who, s.Allows allow who → s.Allows (fun _ => Enabled) who :=
    fun s who allowed o k next => pool.within who o s.shared (allowed o k next)
  refine Threads.inevitably_of_brought (Finset.univ.image Who.outside)
    (fun s => (Finset.range s.shared.futures.length).image Who.work) (J := Staffed x)
    (fun a who _ staffed allowed moved => staffed.step (enabled a who allowed) moved) ?_
    (fun _ staffed going => staffed.exists_able pool going) (staffed_start callers w)
  intro a who b staffed allowed moved
  cases who with
  | outside k => exact .inl (Finset.mem_image_of_mem _ (Finset.mem_univ k))
  | work n =>
    obtain ⟨o, k, next, rfl⟩ := Threads.perform_eq_some moved
    obtain ⟨below, kind⟩ := (staffed.workers n).performs next (enabled a _ allowed o k next)
    have adds : ∀ item, o ≠ .submit item := by
      rintro item rfl
      rcases kind with start | late
      · cases start
      · exact late
    refine .inr ⟨by simp, Finset.mem_image_of_mem _ (Finset.mem_range.mpr below), ?_⟩
    show (Finset.range (sem x (.work n) o a.shared).2.futures.length).image Who.work = _
    rw [length_sem _ _ adds]

/-- A pool of one worker, which takes the futures in the order in which they were submitted. -/
def InTurn (_ : Who κ) (o : Op) (s : Shared κ) : Prop :=
  Enabled o s ∧ ∀ n, o = .start n → (∀ f ∈ s.futures, f.stage ≠ .running) ∧ ∀ m < n, ¬ Pending m s

omit [DecidableEq κ] in
/-- Taking waiting futures in turn is a way to run a pool. -/
theorem pool_inTurn : Pool (InTurn (κ := κ)) where
  within _ _ _ := And.left
  free _ _ _ enabled others := ⟨enabled, fun n start => absurd start (others n)⟩
  next s idle n pending := by
    classical
    have some : ∃ n, Pending n s := ⟨n, pending⟩
    obtain ⟨f, here, stage⟩ := Nat.find_spec some
    refine ⟨Nat.find some, ⟨f, here, stage⟩, ⟨f, here, by rw [stage]; rfl⟩, fun k start => ?_⟩
    cases start
    exact ⟨idle, fun m before => Nat.find_min some before⟩
  clears _ idle none _ enabled := ⟨enabled, fun _ _ => ⟨idle, fun m _ => none m⟩⟩

/-- Both tasks are done in the end. -/
theorem submitted_end_oneWorker :
    Inevitably ((Threads.machine (sem busy)).Via (Threads.Allows InTurn)) Ended twoSubmitted :=
  submitted_end busy _ _ InTurn pool_inTurn

end TTasks.Futures
