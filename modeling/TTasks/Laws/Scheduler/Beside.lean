import TTasks.Laws.Executor.Replay
import TTasks.Laws.Scheduler.Progress

/-!
# A second look at the threads of a run

The contracts in `Contract` say nothing of what the tasks' records and the log hold beside statuses.
Here a second family of contracts stands on top of the first: a thread may take for granted that the
invariant holds before each of its operations and that the operation moves the state as the first
contract says (`Beside.contract`), and has only the rest to show. For the scheduler's own code that
comes down to its single operations and to `mark_blocked` (`Code.schedule`).
-/

namespace TTasks.Scheduler

open Interleave
open Prog (Contract Keeps OpKeeps)

/-- What is to be shown beside the first contracts. -/
structure Beside where
  inv : Shared → Prop := fun _ => True
  rely : Who → Shared → Shared → Prop := fun _ _ _ => True
  guar : Who → SchedOp → Shared → Prop := fun _ _ _ => True
  /-- Where a thread is when it is about to perform an operation. -/
  ready : Who → SchedOp → Shared → Prop := fun _ _ _ => True

section Beside

variable {r : Run} {M : Mode r} {B : Beside}

/-- The second contract of a thread. -/
def Beside.contract (B : Beside) (M : Mode r) (who : Who) : Contract SchedOp Shared where
  rely a b := Env M who a b ∧ B.rely who a b
  ready := B.ready who
  allow o s := (o.enabled r s = true ∧ M.allow who o s) ∧ Inv M s ∧
    Moved M who s (SchedOp.perform r who o s).2
  guar o s := Moved M who s (SchedOp.perform r who o s).2 ∧ B.guar who o s

/-- The second contracts fit together, and each thread keeps its own. -/
structure Beside.Fits (B : Beside) (M : Mode r) : Prop where
  start : B.inv (start r).shared
  refl : ∀ who s, B.rely who s s
  trans : ∀ who a b c, Env M who a b → B.rely who a b → B.rely who b c → B.rely who a c
  inv : ∀ who o s, Inv M s → B.inv s → Moved M who s (SchedOp.perform r who o s).2 →
    B.guar who o s → B.inv (SchedOp.perform r who o s).2
  rely : ∀ i j, i ≠ j → ∀ o s, Inv M s → Moved M j s (SchedOp.perform r j o s).2 →
    B.guar j o s → B.rely i s (SchedOp.perform r j o s).2
  each : ∀ who, ((Scheduler.start r).rest who).wp (SchedOp.perform r who) (B.contract M who)
    (fun _ _ => True) (Scheduler.start r).shared

/-- The contracts fit together with what stands beside them. -/
theorem Beside.Fits.compatible (fits : B.Fits M) :
    Threads.Compatible (SchedOp.perform r) (B.contract M) (fun s => Inv M s ∧ B.inv s)
      (fun _ (_ : Except Exc Unit) _ => True) where
  refl who s inv := ⟨.refl inv.1, fits.refl who s⟩
  trans who a b c h h' := ⟨h.1.trans h'.1, fits.trans who a b c h.1 h.2 h'.2⟩
  inv who o s inv guar := ⟨guar.1.inv, fits.inv who o s inv.1 inv.2 guar.1 guar.2⟩
  rely i j other o s inv guar :=
    ⟨guar.1.env inv.1 other, fits.rely i j other o s inv.1 guar.1 guar.2⟩
  post _ _ _ _ _ _ := trivial

/-- In every state that a run reaches, each thread can go on by its second contract. -/
theorem Beside.Fits.sound (fits : B.Fits M) {s : State} (run : Reachable r M.allow s) :
    Threads.Sound (SchedOp.perform r) (B.contract M) (fun s => Inv M s ∧ B.inv s)
      (fun _ (_ : Except Exc Unit) _ => True) s := by
  have first : Threads.Sound (SchedOp.perform r) (B.contract M) (fun s => Inv M s ∧ B.inv s)
      (fun _ _ _ => True) (Scheduler.start r) := ⟨⟨inv_start M, fits.start⟩, fits.each⟩
  have known := (sound_start M).strengthen (Scheduler.compatible M) run
  exact first.reaches fits.compatible (known.mono fun _ _ h o k next => h o k next)

/-- The invariant of the second contracts holds in every state that a run reaches. -/
theorem Beside.Fits.reachable (fits : B.Fits M) {s : State} (run : Reachable r M.allow s) :
    B.inv s.shared := (fits.sound run).inv.2

/-- What a thread knows before an operation, by its second contract. -/
theorem Beside.Fits.ready (fits : B.Fits M) {s : State} (run : Reachable r M.allow s) {who : Who}
    {o : SchedOp} {k : o.Ans → Sched Unit} (next : s.rest who = .act o k) :
    B.ready who o s.shared := (fits.sound run).ready fits.compatible next

end Beside

/-! ## The scheduler's own code -/

section Code

variable {r : Run} {who : Who} {C : Contract SchedOp Shared} {H : Shared → Prop}
  {K : TaskId → TaskId → Shared → Prop}

/-- The operations of the scheduler's own code. -/
def Internal : SchedOp → Prop
  | .task (.status _) => True
  | .task _ | .start _ | .finish _ _ => False
  | _ => True

/-- Of these, the ones that neither take the lock nor give it back, nor end the run. -/
def Inner : SchedOp → Prop
  | .acquire | .release | .setDone => False
  | o => Internal o

/-- What the scheduler's own code keeps while it holds the lock, if its single operations do, and if
`mark_blocked` does for a parent of which the choice of it tells `K`. -/
structure Code (r : Run) (who : Who) (C : Contract SchedOp Shared) (H : Shared → Prop)
    (K : TaskId → TaskId → Shared → Prop) : Prop where
  outer : ∀ o, Internal o → o ≠ .setDone → OpKeeps (SchedOp.perform r who) C (fun _ => True) o
  inner : ∀ o, Inner o → OpKeeps (SchedOp.perform r who) C H o
  acquired : ∀ s s', C.rely s s' → C.allow .acquire s' → H (SchedOp.perform r who .acquire s').2
  decide : ∀ t s, H s → (Scheduler.decide r t).wp (SchedOp.perform r who) C
    (fun res s' => H s' ∧ ∀ d, res = .ok d → ∀ bad, d = .block bad → K t bad s') s
  mark : ∀ t bad s, H s → K t bad s →
    (liftTask (markBlocked r.executor t (some bad))).wp (SchedOp.perform r who) C
      (fun _ s' => H s') s
  close : Keeps (SchedOp.perform r who) C H (Scheduler.close r)

/-- What the predicates and the actions perform is internal to the scheduler. -/
theorem internal_of_inner {o : SchedOp} (inner : Inner o) : Internal o := by
  cases o with
  | task o => cases o <;> exact inner
  | _ => first | exact trivial | exact inner

/-- The operations that only look are the scheduler's own. -/
theorem inner_of_reads {o : SchedOp} (reads : Reads o) : Inner o := by
  cases o with
  | task o => cases o <;> exact reads
  | _ => first | exact trivial | exact reads

/-- A predicate keeps what each of the internal operations keeps. -/
theorem keeps_only {α : Type} {p : Sched α} {P : SchedOp → Prop}
    (keeps : ∀ o, Inner o → OpKeeps (SchedOp.perform r who) C H o) (only : p.Only P)
    (inner : ∀ o, P o → Inner o) : Keeps (SchedOp.perform r who) C H p :=
  .of_uses (fun o ho => keeps o (inner o ho)) (.of_only only)

/-- The end of `schedule`, where `done` may be set at any time. -/
theorem keeps_close (inner : ∀ o, Inner o → OpKeeps (SchedOp.perform r who) C H o)
    (sets : OpKeeps (SchedOp.perform r who) C H .setDone) :
    Keeps (SchedOp.perform r who) C H (close r) := by
  have finished : ∀ t, Keeps (SchedOp.perform r who) C H (finished t) := fun t =>
    keeps_only inner (only_finished (P := Reads) trivial trivial trivial) fun _ => inner_of_reads
  refine (Keeps.all finished _).bind fun all => ?_
  split
  · exact .op sets
  · refine (Keeps.op (inner .futures trivial)).bind fun futures => ?_
    refine (Keeps.any (fun t => .op (inner (.live t) trivial)) _).bind fun live => ?_
    split
    · exact .ret ()
    · refine (keeps_only inner (only_stuck _) fun _ => inner_of_reads).bind fun titles => ?_
      exact (Keeps.op (inner (.appendError _) trivial)).bind fun _ => .op sets

namespace Code

variable (code : Code r who C H K)

include code

/-- An operation that is taken anywhere in the code. -/
theorem op (o : SchedOp) (inner : Inner o) : Keeps (SchedOp.perform r who) C H (once o) :=
  .op (code.inner o inner)

/-- An operation of the scheduler that is not the closing one. -/
theorem out (o : SchedOp) (internal : Internal o) (other : o ≠ .setDone := by simp) :
    Keeps (SchedOp.perform r who) C (fun _ => True) (once o) :=
  .op (code.outer o internal other)

/-- The callback of a future, which calls `schedule`. -/
theorem onFinish {schedule : Sched Unit} (h : Keeps (SchedOp.perform r who) C H schedule)
    (t : TaskId) : Keeps (SchedOp.perform r who) C H (onFinish schedule t) :=
  (code.op (.recordException t) trivial).bind fun _ => h

/-- Submitting a task, whose callback is run at once where its future is done already. -/
theorem submit {schedule : Sched Unit} (h : Keeps (SchedOp.perform r who) C H schedule)
    (t : TaskId) : Keeps (SchedOp.perform r who) C H (submit r schedule t) := by
  refine (code.op (.poolSubmit t (r.graph.deps t)) trivial).bind fun answer => ?_
  cases answer with
  | error e => exact .fail e
  | ok _ =>
    refine (code.op (.addDoneCallback t) trivial).bind fun done => ?_
    split
    · exact (code.onFinish h t).swallow
    · exact .ret ()

/-- One pass over the tasks, action by action. -/
theorem pass {schedule : Sched Unit} (h : Keeps (SchedOp.perform r who) C H schedule) :
    ∀ (ts : List TaskId) (changed : Bool),
      Keeps (SchedOp.perform r who) C H (pass r schedule changed ts)
  | [], changed => .ret changed
  | t :: ts, changed => by
    refine .bind_known (K := fun d s => ∀ bad, d = .block bad → K t bad s) ?_ ?_
    · intro s hs
      exact Prog.wp_mono (code.decide t s hs) fun res s' ends =>
        ⟨ends.1, fun d is => ends.2 d is⟩
    · intro decision s hs known
      have rest : ∀ acted, Keeps (SchedOp.perform r who) C H
          (Scheduler.pass r schedule (changed || acted) ts) := fun acted => pass h ts _
      rw [Prog.bind_eq, Prog.wp_bind]
      have acts : (act r schedule t decision).wp (SchedOp.perform r who) C (fun _ s' => H s') s := by
        cases decision with
        | skip => exact hs
        | block bad =>
          rw [act, Prog.bind_eq, Prog.wp_bind]
          refine Prog.wp_mono (code.mark t bad s hs (known bad rfl)) ?_
          rintro (e | _) s' kept <;> exact kept
        | submit => exact ((code.submit h t).bind fun _ => .ret true) s hs
      refine Prog.wp_mono acts ?_
      rintro (e | acted) s' kept
      · exact kept
      · exact rest acted s' kept

/-- A call of `schedule` counted in and out. -/
theorem inSchedule {body : Sched Unit} (h : Keeps (SchedOp.perform r who) C H body) :
    Keeps (SchedOp.perform r who) C H (inSchedule body) :=
  (code.op .beginSchedule trivial).bind fun _ => h.finallyDo (code.op .endSchedule trivial)

/-- The loop of `schedule`, round by round. -/
theorem scheduleLoop : ∀ n, Keeps (SchedOp.perform r who) C H (scheduleLoop r n)
  | 0 => code.op .outOfFuel trivial
  | n + 1 => by
    refine (code.pass (code.inSchedule (scheduleLoop n)) _ _).bind fun changed => ?_
    split
    · exact scheduleLoop n
    · exact code.close

/-- `schedule`. -/
theorem schedule : Keeps (SchedOp.perform r who) C H (schedule r) :=
  code.inSchedule (code.scheduleLoop _)

/-- `with lock:`. -/
theorem withLock {body : Sched Unit} (h : Keeps (SchedOp.perform r who) C H body) :
    Keeps (SchedOp.perform r who) C (fun _ => True) (withLock body) := by
  intro s _
  rw [Scheduler.withLock, Prog.bind_eq, Prog.wp_bind]
  intro s' rely
  obtain ⟨ready, step⟩ := code.outer .acquire trivial (by simp) s s' trivial rely
  refine ⟨ready, fun allowed => ⟨(step allowed).1, ?_⟩⟩
  apply Prog.wp_finallyDo
  apply Prog.wp_mono (h _ (code.acquired s s' rely allowed))
  intro res s'' _
  apply Prog.wp_mono (code.out .release trivial (by simp) s'' trivial)
  rintro (e | _) _ _
  · trivial
  · cases res <;> trivial

/-- A worker's callbacks, which take the lock for themselves. -/
theorem callbacks (t : TaskId) (registered : Bool) :
    Keeps (SchedOp.perform r who) C (fun _ => True) (callbacks r t registered) := by
  unfold Scheduler.callbacks
  split
  · exact (code.withLock (code.onFinish code.schedule t)).swallow
  · exact .ret ()

/-- The main thread, which takes the lock for its calls of `schedule`. -/
theorem main : Keeps (SchedOp.perform r who) C (fun _ => True) (main r) := by
  unfold Scheduler.main
  split
  · exact .ret ()
  · refine Keeps.bind (Keeps.finallyDo ?_ ?_) fun _ => ?_
    · exact (code.withLock code.schedule).bind fun _ => code.out .waitDone trivial
    · exact (code.out .shutdown trivial).bind fun _ => code.out .join trivial
    · refine (code.out .schedulerErrors trivial).bind fun errors => ?_
      cases errors with
      | nil => exact .ret ()
      | cons e _ => exact .fail e

end Code

end Code

/-! ## Under the lock -/

section Locked

variable {r : Run} {M : Mode r} {who : Who}

/-- The thread holds the lock. -/
def Locked (M : Mode r) (who : Who) (s : Shared) : Prop := Inv M s ∧ s.lock = some who

/-- The holder keeps the lock through the moves of the others. -/
theorem Locked.env {a b : Shared} (h : Locked M who a) (env : Env M who a b) : Locked M who b :=
  ⟨env.inv, env.lock.mpr h.2⟩

/-- An internal operation passes no lock on. -/
theorem lock_of_inner {o : SchedOp} (inner : Inner o) (s : Shared) :
    (SchedOp.perform r who o s).2.lock = s.lock := by
  cases o with
  | poolSubmit u upstream =>
    simp only [SchedOp.perform]
    split <;> rfl
  | addDoneCallback u =>
    simp only [SchedOp.perform]
    split <;> rfl
  | recordException u =>
    simp only [SchedOp.perform]
    split <;> rfl
  | acquire => exact inner.elim
  | release => exact inner.elim
  | _ => rfl

end Locked

/-! ## `mark_blocked` in its parts -/

section Mark

variable {r : Run} {who : Who} {C : Contract SchedOp Shared} {H H' : Shared → Prop} {t : TaskId}
  {parent : Option TaskId}

/-- The events of a marking. -/
def Marking (type : TaskEventType) : Prop := type = .blocked ∨ type = .persistenceFailed

/-- What `mark_blocked` does after its transition. -/
def Marks (t : TaskId) (parent : Option TaskId) : TaskOp → Prop
  | .setBlockedBy u p => u = t ∧ p = parent
  | .status u | .save u | .recordSaveError u _ => u = t
  | .deliver u e => u = t ∧ e.taskId = t ∧ Marking e.type
  | _ => False

/-- The operations of a marking are about its task. -/
theorem Marks.isOf {o : TaskOp} (h : Marks t parent o) : o.IsOf t := by
  cases o with
  | setBlockedBy u p => exact .plain h.1 (by simp)
  | status u => exact .plain h (by simp)
  | save u => exact .plain h (by simp)
  | recordSaveError u e => exact .plain h (by simp)
  | deliver u e =>
    obtain ⟨rfl, own, -⟩ := h
    exact .deliver own
  | _ => exact h.elim

/-- What follows the transition in `mark_blocked` are operations of a marking. -/
theorem uses_marked (x : Executor) (t : TaskId) (parent : Option TaskId)
    (previous : Option TaskStatus) :
    Prog.Uses (Marks t parent) (do
      setBlockedBy t parent
      emit x t .blocked previous) := by
  have persists : (persist x t).Uses (Marks t parent) := by
    unfold persist
    split
    · refine .tryCatch (.bind (.op rfl) fun answer => ?_) fun e => ?_
      · cases answer <;> trivial
      · exact .bind (.op rfl) fun _ => .bind (.op rfl) fun _ => .op ⟨rfl, rfl, .inr rfl⟩
    · trivial
  refine .bind (.op ⟨rfl, rfl⟩) fun _ => ?_
  exact .bind persists fun _ => .bind (.op rfl) fun _ => .op ⟨rfl, rfl, .inl rfl⟩

/-- `mark_blocked`, called by the scheduler: it changes the predicate once, if the transition is
carried out. -/
theorem wp_markBlocked_parts {s : Shared} (holds : H s)
    (read : OpKeeps (SchedOp.perform r who) C H (.task (.status t)))
    (block : ∀ a b, H a → C.rely a b → let o := SchedOp.task (.transition t .blocked none)
      C.ready o b ∧ (C.allow o b → C.guar o b ∧ H (SchedOp.perform r who o b).2 ∧
        ((SchedOp.perform r who o b).1 = .ok () → H' (SchedOp.perform r who o b).2)))
    (rest : ∀ o, Marks t parent o → OpKeeps (SchedOp.perform r who) C H' (.task o))
    (imp : ∀ s, H' s → H s) :
    (liftTask (markBlocked r.executor t parent)).wp (SchedOp.perform r who) C (fun _ s' => H s') s := by
  intro a rely
  obtain ⟨ready, step⟩ := read s a holds rely
  refine ⟨ready, fun allowed => ?_⟩
  obtain ⟨guar, kept⟩ := step allowed
  refine ⟨guar, ?_⟩
  intro b rely
  obtain ⟨ready, step⟩ := block _ b kept rely
  refine ⟨ready, fun allowed => ?_⟩
  obtain ⟨guar, kept, marked⟩ := step allowed
  refine ⟨guar, ?_⟩
  have keeps : Keeps (SchedOp.perform r who) C H' (liftTask (do
      setBlockedBy t parent
      emit r.executor t .blocked (some (a.status t)))) := by
    apply Keeps.of_uses (P := fun o => ∃ o', o = .task o' ∧ Marks t parent o')
    · rintro o ⟨o', rfl, marks⟩
      exact rest o' marks
    · exact (uses_marked r.executor t parent _).lift fun o marks => ⟨o, rfl, marks⟩
  revert marked
  cases (SchedOp.perform r who (.task (.transition t .blocked none)) b).1 with
  | error e => exact fun _ => kept
  | ok _ => exact fun marked => Prog.wp_mono (keeps _ (marked rfl)) fun _ s' h => imp s' h

/-- A transition to BLOCKED that is carried out is that of a PENDING task which is not submitted. -/
theorem marked_of_ok {M : Mode r} {s : Shared} (calm : r.cancels = []) (inv : Inv M s)
    {message : Option String}
    (moved : Moved M who s (SchedOp.perform r who (.task (.transition t .blocked message)) s).2)
    (ok : (SchedOp.perform r who (.task (.transition t .blocked message)) s).1 = .ok ()) :
    let s' := (SchedOp.perform r who (.task (.transition t .blocked message)) s).2
    s'.stage t = .absent ∧ s'.status t = .blocked ∧ entered r t = .pending := by
  intro s'
  have allowed : (s.status t).canTransitionTo .blocked = true := by
    cases allowed : (s.status t).canTransitionTo .blocked with
    | true => rfl
    | false =>
      obtain ⟨m, refused⟩ := TaskOp.perform_refused r.executor (w := s.world) allowed message
      change ((TaskOp.transition t .blocked message).perform r.executor s.world).1 = .ok () at ok
      rw [refused] at ok
      cases ok
  have pending : s.status t = .pending := by
    revert allowed
    cases s.status t <;> decide
  have blocked : s'.status t = .blocked := by
    show ((TaskOp.transition t .blocked message).perform r.executor s.world).2.status t = .blocked
    rw [TaskOp.perform_moved r.executor allowed message]
    exact (moved_status message t).trans (if_pos rfl)
  have core := inv.core calm
  have core' := moved.inv.core calm
  have unending : ending r t ≠ .pending ∧ ending r t ≠ .blocked := by
    rcases r.executor.ending_cases r.world t with h | h | h | h <;>
      exact ⟨by rw [ending, h]; simp, by rw [ending, h]; simp⟩
  have stage : s'.stage t = s.stage t := rfl
  -- a submitted task is PENDING only until its execution has entered RUNNING, and no execution
  -- enters BLOCKED
  cases here : s.stage t with
  | absent =>
    refine ⟨here, blocked, ?_⟩
    rcases core.absent t here with same | marked
    · exact same.symm.trans pending
    · rw [marked.blocked] at pending
      cases pending
  | queued =>
    have before := core.queued t here
    have after := core'.queued t (stage.trans here)
    rw [blocked, ← before, pending] at after
    cases after
  | running =>
    have entered : entered r t = .pending := by
      rcases core.running t here with same | same | same
      · exact same.symm.trans pending
      · rw [pending] at same; cases same
      · exact absurd (same.symm.trans pending) unending.1
    rcases core'.running t (stage.trans here) with same | same | same
    · change s'.status t = Scheduler.entered r t at same
      rw [blocked, entered] at same
      cases same
    · rw [blocked] at same; cases same
    · exact absurd (same.symm.trans blocked) unending.2
  | done e =>
    exact absurd ((core.done t e here).1.symm.trans pending) unending.1

end Mark

end TTasks.Scheduler
