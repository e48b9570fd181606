import TTasks.Laws.Scheduler.Beside

/-!
# Calls that are waited for when `done` is set

`finished` takes a submitted task for finished by its status alone, and a retry that is still queued
has the status of its last run. Where the test for the end of the run never meets such a task while
another could still be submitted on account of it (`current`), `done` is set only when nobody waits
for a submitted call any more (`unpressed_of_current`).
-/

namespace TTasks.Scheduler

open Interleave
open Prog (Contract Keeps OpKeeps)

section Definitions

variable (r : Run)

/-- A submitted call that is not over, and on which a task depends that could still be submitted. -/
structure Pressing (s : Shared) (t : TaskId) : Prop where
  submitted : s.stage t ≠ .absent
  undone : (s.stage t).isDone = false
  awaited : ∃ u, t ∈ r.graph.deps u ∧ retryableAt r s u = true

/-- The test for the end of the run takes no task for finished by its status while its call is waited
for. -/
def current : Discipline := fun _ o s =>
  ∀ t, o = .terminal t → (s.status t).isTerminal = true → ¬ Pressing r s t

variable {r}

def Mode.current (calm : r.cancels = []) : Mode r where
  allow := Scheduler.current r
  restricted := false
  finish := nofun
  marks stirred := absurd calm stirred
  submits := False.elim
  live := False.elim
  unstuck := Mode.not_clean r false

variable (r)

/-- The thread is at `done.set()`. -/
def atSetDone : Sched Unit → Bool
  | .act .setDone _ => true
  | _ => false

/-- Nobody waits for a call where `done` is about to be set. -/
def unhurried : Beside where
  ready _ o s := o = .setDone → ∀ t, ¬ Pressing r s t

end Definitions

section Pressing

variable {r : Run} {a b s : Shared} {t : TaskId} {who : Who} {k : Nat} (calm : r.cancels = [])

/-- What waits at the end of a stretch under the lock has waited from its beginning. -/
theorem Pressing.back {M : Mode r} (holds : Holds M who k a) (env : Env M who a b)
    (calm : r.cancels = []) (pressing : Pressing r b t) : Pressing r a t := by
  have held := holds.held env
  obtain ⟨submitted, undone, u, dep, waits⟩ := pressing
  refine ⟨fun absent => submitted ((held.absent t).mpr absent), ?_, u, dep, ?_⟩
  · cases done : (a.stage t).isDone with
    | false => rfl
    | true => rw [env.forward.isDone done] at undone; cases undone
  · have absent : b.stage u = .absent := by
      unfold retryableAt at waits
      simp only [Bool.and_eq_true, beq_iff_eq] at waits
      exact waits.1
    have before := (held.absent u).mp absent
    have same := held.status calm u before
    rw [retryableAt, absent, same] at waits
    rw [retryableAt, before]
    exact waits

/-! ## The tests at the end of `schedule` -/

theorem wp_finished_current (holds : Holds (Mode.current calm) who k a) :
    (finished t).wp (SchedOp.perform r who) (contract (Mode.current calm) who)
      (Seen (Mode.current calm) who k a fun x b => x = true → ¬ Pressing r b t) a := by
  have terminal : (once (.terminal t)).wp (SchedOp.perform r who) (contract (Mode.current calm) who)
      (Seen (Mode.current calm) who k a fun x b => x = true → ¬ Pressing r b t) a := by
    refine (reading (Mode.current calm) who k).wp_act (o := .terminal t) trivial holds
      fun b hb env allowed => ?_
    exact ⟨hb, env, fun yes => allowed.2 t rfl yes⟩
  refine wp_seen_bind terminal fun x b hb _ quiet => ?_
  cases x with
  | true => exact wp_seen_ret hb fun _ => quiet rfl
  | false =>
    refine wp_seen_bind (wp_look (o := .inFutures t) trivial hb) fun known c hc _ _ => ?_
    cases known with
    | false => exact wp_seen_ret hc nofun
    | true =>
      refine Prog.wp_mono (wp_look (o := .futureDone t) trivial hc) fun res d seen =>
        seen.mono fun x _ _ same yes pressing => ?_
      have done : (d.stage t).isDone = true := same.symm.trans yes
      rw [pressing.undone] at done
      cases done

theorem wp_allFinished_current (holds : Holds (Mode.current calm) who k a) :
    (Prog.all finished r.graph.keys).wp (SchedOp.perform r who) (contract (Mode.current calm) who)
      (Seen (Mode.current calm) who k a fun x b => x = true → ∀ t ∈ r.graph.keys, ¬ Pressing r b t)
      a :=
  wp_seen_all (P := fun t s => ¬ Pressing r s t) (fun _ _ holds => wp_finished_current calm holds)
    (fun _ _ _ holds env quiet pressing => quiet (pressing.back holds env calm)) _ holds

/-- Where the test for live work finds none, every future is done. -/
theorem wp_live_done {M : Mode r} : ∀ (vs : List TaskId) {a : Shared}, Holds M who k a →
    (Prog.any (fun t => once (.live t)) vs).wp (SchedOp.perform r who) (contract M who)
      (Seen M who k a fun x b => x = false → ∀ v ∈ vs, (b.stage v).isDone = true) a
  | [], _, holds => wp_seen_ret holds fun _ => nofun
  | v :: vs, a, holds => by
    refine wp_seen_bind (wp_look (o := .live v) trivial holds) fun live b hb _ same => ?_
    cases live with
    | true => exact wp_seen_ret hb nofun
    | false =>
      have done : (b.stage v).isDone = true := by simpa [SchedOp.perform] using same
      refine Prog.wp_mono (wp_live_done vs hb) fun res c seen =>
        seen.mono fun x _ env rest none w hw => ?_
      rcases List.mem_cons.mp hw with rfl | hw
      · exact env.forward.isDone done
      · exact rest none w hw

/-! ## The second contract -/

/-- What is seen under the first contract is seen under the second. -/
theorem wp_unhurried {α : Type} {p : Sched α} {P : SchedOp → Prop} (reads : ∀ o, P o → Reads o)
    {Q : Except Exc α → Shared → Prop} (only : p.Only P)
    (h : p.wp (SchedOp.perform r who) (contract (Mode.current calm) who) Q a) :
    p.wp (SchedOp.perform r who) ((unhurried r).contract (Mode.current calm) who) Q a := by
  refine Prog.wp_of_contract ?_ ?_ ?_ ?_ (.of_only only) h
  · rintro a b ⟨env, -⟩
    exact env
  · rintro o a ⟨allowed, -⟩
    exact allowed
  · rintro o a ho - rfl
    exact (reads _ ho).elim
  · rintro o a - ⟨-, -, moved⟩ -
    exact ⟨moved, trivial⟩

/-- Every operation but the one that sets `done` is free. -/
theorem keeps_unhurried (H : Shared → Prop) (o : SchedOp) (other : o ≠ .setDone)
    (stays : ∀ a b, H a → Env (Mode.current calm) who a b → H b)
    (step : ∀ a, H a → Moved (Mode.current calm) who a (SchedOp.perform r who o a).2 →
      H (SchedOp.perform r who o a).2) :
    OpKeeps (SchedOp.perform r who) ((unhurried r).contract (Mode.current calm) who) H o := by
  rintro a b h ⟨env, -⟩
  refine ⟨fun is => absurd is other, ?_⟩
  rintro ⟨-, -, moved⟩
  exact ⟨⟨moved, trivial⟩, step b (stays a b h env) moved⟩

theorem keeps_locked (o : SchedOp) (other : o ≠ .setDone)
    (lock : ∀ s, (SchedOp.perform r who o s).2.lock = s.lock) :
    OpKeeps (SchedOp.perform r who) ((unhurried r).contract (Mode.current calm) who)
      (Locked (Mode.current calm) who) o :=
  keeps_unhurried calm _ o other (fun _ _ h env => h.env env)
    fun a h moved => ⟨moved.inv, (lock a).trans h.2⟩

/-- `done` may be set where nobody waits. -/
theorem wp_setDone_unhurried (holds : Holds (Mode.current calm) who k a)
    (quiet : ∀ t, ¬ Pressing r a t) :
    (once .setDone).wp (SchedOp.perform r who) ((unhurried r).contract (Mode.current calm) who)
      (fun _ s => Locked (Mode.current calm) who s) a := by
  rintro b ⟨env, -⟩
  refine ⟨fun _ t pressing => quiet t (pressing.back holds env calm), ?_⟩
  rintro ⟨-, -, moved⟩
  exact ⟨⟨moved, trivial⟩, moved.inv, env.lock.mpr holds.mine⟩

theorem only_live : ∀ vs : List TaskId,
    (Prog.any (fun t => once (.live t)) vs : Sched Bool).Only Reads
  | [] => trivial
  | _ :: vs => (only_once trivial).bind fun live => by
    cases live with
    | true => trivial
    | false => exact only_live vs

/-- The report that nothing goes on, made where nobody waits. -/
theorem wp_report_unhurried (holds : Holds (Mode.current calm) who k a)
    (quiet : ∀ t, ¬ Pressing r a t) :
    ((stuck r.graph.keys).bind fun titles => (once (.appendError (.runtimeError
      ("scheduler made no progress; stuck=" ++ reprTitles titles)))).bind fun _ =>
        once .setDone).wp (SchedOp.perform r who) ((unhurried r).contract (Mode.current calm) who)
      (fun _ s => Locked (Mode.current calm) who s) a := by
  refine Prog.wp_bind_returns (wp_unhurried calm (fun _ h => h) (only_stuck r.graph.keys)
    (wp_reads (fun _ h => h) (only_stuck r.graph.keys) holds)) ?_
  rintro titles b ⟨holdsb, env, -⟩
  rw [Prog.wp_bind]
  rintro c ⟨envc, -⟩
  refine ⟨fun is => (by cases is), ?_⟩
  rintro ⟨-, -, moved⟩
  refine ⟨⟨moved, trivial⟩, wp_setDone_unhurried (k := c.scheduling) calm
    ⟨moved.inv, envc.lock.mpr holdsb.mine, rfl⟩ fun t pressing => ?_⟩
  have here : Pressing r c t := ⟨pressing.submitted, pressing.undone, pressing.awaited⟩
  exact quiet t ((here.back holdsb envc calm).back holds env calm)

/-- `schedule` comes to `done.set()` because every task is finished, or because no call goes on. -/
theorem keeps_close_unhurried :
    Keeps (SchedOp.perform r who) ((unhurried r).contract (Mode.current calm) who)
      (Locked (Mode.current calm) who) (close r) := by
  intro a locked
  have holds : Holds (Mode.current calm) who a.scheduling a := ⟨locked.1, locked.2, rfl⟩
  have tested : (Prog.all finished r.graph.keys).Only Reads :=
    .all (fun _ => only_finished trivial trivial trivial) _
  rw [close, Prog.bind_eq]
  refine Prog.wp_bind_returns (wp_unhurried calm (fun _ h => h) tested
    (wp_allFinished_current calm holds)) ?_
  rintro halted b ⟨holdsb, -, quiet⟩
  cases halted with
  | true =>
    refine wp_setDone_unhurried calm holdsb fun t pressing => ?_
    exact quiet rfl t (holdsb.inv.coherent.keys t pressing.submitted) pressing
  | false =>
    rw [if_neg (by simp), Prog.bind_eq]
    refine Prog.wp_bind_returns (wp_unhurried calm (fun _ h => h) (only_once trivial)
      (wp_look (o := .futures) trivial holdsb)) ?_
    rintro futures c ⟨holdsc, -, known⟩
    have mem : ∀ u, u ∈ futures ↔ c.stage u ≠ .absent := by
      rw [known]
      exact holdsc.inv.coherent.mem
    rw [Prog.bind_eq]
    refine Prog.wp_bind_returns (wp_unhurried calm (fun _ h => h) (only_live futures)
      (wp_live_done futures holdsc)) ?_
    rintro live d ⟨holdsd, envd, halted⟩
    cases live with
    | true => exact ⟨holdsd.inv, holdsd.mine⟩
    | false =>
      refine wp_report_unhurried calm holdsd fun t pressing => ?_
      have created : c.stage t ≠ .absent := fun absent =>
        pressing.submitted (((holdsc.held envd).absent t).mpr absent)
      have ended := halted rfl t ((mem t).mpr created)
      rw [pressing.undone] at ended
      cases ended

/-! ## The threads -/

theorem code_unhurried (who : Who) :
    Code r who ((unhurried r).contract (Mode.current calm) who) (Locked (Mode.current calm) who)
      fun _ _ _ => True where
  outer o _ other := keeps_unhurried calm _ o other (fun _ _ _ _ => trivial) fun _ _ _ => trivial
  inner o inner := by
    refine keeps_locked calm o ?_ (lock_of_inner inner)
    rintro rfl
    exact inner
  acquired a b _ allowed := ⟨allowed.2.2.inv, rfl⟩
  decide t s locked := by
    have keeps : Keeps (SchedOp.perform r who) ((unhurried r).contract (Mode.current calm) who)
        (Locked (Mode.current calm) who) (Scheduler.decide r t) := by
      refine .of_uses (P := Looks) (fun o looks => ?_) (.of_only (only_decide t))
      have inner := inner_of_reads looks.reads
      refine keeps_locked calm o ?_ (lock_of_inner inner)
      rintro rfl
      exact inner
    exact Prog.wp_mono (keeps s locked) fun _ _ kept => ⟨kept, fun _ _ _ _ => trivial⟩
  mark t bad s locked _ := by
    have keeps : Keeps (SchedOp.perform r who) ((unhurried r).contract (Mode.current calm) who)
        (Locked (Mode.current calm) who) (liftTask (markBlocked r.executor t (some bad))) := by
      refine .of_uses (P := fun o => ∃ o', o = .task o') ?_ (.lift (P := fun _ => True) ?_
        (.all (fun _ => trivial) _))
      · rintro o ⟨o', rfl⟩
        exact keeps_locked calm _ nofun fun _ => rfl
      · exact fun o _ => ⟨o, rfl⟩
    exact keeps s locked
  close := keeps_close_unhurried calm

theorem keeps_worker_unhurried (t : TaskId) :
    Keeps (SchedOp.perform r (.worker t)) ((unhurried r).contract (Mode.current calm) (.worker t))
      (fun _ => True) (worker r t) := by
  have free : ∀ o, o ≠ .setDone → OpKeeps (SchedOp.perform r (.worker t))
      ((unhurried r).contract (Mode.current calm) (.worker t)) (fun _ => True) o := fun o other =>
    keeps_unhurried calm _ o other (fun _ _ _ _ => trivial) fun _ _ _ => trivial
  have executes : ∀ upstream, Keeps (SchedOp.perform r (.worker t))
      ((unhurried r).contract (Mode.current calm) (.worker t)) (fun _ => True)
      (liftTask (execute r.executor t upstream)) := by
    intro upstream
    refine .of_uses (P := (· ≠ .setDone)) free (.lift (P := fun _ => True) ?_
      (.all (fun _ => trivial) _))
    exact fun _ _ => nofun
  have code := code_unhurried calm (.worker t)
  refine Keeps.bind (.op (free _ nofun)) fun upstream => ?_
  refine Keeps.bind (executes upstream).caught fun exception => ?_
  refine Keeps.bind (.op (free _ nofun)) fun registered => ?_
  exact (code.callbacks t registered).bind fun _ => code.out (.leave t) trivial

theorem fits_unhurried : (unhurried r).Fits (Mode.current calm) where
  start := trivial
  refl _ _ := trivial
  trans _ _ _ _ _ _ _ := trivial
  inv _ _ _ _ _ _ _ := trivial
  rely _ _ _ _ _ _ _ _ := trivial
  each who := by
    cases who with
    | main => exact (code_unhurried calm .main).main _ trivial
    | worker t => exact keeps_worker_unhurried calm t _ trivial
    | outside i =>
      have none : r.cancels[i]? = none := by rw [calm]; rfl
      show (canceller r i).wp _ _ _ _
      unfold canceller
      rw [none]
      trivial

include calm in
/-- In every run whose tests for the end are current, a thread is about to set `done` only where
nobody waits for a submitted call that is not over. -/
theorem unpressed_of_current {s : State} (run : Reachable r (current r) s)
    (sets : atSetDone (s.rest who) = true) (t : TaskId) : ¬ Pressing r s.shared t := by
  unfold atSetDone at sets
  split at sets
  · rename_i k next
    exact (fits_unhurried calm).ready run next rfl t
  · cases sets

end Pressing

end TTasks.Scheduler
