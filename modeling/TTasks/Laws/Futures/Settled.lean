import TTasks.Laws.Futures.Owners

/-!
# How submitted tasks end

Whatever the interleaving, a submitted task sees one call and no more: its execution on a worker, or
the cancel of the call of `Future.cancel` that came first. Which of the two it is, every call of
`Future.cancel` answers the same.
-/

namespace TTasks.Futures

open Interleave
open Submission (Who)
open Prog (Contract Keeps OpKeeps)

variable {κ : Type} {x : Executor} {w₀ : World} {who : Who κ} {n : Nat} {t : TaskId}
  {s a b : Shared κ}

/-! ## Working on a task -/

/-- The thread works on the task of the `n`-th future. -/
def Works (who : Who κ) (n : Nat) (item : WorkItem) (s : Shared κ) : Prop :=
  ∃ f, s.futures[n]? = some f ∧ Owns who n f ∧ f.item = item

/-- A thread keeps the task it works on through the moves of the others. -/
theorem Works.rely {item : WorkItem} (works : Works who n item a) (moved : Rely w₀ who a b) :
    Works who n item b := by
  obtain ⟨f, here, owns, rfl⟩ := works
  obtain ⟨f', here', leaves⟩ := moved.kept n f here
  exact ⟨f', here', owns.follows leaves.follows (leaves.stage owns), leaves.follows.item⟩

/-- The thread's call on the task comes to what it comes to alone; `K` is what the thread knows
besides, and `P` the kind of the call's operations. -/
theorem wp_works {α : Type} {p : Executor → Exec α} {item : WorkItem} {K : Shared κ → Prop}
    {P : TaskOp → Prop} (same : ∀ answers, p (x.withSaves answers) = p x)
    (own : ∀ o, P o → o.IsOf item.task) (uses : (p x).Uses P)
    (stable : ∀ a b, K a → Inv x w₀ b → Rely w₀ who a b → K b)
    (quiet : ∀ o a f, K a → a.futures[n]? = some f → P o → f.stage = .cancelled → o.isCall = false)
    (apart : ∀ o a, K a → Inv x w₀ a → Works who n item a → o.IsOf item.task →
      K (sem x who (.task o) a).2)
    (inv : Inv x w₀ s) (works : Works who n item s) (known : K s)
    (unbegun : Unbegun w₀ item.task s.world) :
    (liftTask (p x)).wp (sem x who) (contract x w₀ who)
      (fun r b => Inv x w₀ b ∧ Works who n item b ∧ K b ∧ AsAlone x w₀ item.task p r b.world) s := by
  refine Prog.wp_lift Shared.world (fun b => Inv x w₀ b ∧ Works who n item b ∧ K b) ?_ ?_ ?_ ?_ ?_ ?_
    ⟨inv, works, known⟩ (wp_asAlone same own uses unbegun) ?_
  · rintro a b ⟨-, works, known⟩ ⟨inv', moved⟩
    refine ⟨⟨inv', works.rely moved, stable a b known inv' moved⟩, fun ws alone => ?_⟩
    obtain ⟨f, here, owns, rfl⟩ := works
    obtain ⟨f', -, leaves⟩ := moved.kept n f here
    exact leaves.task owns ws alone
  · exact fun _ _ => trivial
  · exact fun _ _ => trivial
  · rintro o b ⟨inv', works', known'⟩ - kind
    obtain ⟨f, here, owns, rfl⟩ := id works'
    have guar : Guar x w₀ who (.task o) b :=
      ⟨n, f, here, owns, own o kind, quiet o b f known' here kind⟩
    exact ⟨guar, (sem_spec inv' guar).1, ⟨f, here, owns, rfl⟩,
      apart o b known' inv' works' (own o kind)⟩
  · exact fun _ _ => rfl
  · exact fun _ _ => rfl
  · rintro r b ⟨inv', works', known'⟩ ran
    exact ⟨inv', works', known', ran⟩

/-! ## The callback of a future that is finished -/

/-- The `n`-th future has its result. -/
def Finished (n : Nat) (s : Shared κ) : Prop := ∃ f, s.futures[n]? = some f ∧ ∃ r, f.stage = .finished r

/-- A result stays. -/
theorem Finished.rely (finished : Finished n a) (moved : Rely w₀ who a b) : Finished n b := by
  obtain ⟨f, here, r, stage⟩ := finished
  obtain ⟨f', here', leaves⟩ := moved.kept n f here
  exact ⟨f', here', r, leaves.follows.finished r stage⟩

/-- Such a callback does nothing. -/
theorem wp_callback_finished {H : Shared κ → Prop} (t : TaskId) (finished : Finished n s)
    (stable : ∀ a b, H a → Inv x w₀ b → Rely w₀ who a b → H b) (known : H s) :
    (callback x n t).wp (sem x who) (contract x w₀ who) (fun _ b => Finished n b ∧ H b) s := by
  unfold callback
  rw [Prog.tryCatch_eq, Prog.wp_tryCatch, Prog.bind_eq, Prog.wp_bind]
  rintro a ⟨inv, moved⟩
  refine ⟨trivial, fun _ => ⟨trivial, ?_⟩⟩
  have finished' := finished.rely moved
  obtain ⟨f, here, r, stage⟩ := id finished'
  have no : (sem x who (.cancelled n) a).1 = false := by
    show (a.futures[n]?).any _ = false
    rw [here]
    simp [stage, Stage.isCancelled]
  show Prog.wp _ _ (if (sem x who (.cancelled n) a).1 = true then _ else _) _ a
  rw [no]
  exact ⟨finished', stable s a known inv moved⟩

/-! ## A worker -/

/-- The `n`-th future is done. -/
def DoneWith (n : Nat) (s : Shared κ) : Prop := ∃ f, s.futures[n]? = some f ∧ f.stage.isDone = true

/-- A finished future is done. -/
theorem Finished.doneWith (finished : Finished n s) : DoneWith n s := by
  obtain ⟨f, here, r, stage⟩ := finished
  exact ⟨f, here, by rw [stage]; rfl⟩

/-- The `n`-th future is running. -/
def Running (n : Nat) (item : WorkItem) (s : Shared κ) : Prop :=
  ∃ f, s.futures[n]? = some f ∧ f.stage = .running ∧ f.item = item

/-- A future that its worker has started stays running until that worker finishes it. -/
theorem Running.rely {item : WorkItem} (running : Running n item a)
    (moved : Rely w₀ (.work n) a b) : Running n item b := by
  obtain ⟨f, here, stage, rfl⟩ := running
  obtain ⟨f', here', leaves⟩ := moved.kept n f here
  exact ⟨f', here', (leaves.stage (.inl ⟨stage, rfl⟩)).trans stage, leaves.follows.item⟩

/-- The worker of a running future works on its task. -/
theorem Running.works {item : WorkItem} (running : Running n item s) :
    Works (.work n) n item s := by
  obtain ⟨f, here, stage, rfl⟩ := running
  exact ⟨f, here, .inl ⟨stage, rfl⟩, rfl⟩

/-- A worker puts the result or the exception into the future, and calls the callback. -/
theorem wp_finish {item : WorkItem} {r : Except Exc TaskResult} (running : Running n item s)
    (ran : AsAlone x w₀ item.task (fun x => executeSubmitted x item) r s.world) :
    ((Prog.op (Op.finish n r) : Fut (Option TaskId)).bind fun watching =>
      match watching with
      | none => pure ()
      | some t => callback x n t).wp (sem x (.work n)) (contract x w₀ (.work n))
      (fun _ b => DoneWith n b) s := by
  rw [Prog.wp_bind]
  rintro a ⟨inv, moved⟩
  obtain ⟨answers, ws, alone, rest⟩ := ran
  obtain ⟨f, here, stage, rfl⟩ := running.rely moved
  obtain ⟨old, there, wasRunning, same⟩ := running
  obtain ⟨f', here', leaves⟩ := moved.kept n old there
  have kept : Alone f.item.task w₀.deliveries.length a.world ws := by
    rw [← same] at alone ⊢
    exact leaves.task (.inl ⟨wasRunning, rfl⟩) ws alone
  refine ⟨trivial, fun _ => ⟨⟨rfl, f, here, stage, answers, ws, kept, rest⟩, ?_⟩⟩
  have finished : Finished n (sem x (.work n) (.finish n r) a).2 := ⟨_, change_here here, r, rfl⟩
  show Prog.wp _ _ (match (sem x (.work n) (.finish n r) a).1 with
    | none => pure ()
    | some t => callback x n t) _ _
  split
  · exact finished.doneWith
  · refine Prog.wp_mono (wp_callback_finished (H := fun _ => True) _ finished
      (fun _ _ _ _ _ => trivial) trivial) fun _ b ended => ended.1.doneWith

/-- A worker leaves its future done: it finishes it, or has found it cancelled. -/
theorem wp_work :
    (work x n).wp (sem x (.work n)) (contract x w₀ (.work n)) (fun _ b => DoneWith (κ := κ) n b) s := by
  unfold work
  rw [Prog.bind_eq, Prog.wp_bind]
  rintro a ⟨inv, -⟩
  refine ⟨trivial, fun allowed => ⟨rfl, ?_⟩⟩
  obtain ⟨f, here, queued⟩ := allowed.1
  cases stage : f.stage with
  | running | finished r =>
    rw [stage] at queued
    cases queued
  | cancelled =>
    have late : f.stage ≠ .pending := fun pending => by cases stage.symm.trans pending
    simp only [sem, startFuture_late here late, Prog.wp_ret, Prog.onOk, Prog.pure_eq]
    exact ⟨f, here, by rw [stage]; rfl⟩
  | pending =>
    have inv' := (startFuture_spec (n := n) inv).1
    simp only [sem, startFuture_pending here stage] at inv' ⊢
    simp only [Prog.wp_ret, Prog.onOk, Prog.bind_eq, Prog.result, Prog.wp_bind, Prog.wp_tryCatch]
    have running : Running n f.item (a.change n fun f => { f with stage := .running }) :=
      ⟨_, change_here here, rfl, rfl⟩
    refine Prog.wp_mono (wp_works (p := fun x => executeSubmitted x f.item) (K := Running n f.item)
      (fun answers => executeSubmitted_withSaves x answers f.item) (fun _ own => own)
      (uses_executeSubmitted x f.item) (fun _ _ running _ moved => running.rely moved) ?_
      (fun _ _ running _ _ _ => running) inv' running.works running
      (inv.unbegun_of_pending here stage)) ?_
    · rintro o b f' ⟨_, there, running', -⟩ here' - cancelled
      rw [here'] at there
      cases there
      cases running'.symm.trans cancelled
    rintro (e | r) b ⟨-, -, running', ran⟩
    · exact wp_finish running' ran
    · exact wp_finish running' ran

/-! ## The callers -/

/-- The tasks of the futures that the thread has cancelled, but for the `m`-th, have been cancelled. -/
def HonouredBut (x : Executor) (w₀ : World) (who : Who κ) (m : Option Nat) (s : Shared κ) : Prop :=
  ∀ n f, some n ≠ m → s.futures[n]? = some f → f.CancelledBy who →
    AsAlone x w₀ f.item.task (fun x => cancel x f.item.task) (.ok ()) s.world

/-- The tasks of the futures that the thread has cancelled have been cancelled. -/
abbrev Honoured (x : Executor) (w₀ : World) (who : Who κ) (s : Shared κ) : Prop :=
  HonouredBut x w₀ who none s

/-- The moves of the others leave the cancelled tasks cancelled, as they are this thread's own. -/
theorem HonouredBut.rely {m : Option Nat} (honoured : HonouredBut x w₀ who m a)
    (moved : Rely w₀ who a b) : HonouredBut x w₀ who m b := by
  intro n f' other here' own
  obtain ⟨f, here, cancelledBy⟩ := moved.back n f' here' own
  obtain ⟨f'', there, leaves⟩ := moved.kept n f here
  rw [here'] at there
  cases there
  obtain ⟨answers, ws, alone, rest⟩ := honoured n f other here cancelledBy
  rw [leaves.follows.item]
  exact ⟨answers, ws, leaves.task (.inr cancelledBy) ws alone, rest⟩

/-- An operation that leaves the tasks and the futures which the thread has cancelled alone. -/
theorem HonouredBut.same {m : Option Nat} (honoured : HonouredBut x w₀ who m a)
    (world : b.world = a.world) (back : ∀ (n : Nat) (f' : Future κ), some n ≠ m →
      b.futures[n]? = some f' → f'.CancelledBy who →
        ∃ f, a.futures[n]? = some f ∧ f.CancelledBy who ∧ f'.item = f.item) :
    HonouredBut x w₀ who m b := by
  intro n f' other here' own
  obtain ⟨f, here, cancelledBy, item⟩ := back n f' other here' own
  rw [world, item]
  exact honoured n f other here cancelledBy

/-- The thread's own work on a task is nothing to the other tasks that it has cancelled. -/
theorem HonouredBut.worked {item : WorkItem} {o : TaskOp}
    (honoured : HonouredBut x w₀ who (some n) a) (inv : Inv x w₀ a) (works : Works who n item a)
    (own : o.IsOf item.task) : HonouredBut x w₀ who (some n) (sem x who (.task o) a).2 := by
  intro m f other there cancelledBy
  obtain ⟨f', here, -, rfl⟩ := works
  refine (honoured m f other there cancelledBy).other own fun same => ?_
  exact other (congrArg some (inv.same_index there here same))

/-- Alone, `cancel` returns. -/
theorem AsAlone.cancel_returns {r : Except Exc Unit} {w : World}
    (h : AsAlone x w₀ t (fun x => cancel x t) r w) : r = .ok () := by
  obtain ⟨answers, ws, -, ran, -⟩ := h
  have returns := run_cancel_ok (x.withSaves answers) t w₀.alone
  rw [ran] at returns
  exact returns

/-- The cancel by which a call of `Future.cancel` carries out what it has decided. -/
theorem wp_callback_cancelled (item : WorkItem)
    (here : ∃ f, s.futures[n]? = some f ∧ f.CancelledBy who ∧ f.item = item)
    (honoured : HonouredBut x w₀ who (some n) s) (unbegun : Unbegun w₀ item.task s.world) :
    (callback x n item.task).wp (sem x who) (contract x w₀ who)
      (fun r b => r = .ok () ∧ Honoured x w₀ who b) s := by
  unfold callback
  rw [Prog.tryCatch_eq, Prog.wp_tryCatch, Prog.bind_eq, Prog.wp_bind]
  rintro a ⟨inv, moved⟩
  refine ⟨trivial, fun _ => ⟨trivial, ?_⟩⟩
  obtain ⟨old, there, cancelledBy, rfl⟩ := here
  obtain ⟨f, here, leaves⟩ := moved.kept n old there
  obtain ⟨stage, canceller⟩ := leaves.follows.cancelled cancelledBy.1
  have works : Works who n old.item a :=
    ⟨f, here, .inr ⟨stage, canceller.trans cancelledBy.2⟩, leaves.follows.item⟩
  have yes : (sem x who (.cancelled n) a).1 = true := by
    show (a.futures[n]?).any _ = true
    rw [here]
    simp [stage, Stage.isCancelled]
  show Prog.wp _ _ (if (sem x who (.cancelled n) a).1 = true then _ else _) _ a
  rw [yes]
  refine Prog.wp_mono (wp_works (p := fun x => cancel x old.item.task)
    (K := HonouredBut x w₀ who (some n)) (fun _ => rfl) (fun _ spares => spares.1)
    (spares_cancel x old.item.task) (fun _ _ honoured _ moved => honoured.rely moved)
    (fun _ _ _ _ _ spares _ => spares.2)
    (fun _ _ honoured inv works own => honoured.worked inv works own) inv works (honoured.rely moved)
    (leaves.task (.inr cancelledBy) _ unbegun)) ?_
  rintro r b ⟨-, works', honoured', ran⟩
  obtain rfl := AsAlone.cancel_returns ran
  refine ⟨rfl, ?_⟩
  intro m f' _ there' own'
  by_cases same : m = n
  · subst same
    obtain ⟨f'', here'', -, item⟩ := works'
    rw [there'] at here''
    cases here''
    rw [item]
    exact ran
  · exact honoured' m f' (fun back => same (Option.some.inj back)) there' own'

/-- Where the futures stay as they are, nothing is owed. -/
theorem HonouredBut.still {m : Option Nat} (honoured : HonouredBut x w₀ who m a)
    (world : b.world = a.world) (futures : b.futures = a.futures) : HonouredBut x w₀ who m b := by
  refine honoured.same world fun n f' _ there own => ?_
  rw [futures] at there
  exact ⟨f', there, own, rfl⟩

/-- `Future.cancel` cancels the task before it returns, when it is the one that cancels the future.
-/
theorem keeps_futureCancel {k : κ} (outside : who = .outside k) :
    Keeps (sem x who) (contract x w₀ who) (Honoured x w₀ who) (futureCancel x n) := by
  intro s honoured
  unfold futureCancel
  rw [Prog.bind_eq, Prog.wp_bind]
  rintro a ⟨inv, moved⟩
  refine ⟨trivial, fun allowed => ⟨⟨⟨k, outside⟩, allowed.1⟩, ?_⟩⟩
  obtain ⟨f, here, added⟩ := allowed.1
  have honoured' := honoured.rely moved
  by_cases pending : f.stage = .pending
  · -- the call that cancels: it owes the task its cancel
    have watched : f.callback = some f.item.task :=
      if_pos ((inv.each f (List.mem_of_getElem? here)).watched added pending)
    have unbegun := inv.unbegun_of_pending here pending
    have others : HonouredBut x w₀ who (some n) a := fun m f' _ => honoured' m f' (by simp)
    simp only [sem, cancelFuture_pending here pending, watched, Prog.wp_ret, Prog.onOk,
      Prog.pure_eq, Prog.bind_eq, Prog.wp_bind]
    refine Prog.wp_mono (wp_callback_cancelled f.item
      ⟨_, change_here here, ⟨rfl, rfl⟩, rfl⟩ ?_ unbegun) ?_
    · refine others.same rfl fun m f' other there own => ?_
      rcases of_change here there with ⟨same, -⟩ | ⟨-, old⟩
      · exact absurd (congrArg some same) other
      · exact ⟨f', old, own, rfl⟩
    · rintro r b ⟨rfl, done⟩
      exact done
  · obtain ⟨answer, -, late⟩ := cancelFuture_late who here pending
    simp only [sem, late]
    cases answer with
    | true => exact honoured'.still rfl rfl
    | false => exact honoured'.still rfl rfl

/-- A future that a thread has submitted and not yet given its callback. -/
def Mine (who : Who κ) (n : Nat) (s : Shared κ) : Prop :=
  ∃ f, s.futures[n]? = some f ∧ f.submitter = who ∧ f.added = false

/-- The callback of a future is its submitter's to add. -/
theorem Mine.rely (mine : Mine who n a) (moved : Rely w₀ who a b) : Mine who n b := by
  obtain ⟨f, here, submitter, added⟩ := mine
  obtain ⟨f', here', leaves⟩ := moved.kept n f here
  exact ⟨f', here', leaves.follows.submitter.trans submitter, (leaves.added submitter).trans added⟩

/-- The rest of `submit`: nobody has the future yet, so the callback that is called at once finds it
finished. -/
theorem wp_addDoneCallback (item : WorkItem) (mine : Mine who n s) (honoured : Honoured x w₀ who s) :
    ((Prog.op (Op.addDoneCallback n) : Fut Bool).bind fun atOnce =>
      if atOnce = true then (callback x n item.task).bind fun _ => .ret (some n)
      else .ret (some n)).wp (sem x who) (contract x w₀ who) (fun _ b => Honoured x w₀ who b) s := by
  rw [Prog.wp_bind]
  rintro a ⟨inv, moved⟩
  have mine' := mine.rely moved
  obtain ⟨f, here, submitter, added⟩ := id mine'
  refine ⟨trivial, fun _ => ⟨mine', ?_⟩⟩
  have after : Honoured x w₀ who (addDoneCallback n a).2 := by
    rw [addDoneCallback_here here]
    refine (honoured.rely moved).same rfl fun m f' _ there own => ?_
    rcases of_change here there with ⟨rfl, rfl⟩ | ⟨-, old⟩
    · exact ⟨f, here, own, rfl⟩
    · exact ⟨f', old, own, rfl⟩
  show Prog.wp _ _ (if (addDoneCallback n a).1 = true then _ else _) _ (addDoneCallback n a).2
  split
  · rename_i atOnce
    rw [addDoneCallback_here here] at atOnce after ⊢
    have finished : Finished n
        (a.change n fun f => { f with added := true, watched := !f.stage.isDone }) := by
      refine ⟨_, change_here here, ?_⟩
      cases stage : f.stage with
      | finished r => exact ⟨r, rfl⟩
      | cancelled =>
        have handed := ((inv.each f (List.mem_of_getElem? here)).cancelled stage).1
        exact absurd (added.symm.trans handed) Bool.false_ne_true
      | pending | running =>
        rw [stage] at atOnce
        cases atOnce
    rw [Prog.wp_bind]
    refine Prog.wp_mono (wp_callback_finished item.task finished
      (fun _ _ honoured _ moved => honoured.rely moved) after) ?_
    rintro (e | _) b ⟨-, honoured'⟩ <;> exact honoured'
  · exact after

/-- `submit` cancels no future, so it keeps what the thread has cancelled. -/
theorem keeps_submit (item : WorkItem) :
    Keeps (sem x who) (contract x w₀ who) (Honoured x w₀ who) (submit x item) := by
  intro s honoured
  unfold submit
  rw [Prog.bind_eq, Prog.wp_bind]
  rintro a ⟨inv, moved⟩
  refine ⟨trivial, fun allowed => ⟨allowed.2, ?_⟩⟩
  have honoured' := honoured.rely moved
  cases closed : a.closed with
  | true =>
    simp only [sem, closed, if_true, Prog.wp_ret, Prog.onOk, Prog.pure_eq]
    exact honoured'
  | false =>
    simp only [sem, closed, Bool.false_eq_true, if_false, Prog.wp_ret, Prog.onOk]
    apply wp_addDoneCallback item
    · exact ⟨{ item, submitter := who }, by simp, rfl, rfl⟩
    · refine honoured'.same rfl fun m f' _ there own => ?_
      rcases of_submitted there with found | rfl
      · exact ⟨f', found, own, rfl⟩
      · cases own.1

/-- `shutdown` cancels no future either. -/
theorem keeps_shutdown :
    Keeps (sem x who) (contract x w₀ who) (Honoured x w₀ who) shutdown := by
  refine .bind ?_ fun pool => ?_
  · apply Keeps.op
    rintro a b honoured ⟨-, moved⟩
    exact ⟨trivial, fun _ => ⟨trivial, (honoured.rely moved).still rfl rfl⟩⟩
  · split
    · apply Keeps.op
      rintro a b honoured ⟨-, moved⟩
      exact ⟨trivial, fun _ => ⟨trivial, honoured.rely moved⟩⟩
    · exact .ret ()

/-! ## Runs -/

/-- What a thread leaves when it is over. -/
def Post (x : Executor) (w₀ : World) : Who κ → Except Exc Unit → Shared κ → Prop
  | .outside k, _, s => Honoured x w₀ (.outside k) s
  | .work n, _, s => DoneWith n s

/-- A future that is done stays done. -/
theorem DoneWith.rely (done : DoneWith n a) (moved : Rely w₀ who a b) : DoneWith n b := by
  obtain ⟨f, here, stage⟩ := done
  obtain ⟨f', here', leaves⟩ := moved.kept n f here
  refine ⟨f', here', ?_⟩
  cases now : f.stage with
  | cancelled => rw [(leaves.follows.cancelled now).1]; rfl
  | finished r => rw [leaves.follows.finished r now]; rfl
  | pending | running =>
    rw [now] at stage
    cases stage

/-- The contracts of callers and workers fit together. -/
theorem contracts_compatible :
    Threads.Compatible (sem x) (contract (κ := κ) x w₀) (Inv x w₀) (Post x w₀) where
  refl who s inv := ⟨inv, .refl who s⟩
  trans _ _ _ _ h h' := ⟨h'.1, h.2.trans h'.2⟩
  inv _ _ _ inv guar := (sem_spec inv guar).1
  rely _ _ other _ _ inv guar := ⟨(sem_spec inv guar).1, (sem_spec inv guar).2 _ other⟩
  post who r _ _ rely h := by
    cases who with
    | outside k => exact HonouredBut.rely h rely.2
    | work n => exact DoneWith.rely h rely.2

/-- Each call of a caller keeps what the caller has cancelled. -/
theorem keeps_call {k : κ} (outside : who = .outside k) (c : Call) :
    Keeps (sem x who) (contract x w₀ who) (Honoured x w₀ who) (c.code x) := by
  cases c with
  | submit item => exact keeps_submit item
  | cancel n => exact keeps_futureCancel outside
  | shutdown => exact keeps_shutdown

/-- At the start there are no futures. -/
theorem inv_start (w : World) : Inv x w ({ world := w } : Shared κ) where
  distinct := List.nodup_nil
  unbegun t _ := alone_start t w
  each f mem := by cases mem
  answers a mem := by cases mem

/-- At the start every thread has its contract's program in front of it. -/
theorem start_sound (callers : κ → Caller) (w : World) :
    Threads.Sound (sem x) (contract x w) (Inv x w) (Post x w) (start x callers w) where
  inv := inv_start w
  each
    | .outside k => by
      have keeps : Keeps (sem x (.outside k)) (contract x w (.outside k)) (Honoured x w (.outside k))
          ((callers k).expand (Call.code x)) :=
        .expand (P := fun _ => True) (fun c _ => keeps_call rfl c) (.all (fun _ => trivial) _)
      refine keeps _ fun n f _ here => ?_
      cases here
    | .work n => wp_work

/-- The calls are over: those of the callers, and the work on all that has been submitted. -/
def CallsOver (s : State κ) : Prop :=
  (∀ k, ¬ (s.rest (.outside k)).Acting) ∧
    ∀ n < s.shared.futures.length, ¬ (s.rest (.work n)).Acting

/-- What a submitted task comes to: its cancel, if its future is cancelled, or else its execution, whose
outcome the future has; and nothing else. -/
inductive Settles (x : Executor) (w₀ : World) (f : Future κ) (w : World) : Prop
  | cancelled (stage : f.stage = .cancelled)
      (came : AsAlone x w₀ f.item.task (fun x => cancel x f.item.task) (.ok ()) w)
  | executed (r : Except Exc TaskResult) (stage : f.stage = .finished r)
      (came : AsAlone x w₀ f.item.task (fun x => executeSubmitted x f.item) r w)

variable [DecidableEq κ]

/-- In every run in which no task is submitted twice, nothing is done with a task before its future
leaves the queue; all calls of `Future.cancel` on a future answer alike, and as the future ends; and
when the calls are over, each submitted task has seen one call, as if nothing else had run. -/
theorem submitted_settle (x : Executor) (callers : κ → Caller) (w : World) (s : State κ)
    (run : (Threads.machine (sem x)).Reaches (Threads.Allows Once) (start x callers w) s) :
    (∀ t, (∀ f ∈ s.shared.futures, f.item.task = t → f.stage = .pending) →
      Unbegun w t s.shared.world) ∧
    (∀ a ∈ s.shared.answers, ∃ f ∈ s.shared.futures[a.1]?, f.Agrees a.2) ∧
    (CallsOver s → ∀ f ∈ s.shared.futures, Settles x w f s.shared.world) := by
  have sound := (start_sound callers w).reaches (contracts_compatible) run
  have inv := sound.inv
  refine ⟨inv.unbegun, inv.answers, fun ended f mem => ?_⟩
  obtain ⟨n, here⟩ := List.mem_iff_getElem?.mp mem
  obtain ⟨below, -⟩ := List.getElem?_eq_some_iff.mp here
  obtain ⟨_, f', here', isDone⟩ := sound.post (ended.2 n below)
  rw [here] at here'
  cases here'
  cases stage : f.stage with
  | finished r => exact .executed r stage ((inv.each f mem).finished r stage)
  | cancelled =>
    -- the thread that has cancelled the future is over, so it has cancelled the task
    obtain ⟨-, k, canceller⟩ := (inv.each f mem).cancelled stage
    obtain ⟨_, honoured⟩ := sound.post (ended.1 k)
    exact .cancelled stage (honoured n f (by simp) here ⟨stage, canceller⟩)
  | pending | running =>
    rw [stage] at isDone
    cases isDone

/-! ## A future that was cancelled -/

/-- How a queued task is left whose future is cancelled: CANCELLED, with the result and the one event
that say so, and saved like that if there is a store that takes it. -/
structure CancelledQueued (x : Executor) (w₀ : World) (t : TaskId) (w : World) : Prop where
  status : w.status t = .cancelled
  result : (w.tasks t).result = some (cancelResult t)
  stored : x.Saves → w.stored t = some (w.tasks t)
  events : ∃ d, (w.deliveries.drop w₀.deliveries.length).filter
      (fun d => d.event.taskId == t && d.event.type.status.isSome) = [d] ∧
    d.event.type = .cancelled ∧ d.event.previousStatus = some .pending ∧ d.live.status = .cancelled

omit [DecidableEq κ] in
/-- A PENDING task on which `cancel` has run alone is left like that. -/
theorem AsAlone.cancelledQueued {w : World} {r : Except Exc Unit} (pending : w₀.status t = .pending)
    (came : AsAlone x w₀ t (fun x => cancel x t) r w) : CancelledQueued x w₀ t w := by
  obtain ⟨answers, ws, alone, ran, saves⟩ := came
  have idle : w₀.alone.status t = .pending := pending
  have is := run_cancel_of_idle (x.withSaves answers) (.inl idle)
  rw [ran] at is
  obtain rfl := congrArg Prod.snd is
  have task := alone.task
  have stored := alone.stored
  have events := alone.events
  have lifecycle : TaskEventType.cancelled.status = some .cancelled := rfl
  rw [World.emitted_events _ _ _ lifecycle] at events
  rw [World.emitted_tasks, World.setTask_tasks, if_pos rfl] at task
  refine ⟨?_, ?_, fun all => ?_, _, events.symm, rfl, congrArg some idle, ?_⟩
  · rw [World.status, ← task]
    rfl
  · rw [← task]
  · rw [← stored, ← task]
    obtain ⟨store, accepts⟩ := saves all
    refine (World.persisted_stored _ t store accepts).trans ?_
    rw [World.setTask_tasks, if_pos rfl]
  · show ((World.setTask _ t _).tasks t).status = _
    rw [World.setTask_tasks, if_pos rfl]
    rfl

/-- A `Future.cancel` that answers `True` is final, in every run in which no task is submitted twice:
the future stays cancelled, no handler is ever called for its task, and when the calls are over the task
is CANCELLED, if it was PENDING, with one event that says so. -/
theorem cancelled_for_good (x : Executor) (callers : κ → Caller) (w : World) (s : State κ)
    (run : (Threads.machine (sem x)).Reaches (Threads.Allows Once) (start x callers w) s) (n : Nat)
    (answered : (n, true) ∈ s.shared.answers) :
    ∃ f, s.shared.futures[n]? = some f ∧ f.stage = .cancelled ∧
      s.shared.world.callCount f.item.task = w.callCount f.item.task ∧
      (CallsOver s → w.status f.item.task = .pending →
        CancelledQueued x w f.item.task s.shared.world) := by
  have sound := (start_sound callers w).reaches contracts_compatible run
  obtain ⟨f, here, stage⟩ := sound.inv.answers _ answered
  have mem := List.mem_of_getElem? here
  obtain ⟨-, k, canceller⟩ := (sound.inv.each f mem).cancelled stage
  refine ⟨f, here, stage, (sound.inv.each f mem).uncalled stage, fun ended pending => ?_⟩
  obtain ⟨_, honoured⟩ := sound.post (ended.1 k)
  exact AsAlone.cancelledQueued pending (honoured n f (by simp) here ⟨stage, canceller⟩)

/-! ## One run -/

/-- A handler that returns. -/
def busy : Executor where
  handlers := fun _ => true
  behaviour := fun _ _ => { outcome := .returns (some (.text "done")) }

/-- One thread submits two tasks, another cancels the second future. -/
def twoSubmitted : State Bool :=
  start busy
    (fun submits =>
      if submits then
        .act (Call.submit ⟨"a", [], .default⟩) fun _ => .act (Call.submit ⟨"b", [], .default⟩) fun _ =>
          .ret ()
      else .act (Call.cancel 1) fun _ => .ret ())
    { tasks := fun _ => {} }

/-- The second task is cancelled while a worker is busy with the first. -/
def cancelsSecond : List (Who Bool) :=
  List.replicate 4 (.outside true) ++ List.replicate 5 (.work 0) ++
    List.replicate 12 (.outside false) ++ .work 1 :: List.replicate 12 (.work 0)

instance (s : State Bool) : Decidable (CallsOver s) := inferInstanceAs (Decidable (_ ∧ _))

/-- The second of two queued futures is cancelled, and the first is executed. -/
theorem cancelsSecond_reaches : ∃ s,
    (Threads.machine (sem busy)).Reaches (Threads.Allows Once) twoSubmitted s ∧ CallsOver s ∧
      s.shared.answers = [(1, true)] ∧ s.shared.futures.map (fun f => f.item.task) = ["a", "b"] ∧
        s.shared.world.status "a" = .succeeded := by
  have ran : ∃ s ∈ (Threads.machine (sem busy)).exec (Threads.Allows Once) cancelsSecond twoSubmitted,
      CallsOver s ∧ s.shared.answers = [(1, true)] ∧
        s.shared.futures.map (fun f => f.item.task) = ["a", "b"] ∧
          s.shared.world.status "a" = .succeeded := by decide +kernel
  obtain ⟨s, hs, facts⟩ := ran
  exact ⟨s, Machine.reaches_of_exec hs, facts⟩

/-- Both tasks have been settled, the first by its execution. -/
theorem submitted_settle_second : ∃ s,
    (Threads.machine (sem busy)).Reaches (Threads.Allows Once) twoSubmitted s ∧ CallsOver s ∧
      (∀ f ∈ s.shared.futures, Settles busy { tasks := fun _ => {} } f s.shared.world) ∧
        s.shared.futures.length = 2 ∧ s.shared.world.status "a" = .succeeded := by
  obtain ⟨s, run, ended, -, tasks, succeeded⟩ := cancelsSecond_reaches
  refine ⟨s, run, ended, (submitted_settle busy _ _ s run).2.2 ended, ?_, succeeded⟩
  simpa using congrArg List.length tasks

/-- The second has been cancelled, and its handler was never called. -/
theorem cancelled_for_good_second : ∃ s,
    (Threads.machine (sem busy)).Reaches (Threads.Allows Once) twoSubmitted s ∧
      (1, true) ∈ s.shared.answers ∧ s.shared.world.callCount "b" = 0 ∧
        CancelledQueued busy { tasks := fun _ => {} } "b" s.shared.world := by
  obtain ⟨s, run, ended, answers, tasks, -⟩ := cancelsSecond_reaches
  have answered : (1, true) ∈ s.shared.answers := by
    rw [answers]
    exact List.mem_singleton_self _
  obtain ⟨f, here, -, uncalled, settled⟩ := cancelled_for_good busy _ _ s run 1 answered
  have second : f.item.task = "b" := by
    have found := congrArg (fun list => list[1]?) tasks
    rw [List.getElem?_map, here] at found
    exact Option.some.inj found
  rw [second] at uncalled settled
  exact ⟨s, run, answered, uncalled, settled ended rfl⟩

end TTasks.Futures
