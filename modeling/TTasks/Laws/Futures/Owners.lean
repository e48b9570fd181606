import TTasks.Laws.Futures.Alone

/-!
# Who works on a submitted task

At most one thread works on a submitted task: the worker while the future is running, and the thread
whose `cancel` has cancelled the future from then on. That is what each thread guarantees with every
operation and relies on between two of its own (`contract`).
-/

namespace TTasks.Futures

open Interleave
open Submission (Who)
open Prog (Contract)

variable {κ : Type} (x : Executor) (w₀ : World)

/-! ## The invariant -/

/-- The thread has cancelled the future. -/
def Future.CancelledBy (f : Future κ) (who : Who κ) : Prop :=
  f.stage = .cancelled ∧ f.canceller = some who

/-- The thread may work on the task of this future, which is the `n`-th. -/
def Owns (who : Who κ) (n : Nat) (f : Future κ) : Prop :=
  (f.stage = .running ∧ who = .work n) ∨ f.CancelledBy who

/-- Nothing has been done with the task. -/
def Unbegun (t : TaskId) (w : World) : Prop := Alone t w₀.deliveries.length w w₀.alone

/-- A future by itself. -/
structure Future.Sound (f : Future κ) (w : World) : Prop where
  finished : ∀ r, f.stage = .finished r →
    AsAlone x w₀ f.item.task (fun x => executeSubmitted x f.item) r w
  watched : f.added = true → f.stage = .pending → f.watched = true
  cancelled : f.stage = .cancelled → f.added = true ∧ ∃ k, f.canceller = some (.outside k)
  uncalled : f.stage = .cancelled → w.callCount f.item.task = w₀.callCount f.item.task

/-- An answer of `Future.cancel` is right for good. -/
def Future.Agrees (f : Future κ) (answer : Bool) : Prop :=
  if answer then f.stage = .cancelled else f.stage = .running ∨ ∃ r, f.stage = .finished r

/-- What holds of the futures in every state that is reached. -/
structure Inv (s : Shared κ) : Prop where
  distinct : (s.futures.map fun f => f.item.task).Nodup
  unbegun : ∀ t, (∀ f ∈ s.futures, f.item.task = t → f.stage = .pending) →
    Unbegun w₀ t s.world
  each : ∀ f ∈ s.futures, f.Sound x w₀ s.world
  answers : ∀ a ∈ s.answers, ∃ f ∈ s.futures[a.1]?, f.Agrees a.2

/-! ## What threads rely on -/

/-- What becomes of a future: it stays the same call, and what is settled stays settled. -/
structure Future.Follows (f f' : Future κ) : Prop where
  item : f'.item = f.item
  submitter : f'.submitter = f.submitter
  cancelled : f.stage = .cancelled → f'.stage = .cancelled ∧ f'.canceller = f.canceller
  finished : ∀ r, f.stage = .finished r → f'.stage = .finished r

/-- What other threads leave to a thread: the futures whose tasks it works on, and their tasks; and
the callback of a future that it is about to hand out. -/
structure Leaves (who : Who κ) (n : Nat) (f f' : Future κ) (w w' : World) : Prop where
  follows : f.Follows f'
  stage : Owns who n f → f'.stage = f.stage
  task : Owns who n f → ∀ ws, Alone f.item.task w₀.deliveries.length w ws →
    Alone f.item.task w₀.deliveries.length w' ws
  added : f.submitter = who → f'.added = f.added

/-- How the other threads move the futures, as one thread sees it. -/
structure Rely (who : Who κ) (a b : Shared κ) : Prop where
  kept : ∀ n f, a.futures[n]? = some f →
    ∃ f', b.futures[n]? = some f' ∧ Leaves w₀ who n f f' a.world b.world
  back : ∀ (n : Nat) (f' : Future κ), b.futures[n]? = some f' → f'.CancelledBy who →
    ∃ f, a.futures[n]? = some f ∧ f.CancelledBy who

/-- What a thread guarantees with its operations. -/
def Guar (who : Who κ) (o : Op) (s : Shared κ) : Prop :=
  match o with
  | .submit _ => New o s
  | .addDoneCallback n => ∃ f, s.futures[n]? = some f ∧ f.submitter = who ∧ f.added = false
  | .cancelFuture n => (∃ k, who = .outside k) ∧ Enabled (.cancelFuture n) s
  | .start n => who = .work n
  | .finish n r => who = .work n ∧ ∃ f, s.futures[n]? = some f ∧ f.stage = .running ∧
      AsAlone x w₀ f.item.task (fun x => executeSubmitted x f.item) r s.world
  | .task o => ∃ n f, s.futures[n]? = some f ∧ Owns who n f ∧ o.IsOf f.item.task ∧
      (f.stage = .cancelled → o.isCall = false)
  | _ => True

/-- Each thread keeps the invariant and moves as the others expect. -/
def contract (who : Who κ) : Contract Op (Shared κ) where
  rely a b := Inv x w₀ b ∧ Rely w₀ who a b
  allow := Once who
  guar := Guar x w₀ who

/-! ## One future changes -/

section Change

variable {x : Executor} {w₀ : World} {s : Shared κ} {n : Nat} {f : Future κ}
  {g : Future κ → Future κ} {who : Who κ}

/-- A change of one future is seen at its number only. -/
theorem change_get (s : Shared κ) (n : Nat) (g : Future κ → Future κ) (m : Nat) :
    (s.change n g).futures[m]? = (s.futures[m]?).map fun f => if n = m then g f else f := by
  simp only [Shared.change, List.getElem?_modify]
  rfl

/-- The changed future itself. -/
theorem change_here (here : s.futures[n]? = some f) : (s.change n g).futures[n]? = some (g f) := by
  rw [change_get, here]
  simp

/-- The futures after the change: the one, and the others. -/
theorem of_change (here : s.futures[n]? = some f) {m : Nat} {f' : Future κ}
    (there : (s.change n g).futures[m]? = some f') :
    (m = n ∧ f' = g f) ∨ (m ≠ n ∧ s.futures[m]? = some f') := by
  rw [change_get] at there
  obtain ⟨old, found, rfl⟩ := Option.map_eq_some_iff.mp there
  by_cases same : n = m
  · subst same
    left
    rw [here] at found
    cases found
    simp
  · right
    rw [if_neg same]
    exact ⟨fun back => same back.symm, found⟩

/-- Two futures of one task are one. -/
theorem Inv.same_index (inv : Inv x w₀ s) {m : Nat} {f' : Future κ} (here : s.futures[n]? = some f)
    (there : s.futures[m]? = some f') (task : f.item.task = f'.item.task) : n = m := by
  obtain ⟨below, -⟩ := List.getElem?_eq_some_iff.mp here
  apply (List.getElem?_inj (by simpa using below) inv.distinct).mp
  rw [List.getElem?_map, List.getElem?_map, here, there]
  exact congrArg some task

/-- A future that is pending is that of a task that nothing has been done with. -/
theorem Inv.unbegun_of_pending (inv : Inv x w₀ s) {f : Future κ} (here : s.futures[n]? = some f)
    (pending : f.stage = .pending) : Unbegun w₀ f.item.task s.world := by
  apply inv.unbegun
  intro f' mem task
  obtain ⟨m, there⟩ := List.mem_iff_getElem?.mp mem
  obtain rfl := inv.same_index here there task.symm
  rw [here] at there
  cases there
  exact pending

/-- A future may be changed as long as it stays sound and its answers stay what they were. -/
theorem Inv.changed (inv : Inv x w₀ s) (here : s.futures[n]? = some f) (item : (g f).item = f.item)
    (pending : (g f).stage = .pending → f.stage = .pending) (sound : (g f).Sound x w₀ s.world)
    (agrees : ∀ answer, f.Agrees answer → (g f).Agrees answer) : Inv x w₀ (s.change n g) where
  distinct := by
    have tasks : (s.change n g).futures.map (fun f => f.item.task) =
        s.futures.map fun f => f.item.task := by
      apply List.ext_getElem?
      intro m
      rw [List.getElem?_map, List.getElem?_map, change_get, Option.map_map]
      cases found : s.futures[m]? with
      | none => rfl
      | some old =>
        by_cases same : n = m
        · subst same
          rw [here] at found
          cases found
          simp [item]
        · simp [same]
    rw [tasks]
    exact inv.distinct
  unbegun t all := by
    apply inv.unbegun t
    intro old mem task
    obtain ⟨m, there⟩ := List.mem_iff_getElem?.mp mem
    have after : (s.change n g).futures[m]? = some (if n = m then g old else old) := by
      rw [change_get, there]
      rfl
    have waits := all _ (List.mem_of_getElem? after)
    by_cases same : n = m
    · subst same
      rw [here] at there
      cases there
      rw [if_pos rfl, item] at waits
      exact pending (waits task)
    · rw [if_neg same] at waits
      exact waits task
  each f' mem := by
    obtain ⟨m, there⟩ := List.mem_iff_getElem?.mp mem
    rcases of_change here there with ⟨-, rfl⟩ | ⟨-, old⟩
    · exact sound
    · exact inv.each f' (List.mem_of_getElem? old)
  answers a mem := by
    obtain ⟨old, found, right⟩ := inv.answers a mem
    refine ⟨if n = a.1 then g old else old, ?_, ?_⟩
    · show (s.change n g).futures[a.1]? = _
      rw [change_get, found]
      rfl
    · by_cases same : n = a.1
      · rw [if_pos same]
        rw [← same, here] at found
        cases found
        exact agrees _ right
      · rw [if_neg same]
        exact right

/-- Noting the answer of `cancel()` keeps the invariant when the answer agrees with the stage. -/
theorem Inv.answering (inv : Inv x w₀ s) (here : s.futures[n]? = some f) {answer : Bool}
    (agrees : f.Agrees answer) : Inv x w₀ (s.answering n answer) where
  distinct := inv.distinct
  unbegun := inv.unbegun
  each := inv.each
  answers a mem := by
    rcases List.mem_append.mp mem with old | new
    · exact inv.answers a old
    · obtain rfl := List.mem_singleton.mp new
      exact ⟨f, here, agrees⟩

/-- A future that has not moved follows itself. -/
theorem Future.Follows.refl (f : Future κ) : f.Follows f := ⟨rfl, rfl, fun h => ⟨h, rfl⟩, fun _ h => h⟩

/-- Nothing has been left behind by no move. -/
theorem Leaves.refl (who : Who κ) (n : Nat) (f : Future κ) (w : World) : Leaves w₀ who n f f w w :=
  ⟨.refl f, fun _ => rfl, fun _ _ h => h, fun _ => rfl⟩

/-- Neither the futures nor the tasks are touched. -/
theorem Rely.same {a b : Shared κ} (who : Who κ) (futures : b.futures = a.futures)
    (world : b.world = a.world) : Rely w₀ who a b where
  kept n f here := by
    rw [futures, world]
    exact ⟨f, here, .refl who n f a.world⟩
  back n f' here own := by
    rw [futures] at here
    exact ⟨f', here, own⟩

/-- The others may do nothing. -/
theorem Rely.refl (who : Who κ) (s : Shared κ) : Rely w₀ who s s := .same who rfl rfl

/-- What another thread does to one future, and to nothing else. -/
theorem rely_changed (here : s.futures[n]? = some f) (follows : f.Follows (g f))
    (stage : Owns who n f → (g f).stage = f.stage) (added : f.submitter = who → (g f).added = f.added)
    (back : (g f).CancelledBy who → f.CancelledBy who) : Rely w₀ who s (s.change n g) where
  kept m old there := by
    refine ⟨if n = m then g old else old, by rw [change_get, there]; rfl, ?_⟩
    by_cases same : n = m
    · subst same
      rw [here] at there
      cases there
      rw [if_pos rfl]
      exact ⟨follows, stage, fun _ _ h => h, added⟩
    · rw [if_neg same]
      exact .refl ..
  back m f' there own := by
    rcases of_change here there with ⟨rfl, rfl⟩ | ⟨-, old⟩
    · exact ⟨f, here, back own⟩
    · exact ⟨f', old, own⟩

end Change

/-! ## One operation -/

section Operation

variable {x : Executor} {w₀ : World} {s : Shared κ} {n : Nat} {f : Future κ} {who beside : Who κ}

/-- Only one thread works on a task. -/
theorem Owns.unique {i j : Who κ} (h : Owns i n f) (h' : Owns j n f) : i = j := by
  rcases h with ⟨running, rfl⟩ | ⟨cancelled, own⟩
  · rcases h' with ⟨-, rfl⟩ | ⟨cancelled, -⟩
    · rfl
    · rw [running] at cancelled
      cases cancelled
  · rcases h' with ⟨running, -⟩ | ⟨-, own'⟩
    · rw [running] at cancelled
      cases cancelled
    · exact Option.some.inj (own.symm.trans own')

/-- Whoever owns a future's work has taken it: it is pending no more. -/
theorem Owns.not_pending (h : Owns who n f) : f.stage ≠ .pending := by
  intro pending
  rcases h with ⟨stage, -⟩ | ⟨stage, -⟩ <;> rw [pending] at stage <;> cases stage

/-- What a future says of its task is untouched by operations on other tasks. -/
theorem Future.Sound.elsewhere {o : TaskOp} {u : TaskId} (sound : f.Sound x w₀ s.world)
    (own : o.IsOf u) (apart : f.item.task ≠ u) : f.Sound x w₀ (o.perform x s.world).2 where
  finished r stage := (sound.finished r stage).other own apart
  watched := sound.watched
  cancelled := sound.cancelled
  uncalled stage := (callCount_other x own apart s.world).trans (sound.uncalled stage)

/-- A thread works on the task of a future that it owns. -/
theorem Inv.worked (inv : Inv x w₀ s) (here : s.futures[n]? = some f) (owns : Owns who n f)
    {o : TaskOp} (own : o.IsOf f.item.task) (quiet : f.stage = .cancelled → o.isCall = false) :
    Inv x w₀ { s with world := (o.perform x s.world).2 } where
  distinct := inv.distinct
  unbegun t all := by
    refine (inv.unbegun t all).other own ?_
    rintro rfl
    exact owns.not_pending (all f (List.mem_of_getElem? here) rfl)
  each f' mem := by
    have sound := inv.each f' mem
    obtain ⟨m, there⟩ := List.mem_iff_getElem?.mp mem
    by_cases same : f'.item.task = f.item.task
    · obtain rfl := inv.same_index here there same.symm
      rw [here] at there
      cases there
      refine ⟨fun r finished => ?_, sound.watched, sound.cancelled, fun cancelled => ?_⟩
      · rcases owns with ⟨stage, -⟩ | ⟨stage, -⟩ <;> rw [finished] at stage <;> cases stage
      · exact (TaskOp.callCount_of_not_isCall x _ (quiet cancelled) s.world).trans
          (sound.uncalled cancelled)
    · exact sound.elsewhere own same
  answers := inv.answers

/-- A worker's operation on the task it owns is a move that the others expect. -/
theorem rely_worked (inv : Inv x w₀ s) (here : s.futures[n]? = some f) (owns : Owns who n f)
    {o : TaskOp} (own : o.IsOf f.item.task) (ne : beside ≠ who) :
    Rely w₀ beside s { s with world := (o.perform x s.world).2 } where
  kept m f' there := by
    refine ⟨f', there, .refl f', fun _ => rfl, fun owns' ws alone => ?_, fun _ => rfl⟩
    refine alone.other own fun same => ?_
    obtain rfl := inv.same_index here there same.symm
    rw [here] at there
    cases there
    exact ne (owns'.unique owns)
  back _ f' there own := ⟨f', there, own⟩

/-- A new future keeps the invariant. -/
theorem Inv.submitted (inv : Inv x w₀ s) {item : WorkItem} (new : New (.submit item) s) :
    Inv x w₀ { s with futures := s.futures ++ [{ item, submitter := who }] } where
  distinct := by
    rw [List.map_append]
    refine List.nodup_append.mpr ⟨inv.distinct, List.nodup_singleton _, ?_⟩
    intro t mem t' mem'
    obtain ⟨f, here, rfl⟩ := List.mem_map.mp mem
    obtain rfl := List.mem_singleton.mp mem'
    exact new f here
  unbegun t all := inv.unbegun t fun f mem => all f (List.mem_append_left _ mem)
  each f' mem := by
    rcases List.mem_append.mp mem with old | fresh
    · exact inv.each f' old
    · obtain rfl := List.mem_singleton.mp fresh
      constructor
      · intro r stage
        cases stage
      · intro added
        cases added
      · intro stage
        cases stage
      · intro stage
        cases stage
  answers a mem := by
    obtain ⟨f', found, right⟩ := inv.answers a mem
    obtain ⟨below, -⟩ := List.getElem?_eq_some_iff.mp found
    refine ⟨f', ?_, right⟩
    show (s.futures ++ _)[a.1]? = some f'
    rw [List.getElem?_append_left below]
    exact found

/-- After a submission the futures are the old ones and the new one. -/
theorem of_submitted {new f' : Future κ} {m : Nat} (there : (s.futures ++ [new])[m]? = some f') :
    s.futures[m]? = some f' ∨ f' = new := by
  rw [List.getElem?_append] at there
  split at there
  · exact .inl there
  · exact .inr (List.mem_singleton.mp (List.mem_of_getElem? there))

/-- A submission is a move that the others expect. -/
theorem rely_submitted {item : WorkItem} :
    Rely w₀ beside s { s with futures := s.futures ++ [{ item, submitter := who }] } where
  kept m f' there := by
    obtain ⟨below, -⟩ := List.getElem?_eq_some_iff.mp there
    refine ⟨f', ?_, .refl ..⟩
    show (s.futures ++ _)[m]? = some f'
    rw [List.getElem?_append_left below]
    exact there
  back m f' there own := by
    rcases of_submitted there with found | rfl
    · exact ⟨f', found, own⟩
    · cases own.1

/-- What `add_done_callback` answers and leaves, at a future that is there. -/
theorem addDoneCallback_here (here : s.futures[n]? = some f) :
    addDoneCallback n s = (f.stage.isDone,
      s.change n fun f => { f with added := true, watched := !f.stage.isDone }) := by
  rw [addDoneCallback, here]

/-- `add_done_callback` keeps the invariant, and is a move that the others expect. -/
theorem addDoneCallback_spec (inv : Inv x w₀ s) (here : s.futures[n]? = some f)
    (mine : f.submitter = who) :
    Inv x w₀ (addDoneCallback n s).2 ∧
      ∀ beside, beside ≠ who → Rely w₀ beside s (addDoneCallback n s).2 := by
  have sound := inv.each f (List.mem_of_getElem? here)
  rw [addDoneCallback_here here]
  refine ⟨inv.changed here rfl id ?_ fun _ => id, fun beside ne => ?_⟩
  · refine ⟨sound.finished, fun _ pending => ?_, fun cancelled => ⟨rfl, (sound.cancelled cancelled).2⟩,
      sound.uncalled⟩
    show (!f.stage.isDone) = true
    rw [show f.stage = .pending from pending]
    rfl
  · refine rely_changed here ⟨rfl, rfl, fun h => ⟨h, rfl⟩, fun _ h => h⟩ (fun _ => rfl) ?_ id
    intro own
    exact absurd (own.symm.trans mine) ne

/-- A future that is not done may end in any way, as long as it stays the same call. -/
theorem Future.Follows.of_not_done {f' : Future κ} (unsettled : f.stage.isDone = false)
    (item : f'.item = f.item) (submitter : f'.submitter = f.submitter) : f.Follows f' := by
  refine ⟨item, submitter, fun cancelled => ?_, fun r finished => ?_⟩
  · rw [cancelled] at unsettled
    cases unsettled
  · rw [finished] at unsettled
    cases unsettled

/-- Nobody has been answered about a future that is still pending. -/
theorem Future.Agrees.not_pending {answer : Bool} (agrees : f.Agrees answer) :
    f.stage ≠ .pending := by
  intro pending
  cases answer with
  | true => cases pending.symm.trans agrees
  | false =>
    rcases agrees with running | ⟨r, finished⟩
    · cases pending.symm.trans running
    · cases pending.symm.trans finished

/-- Cancelling a pending future ends it, and its callbacks are run at once. -/
theorem cancelFuture_pending (here : s.futures[n]? = some f) (pending : f.stage = .pending) :
    cancelFuture who n s = (.now f.callback, (s.change n fun f =>
      { f with stage := .cancelled, canceller := some who }).answering n true) := by
  rw [cancelFuture, here]
  simp only [pending]

/-- Cancelling a future that is pending no more only answers, as its stage has it. -/
theorem cancelFuture_late (who : Who κ) (here : s.futures[n]? = some f) (late : f.stage ≠ .pending) :
    ∃ answer, f.Agrees answer ∧ cancelFuture who n s =
      (if answer then .already else .refused, s.answering n answer) := by
  rw [cancelFuture, here]
  cases stage : f.stage with
  | pending => exact absurd stage late
  | running => exact ⟨false, .inl stage, by simp only [stage]; rfl⟩
  | cancelled => exact ⟨true, stage, by simp only [stage]; rfl⟩
  | finished r => exact ⟨false, .inr ⟨r, stage⟩, by simp only [stage]; rfl⟩

/-- `cancel()` of a future keeps the invariant, and is a move that the others expect. -/
theorem cancelFuture_spec (inv : Inv x w₀ s) (here : s.futures[n]? = some f)
    (added : f.added = true) {k : κ} (outside : who = .outside k) :
    Inv x w₀ (cancelFuture who n s).2 ∧
      ∀ beside, beside ≠ who → Rely w₀ beside s (cancelFuture who n s).2 := by
  by_cases pending : f.stage = .pending
  · rw [cancelFuture_pending here pending]
    refine ⟨Inv.answering (inv.changed here rfl ?_ ?_ ?_) (change_here here) rfl, fun beside ne => ?_⟩
    · intro back
      cases back
    · refine ⟨fun r finished => ?_, fun _ back => ?_, fun _ => ⟨added, k, congrArg some outside⟩,
        fun _ => (inv.unbegun_of_pending here pending).calls.symm⟩
      · cases finished
      · cases back
    · exact fun answer agrees => absurd pending agrees.not_pending
    · have moved : Rely w₀ beside s
          (s.change n fun f => { f with stage := .cancelled, canceller := some who }) := by
        refine rely_changed here (.of_not_done ?_ rfl rfl) (fun owns => ?_) (fun _ => rfl) fun own => ?_
        · rw [pending]
          rfl
        · exact absurd pending owns.not_pending
        · exact absurd (Option.some.inj own.2).symm ne
      exact ⟨moved.kept, moved.back⟩
  · obtain ⟨answer, agrees, late⟩ := cancelFuture_late who here pending
    rw [late]
    exact ⟨inv.answering here agrees, fun beside _ => .same beside rfl rfl⟩

/-- Starting a pending future hands out its work. -/
theorem startFuture_pending (here : s.futures[n]? = some f) (pending : f.stage = .pending) :
    startFuture n s = (some f.item, s.change n fun f => { f with stage := .running }) := by
  rw [startFuture, here]
  simp only [pending]

/-- Starting a future that is pending no more hands out nothing. -/
theorem startFuture_late (here : s.futures[n]? = some f) (late : f.stage ≠ .pending) :
    startFuture n s = (none, s) := by
  rw [startFuture, here]
  cases stage : f.stage with
  | pending => exact absurd stage late
  | running | cancelled | finished r => simp only [stage]

/-- Starting a future keeps the invariant, and is a move that the others expect. -/
theorem startFuture_spec (inv : Inv x w₀ s) :
    Inv x w₀ (startFuture n s).2 ∧ ∀ beside : Who κ, Rely w₀ beside s (startFuture n s).2 := by
  cases here : s.futures[n]? with
  | none =>
    rw [startFuture, here]
    exact ⟨inv, fun beside => .refl beside s⟩
  | some f =>
    by_cases pending : f.stage = .pending
    · rw [startFuture_pending here pending]
      refine ⟨inv.changed here rfl ?_ ?_ ?_, fun beside => ?_⟩
      · intro back
        cases back
      · refine ⟨fun r finished => ?_, fun _ back => ?_, fun cancelled => ?_, fun cancelled => ?_⟩
        · cases finished
        · cases back
        · cases cancelled
        · cases cancelled
      · exact fun answer agrees => absurd pending agrees.not_pending
      · refine rely_changed here (.of_not_done ?_ rfl rfl) (fun owns => ?_) (fun _ => rfl) fun own => ?_
        · rw [pending]
          rfl
        · exact absurd pending owns.not_pending
        · cases own.1
    · rw [startFuture_late here pending]
      exact ⟨inv, fun beside => .refl beside s⟩

/-- A running future ends with the result of its work, which ran as if alone. -/
theorem finish_spec (inv : Inv x w₀ s) (here : s.futures[n]? = some f) (running : f.stage = .running)
    {r : Except Exc TaskResult}
    (ran : AsAlone x w₀ f.item.task (fun x => executeSubmitted x f.item) r s.world) :
    Inv x w₀ (s.change n fun f => { f with stage := .finished r }) ∧
      ∀ beside, beside ≠ .work n →
        Rely w₀ beside s (s.change n fun f => { f with stage := .finished r }) := by
  refine ⟨inv.changed here rfl ?_ ?_ ?_, fun beside ne => ?_⟩
  · intro pending
    cases pending
  · refine ⟨fun r' finished => ?_, fun _ pending => ?_, fun cancelled => ?_, fun cancelled => ?_⟩
    · cases finished
      exact ran
    · cases pending
    · cases cancelled
    · cases cancelled
  · intro answer agrees
    cases answer with
    | true => cases running.symm.trans agrees
    | false => exact .inr ⟨r, rfl⟩
  · refine rely_changed here (.of_not_done ?_ rfl rfl) (fun owns => ?_) (fun _ => rfl) fun own => ?_
    · rw [running]
      rfl
    · exact absurd (owns.unique (.inl ⟨running, rfl⟩)) ne
    · cases own.1

/-- An operation that keeps the guarantee keeps the invariant, and leaves the other threads what is
theirs. -/
theorem sem_spec {o : Op} (inv : Inv x w₀ s) (guar : Guar x w₀ who o s) :
    Inv x w₀ (sem x who o s).2 ∧ ∀ beside, beside ≠ who → Rely w₀ beside s (sem x who o s).2 := by
  cases o with
  | submit item =>
    simp only [sem]
    split
    · exact ⟨inv, fun beside _ => .refl beside s⟩
    · exact ⟨inv.submitted guar, fun beside _ => rely_submitted⟩
  | addDoneCallback n =>
    obtain ⟨f, here, mine, -⟩ := guar
    exact addDoneCallback_spec inv here mine
  | cancelFuture n =>
    obtain ⟨⟨k, outside⟩, f, here, added⟩ := guar
    exact cancelFuture_spec inv here added outside
  | start n => exact ⟨(startFuture_spec inv).1, fun beside _ => (startFuture_spec inv).2 beside⟩
  | finish n r =>
    obtain ⟨rfl, f, here, running, ran⟩ := guar
    exact finish_spec inv here running ran
  | task o =>
    obtain ⟨n, f, here, owns, own, quiet⟩ := guar
    exact ⟨inv.worked here owns own quiet, fun beside ne => rely_worked inv here owns own ne⟩
  | close =>
    exact ⟨⟨inv.distinct, inv.unbegun, inv.each, inv.answers⟩, fun beside _ => .same beside rfl rfl⟩
  | cancelled n => exact ⟨inv, fun beside _ => .refl beside s⟩
  | shutdownWait => exact ⟨inv, fun beside _ => .refl beside s⟩

/-- Following is transitive. -/
theorem Future.Follows.trans {f' f'' : Future κ} (h : f.Follows f') (h' : f'.Follows f'') :
    f.Follows f'' where
  item := h'.item.trans h.item
  submitter := h'.submitter.trans h.submitter
  cancelled stage := by
    obtain ⟨stage', same⟩ := h.cancelled stage
    obtain ⟨stage'', same'⟩ := h'.cancelled stage'
    exact ⟨stage'', same'.trans same⟩
  finished r stage := h'.finished r (h.finished r stage)

/-- Ownership lasts as long as the stage does. -/
theorem Owns.follows {f' : Future κ} (owns : Owns who n f) (follows : f.Follows f')
    (stage : f'.stage = f.stage) : Owns who n f' := by
  rcases owns with ⟨running, rfl⟩ | ⟨cancelled, own⟩
  · exact .inl ⟨stage.trans running, rfl⟩
  · obtain ⟨stage', same⟩ := follows.cancelled cancelled
    exact .inr ⟨stage', same.trans own⟩

/-- What one stretch leaves and the next leaves, both together leave. -/
theorem Leaves.trans {f' f'' : Future κ} {w w' w'' : World} (h : Leaves w₀ who n f f' w w')
    (h' : Leaves w₀ who n f' f'' w' w'') : Leaves w₀ who n f f'' w w'' := by
  have kept : Owns who n f → Owns who n f' := fun owns => owns.follows h.follows (h.stage owns)
  refine ⟨h.follows.trans h'.follows, ?_, ?_, ?_⟩
  · exact fun owns => (h'.stage (kept owns)).trans (h.stage owns)
  · intro owns ws alone
    have later := h'.task (kept owns) ws
    rw [h.follows.item] at later
    exact later (h.task owns ws alone)
  · intro mine
    exact (h'.added (h.follows.submitter.trans mine)).trans (h.added mine)

/-- Two stretches of moves by the others are one. -/
theorem Rely.trans {a b c : Shared κ} (h : Rely w₀ who a b) (h' : Rely w₀ who b c) :
    Rely w₀ who a c where
  kept n f here := by
    obtain ⟨f', here', leaves⟩ := h.kept n f here
    obtain ⟨f'', here'', leaves'⟩ := h'.kept n f' here'
    exact ⟨f'', here'', leaves.trans leaves'⟩
  back n f'' here'' own := by
    obtain ⟨f', here', own'⟩ := h'.back n f'' here'' own
    exact h.back n f' here' own'

end Operation

end TTasks.Futures
