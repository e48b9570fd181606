import TTasks.Laws.Events.Bus
import TTasks.Laws.Executor.Run
import TTasks.Laws.Observers.Methods

/-!
# What observers leave as it is

No `emit` raises, so an operation that publishes is the operation itself with the bus beside it
(`emitting`). An operation on the way does with observers what it does without them, and a save shows
in nothing but the store, its record and its announcement. So every operation of an executor has the
same value or exception, and leaves the same world, whatever its observers do.
-/

namespace TTasks

open Interleave
open Prog (Detours)

variable {α κ : Type}

/-! ## The bus -/

section Bus

variable {Op σ : Type} {Ans : Op → Type} (S : Events.Subscribers α TaskEvent κ)
  (event? : Op → Option TaskEvent) (sem : (op : Op) → σ → Ans op × σ)

/-- The operation, with the bus that its event goes to. -/
def emitting (op : Op) (s : σ × Bus α) : Ans op × (σ × Bus α) :=
  ((sem op s.1).1, (sem op s.1).2, match event? op with
    | none => s.2
    | some event => (Events.emit S event s.2).2)

/-- Whatever the subscribers raise, the operation does not. -/
theorem calm_publishing :
    Prog.Calm (ε := Exc) (emitting S event? sem) (publishing S event? sem) := by
  refine ⟨fun op s => ?_⟩
  unfold publishing emitting
  cases event? op with
  | none => rfl
  | some event =>
    obtain ⟨ok, -⟩ := Events.emit_spec S event s.2
    have split : Events.emit S event s.2 = (.ok (), (Events.emit S event s.2).2) := Prod.ext ok rfl
    dsimp only
    rw [split]

/-- Every subscriber has heard every event since, and the subscribers are the same. -/
structure Hears (w w' : World) (bus bus' : Bus α) : Prop where
  heard : Heard w w' bus bus'
  subscribers : bus'.bus.subscribers = bus.bus.subscribers

theorem Hears.refl (w : World) (bus : Bus α) : Hears w w bus bus := ⟨⟨[], by simp, by simp⟩, rfl⟩

variable {S event? sem}

/-- An operation delivers its event to the world and to the bus. -/
theorem Hears.step {w : World} {bus : Bus α} (world : σ → World) {op : Op} {s : σ × Bus α}
    (adds : (world (sem op s.1).2).deliveries.map Delivery.event =
      (world s.1).deliveries.map Delivery.event ++ (event? op).toList)
    (h : Hears w (world s.1) bus s.2) :
    Hears w (world (emitting S event? sem op s).2.1) bus (emitting S event? sem op s).2.2 := by
  obtain ⟨⟨events, delivered, called⟩, subscribers⟩ := h
  refine ⟨⟨events ++ (event? op).toList, ?_, ?_⟩, ?_⟩
  · change (world (sem op s.1).2).deliveries.map Delivery.event = _
    rw [adds, delivered, List.append_assoc]
  · unfold emitting
    cases event? op with
    | none => simpa using called
    | some event =>
      obtain ⟨-, emitted⟩ := Events.emit_spec S event s.2
      dsimp only
      rw [emitted.calls, called, subscribers]
      simp
  · unfold emitting
    cases event? op with
    | none => exact subscribers
    | some event =>
      obtain ⟨-, emitted⟩ := Events.emit_spec S event s.2
      exact emitted.subscribers.trans subscribers

end Bus

/-! ## One operation -/

section Perform

variable (x : Executor) (o : TaskOp) (w : World)

/-- Without observers the operation answers alike, and leaves the bare world. -/
theorem TaskOp.perform_bare (onWay : o.OnWay) :
    o.perform x.bare w.bare = ((o.perform x w).1, (o.perform x w).2.bare) := by
  cases o with
  | save t => exact onWay.elim
  | recordSaveError t e => exact onWay.elim
  | transition t target message =>
    have tasks : w.bare.tasks = w.tasks := rfl
    simp only [perform, tasks]
    cases (w.tasks t).transitionTo target message <;> rfl
  | deliver t event =>
    have kept : event.isAnnouncement = false := onWay
    simp [perform, World.bare, kept]
  | _ => rfl

/-- Every delivery goes to the bus. -/
theorem TaskOp.perform_deliveries :
    (o.perform x w).2.deliveries.map Delivery.event =
      w.deliveries.map Delivery.event ++ o.event?.toList := by
  cases o with
  | transition t target message =>
    unfold perform
    dsimp only
    cases (w.tasks t).transitionTo target message <;> simp [event?]
  | save t =>
    unfold perform
    dsimp only
    cases x.saveFails w.saves <;> simp [event?, World.setStored]
  | deliver t event => simp [perform, event?]
  | _ => simp [perform, event?]

/-- The operation leaves the notes of the saves as they are. -/
structure Unnoted (w w' : World) : Prop where
  saves : w'.saves = w.saves
  errors : w'.persistenceErrors = w.persistenceErrors
  announcements : w'.announcements = w.announcements

theorem TaskOp.perform_unnoted (onWay : o.OnWay) : Unnoted w (o.perform x w).2 := by
  cases o with
  | save t => exact onWay.elim
  | recordSaveError t e => exact onWay.elim
  | transition t target message =>
    unfold perform
    dsimp only
    cases (w.tasks t).transitionTo target message <;> exact ⟨rfl, rfl, rfl⟩
  | deliver t event =>
    have kept : event.isAnnouncement = false := onWay
    exact ⟨rfl, rfl, by simp [perform, World.announcements, kept]⟩
  | _ => exact ⟨rfl, rfl, rfl⟩

end Perform

/-! ## A save -/

/-- What the saves since `w` have left: in sequence, each failure has its entry and its
announcement. -/
structure Noted (fails : Nat → Option Exc) (w w' : World) : Prop where
  saves : w.saves ≤ w'.saves
  errors : w'.persistenceErrors.map Prod.snd =
    w.persistenceErrors.map Prod.snd ++ failures fails w.saves w'.saves
  announcements : w'.announcements =
    w.announcements ++ (failures fails w.saves w'.saves).map fun e => some e.text

theorem Noted.refl (fails : Nat → Option Exc) (w : World) : Noted fails w w := by
  constructor <;> simp [failures]

theorem Noted.unnoted {fails : Nat → Option Exc} {w w' w'' : World} (h : Noted fails w w')
    (same : Unnoted w' w'') : Noted fails w w'' := by
  obtain ⟨saves, errors, announcements⟩ := same
  refine ⟨saves ▸ h.saves, ?_, ?_⟩
  · rw [errors, saves]
    exact h.errors
  · rw [announcements, saves]
    exact h.announcements

theorem Noted.recorded {fails : Nat → Option Exc} {w w' : World} (h : Noted fails w w') :
    Recorded fails w w' := ⟨.of_eq h.errors, .of_eq h.announcements⟩

/-- One more save. -/
theorem failures_succ (fails : Nat → Option Exc) {n m : Nat} (le : n ≤ m) :
    failures fails n (m + 1) = failures fails n m ++ (fails m).toList := by
  unfold failures
  rw [List.Ico.succ_top le, List.filterMap_append]
  rfl

/-- An operation of a save: the save, the record of its failure, the announcement, and the status read
that goes into that. -/
def TaskOp.OfSave : TaskOp → Prop
  | .save _ | .recordSaveError _ _ | .status _ => True
  | .deliver _ event => event.isAnnouncement = true
  | _ => False

/-- It does not show in the bare world. -/
theorem TaskOp.perform_unseen {o : TaskOp} (save : o.OfSave) (x : Executor) (w : World) :
    (o.perform x w).2.bare = w.bare := by
  cases o with
  | save t =>
    simp only [perform]
    cases x.saveFails w.saves <;> rfl
  | recordSaveError t e => rfl
  | status t => rfl
  | deliver t event =>
    have announces : event.isAnnouncement = true := save
    simp [perform, World.bare, announces]
  | _ => exact save.elim

/-- A save leaves the bare world, and a failure has its entry and its announcement. -/
theorem World.persisted_bare (w : World) (x : Executor) (t : TaskId) :
    (w.persisted x t).bare = w.bare := by
  unfold persisted
  split
  · split
    · rfl
    · simp [bare, TaskEvent.isAnnouncement]
  · rfl

theorem Noted.persisted {x : Executor} {w₀ w : World} (h : Noted x.saveFails w₀ w) (t : TaskId) :
    Noted x.saveFails w₀ (w.persisted x t) := by
  have more := failures_succ x.saveFails h.saves
  have errors := h.errors
  have announcements := h.announcements
  unfold World.persisted
  split
  · cases fails : x.saveFails w.saves with
    | none =>
      rw [fails, Option.toList_none, List.append_nil] at more
      refine ⟨Nat.le_succ_of_le h.saves, ?_, ?_⟩
      · change w.persistenceErrors.map Prod.snd = _ ++ failures x.saveFails w₀.saves (w.saves + 1)
        rw [more, errors]
      · change w.announcements = _ ++ (failures x.saveFails w₀.saves (w.saves + 1)).map _
        rw [more, announcements]
    | some e =>
      rw [fails, Option.toList_some] at more
      refine ⟨Nat.le_succ_of_le h.saves, ?_, ?_⟩
      · dsimp only
        rw [more, List.map_append, errors, List.append_assoc]
        rfl
      · dsimp only
        rw [more, List.map_append, ← List.append_assoc, ← announcements]
        simp [World.announcements, TaskEvent.isAnnouncement]
  · exact h

/-! ## Whole operations -/

section Whole

variable {Op σ : Type} {Ans : Op → Type} (S : Events.Subscribers α TaskEvent κ)
  (event? : Op → Option TaskEvent) (sem : (op : Op) → σ → Ans op × σ) {β : Type}

/-- The bus is beside a program's run. -/
theorem run_emitting (p : Prog Ans Exc β) (s : σ × Bus α) :
    (p.run (emitting S event? sem) s).1 = (p.run sem s.1).1 ∧
      (p.run (emitting S event? sem) s).2.1 = (p.run sem s.1).2 := by
  induction p generalizing s with
  | ret a => exact ⟨rfl, rfl⟩
  | fail e => exact ⟨rfl, rfl⟩
  | act o k ih => exact ih _ (emitting S event? sem o s).2

theorem hears_run (x : Executor) (p : Exec β) {w : World} {bus : Bus α} {s : World × Bus α}
    (h : Hears w s.1 bus s.2) :
    Hears w (p.run (emitting S TaskOp.event? (TaskOp.perform x)) s).2.1 bus
      (p.run (emitting S TaskOp.event? (TaskOp.perform x)) s).2.2 := by
  induction p generalizing s with
  | ret a => exact h
  | fail e => exact h
  | act o k ih => exact ih _ (h.step id (o.perform_deliveries x s.1))

end Whole

/-- An operation with saves and without: the same value or exception, and the same bare world. -/
theorem program_bare (x : Executor) (t : TaskId) (operation : Operation) {w₀ w : World}
    (noted : Noted x.saveFails w₀ w) :
    let ran := x.run (operation.program x t) w
    let bare := x.bare.run (operation.program x.bare t) w.bare
    ran.1 = bare.1 ∧ bare.2 = ran.2.bare ∧ Noted x.saveFails w₀ ran.2 := by
  refine Detours.run (R := fun w b => b = w.bare ∧ Noted x.saveFails w₀ w) ?_ ?_
    (detoured_program operation) ⟨rfl, noted⟩
  · rintro o w _ onWay ⟨rfl, noted⟩
    rw [o.perform_bare x w onWay]
    exact ⟨rfl, rfl, noted.unnoted (o.perform_unnoted x w onWay)⟩
  · rintro _ w _ ⟨-, u, rfl⟩ ⟨rfl, noted⟩
    have ran := Executor.run_persist x u w
    unfold Executor.run at ran
    rw [ran]
    exact ⟨rfl, (w.persisted_bare x u).symm, noted.persisted u⟩

namespace Observers

variable (o : Observers α κ)

/-- The calls on an executor without observers. -/
def bareRequest (q : TaskId × Call) (w : World) : Except Exc (Option TaskResult) × World :=
  q.2.executor.bare.run (q.2.operation.program q.2.executor.bare q.1) w

/-- One call, with its observers and without. -/
theorem request_bare (q : TaskId × Call) {w₀ : World} {bus : Bus α} {s : World × Bus α}
    (noted : Noted o.saveFails w₀ s.1) (hears : Hears w₀ s.1 bus s.2) :
    (o.request q s).1 = (bareRequest q s.1.bare).1 ∧
      (bareRequest q s.1.bare).2 = (o.request q s).2.1.bare ∧
      Noted o.saveFails w₀ (o.request q s).2.1 ∧
      Hears w₀ (o.request q s).2.1 bus (o.request q s).2.2 := by
  let x := o.watch q.2.executor
  obtain ⟨value, world⟩ := run_emitting o.subscribers TaskOp.event? (TaskOp.perform x)
    (q.2.operation.program x q.1) s
  have alike : o.request q s =
      (q.2.operation.program x q.1).run (emitting o.subscribers TaskOp.event? (TaskOp.perform x)) s :=
    Prog.run_raising (calm_publishing _ _ _) _ s
  obtain ⟨same, bare, noted'⟩ := program_bare x q.1 q.2.operation noted
  rw [alike]
  refine ⟨value.trans same, ?_, ?_, hears_run o.subscribers x _ hears⟩
  · rw [world]
    exact bare
  · rw [world]
    exact noted'

/-- A sequence of calls, with its observers and without. -/
theorem requests_bare (calls : List (TaskId × Call)) (w : World) (bus : Bus α) :
    let s := o.requests calls (w, bus)
    let bare := Relational.session bareRequest calls w.bare
    s.1 = bare.1 ∧ bare.2 = s.2.1.bare ∧ Noted o.saveFails w s.2.1 ∧ Hears w s.2.1 bus s.2.2 := by
  refine Relational.session_simulates
    (R := fun (s : World × Bus α) (b : World) =>
      b = s.1.bare ∧ Noted o.saveFails w s.1 ∧ Hears w s.1 bus s.2) ?_ calls
    ⟨rfl, .refl _ _, .refl _ _⟩
  rintro q s _ ⟨rfl, noted, hears⟩
  exact o.request_bare q noted hears

end Observers

end TTasks
