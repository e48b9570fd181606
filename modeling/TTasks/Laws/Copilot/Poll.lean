import TTasks.Copilot

/-!
# Leaving the polling loop

A future that holds a `TimeoutError` looks to the loop like one that is not done, and one that is
in flight when the event loop stops is never done. In both cases only the task's cancellation lets
the loop go.
-/

namespace TTasks.Copilot

/-! ## What the world keeps -/

/-- What no event takes back. -/
structure Keeps (s s' : Session) : Prop where
  future : s.future ≠ .pending → s'.future = s.future
  cancelled : s.cancelled = true → s'.cancelled = true
  stopped : s.running = false → s'.running = false
  inFlight : s.running = false → s'.future = s.future

theorem Keeps.refl (s : Session) : Keeps s s := ⟨fun _ => rfl, id, id, fun _ => rfl⟩

theorem Keeps.trans {a b c : Session} (h : Keeps a b) (h' : Keeps b c) : Keeps a c where
  future done := by
    rw [h'.future (by rwa [h.future done]), h.future done]
  cancelled cancelled := h'.cancelled (h.cancelled cancelled)
  stopped stopped := h'.stopped (h.stopped stopped)
  inFlight stopped := (h'.inFlight (h.stopped stopped)).trans (h.inFlight stopped)

theorem apply_keeps (e : Event) (s : Session) : Keeps s (e.apply s) := by
  cases e with
  | complete future =>
    dsimp only [Event.apply]
    split
    · rename_i open'
      refine ⟨fun done => absurd open'.1 done, id, id, fun stopped => ?_⟩
      rw [open'.2] at stopped
      cases stopped
    · exact .refl s
  | cancelTask => exact ⟨fun _ => rfl, fun _ => rfl, id, fun _ => rfl⟩
  | stopLoop => exact ⟨fun _ => rfl, id, fun _ => rfl, fun _ => rfl⟩

theorem Moves.keeps {s s' : Session} (moves : Moves s s') : Keeps s s' := by
  obtain ⟨events, rfl⟩ := moves
  induction events generalizing s with
  | nil => exact .refl s
  | cons e events ih => exact (apply_keeps e s).trans ih

theorem Run.keeps (w : Run) {m m' : Nat} (later : m ≤ m') : Keeps (w.moment m) (w.moment m') := by
  induction later with
  | refl => exact .refl _
  | step _ ih => exact ih.trans (w.moves _).keeps

/-! ## Iterations -/

variable {id : TaskId} {abort : Option Exc} {w : Run}

/-- An iteration goes on exactly when it finds the future pending, or with a `TimeoutError`, and the
task not cancelled. -/
theorem iteration_eq_none {polled checked : Session} :
    iteration id abort polled checked = none ↔
      (polled.future = .pending ∨ ∃ message, polled.future = .raised (.timeoutError message)) ∧
        checked.cancelled = false := by
  unfold iteration
  split <;> rename_i found <;> rw [found] <;> cases checked.cancelled <;> simp

/-- The first iteration that does not go on leaves the loop. -/
theorem leaves_of_iteration {n : Nat} (leaves : w.iteration id abort n ≠ none) :
    ∃ k ≤ n, ∃ result, w.Leaves id abort k result := by
  induction n using Nat.strong_induction_on with
  | _ n ih =>
    by_cases earlier : ∃ k < n, w.iteration id abort k ≠ none
    · obtain ⟨k, before, leaves'⟩ := earlier
      obtain ⟨j, upTo, result, left⟩ := ih k before leaves'
      exact ⟨j, upTo.trans before.le, result, left⟩
    · obtain ⟨result, ends⟩ := Option.ne_none_iff_exists'.mp leaves
      refine ⟨n, le_rfl, result, ends, fun k before => ?_⟩
      by_contra goes
      exact earlier ⟨k, before, goes⟩

/-- The loop as it is run, with enough fuel, comes to the iteration that leaves it. -/
theorem Run.Leaves.loop {n : Nat} {result : Except Exc String} (left : w.Leaves id abort n result) :
    w.loop id abort (n + 1) = some result := by
  have before : (List.range n).findSome? (w.iteration id abort) = none := by
    rw [List.findSome?_eq_none_iff]
    intro k mem
    exact left.2 k (List.mem_range.mp mem)
  rw [Run.loop, List.range_succ, List.findSome?_append, before, Option.none_or,
    List.findSome?_singleton, left.1]

/-! ## When the loop is left -/

/-- The loop is left within one iteration after its future is done. -/
def Prompt (id : TaskId) (abort : Option Exc) (w : Run) : Prop :=
  ∀ n, (w.moment (2 * n)).future ≠ .pending → ∃ k ≤ n, ∃ result, w.Leaves id abort k result

/-- The loop is left when the event loop has stopped with the turn in flight. -/
def Released (id : TaskId) (abort : Option Exc) (w : Run) : Prop :=
  ∀ m, (w.moment m).running = false → (w.moment m).future = .pending →
    ∃ n result, w.Leaves id abort n result

theorem prompt_iff : Prompt id abort w ↔
    ∀ n message, (w.moment (2 * n)).future = .raised (.timeoutError message) →
      (w.moment (2 * n + 1)).cancelled = true := by
  constructor
  · intro prompt n message timedOut
    obtain ⟨k, upTo, result, left, -⟩ := prompt n (by rw [timedOut]; simp)
    -- the iteration that leaves found the future pending or timed out, so the task was cancelled
    have found : (w.moment (2 * k)).future = .pending ∨
        ∃ m, (w.moment (2 * k)).future = .raised (.timeoutError m) := by
      by_cases pending : (w.moment (2 * k)).future = .pending
      · exact .inl pending
      · right
        have same := (w.keeps (show 2 * k ≤ 2 * n by omega)).future pending
        exact ⟨message, same.symm.trans timedOut⟩
    by_contra notCancelled
    have before : (w.moment (2 * k + 1)).cancelled = false := by
      by_contra cancelled
      exact notCancelled ((w.keeps (show 2 * k + 1 ≤ 2 * n + 1 by omega)).cancelled
        (Bool.not_eq_false _ ▸ cancelled))
    have goesOn : w.iteration id abort k = none := iteration_eq_none.mpr ⟨found, before⟩
    rw [goesOn] at left
    cases left
  · intro cancelled n done
    apply leaves_of_iteration
    intro goesOn
    obtain ⟨found, notCancelled⟩ := iteration_eq_none.mp goesOn
    rcases found with pending | ⟨message, timedOut⟩
    · exact done pending
    · rw [cancelled n message timedOut] at notCancelled
      cases notCancelled

theorem released_iff : Released id abort w ↔
    ∀ m, (w.moment m).running = false → (w.moment m).future = .pending →
      ∃ t, (w.moment t).cancelled = true := by
  constructor
  · intro released m stopped pending
    obtain ⟨n, result, left, -⟩ := released m stopped pending
    -- the turn is in flight in every iteration
    have inFlight : (w.moment (2 * n)).future = .pending := by
      rcases Nat.le_total m (2 * n) with later | earlier
      · exact ((w.keeps later).inFlight stopped).trans pending
      · by_contra done
        exact done (((w.keeps earlier).future done).symm.trans pending)
    refine ⟨2 * n + 1, ?_⟩
    by_contra notCancelled
    have goesOn : w.iteration id abort n = none :=
      iteration_eq_none.mpr ⟨.inl inFlight, Bool.eq_false_iff.mpr notCancelled⟩
    rw [goesOn] at left
    cases left
  · intro cancelled m stopped pending
    obtain ⟨t, here⟩ := cancelled m stopped pending
    have later : (w.moment (2 * t + 1)).cancelled = true :=
      (w.keeps (show t ≤ 2 * t + 1 by omega)).cancelled here
    have leaves : w.iteration id abort t ≠ none := by
      intro goesOn
      rw [(iteration_eq_none.mp goesOn).2] at later
      cases later
    obtain ⟨k, -, result, left⟩ := leaves_of_iteration leaves
    exact ⟨k, result, left⟩

/-- The loop is left within one iteration after its future is done, and when the event loop stops
with the turn in flight, exactly in the runs in which the task is cancelled by the time the loop has
found a `TimeoutError` in the future, and sooner or later if the turn stays in flight. -/
theorem prompt_and_released_iff (id : TaskId) (abort : Option Exc) (w : Run) :
    Prompt id abort w ∧ Released id abort w ↔
      (∀ n message, (w.moment (2 * n)).future = .raised (.timeoutError message) →
        (w.moment (2 * n + 1)).cancelled = true) ∧
      ∀ m, (w.moment m).running = false → (w.moment m).future = .pending →
        ∃ t, (w.moment t).cancelled = true :=
  and_congr prompt_iff released_iff

/-! ## Two turns that keep the loop -/

/-- The SDK's `send_and_wait` raises its own `TimeoutError`. -/
def timedOut : Run where
  moment m := if m = 0 then {} else { future := .raised (.timeoutError "timed out") }
  moves m := by
    rw [if_neg m.succ_ne_zero]
    split
    · exact ⟨[.complete (.raised (.timeoutError "timed out"))], rfl⟩
    · exact ⟨[], rfl⟩

/-- The session is closed, and its event loop stopped, with the turn in flight. -/
def closed : Run where
  moment m := if m = 0 then {} else { running := false }
  moves m := by
    rw [if_neg m.succ_ne_zero]
    split
    · exact ⟨[.stopLoop], rfl⟩
    · exact ⟨[], rfl⟩

/-- In neither of them is the loop ever left. -/
theorem never_leaves : (∀ n result, ¬ timedOut.Leaves "t" none n result) ∧
    (∀ n result, ¬ closed.Leaves "t" none n result) ∧
    ¬ Prompt "t" none timedOut ∧ ¬ Released "t" none closed := by
  have goesOn : ∀ n, timedOut.iteration "t" none n = none := by
    intro n
    cases n with
    | zero => rfl
    | succ n => rfl
  have waits : ∀ n, closed.iteration "t" none n = none := by
    intro n
    cases n with
    | zero => rfl
    | succ n => rfl
  have stays : ∀ n result, ¬ timedOut.Leaves "t" none n result := by
    rintro n result ⟨left, -⟩
    rw [goesOn] at left
    cases left
  have stays' : ∀ n result, ¬ closed.Leaves "t" none n result := by
    rintro n result ⟨left, -⟩
    rw [waits] at left
    cases left
  refine ⟨stays, stays', fun prompt => ?_, fun released => ?_⟩
  · obtain ⟨k, -, result, left⟩ := prompt 1 (by decide)
    exact stays k result left
  · obtain ⟨n, result, left⟩ := released 1 rfl rfl
    exact stays' n result left

end TTasks.Copilot
