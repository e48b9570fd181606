import TTasks.EventBus

/-!
# When the bus keeps its registrations apart

Whatever its subscribers raise, an emit calls all the callables in the list and comes back. The list
is that of the living registrations as long as every unsubscribe takes out the callable of its own
registration; `list.remove` takes out the first equal one, and it does so again on a further call.
-/

namespace TTasks

namespace Events

variable {α ε κ : Type} [DecidableEq κ] (S : Subscribers α ε κ)

/-! ## `emit` -/

/-- What an emit leaves of a bus. -/
structure Emitted (event : ε) (called : List α) (h h' : History α ε) : Prop where
  calls : h'.calls = h.calls ++ called.map fun a => (a, event)
  errors : h'.bus.errors = h.bus.errors ++ raisedBy S event called h.calls
  subscribers : h'.bus.subscribers = h.bus.subscribers
  registered : h'.registered = h.registered
  gone : h'.gone = h.gone

omit [DecidableEq κ] in
/-- An event goes to each of the listed subscribers, whichever of them raise. -/
theorem emitTo_spec (event : ε) (called : List α) (h : History α ε) :
    (emitTo S event called h).1 = .ok () ∧ Emitted S event called h (emitTo S event called h).2 := by
  induction called generalizing h with
  | nil => exact ⟨rfl, by simp [emitTo], by simp [emitTo, raisedBy], rfl, rfl, rfl⟩
  | cons a rest ih =>
    unfold emitTo call
    cases answer : S.answer h.calls a event with
    | ok _ =>
      obtain ⟨ok, spec⟩ := ih { h with calls := h.calls ++ [(a, event)] }
      refine ⟨ok, ?_, ?_, spec.subscribers, spec.registered, spec.gone⟩
      · simpa using spec.calls
      · simpa [raisedBy, answer] using spec.errors
    | error e =>
      obtain ⟨ok, spec⟩ := ih
        { h with
          calls := h.calls ++ [(a, event)]
          bus := { h.bus with errors := h.bus.errors ++ [e] } }
      refine ⟨ok, ?_, ?_, spec.subscribers, spec.registered, spec.gone⟩
      · simpa using spec.calls
      · simpa [raisedBy, answer] using spec.errors

omit [DecidableEq κ] in
/-- An event goes to the subscribers that are listed when it is emitted. -/
theorem emit_spec (event : ε) (h : History α ε) :
    (emit S event h).1 = .ok () ∧ Emitted S event h.bus.subscribers h (emit S event h).2 :=
  emitTo_spec S event h.bus.subscribers h

omit [DecidableEq κ] in
/-- The next event reaches those who have not unsubscribed if and only if the list is that of these.
-/
theorem delivers_iff [Inhabited ε] {h : History α ε} :
    Delivers S h ↔ h.bus.subscribers = living h := by
  constructor
  · intro delivers
    have calls := (emit_spec S default h).2.calls.symm.trans (delivers default)
    have same := congrArg (List.map Prod.fst) (List.append_cancel_left calls)
    simpa [Function.comp_def] using same
  · intro same event
    rw [(emit_spec S event h).2.calls, same]

/-! ## The living registrations -/

section Living

variable {gone gone' : List Nat} {n k : Nat} {a : α} {l m : List α} {h : History α ε}

/-- Of two runs of registrations the living are those of the first and then those of the second. -/
theorem livingFrom_append (gone : List Nat) (k : Nat) (l m : List α) :
    livingFrom gone k (l ++ m) = livingFrom gone k l ++ livingFrom gone (k + l.length) m := by
  induction l generalizing k with
  | nil => rfl
  | cons a l ih =>
    rw [List.cons_append, livingFrom, livingFrom, ih, List.length_cons, Nat.add_right_comm k 1,
      Nat.add_assoc]
    split <;> rfl

/-- Who is living depends on the calls about the registrations in question. -/
theorem livingFrom_congr (same : ∀ i, k ≤ i → i < k + l.length → (i ∈ gone' ↔ i ∈ gone)) :
    livingFrom gone' k l = livingFrom gone k l := by
  induction l generalizing k with
  | nil => rfl
  | cons a l ih =>
    rw [List.length_cons] at same
    have here : k ∈ gone' ↔ k ∈ gone := same k (Nat.le_refl k) (by omega)
    have rest := ih (k := k + 1) fun i lower upper => same i (by omega) (by omega)
    unfold livingFrom
    rw [rest]
    simp only [here]

/-- The living registrations before one that is among them, itself, and those after it. -/
theorem living_split (there : h.registered[n]? = some a) (alive : n ∉ h.gone) :
    living h = livingBefore n h ++ a :: livingFrom h.gone (n + 1) (h.registered.drop (n + 1)) := by
  obtain ⟨bound, here⟩ := List.getElem?_eq_some_iff.mp there
  have split : h.registered = h.registered.take n ++ a :: h.registered.drop (n + 1) := by
    rw [← here, List.getElem_cons_drop, List.take_append_drop]
  have length : (h.registered.take n).length = n := List.length_take_of_le (Nat.le_of_lt bound)
  unfold living livingBefore
  conv_lhs => rw [split]
  rw [livingFrom_append, length, Nat.zero_add, livingFrom, if_neg alive]

/-- Once its unsubscribe has been called, it is no longer there; the others are. -/
theorem living_gone (there : h.registered[n]? = some a) :
    livingFrom (n :: h.gone) 0 h.registered =
      livingBefore n h ++ livingFrom h.gone (n + 1) (h.registered.drop (n + 1)) := by
  obtain ⟨bound, here⟩ := List.getElem?_eq_some_iff.mp there
  have split : h.registered = h.registered.take n ++ a :: h.registered.drop (n + 1) := by
    rw [← here, List.getElem_cons_drop, List.take_append_drop]
  have length : (h.registered.take n).length = n := List.length_take_of_le (Nat.le_of_lt bound)
  unfold livingBefore
  conv_lhs => rw [split]
  rw [livingFrom_append, length, Nat.zero_add, livingFrom, if_pos List.mem_cons_self]
  congr 1
  · apply livingFrom_congr
    intro i _ upper
    rw [length] at upper
    rw [List.mem_cons]
    exact or_iff_right (by omega)
  · apply livingFrom_congr
    intro i lower _
    rw [List.mem_cons]
    exact or_iff_right (by omega)

end Living

/-! ## `list.remove` -/

/-- Moving the head of a list to its end does nothing, if and only if the list is all one. -/
theorem rotate_eq_iff {a b : α} {rest : List α} :
    rest ++ [a] = b :: rest ↔ ∀ c ∈ b :: rest, c = a := by
  induction rest generalizing b with
  | nil => simp [eq_comm]
  | cons c rest ih =>
    rw [List.cons_append, List.cons.injEq, ih]
    constructor
    · rintro ⟨rfl, all⟩
      exact List.forall_mem_cons.mpr ⟨all c List.mem_cons_self, all⟩
    · intro all
      obtain ⟨head, tail⟩ := List.forall_mem_cons.mp all
      exact ⟨(tail c List.mem_cons_self).trans head.symm, tail⟩

/-- The first equal callable goes, which is as good as its own, if and only if the callables between
the two are uniform. -/
theorem remove_eq_iff {a : α} {before after : List α} :
    remove S a (before ++ a :: after) = before ++ after ↔ Uniform S a before := by
  induction before with
  | nil => simp [remove, Uniform]
  | cons b rest ih =>
    by_cases equal : S.same b = S.same a
    · have removed : remove S a (b :: rest ++ a :: after) = rest ++ a :: after := by
        simp [remove, equal]
      rw [removed, Uniform, if_pos equal, ← rotate_eq_iff, List.cons_append,
        ← List.append_cancel_right_eq (rest ++ [a]) after (b :: rest)]
      simp
    · have removed : remove S a (b :: rest ++ a :: after) = b :: remove S a (rest ++ a :: after) := by
        simp [remove, equal]
      rw [removed, Uniform, if_neg equal, List.cons_append, List.cons.injEq]
      exact (and_iff_right rfl).trans ih

/-- `remove` leaves the list where it finds no equal callable. -/
theorem remove_self_iff {a : α} {l : List α} :
    remove S a l = l ↔ ∀ b ∈ l, S.same b ≠ S.same a := by
  unfold remove
  constructor
  · intro kept b mem equal
    have shorter :=
      List.length_eraseP_of_mem (p := fun b => S.same b = S.same a) mem (by simpa using equal)
    rw [kept] at shorter
    have := List.length_pos_of_mem mem
    omega
  · intro none
    exact List.eraseP_of_forall_not (by simpa using none)

/-! ## Histories -/

/-- Only registrations that were made are gone. -/
def Numbered (h : History α ε) : Prop := ∀ n ∈ h.gone, n < h.registered.length

/-- Only registrations that were made are ever gone. -/
theorem numbered_perform {act : Act α ε} {h : History α ε} (numbered : Numbered h) :
    Numbered (act.perform S h) := by
  have subscribed : ∀ a, Numbered (subscribe a h) := by
    intro a n mem
    have := numbered n mem
    change n < (h.registered ++ [a]).length
    rw [List.length_append]
    omega
  have unsubscribed : ∀ n, Numbered (unsubscribe S n h) := by
    intro n
    unfold unsubscribe
    split
    · exact numbered
    · rename_i a there
      intro m mem
      rcases List.mem_cons.mp mem with rfl | mem
      · exact (List.getElem?_eq_some_iff.mp there).1
      · exact numbered m mem
  cases act with
  | subscribe a => exact subscribed a
  | enter a => exact subscribed a
  | unsubscribe n => exact unsubscribed n
  | leave n => exact unsubscribed n
  | emit event =>
    intro n mem
    have spec := (emit_spec S event h).2
    have mem' : n ∈ (emit S event h).2.gone := mem
    rw [spec.gone] at mem'
    change n < (emit S event h).2.registered.length
    rw [spec.registered]
    exact numbered n mem'

/-- From a state where the list is that of the living registrations, it is so after an act, and a
further unsubscribe has changed nothing, if and only if the act is clean. -/
theorem perform_synced_iff {act : Act α ε} {h : History α ε} (numbered : Numbered h)
    (synced : h.bus.subscribers = living h) :
    (Repeats S act h ∧ (act.perform S h).bus.subscribers = living (act.perform S h)) ↔
      Clean S act h := by
  -- a new subscriber is listed last, and so is its registration
  have subscribed : ∀ a, (subscribe a h).bus.subscribers = living (subscribe a h) := by
    intro a
    change h.bus.subscribers ++ [a] = livingFrom h.gone 0 (h.registered ++ [a])
    have fresh : h.registered.length ∉ h.gone := fun mem => Nat.lt_irrefl _ (numbered _ mem)
    rw [livingFrom_append, Nat.zero_add, livingFrom, if_neg fresh, synced]
    rfl
  have unsubscribed : ∀ n, ((n ∈ h.gone → (unsubscribe S n h).bus = h.bus) ∧
      (unsubscribe S n h).bus.subscribers = living (unsubscribe S n h)) ↔
      ∀ a ∈ h.registered[n]?, if n ∈ h.gone then ∀ b ∈ living h, S.same b ≠ S.same a
        else Uniform S a (livingBefore n h) := by
    -- an `unsubscribe` that comes again must find no equal callable, and a first one no earlier
    -- equal callable
    intro n
    unfold unsubscribe
    cases there : h.registered[n]? with
    | none => simp [synced]
    | some a =>
      simp only [Option.mem_some_iff, forall_eq']
      by_cases gone : n ∈ h.gone
      · have same : livingFrom (n :: h.gone) 0 h.registered = living h := by
          apply livingFrom_congr
          intro i _ _
          rw [List.mem_cons]
          exact or_iff_right_of_imp fun here => here ▸ gone
        rw [if_pos gone, ← remove_self_iff, ← synced]
        constructor
        · rintro ⟨kept, -⟩
          exact congrArg EventBus.subscribers (kept gone)
        · intro kept
          refine ⟨fun _ => ?_, ?_⟩
          · rw [kept]
          · exact kept.trans (synced.trans same.symm)
      · let after := livingFrom h.gone (n + 1) (h.registered.drop (n + 1))
        have removal : remove S a (livingBefore n h ++ a :: after) = livingBefore n h ++ after ↔
            Uniform S a (livingBefore n h) := remove_eq_iff S
        rw [← living_split there gone, ← synced] at removal
        rw [if_neg gone, ← removal]
        constructor
        · rintro ⟨-, after⟩
          exact after.trans (living_gone there)
        · intro after
          exact ⟨fun again => absurd again gone, after.trans (living_gone there).symm⟩
  cases act with
  | subscribe a => exact iff_of_true ⟨trivial, subscribed a⟩ trivial
  | enter a => exact iff_of_true ⟨trivial, subscribed a⟩ trivial
  | unsubscribe n => exact unsubscribed n
  | leave n => exact unsubscribed n
  | emit event =>
    have spec := (emit_spec S event h).2
    refine iff_of_true ⟨trivial, ?_⟩ trivial
    change (emit S event h).2.bus.subscribers =
      livingFrom (emit S event h).2.gone 0 (emit S event h).2.registered
    rw [spec.subscribers, spec.gone, spec.registered]
    exact synced

/-- From a list that is right on, the bus is faithful if and only if every call is clean. -/
theorem faithful_iff_of_synced [Inhabited ε] (acts : List (Act α ε)) {h : History α ε}
    (numbered : Numbered h) (synced : h.bus.subscribers = living h) :
    Faithful S acts h ↔ AllClean S acts h := by
  have delivers := (delivers_iff S).mpr synced
  induction acts generalizing h with
  | nil => exact iff_of_true delivers trivial
  | cons act acts ih =>
    have next : _ ↔ Clean S act h := perform_synced_iff S numbered synced
    have step : ∀ {h' : History α ε}, Faithful S acts h' → h'.bus.subscribers = living h' := by
      intro h' later
      cases acts with
      | nil => exact (delivers_iff S).mp later
      | cons _ _ => exact (delivers_iff S).mp later.1
    constructor
    · rintro ⟨-, repeats, later⟩
      have synced' := step later
      exact ⟨next.mp ⟨repeats, synced'⟩,
        (ih (numbered_perform S numbered) synced' ((delivers_iff S).mpr synced')).mp later⟩
    · rintro ⟨clean, later⟩
      obtain ⟨repeats, synced'⟩ := next.mpr clean
      exact ⟨delivers, repeats,
        (ih (numbered_perform S numbered) synced' ((delivers_iff S).mpr synced')).mpr later⟩

/-- No emit raises, and each records one error for each call that does. On a new bus every emit
calls exactly the living registrations, and further unsubscribes change nothing, if and only if
every unsubscribe of the history is clean. -/
theorem faithful_iff [Inhabited ε] :
    (∀ (event : ε) (h : History α ε), (emit S event h).1 = .ok () ∧
      (emit S event h).2.calls = h.calls ++ h.bus.subscribers.map (fun a => (a, event)) ∧
      (emit S event h).2.bus.errors = h.bus.errors ++ raisedBy S event h.bus.subscribers h.calls) ∧
    ∀ acts : List (Act α ε), Faithful S acts {} ↔ AllClean S acts {} := by
  refine ⟨fun event h => ?_, fun acts => ?_⟩
  · obtain ⟨ok, spec⟩ := emit_spec S event h
    exact ⟨ok, spec.calls, spec.errors⟩
  · exact faithful_iff_of_synced S acts (fun _ none => by cases none) rfl

/-! ## One callable, subscribed twice -/

/-- Callables that are equal only to themselves, and raise nothing. -/
def plain : Subscribers String Nat String where
  same := fun a => a
  answer _ _ _ := .ok ()

/-- Two registrations of one callable, and two calls of the first one's unsubscribe: the second
registration is gone too. -/
theorem unsubscribe_takes_other :
    ¬ Faithful plain [.subscribe "f", .subscribe "f", .unsubscribe 0, .unsubscribe 0] {} := by
  rintro ⟨-, -, -, -, -, -, -, repeats, -⟩
  have kept := congrArg EventBus.subscribers (repeats (by decide))
  revert kept
  decide

end Events

end TTasks
