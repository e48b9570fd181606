import TTasks.AgentSession

/-!
# Who has what of an agent session

A note beside the shared state says which coroutine has a client in hand. `Good` is what every step
keeps; `view` is what of the state is one coroutine's own. An operation of another coroutine leaves
the view as it is, so that a coroutine's methods are followed on its view alone.
-/

namespace TTasks.AgentSession

open Interleave

variable {ι : Type}

/-- Who has a client in hand, to open it or to close it. -/
abbrev Keeper (ι : Type) := ClientId → Option ι

/-- The shared state with its keeper beside it. -/
abbrev Noted (ι : Type) := Shared ι × Keeper ι

/-- How an operation passes clients on. -/
def note (sdk : Sdk) (i : ι) : Op → Shared ι → Keeper ι → Keeper ι
  | .newClient, s, keeper => Function.update keeper s.clients (some i)
  | .call c .enterClient, s, keeper =>
    if (sdk.raises s.clock).isSome then Function.update keeper c none else keeper
  | .call c (.exitClient _), _, keeper => Function.update keeper c none
  | .install c, _, keeper => Function.update keeper c none
  | .detach, s, keeper => s.client.elim keeper fun c => Function.update keeper c (some i)
  | _, _, keeper => keeper

/-- One operation of one coroutine, with the keeper noted. -/
def act [DecidableEq ι] (sdk : Sdk) : ι → (o : Op) → Noted ι → o.Ans × Noted ι :=
  Threads.annotate (sem sdk) (note sdk)

/-! ## Clients -/

/-- Each client is the object's, or in somebody's hand, or closed, and the SDK has been called for it
as it may be. -/
structure Clients (client : Option ClientId) (clients : Nat) (log : List Entry)
    (keeper : Keeper ι) : Prop where
  fresh : ∀ c, clients ≤ c → stage log c = some .new ∧ keeper c = none
  placed : ∀ c, client = some c → stage log c = some .opened ∧ keeper c = none
  kept : ∀ c i, keeper c = some i → ∃ st, stage log c = some st
  closed : ∀ c, c < clients → keeper c = none → client ≠ some c → stage log c = some .closed

namespace Clients

variable {client client' : Option ClientId} {n n' : Nat} {log log' : List Entry} {keeper : Keeper ι}

/-- A client in somebody's hand has been made. -/
theorem lt_of_kept (h : Clients client n log keeper) {c : ClientId} {i : ι}
    (kept : keeper c = some i) : c < n := by
  by_contra late
  rw [(h.fresh c (Nat.not_lt.mp late)).2] at kept
  cases kept

/-- The object's client has been made. -/
theorem lt_of_placed (h : Clients client n log keeper) {c : ClientId} (placed : client = some c) :
    c < n := by
  by_contra late
  have new := (h.fresh c (Nat.not_lt.mp late)).1
  rw [(h.placed c placed).1] at new
  cases new

/-- Every client has a stage. -/
theorem exists_stage (h : Clients client n log keeper) (c : ClientId) :
    ∃ st, stage log c = some st := by
  by_cases late : n ≤ c
  · exact ⟨_, (h.fresh c late).1⟩
  · cases kept : keeper c with
    | some i => exact h.kept c i kept
    | none =>
      by_cases placed : client = some c
      · exact ⟨_, (h.placed c placed).1⟩
      · exact ⟨_, h.closed c (Nat.not_le.mp late) kept placed⟩

/-- One client moves, and is the object's, in a hand, or closed again. -/
theorem move (h : Clients client n log keeper) {c : ClientId} {hand : Option ι} {st : Stage}
    (below : c < n') (grown : n ≤ n') (only : ∀ d, d < n' → d ≠ c → d < n)
    (elsewhere : ∀ d, d ≠ c → stage log' d = stage log d) (here : stage log' c = some st)
    (same : ∀ d, d ≠ c → (client' = some d ↔ client = some d))
    (placed : client' = some c → st = .opened ∧ hand = none)
    (closed : client' ≠ some c → hand = none → st = .closed) :
    Clients client' n' log' (Function.update keeper c hand) where
  fresh d late := by
    have ne : d ≠ c := Nat.ne_of_gt (Nat.lt_of_lt_of_le below late)
    rw [elsewhere d ne, Function.update_of_ne ne]
    exact h.fresh d (grown.trans late)
  placed d at_d := by
    by_cases ne : d = c
    · subst ne
      obtain ⟨rfl, rfl⟩ := placed at_d
      exact ⟨here, Function.update_self ..⟩
    · rw [elsewhere d ne, Function.update_of_ne ne]
      exact h.placed d ((same d ne).mp at_d)
  kept d j has := by
    by_cases ne : d = c
    · subst ne
      exact ⟨st, here⟩
    · rw [Function.update_of_ne ne] at has
      rw [elsewhere d ne]
      exact h.kept d j has
  closed d before free gone := by
    by_cases ne : d = c
    · subst ne
      rw [Function.update_self] at free
      rw [here, closed gone free]
    · rw [Function.update_of_ne ne] at free
      rw [elsewhere d ne]
      exact h.closed d (only d before ne) free fun at_d => gone ((same d ne).mpr at_d)

end Clients

section Hands

variable [DecidableEq ι] {log log' : List Entry} {keeper : Keeper ι} {c : ClientId} {hand : Option ι}
  {st : Stage} {i j : ι}

/-- The clients that a coroutine has in hand, with their stages. -/
def keeps (i : ι) (log : List Entry) (keeper : Keeper ι) (c : ClientId) : Option Stage :=
  if keeper c = some i then stage log c else none

/-- A client is kept in a stage by whoever has it in hand. -/
theorem keeps_eq_some : keeps i log keeper c = some st ↔ keeper c = some i ∧ stage log c = some st := by
  unfold keeps
  split
  · rename_i mine
    exact ⟨fun h => ⟨mine, h⟩, And.right⟩
  · rename_i other
    exact ⟨nofun, fun h => absurd h.1 other⟩

/-- A client that moves is seen to move by the coroutine that has it in hand, and by no other. -/
theorem keeps_move (elsewhere : ∀ d, d ≠ c → stage log' d = stage log d)
    (here : stage log' c = some st) : keeps i log' (Function.update keeper c hand) =
      Function.update (keeps i log keeper) c (if hand = some i then some st else none) := by
  ext1 d
  by_cases ne : d = c
  · subst ne
    simp only [keeps, Function.update_self, here]
  · simp only [keeps, Function.update_of_ne ne, elsewhere d ne]

/-- What another does with a client that is in no third hand. -/
theorem keeps_move_of_ne (elsewhere : ∀ d, d ≠ c → stage log' d = stage log d)
    (here : stage log' c = some st) (other : j ≠ i) (mine : ∀ k, keeper c = some k → k = i)
    (own : ∀ k, hand = some k → k = i) :
    keeps j log' (Function.update keeper c hand) = keeps j log keeper := by
  have notHand : hand ≠ some j := fun h => other (own j h)
  have notKept : keeper c ≠ some j := fun h => other (mine j h)
  rw [keeps_move elsewhere here, if_neg notHand]
  apply Function.update_eq_self_iff.mpr
  exact (if_neg notKept).symm

end Hands

/-! ## The invariant -/

/-- What holds of the object and its clients in every state that is reached. -/
structure Good (p : Noted ι) : Prop where
  session : p.1.session = p.1.client
  active : p.1.active = p.1.client.isSome
  locked : p.1.sendLock.isSome = p.1.client.isSome
  sendLock : ∀ l, p.1.sendLock = some l → p.1.locks = l + 1
  clients : Clients p.1.client p.1.clients p.1.log p.2
  /-- Only one open is under way, and it has the object to itself. -/
  alone : p.1.opening.length ≤ 1
  apart : p.1.opening ≠ [] → p.1.client = none ∧ p.1.sending = []
  sending : p.1.sending.Nodup
  holder : ∀ l i, p.1.holder l = some i → i ∈ p.1.sending ∧ p.1.locks = l + 1
  turn : p.1.turns.length ≤ 1
  turns : ∀ i c, (i, c) ∈ p.1.turns → ∃ l, p.1.holder l = some i
  /-- A turn is one of the open session, or the session has been closed under it. -/
  ofSession : ∀ i c, (i, c) ∈ p.1.turns → ∀ d, p.1.client = some d → d = c

/-- Whoever has a lock has the one that all have. -/
theorem Good.holder_unique {p : Noted ι} (good : Good p) {l l' : LockId} {i j : ι}
    (h : p.1.holder l = some i) (h' : p.1.holder l' = some j) : l = l' ∧ i = j := by
  have same : l = l' :=
    Nat.succ.inj ((good.holder l i h).2.symm.trans (good.holder l' j h').2)
  subst same
  exact ⟨rfl, Option.some.inj (h.symm.trans h')⟩

/-- Whoever opens is the only one that does. -/
theorem Good.opening_eq {p : Noted ι} (good : Good p) {i : ι} (opening : i ∈ p.1.opening) :
    p.1.opening = [i] := by
  have few := good.alone
  cases h : p.1.opening with
  | nil =>
    rw [h] at opening
    cases opening
  | cons j others =>
    rw [h] at few opening
    have none : others = [] := List.length_eq_zero_iff.mp (Nat.le_zero.mp (Nat.le_of_succ_le_succ few))
    subst none
    rw [List.mem_singleton.mp opening]

/-! ## Views -/

/-- What of the state is a coroutine's own. -/
@[ext] structure View where
  /-- The clients in hand, and their stages. -/
  keeps : ClientId → Option Stage
  opening : Prop
  /-- The number of locks so far, while the coroutine sends. -/
  sending : Option Nat
  holds : LockId → Prop
  turns : ClientId → Prop

/-- Nothing in hand. -/
def idle : View where
  keeps _ := none
  opening := False
  sending := none
  holds _ := False
  turns _ := False

section Steps

variable [DecidableEq ι]

/-- The coroutine's own part of the state. -/
def view (i : ι) (p : Noted ι) : View where
  keeps := keeps i p.1.log p.2
  opening := i ∈ p.1.opening
  sending := if i ∈ p.1.sending then some p.1.locks else none
  holds l := p.1.holder l = some i
  turns c := (i, c) ∈ p.1.turns

omit [DecidableEq ι] in
/-- An SDK call hands its client on: it stays in hand, or it is closed. -/
theorem note_call (sdk : Sdk) {i : ι} {s : Shared ι} {keeper : Keeper ι} {c : ClientId}
    {call : SdkCall} {st st' : Stage} (mine : keeper c = some i)
    (next : st.after call (sdk.raises s.clock).isSome = some st') :
    note sdk i (.call c call) s keeper =
      Function.update keeper c (if st' = .closed then none else some i) := by
  have stays : Function.update keeper c (some i) = keeper := by
    rw [← mine, Function.update_eq_self]
  cases call <;> cases st <;> cases h : (sdk.raises s.clock).isSome <;>
    simp_all [Stage.after, note] <;> subst next <;> simp_all

/-- The operations on the event loop's thread. -/
def Op.Aside : Op → Prop
  | .loop | .startLoop | .stopLoop | .setSyncActive _ => True
  | _ => False

/-- A step that leaves the invariant and the other coroutines' views as they were, and its own
coroutine with a view. -/
structure Step (i : ι) (p q : Noted ι) (v : View) : Prop where
  good : Good q
  others : ∀ j, j ≠ i → view j q = view j p
  own : view i q = v

variable (sdk : Sdk) {i : ι} {s : Shared ι} {keeper : Keeper ι} (good : Good (s, keeper))

include good

/-- The operations of the event loop's thread leave the coroutines' views. -/
theorem step_aside {o : Op} (aside : o.Aside) :
    Step i (s, keeper) (act sdk i o (s, keeper)).2 (view i (s, keeper)) := by
  cases o <;> first | exact aside.elim | exact ⟨{ good with }, fun _ _ => rfl, rfl⟩

/-- A new client is in the hand of the coroutine that made it. -/
theorem step_newClient : Step i (s, keeper) (act sdk i .newClient (s, keeper)).2
    { view i (s, keeper) with
      keeps := Function.update (view i (s, keeper)).keeps s.clients (some .new) } := by
  obtain ⟨new, unkept⟩ := good.clients.fresh s.clients (Nat.le_refl _)
  have unplaced : s.client ≠ some s.clients := fun h =>
    Nat.lt_irrefl _ (good.clients.lt_of_placed h)
  refine ⟨{ good with clients := ?_ }, fun j other => ?_, ?_⟩
  · exact good.clients.move (Nat.lt_succ_self _) (Nat.le_succ _)
      (fun d below ne => Nat.lt_of_le_of_ne (Nat.le_of_lt_succ below) ne) (fun _ _ => rfl) new
      (fun _ _ => Iff.rfl) (fun h => absurd h unplaced) fun _ h => by cases h
  · have same : keeps j s.log (Function.update keeper s.clients (some i)) = keeps j s.log keeper :=
      keeps_move_of_ne (fun _ _ => rfl) new other
        (fun k h => absurd (unkept.symm.trans h) (Option.some_ne_none _).symm)
        fun k h => (Option.some.inj h).symm
    exact View.ext same rfl rfl rfl rfl
  · have own : keeps i s.log (Function.update keeper s.clients (some i)) =
        Function.update (keeps i s.log keeper) s.clients (some .new) := by
      rw [keeps_move (fun _ _ => rfl) new, if_pos rfl]
    exact View.ext own rfl rfl rfl rfl

/-- A call of the SDK for a client in hand. -/
theorem step_call {c : ClientId} {call : SdkCall} {st st' : Stage} (mine : keeper c = some i)
    (at_st : stage s.log c = some st)
    (next : st.after call (sdk.raises s.clock).isSome = some st') :
    Step i (s, keeper) (act sdk i (.call c call) (s, keeper)).2
      { view i (s, keeper) with
        keeps := Function.update (view i (s, keeper)).keeps c
          (if st' = .closed then none else some st') } := by
  let hand : Option ι := if st' = .closed then none else some i
  let log : List Entry := ⟨c, call, (sdk.raises s.clock).isSome⟩ :: s.log
  have after : (act sdk i (.call c call) (s, keeper)).2 =
      ({ s with log, clock := s.clock + 1 }, Function.update keeper c hand) :=
    congrArg (Prod.mk _) (note_call sdk mine next)
  have elsewhere : ∀ d, d ≠ c → stage log d = stage s.log d := fun d ne => if_neg (Ne.symm ne)
  have here : stage log c = some st' := by
    simp only [log, stage, if_pos, at_st, Option.bind_some, next]
  have own : ∀ k, hand = some k → k = i := by
    intro k h
    by_cases gone : st' = .closed
    · simp [hand, gone] at h
    · simpa [hand, gone] using h.symm
  have unplaced : s.client ≠ some c := fun h =>
    absurd ((good.clients.placed c h).2.symm.trans mine) (Option.some_ne_none _).symm
  rw [after]
  refine ⟨{ good with clients := ?_ }, fun j other => ?_, ?_⟩
  · refine good.clients.move (good.clients.lt_of_kept mine) (Nat.le_refl _) (fun _ below _ => below)
      elsewhere here (fun _ _ => Iff.rfl) (fun h => absurd h unplaced) fun _ free => ?_
    by_contra notClosed
    simp [hand, notClosed] at free
  · have same : keeps j log (Function.update keeper c hand) = keeps j s.log keeper :=
      keeps_move_of_ne elsewhere here other
        (fun k h => Option.some.inj (h.symm.trans mine)) own
    exact View.ext same rfl rfl rfl rfl
  · have now : keeps i log (Function.update keeper c hand) =
        Function.update (keeps i s.log keeper) c (if st' = .closed then none else some st') := by
      rw [keeps_move elsewhere here]
      by_cases gone : st' = .closed <;> simp [hand, gone]
    exact View.ext now rfl rfl rfl rfl

/-- Installing hands an opened client over to the object. -/
theorem step_install {c : ClientId} (mine : keeper c = some i)
    (opened : stage s.log c = some .opened) (opening : i ∈ s.opening) :
    Step i (s, keeper) (act sdk i (.install c) (s, keeper)).2
      { view i (s, keeper) with
        keeps := Function.update (view i (s, keeper)).keeps c none, opening := False } := by
  obtain ⟨gone, noSend⟩ : s.client = none ∧ s.sending = [] :=
    good.apart (List.ne_nil_of_mem opening)
  have alone : s.opening = [i] := good.opening_eq opening
  have after : (act sdk i (.install c) (s, keeper)).2 =
      ({ s with
        client := some c, session := some c, sendLock := some s.locks, locks := s.locks + 1
        active := true, opening := [], clock := s.clock + 1 }, Function.update keeper c none) := by
    simp [act, Threads.annotate, sem, Op.perform, note, alone]
  have noHolder : ∀ l j, s.holder l ≠ some j := fun l j h => by
    have sends : j ∈ s.sending := (good.holder l j h).1
    rw [noSend] at sends
    cases sends
  have noTurn : ∀ j d, (j, d) ∉ s.turns := fun j d mem =>
    (good.turns j d mem).elim fun l held => noHolder l j held
  rw [after]
  refine ⟨?_, fun j other => ?_, ?_⟩
  · exact { good with
      session := rfl, active := rfl, locked := rfl
      sendLock := fun l h => by cases h; rfl
      clients := good.clients.move (good.clients.lt_of_kept mine) (Nat.le_refl _)
        (fun _ below _ => below) (fun _ _ => rfl) opened
        (fun d ne => by simp [gone, ne.symm]) (fun _ => ⟨rfl, rfl⟩) fun h => absurd rfl h
      alone := Nat.zero_le _
      apart := fun h => absurd rfl h
      holder := fun l j h => absurd h (noHolder l j)
      ofSession := fun j d mem => absurd mem (noTurn j d) }
  · have same : keeps j s.log (Function.update keeper c none) = keeps j s.log keeper :=
      keeps_move_of_ne (fun _ _ => rfl) opened other
        (fun k h => Option.some.inj (h.symm.trans mine)) fun _ h => by cases h
    refine View.ext same ?_ ?_ rfl rfl
    · simp [view, alone, other]
    · simp [view, noSend]
  · have now : keeps i s.log (Function.update keeper c none) =
        Function.update (keeps i s.log keeper) c none := by
      rw [keeps_move (fun _ _ => rfl) opened, if_neg (Option.some_ne_none i).symm]
    refine View.ext now ?_ ?_ rfl rfl
    · simp [view]
    · simp [view, noSend]

/-- Giving up an opening. -/
theorem step_giveUp : Step i (s, keeper) (act sdk i .giveUp (s, keeper)).2
    { view i (s, keeper) with opening := False } := by
  have shorter : (s.opening.erase i).length ≤ s.opening.length := List.length_erase_le
  refine ⟨{ good with
    alone := shorter.trans good.alone, apart := fun h => good.apart ?_ }, fun j other => ?_, ?_⟩
  · rintro none
    exact h (by simp [act, Threads.annotate, sem, Op.perform, show s.opening = [] from none])
  · refine View.ext rfl (propext ?_) rfl rfl rfl
    exact List.mem_erase_of_ne other
  · refine View.ext rfl (propext ⟨fun mem => ?_, False.elim⟩) rfl rfl rfl
    have still : i ∈ s.opening.erase i := mem
    have alone : s.opening = [i] := good.opening_eq (List.mem_of_mem_erase still)
    simp [alone] at still

/-- Asking to open while the object is inactive begins an opening. -/
theorem step_checkInactive (allowed : Apart sdk .checkInactive s) (inactive : s.active = false) :
    Step i (s, keeper) (act sdk i .checkInactive (s, keeper)).2
      { view i (s, keeper) with opening := True } := by
  have gone : s.client = none := by
    have same : s.active = s.client.isSome := good.active
    rw [inactive] at same
    exact Option.isNone_iff_eq_none.mp (by simpa using same.symm)
  obtain ⟨noOpen, noSend⟩ : s.opening = [] ∧ s.sending = [] := by
    rcases allowed with active | free
    · rw [inactive] at active
      cases active
    · exact free
  have after : (act sdk i .checkInactive (s, keeper)).2 =
      ({ s with opening := [i], clock := s.clock + 1 }, keeper) := by
    simp [act, Threads.annotate, sem, Op.perform, note, inactive, noOpen]
  rw [after]
  refine ⟨{ good with alone := Nat.le_refl 1, apart := fun _ => ⟨gone, noSend⟩ },
    fun j other => ?_, ?_⟩
  · refine View.ext rfl ?_ rfl rfl rfl
    simp [view, noOpen, other]
  · refine View.ext rfl ?_ rfl rfl rfl
    simp [view]

/-- Asking to open while the object is active is refused, and nothing moves. -/
theorem step_refused (active : s.active = true) :
    Step i (s, keeper) (act sdk i .checkInactive (s, keeper)).2 (view i (s, keeper)) := by
  have after : (act sdk i .checkInactive (s, keeper)).2 =
      ({ s with clock := s.clock + 1 }, keeper) := by
    simp [act, Threads.annotate, sem, Op.perform, note, active]
  rw [after]
  exact ⟨{ good with }, fun _ _ => rfl, rfl⟩

/-- Detaching takes the object's client in hand. -/
theorem step_detach {c : ClientId} (placed : s.client = some c) :
    Step i (s, keeper) (act sdk i .detach (s, keeper)).2
      { view i (s, keeper) with
        keeps := Function.update (view i (s, keeper)).keeps c (some .opened) } := by
  obtain ⟨opened, unkept⟩ : stage s.log c = some .opened ∧ keeper c = none :=
    good.clients.placed c placed
  have after : (act sdk i .detach (s, keeper)).2 =
      ({ s with
        client := none, session := none, sendLock := none, active := false
        clock := s.clock + 1 }, Function.update keeper c (some i)) := by
    simp [act, Threads.annotate, sem, Op.perform, note, placed]
  rw [after]
  refine ⟨?_, fun j other => ?_, ?_⟩
  · exact { good with
      session := rfl, active := rfl, locked := rfl
      sendLock := fun _ h => by cases h
      clients := good.clients.move (good.clients.lt_of_placed placed) (Nat.le_refl _)
        (fun _ below _ => below) (fun _ _ => rfl) opened
        (fun d ne => by simp [placed, ne.symm]) (fun h => by cases h) fun _ h => by cases h
      apart := fun h => ⟨rfl, (good.apart h).2⟩
      ofSession := fun _ _ _ _ h => by cases h }
  · have same : keeps j s.log (Function.update keeper c (some i)) = keeps j s.log keeper :=
      keeps_move_of_ne (fun _ _ => rfl) opened other
        (fun k h => absurd (unkept.symm.trans h) (Option.some_ne_none _).symm)
        fun k h => (Option.some.inj h).symm
    exact View.ext same rfl rfl rfl rfl
  · have now : keeps i s.log (Function.update keeper c (some i)) =
        Function.update (keeps i s.log keeper) c (some .opened) := by
      rw [keeps_move (fun _ _ => rfl) opened, if_pos rfl]
    exact View.ext now rfl rfl rfl rfl

/-- With no client there is nothing to detach. -/
theorem step_detach_none (gone : s.client = none) :
    Step i (s, keeper) (act sdk i .detach (s, keeper)).2 (view i (s, keeper)) := by
  have after : (act sdk i .detach (s, keeper)).2 =
      ({ s with
        client := none, session := none, sendLock := none, active := false
        clock := s.clock + 1 }, keeper) := by
    simp [act, Threads.annotate, sem, Op.perform, note, gone]
  rw [after]
  exact ⟨{ good with
    session := rfl, active := rfl, locked := rfl
    sendLock := fun _ h => by cases h
    clients := gone ▸ good.clients
    apart := fun h => ⟨rfl, (good.apart h).2⟩
    ofSession := fun _ _ _ _ h => by cases h }, fun _ _ => rfl, rfl⟩

/-! ### Prompts -/

/-- `send_and_wait` is admitted with the lock of the session that is open. -/
theorem step_beginSend {timeout : Option ℚ} {l : LockId} (idle : i ∉ s.sending)
    (admitted : (act sdk i (.beginSend timeout) (s, keeper)).1 = .ok l) :
    s.locks = l + 1 ∧ Step i (s, keeper) (act sdk i (.beginSend timeout) (s, keeper)).2
      { view i (s, keeper) with sending := some (l + 1) } := by
  have answer : (s.beginSend i timeout).1 = .ok l := admitted
  -- a send that is admitted has found a client, and with it the session's lock
  obtain ⟨c, placed⟩ : ∃ c, s.client = some c := by
    by_contra unplaced
    have gone : s.client = none :=
      Option.eq_none_iff_forall_ne_some.mpr fun c h => unplaced ⟨c, h⟩
    have inactive : s.active = false := by
      have same : s.active = s.client.isSome := good.active
      rw [same, gone]
      rfl
    rw [Shared.beginSend, if_pos (by simp [inactive])] at answer
    cases answer
  have locked : s.sendLock.isSome = true := by
    have same : s.sendLock.isSome = s.client.isSome := good.locked
    rw [same, placed]
    rfl
  obtain ⟨l', lock⟩ := Option.isSome_iff_exists.mp locked
  have begun : s.beginSend i timeout = (.ok l', { s with sending := i :: s.sending }) := by
    unfold Shared.beginSend at answer ⊢
    split at answer
    · cases answer
    · rename_i active
      rw [if_neg active]
      split at answer
      · cases answer
      · simp only [lock]
  have same : l' = l := by
    rw [begun] at answer
    exact Except.ok.inj answer
  subst same
  have locks : s.locks = l' + 1 := good.sendLock l' lock
  have after : (act sdk i (.beginSend timeout) (s, keeper)).2 =
      ({ s with sending := i :: s.sending, clock := s.clock + 1 }, keeper) := by
    simp [act, Threads.annotate, sem, Op.perform, note, begun]
  -- nobody is opening the object meanwhile
  have notOpening : s.opening = [] := by
    by_contra opening
    have gone : s.client = none := (good.apart opening).1
    rw [placed] at gone
    cases gone
  rw [after]
  refine ⟨locks, { good with
    apart := fun h => absurd notOpening h
    sending := List.nodup_cons.mpr ⟨idle, good.sending⟩
    holder := fun k j h => ⟨List.mem_cons_of_mem _ (good.holder k j h).1, (good.holder k j h).2⟩ },
    fun j other => ?_, ?_⟩
  · refine View.ext rfl rfl ?_ rfl rfl
    simp [view, other]
  · refine View.ext rfl rfl ?_ rfl rfl
    simp [view, locks]

/-- A refused send leaves the state. -/
theorem step_beginSend_refused {timeout : Option ℚ} {e : Exc}
    (refused : (act sdk i (.beginSend timeout) (s, keeper)).1 = .error e) :
    Step i (s, keeper) (act sdk i (.beginSend timeout) (s, keeper)).2 (view i (s, keeper)) := by
  have answer : (s.beginSend i timeout).1 = .error e := refused
  have begun : (s.beginSend i timeout).2 = s := by
    unfold Shared.beginSend at answer ⊢
    split at answer
    · rename_i inactive
      rw [if_pos inactive]
    · rename_i active
      rw [if_neg active]
      split at answer
      · rfl
      · split at answer <;> cases answer
  have after : (act sdk i (.beginSend timeout) (s, keeper)).2 =
      ({ s with clock := s.clock + 1 }, keeper) := by
    simp [act, Threads.annotate, sem, Op.perform, note, begun]
  rw [after]
  exact ⟨{ good with }, fun _ _ => rfl, rfl⟩

/-- The lock that the object has made last is free, and a sender takes it. -/
theorem step_acquire {l : LockId} (sends : i ∈ s.sending) (locks : s.locks = l + 1)
    (free : s.holder l = none) (goes : sdk.raises s.clock = none) :
    Step i (s, keeper) (act sdk i (.acquire l) (s, keeper)).2
      { view i (s, keeper) with holds := fun k => k = l ∨ s.holder k = some i } := by
  have after : (act sdk i (.acquire l) (s, keeper)).2 =
      ({ s with holder := Function.update s.holder l (some i), clock := s.clock + 1 }, keeper) := by
    simp [act, Threads.annotate, sem, Op.perform, note, goes]
  rw [after]
  refine ⟨{ good with holder := fun k j h => ?_, turns := fun j c h => ?_ }, fun j other => ?_, ?_⟩
  · by_cases ne : k = l
    · subst ne
      have own : i = j := by simpa using h
      exact own ▸ ⟨sends, locks⟩
    · exact good.holder k j (by simpa [Function.update_of_ne ne] using h)
  · obtain ⟨k, held⟩ := good.turns j c h
    have ne : k ≠ l := by
      rintro rfl
      exact absurd (free.symm.trans held) (Option.some_ne_none j).symm
    exact ⟨k, by simpa [Function.update_of_ne ne] using held⟩
  · refine View.ext rfl rfl rfl (funext fun k => ?_) rfl
    by_cases ne : k = l
    · subst ne
      simp [view, free, other.symm]
    · simp [view, Function.update_of_ne ne]
  · refine View.ext rfl rfl rfl (funext fun k => ?_) rfl
    by_cases ne : k = l
    · simp [view, ne]
    · simp [view, ne]

/-- A wait for the lock that is cancelled leaves the state. -/
theorem step_acquire_cancelled {l : LockId} {e : Exc} (cancelled : sdk.raises s.clock = some e) :
    Step i (s, keeper) (act sdk i (.acquire l) (s, keeper)).2 (view i (s, keeper)) := by
  have after : (act sdk i (.acquire l) (s, keeper)).2 =
      ({ s with clock := s.clock + 1 }, keeper) := by
    simp [act, Threads.annotate, sem, Op.perform, note, cancelled]
  rw [after]
  exact ⟨{ good with }, fun _ _ => rfl, rfl⟩

/-- The turn of whoever has the lock is the only one. -/
theorem step_send {prompt : String} {timeout : Option ℚ} {c : ClientId} {l : LockId}
    (held : s.holder l = some i) (silent : ∀ c, (i, c) ∉ s.turns) (placed : s.client = some c) :
    Step i (s, keeper) (act sdk i (.send prompt timeout) (s, keeper)).2
      { view i (s, keeper) with turns := fun d => d = c } := by
  obtain ⟨opened, unkept⟩ : stage s.log c = some .opened ∧ keeper c = none :=
    good.clients.placed c placed
  have noTurns : s.turns = [] := by
    by_contra busy
    obtain ⟨⟨j, d⟩, mem⟩ := List.exists_mem_of_ne_nil _ busy
    obtain ⟨k, other⟩ : ∃ k, s.holder k = some j := good.turns j d mem
    have same : i = j := (good.holder_unique held other).2
    exact silent d (same ▸ mem)
  have session : s.session = some c := Eq.trans good.session placed
  let log : List Entry := ⟨c, .send prompt timeout, false⟩ :: s.log
  have after : (act sdk i (.send prompt timeout) (s, keeper)).2 =
      ({ s with log, turns := [(i, c)], clock := s.clock + 1 }, Function.update keeper c none) := by
    rw [← unkept, Function.update_eq_self]
    simp [act, Threads.annotate, sem, Op.perform, note, Shared.send, session, noTurns,
      Shared.record, log]
  have elsewhere : ∀ d, d ≠ c → stage log d = stage s.log d := fun d ne => if_neg (Ne.symm ne)
  have here : stage log c = some .opened := by
    simp only [log, stage, if_pos, opened, Option.bind_some, Stage.after]
  have same : ∀ j, keeps j log (Function.update keeper c none) = keeps j s.log keeper := fun j => by
    rw [keeps_move elsewhere here, if_neg (Option.some_ne_none j).symm]
    apply Function.update_eq_self_iff.mpr
    simp [keeps, unkept]
  rw [after]
  refine ⟨{ good with
    clients := good.clients.move (good.clients.lt_of_placed placed) (Nat.le_refl _)
      (fun _ below _ => below) elsewhere here (fun _ _ => Iff.rfl) (fun _ => ⟨rfl, rfl⟩)
      fun gone => absurd placed gone
    turn := Nat.le_refl 1
    turns := fun j d mem => ⟨l, ?_⟩
    ofSession := fun j d mem d' h => ?_ }, fun j other => ?_, ?_⟩
  · have own : j = i := by simpa using congrArg Prod.fst (List.mem_singleton.mp mem)
    rw [own]
    exact held
  · have this : d = c := by simpa using congrArg Prod.snd (List.mem_singleton.mp mem)
    rw [this]
    exact Option.some.inj (h.symm.trans placed)
  · refine View.ext (same j) rfl rfl rfl ?_
    simp [view, other, noTurns]
  · refine View.ext (same i) rfl rfl rfl ?_
    simp [view]

/-- A send that finds no client leaves the state. -/
theorem step_send_gone {prompt : String} {timeout : Option ℚ} (gone : s.client = none) :
    Step i (s, keeper) (act sdk i (.send prompt timeout) (s, keeper)).2 (view i (s, keeper)) := by
  have session : s.session = none := Eq.trans good.session gone
  have after : (act sdk i (.send prompt timeout) (s, keeper)).2 =
      ({ s with clock := s.clock + 1 }, keeper) := by
    simp [act, Threads.annotate, sem, Op.perform, note, Shared.send, session]
  rw [after]
  exact ⟨{ good with }, fun _ _ => rfl, rfl⟩

/-- A reply ends the sender's only turn. -/
theorem step_reply {c : ClientId} (own : ∀ d, (i, d) ∈ s.turns → d = c) :
    Step i (s, keeper) (act sdk i (.reply c) (s, keeper)).2
      { view i (s, keeper) with turns := fun _ => False } := by
  have shorter : (s.turns.erase (i, c)).length ≤ s.turns.length := List.length_erase_le
  have few : s.turns.length ≤ 1 := good.turn
  have gone : ∀ d, (i, d) ∉ s.turns.erase (i, c) := by
    intro d mem
    have same : d = c := own d (List.mem_of_mem_erase mem)
    subst same
    have pos := List.length_pos_of_mem mem
    rw [List.length_erase_of_mem (List.mem_of_mem_erase mem)] at pos
    omega
  refine ⟨{ good with
    turn := shorter.trans few
    turns := fun j d mem => good.turns j d (List.mem_of_mem_erase mem)
    ofSession := fun j d mem => good.ofSession j d (List.mem_of_mem_erase mem) },
    fun j other => ?_, ?_⟩
  · refine View.ext rfl rfl rfl rfl (funext fun d => propext ?_)
    exact List.mem_erase_of_ne fun h => other (congrArg Prod.fst h)
  · refine View.ext rfl rfl rfl rfl (funext fun d => propext ⟨gone d, False.elim⟩)

/-- A sender without a turn gives its lock back. -/
theorem step_release {l : LockId} (held : s.holder l = some i) (silent : ∀ c, (i, c) ∉ s.turns) :
    Step i (s, keeper) (act sdk i (.release l) (s, keeper)).2
      { view i (s, keeper) with holds := fun _ => False } := by
  refine ⟨{ good with holder := fun k j h => ?_, turns := fun j c mem => ?_ },
    fun j other => ?_, ?_⟩
  · by_cases ne : k = l
    · subst ne
      exact absurd h (by simp [act, Threads.annotate, sem, Op.perform])
    · exact good.holder k j (by simpa [act, Threads.annotate, sem, Op.perform, ne] using h)
  · obtain ⟨k, holds⟩ := good.turns j c mem
    have ne : k ≠ l := by
      rintro rfl
      have same : i = j := Option.some.inj (held.symm.trans holds)
      exact silent c (same ▸ mem)
    exact ⟨k, by simpa [act, Threads.annotate, sem, Op.perform, ne] using holds⟩
  · refine View.ext rfl rfl rfl (funext fun k => ?_) rfl
    by_cases ne : k = l
    · subst ne
      simp [view, act, Threads.annotate, sem, Op.perform, held, other.symm]
    · simp [view, act, Threads.annotate, sem, Op.perform, ne]
  · refine View.ext rfl rfl rfl (funext fun k => propext ⟨fun holds => ?_, False.elim⟩) rfl
    by_cases ne : k = l
    · subst ne
      simp [view, act, Threads.annotate, sem, Op.perform] at holds
    · have still : s.holder k = some i := by
        simpa [view, act, Threads.annotate, sem, Op.perform, ne] using holds
      exact ne (good.holder_unique still held).1

/-- A sender without a lock is counted out. -/
theorem step_endSend (free : ∀ l, s.holder l ≠ some i) :
    Step i (s, keeper) (act sdk i .endSend (s, keeper)).2
      { view i (s, keeper) with sending := none } := by
  have left : ∀ {j}, j ≠ i → (j ∈ s.sending.erase i ↔ j ∈ s.sending) := List.mem_erase_of_ne
  have sending : s.sending.Nodup := good.sending
  refine ⟨{ good with
    apart := fun h => ⟨(good.apart h).1, ?_⟩
    sending := sending.erase i
    holder := fun l j h => ⟨(left ?_).mpr (good.holder l j h).1, (good.holder l j h).2⟩ },
    fun j other => ?_, ?_⟩
  · have none : s.sending = [] := (good.apart h).2
    simp [act, Threads.annotate, sem, Op.perform, none]
  · rintro rfl
    exact free l h
  · refine View.ext rfl rfl ?_ rfl rfl
    simp [view, act, Threads.annotate, sem, Op.perform, left other]
  · refine View.ext rfl rfl ?_ rfl rfl
    simp [view, act, Threads.annotate, sem, Op.perform, sending.mem_erase_iff]

end Steps

end TTasks.AgentSession
