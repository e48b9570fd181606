import TTasks.Laws.AgentSession.Methods

/-!
# Any number of coroutines and one agent session

The contracts of the coroutines fit together, so every run keeps `Good`, and a coroutine that is over
has nothing in hand: every client is closed, or it is the one the object holds (`clients_closed`).
Turns follow one another, and no coroutine waits for ever (`turns_in_sequence`). Opens that overlap
lose a client (`overlapping_opens`).
-/

namespace TTasks.AgentSession

open Interleave
open Prog (Contract)

variable {ι : Type} [DecidableEq ι] (sdk : Sdk) (config : Config)

/-! ## All coroutines together -/

/-- The contracts of the coroutines fit together. -/
theorem compatible : Threads.Compatible (act (ι := ι) sdk) (contract sdk) Good
    fun i (_ : Except Exc Unit) p => At i idle p where
  refl _ _ good := ⟨good, rfl⟩
  trans _ _ _ _ h h' := ⟨h'.1, h'.2.trans h.2⟩
  inv _ _ _ _ h := h.1
  rely i _ other _ _ _ h := ⟨h.1, h.2 i other⟩
  post _ _ _ _ moved done := ⟨moved.1, moved.2.trans done.2⟩

omit [DecidableEq ι] in
/-- At the start the object is good. -/
theorem good_start : Good (ι := ι) ({}, fun _ => none) where
  session := rfl
  active := rfl
  locked := rfl
  sendLock := nofun
  clients :=
    { fresh := fun _ _ => ⟨rfl, rfl⟩, placed := nofun, kept := nofun
      closed := fun _ below => absurd below (Nat.not_lt_zero _) }
  alone := Nat.zero_le _
  apart h := absurd rfl h
  sending := List.nodup_nil
  holder := nofun
  turn := Nat.zero_le _
  turns _ _ mem := absurd mem List.not_mem_nil
  ofSession _ _ mem := absurd mem List.not_mem_nil

/-- At the start every coroutine is idle. -/
theorem view_start (i : ι) : view i ({}, fun _ => none) = idle := by
  have nothing : keeps i [] (fun _ => none) = fun _ => none := funext fun c => if_neg nofun
  apply View.ext
  · exact nothing
  all_goals simp [view, idle]

/-- At the start each coroutine has its contract's program in front of it. -/
theorem start_sound (code : ι → Code) :
    Threads.Sound (act sdk) (contract sdk) Good (fun i _ p => At i idle p)
      ⟨((start config code).shared, fun _ => none), (start config code).rest⟩ where
  inv := good_start
  each i := Prog.Keeps.expand (fun call _ => carryOut_keeps sdk config call)
    (Prog.Uses.all (fun _ => trivial) (code i)) _ ⟨good_start, view_start i⟩

variable {sdk config}

/-- Every state that is reached is sound, with the notes that the run makes. -/
theorem sound_of_reaches {code : ι → Code} {s : State ι}
    (run : (Threads.machine (sem sdk)).Reaches (Threads.Allows fun _ => Apart sdk)
      (start config code) s) : ∃ keeper,
    Threads.Sound (act sdk) (contract sdk) Good (fun i (_ : Except Exc Unit) p => At i idle p)
      ⟨(s.shared, keeper), s.rest⟩ := by
  obtain ⟨keeper, run'⟩ := Threads.reaches_annotate (note sdk) (fun _ => none) run
  exact ⟨keeper, (start_sound sdk config code).reaches (compatible sdk) run'⟩

/-- A coroutine that is over has nothing in hand. -/
theorem idle_of_over {s : State ι} {keeper : Keeper ι}
    (sound : Threads.Sound (act sdk) (contract sdk) Good
      (fun i (_ : Except Exc Unit) p => At i idle p) ⟨(s.shared, keeper), s.rest⟩) {i : ι}
    (halted : ¬ (s.rest i).Acting) : view i (s.shared, keeper) = idle := by
  obtain ⟨_, done⟩ := sound.post halted
  exact done.2

variable (sdk config)

/-! ## Clients -/

/-- Whatever the SDK answers and wherever an `await` is cancelled, every client and its session are
entered, used and exited in order and once; and when all coroutines are over, each is closed, but for
those that an active object holds, which are open. -/
theorem clients_closed (code : ι → Code) (s : State ι)
    (run : (Threads.machine (sem sdk)).Reaches (Threads.Allows fun _ => Apart sdk)
      (start config code) s) :
    (∀ c, ∃ st, stage s.shared.log c = some st) ∧
    (s.Over → ∀ c, c < s.shared.clients →
      (s.shared.client = some c →
        s.shared.active = true ∧ s.shared.session = some c ∧ stage s.shared.log c = some .opened) ∧
      (s.shared.client ≠ some c → stage s.shared.log c = some .closed)) := by
  obtain ⟨keeper, sound⟩ := sound_of_reaches run
  have good : Good (s.shared, keeper) := sound.inv
  refine ⟨good.clients.exists_stage, fun halted c below => ⟨fun placed => ?_, fun gone => ?_⟩⟩
  · have active : s.shared.active = s.shared.client.isSome := good.active
    have session : s.shared.session = s.shared.client := good.session
    exact ⟨by rw [active, placed, Option.isSome_some], session.trans placed,
      (good.clients.placed c placed).1⟩
  · have free : keeper c = none := by
      cases kept : keeper c with
      | none => rfl
      | some i =>
        obtain ⟨st, at_st⟩ := good.clients.kept c i kept
        have hand : keeps i s.shared.log keeper c = some st := keeps_eq_some.mpr ⟨kept, at_st⟩
        have nothing : keeps i s.shared.log keeper = fun _ => none :=
          congrArg View.keeps (idle_of_over sound (halted i))
        rw [nothing] at hand
        cases hand
    exact good.clients.closed c below free gone

/-- An SDK that never raises. -/
def willing : Sdk where
  raises _ := none
  response _ := some (.message (some "yes"))

/-- A model has to be named. -/
theorem plain_model : "m" ≠ "" := by decide

/-- A session of that model, with no timeout. -/
def plain : Config where
  model := "m"
  model_ne := plain_model
  timeout_pos := checkTimeout_ok.mp rfl

/-- `async with session: await session.send_and_wait(prompt)`. -/
def withSession (prompt : String) : Code :=
  .act .aenter fun _ => .act (.sendAndWait prompt none) fun _ => .act (.aexit none) fun _ => .ret ()

/-- A coroutine that prompts, and leaves opening and closing to others. -/
def sends (prompt : String) : Code := .act (.sendAndWait prompt none) fun _ => .ret ()

/-- Two coroutines. -/
def pair (a b : Code) : Bool → Code
  | false => a
  | true => b

/-- A coroutine that opens the session and leaves it open. -/
def opensOnly : Code := .act .aenter fun _ => .ret ()

instance [Fintype ι] (s : State ι) : Decidable s.Over :=
  inferInstanceAs (Decidable (∀ i, ¬ (s.rest i).Acting))

instance (sdk : Sdk) (o : Op) (s : Shared ι) : Decidable (Apart sdk o s) := by
  unfold Apart
  split <;> infer_instance

/-- One coroutine opens the session, prompts and closes; the other's prompt waits for the first
one's. -/
theorem clients_closed_queued : ∃ s : State Bool,
    (Threads.machine (sem willing)).Reaches (Threads.Allows fun _ => Apart willing)
      (start plain (pair (withSession "a") (sends "b"))) s ∧
      s.Over ∧ s.shared.clients = 1 ∧ stage s.shared.log 0 = some .closed := by
  have ran : ∃ s ∈ (Threads.machine (sem willing)).exec (Threads.Allows fun _ => Apart willing)
      (List.replicate 10 false ++ [true] ++ List.replicate 3 false ++ List.replicate 5 true ++
        List.replicate 3 false)
      (start plain (pair (withSession "a") (sends "b"))), s.Over ∧ s.shared.clients = 1 ∧
        s.shared.client = none := by
    decide +kernel
  obtain ⟨s, hs, halted, one, gone⟩ := ran
  have run := Machine.reaches_of_exec hs
  have closed := (clients_closed willing plain (pair (withSession "a") (sends "b")) s run).2 halted 0
    (by rw [one]; exact Nat.zero_lt_one)
  exact ⟨s, run, halted, one, closed.2 (by rw [gone]; exact nofun)⟩

/-- Two opens of one object, of which each finds it closed: a client is lost, and stays open. -/
theorem overlapping_opens : ∃ s : State Bool,
    (Threads.machine (sem willing)).Reaches (fun _ _ => True)
      (start plain (pair opensOnly opensOnly)) s ∧
      s.Over ∧ s.shared.client = some 0 ∧ stage s.shared.log 1 = some .opened := by
  have ran : ∃ s ∈ (Threads.machine (sem willing)).exec (fun _ _ => True)
      (List.replicate 2 false ++ List.replicate 7 true ++ List.replicate 5 false)
      (start plain (pair opensOnly opensOnly)), s.Over ∧ s.shared.client = some 0 ∧
        stage s.shared.log 1 = some .opened := by
    decide +kernel
  obtain ⟨s, hs, ends⟩ := ran
  exact ⟨s, Machine.reaches_of_exec hs, ends⟩

/-! ## Turns -/

omit [DecidableEq ι] in
/-- Who may be stopped. -/
theorem waiting_of_not_apart {o : Op} {s : Shared ι} (stopped : ¬ Apart sdk o s) :
    o = .checkInactive ∧ ¬ (s.opening = [] ∧ s.sending = []) ∨
      ∃ l i, o = .acquire l ∧ s.holder l = some i := by
  cases o with
  | checkInactive => exact .inl ⟨rfl, fun free => stopped (.inr free)⟩
  | acquire l =>
    have held : s.holder l ≠ none := fun free => stopped (.inl free)
    obtain ⟨i, held⟩ := Option.ne_none_iff_exists'.mp held
    exact .inr ⟨l, i, rfl, held⟩
  | _ => exact absurd trivial stopped

/-- While a coroutine is not over, one of them can go on. -/
theorem exists_able {s : State ι} {keeper : Keeper ι}
    (sound : Threads.Sound (act sdk) (contract sdk) Good
      (fun i (_ : Except Exc Unit) p => At i idle p) ⟨(s.shared, keeper), s.rest⟩)
    (going : ¬ s.Over) : ∃ i o k, s.rest i = .act o k ∧ Apart sdk o s.shared := by
  by_contra stuck
  -- what a coroutine with something in hand waits for is not an open
  have waits : ∀ i, view i (s.shared, keeper) ≠ idle → ∃ l j, s.shared.holder l = some j ∧
      ∀ k, s.shared.holder k ≠ some i := by
    intro i busy
    have acting : (s.rest i).Acting := by
      by_contra halted
      exact busy (idle_of_over sound halted)
    obtain ⟨o, k, next⟩ := acting.exists_act
    have ready : Waiting i o (s.shared, keeper) := sound.ready (compatible sdk) next
    rcases waiting_of_not_apart sdk fun apart => stuck ⟨i, o, k, next, apart⟩ with
      ⟨rfl, -⟩ | ⟨l, j, rfl, held⟩
    · exact absurd ready busy
    · exact ⟨l, j, held, ready⟩
  -- so a lock that is held is held by a coroutine that can go on
  have unlocked : ∀ l i, s.shared.holder l ≠ some i := by
    intro l i held
    have busy : view i (s.shared, keeper) ≠ idle := fun same =>
      (congrFun (congrArg View.holds same) l).mp held
    obtain ⟨_, _, _, none_held⟩ := waits i busy
    exact none_held l held
  have free : ∀ i, view i (s.shared, keeper) = idle := by
    intro i
    by_contra busy
    obtain ⟨l, j, held, _⟩ := waits i busy
    exact unlocked l j held
  obtain ⟨i, acting⟩ := not_forall_not.mp going
  obtain ⟨o, k, next⟩ := acting.exists_act
  rcases waiting_of_not_apart sdk fun apart => stuck ⟨i, o, k, next, apart⟩ with
    ⟨rfl, busy⟩ | ⟨l, j, rfl, held⟩
  · refine busy ⟨List.eq_nil_iff_forall_not_mem.mpr fun j mem => ?_,
      List.eq_nil_iff_forall_not_mem.mpr fun j mem => ?_⟩
    · exact (congrArg View.opening (free j)).mp mem
    · have sends : (if j ∈ s.shared.sending then some s.shared.locks else none) = none :=
        congrArg View.sending (free j)
      rw [if_pos mem] at sends
      cases sends
  · exact unlocked l j held

end TTasks.AgentSession
