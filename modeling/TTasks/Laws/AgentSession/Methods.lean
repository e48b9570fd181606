import TTasks.Interleave.Keep
import TTasks.Laws.AgentSession.Ledger

/-!
# The methods of an agent session, one coroutine at a time

A coroutine relies on the others for `Good` and for its own view. Each operation has its rule on the
view, and from these every method is followed from `idle` back to `idle`: whatever the SDK answers
and wherever an `await` is cancelled, nothing stays in the coroutine's hand.
-/

namespace TTasks.AgentSession

open Interleave
open Prog (Contract Keeps)

variable {ι : Type} [DecidableEq ι]

/-! ## The contract -/

/-- Who waits for a lock has none, and who asks for an open has nothing. -/
def Waiting (i : ι) : Op → Noted ι → Prop
  | .checkInactive, p => view i p = idle
  | .acquire _, p => ∀ l, p.1.holder l ≠ some i
  | _, _ => True

/-- Each thread moves as its role allows, and finds the others doing so. -/
def contract (sdk : Sdk) (i : ι) : Contract Op (Noted ι) where
  rely p q := Good q ∧ view i q = view i p
  ready := Waiting i
  allow o p := Apart sdk o p.1
  guar o p := Good (act sdk i o p).2 ∧ ∀ j, j ≠ i → view j (act sdk i o p).2 = view j p

/-- The coroutine has this view of a good state. -/
def At (i : ι) (v : View) (p : Noted ι) : Prop := Good p ∧ view i p = v

namespace View

/-- The client in hand has come to the stage; with `closed` it leaves the hand. -/
def put (v : View) (c : ClientId) (st : Stage) : View :=
  { v with keeps := Function.update v.keeps c (if st = .closed then none else some st) }

/-- Of two stages put down for one client the second stands. -/
@[simp] theorem put_put (v : View) (c : ClientId) (st st' : Stage) :
    (v.put c st).put c st' = v.put c st' := by
  simp [put]

/-- Closing a client that is not kept changes nothing. -/
theorem put_closed {v : View} {c : ClientId} (free : v.keeps c = none) : v.put c .closed = v := by
  have same : Function.update v.keeps c none = v.keeps := Function.update_eq_self_iff.mpr free.symm
  simp only [put, if_true, same]

/-- A client that is put down as open is kept in that stage. -/
theorem put_keeps (v : View) (c : ClientId) {st : Stage} (open' : st ≠ .closed) :
    (v.put c st).keeps c = some st := by
  simp [put, open']

end View

section Rules

variable (sdk : Sdk) {i : ι} {p : Noted ι} {v : View}

/-- An operation that steps from any state with the coroutine's view. -/
theorem wp_op {o : Op} {Q : Except Exc o.Ans → Noted ι → Prop} (here : At i v p)
    (waiting : ∀ q, At i v q → Waiting i o q)
    (step : ∀ s keeper, At i v (s, keeper) → Apart sdk o s →
      ∃ v', Step i (s, keeper) (act sdk i o (s, keeper)).2 v' ∧
        (At i v' (act sdk i o (s, keeper)).2 →
          Q (.ok (act sdk i o (s, keeper)).1) (act sdk i o (s, keeper)).2)) :
    (Prog.op o : Coro o.Ans).wp (act sdk i) (contract sdk i) Q p := by
  rintro ⟨s, keeper⟩ ⟨good, same⟩
  have now : At i v (s, keeper) := ⟨good, same.trans here.2⟩
  refine ⟨waiting _ now, fun allowed => ?_⟩
  obtain ⟨v', step, next⟩ := step s keeper now allowed
  exact ⟨⟨step.good, step.others⟩, next ⟨step.good, step.own⟩⟩

/-- An operation that is none of the role's business leaves the thread where it stands. -/
theorem wp_aside (o : Op) (aside : o.Aside) {Q : Except Exc o.Ans → Noted ι → Prop}
    (here : At i v p) (next : ∀ x q, At i v q → Q (.ok x) q) :
    (Prog.op o : Coro o.Ans).wp (act sdk i) (contract sdk i) Q p := by
  refine wp_op sdk here (fun q _ => ?_) fun s keeper now _ => ?_
  · cases o <;> first | exact aside.elim | trivial
  · exact ⟨_, step_aside sdk now.1 aside, fun after => next _ _ (now.2 ▸ after)⟩

/-- A new client is one that was not kept. -/
theorem wp_newClient {Q : Except Exc ClientId → Noted ι → Prop} (here : At i v p)
    (next : ∀ c q, v.keeps c = none → At i (v.put c .new) q → Q (.ok c) q) :
    (Prog.op Op.newClient : Coro ClientId).wp (act sdk i) (contract sdk i) Q p := by
  refine wp_op sdk here (fun _ _ => trivial) fun s keeper now _ => ?_
  refine ⟨_, step_newClient sdk now.1, fun after => ?_⟩
  obtain ⟨good, rfl⟩ := now
  have free : keeper s.clients = none := (good.clients.fresh _ (Nat.le_refl _)).2
  exact next s.clients _ (by simp [view, keeps, free]) after

/-- An SDK call on a client moves it on, in whichever way the call ends. -/
theorem wp_await {c : ClientId} {call : SdkCall} {st : Stage}
    {Q : Except Exc Unit → Noted ι → Prop} (here : At i v p) (has : v.keeps c = some st)
    (may : ∀ raised, ∃ st', st.after call raised = some st')
    (next : ∀ r q st', st.after call (Prog.raised r).isSome = some st' → At i (v.put c st') q →
      Q r q) : (await c call).wp (act sdk i) (contract sdk i) Q p := by
  refine (Prog.wp_bind _ _ _ _ _ _).mpr (wp_op sdk here (fun _ _ => trivial) fun s keeper now _ => ?_)
  obtain ⟨good, rfl⟩ := now
  obtain ⟨mine, at_st⟩ := keeps_eq_some.mp has
  obtain ⟨st', after⟩ := may (sdk.raises s.clock).isSome
  refine ⟨_, step_call sdk good mine at_st after, fun at' => ?_⟩
  show (orRaise (Option.elim (sdk.raises s.clock) (.ok ()) .error)).wp (act sdk i) (contract sdk i)
    Q _
  cases raised : sdk.raises s.clock with
  | none => exact next (.ok ()) _ st' (by rw [raised] at after; exact after) at'
  | some e => exact next (.error e) _ st' (by rw [raised] at after; exact after) at'

/-- Installing an opened client hands it over to the session. -/
theorem wp_install {c : ClientId} {Q : Except Exc Unit → Noted ι → Prop} (here : At i v p)
    (has : v.keeps c = some .opened) (opening : v.opening)
    (next : ∀ q, At i { v.put c .closed with opening := False } q → Q (.ok ()) q) :
    (Prog.op (Op.install c) : Coro Unit).wp (act sdk i) (contract sdk i) Q p := by
  refine wp_op sdk here (fun _ _ => trivial) fun s keeper now _ => ?_
  obtain ⟨good, rfl⟩ := now
  obtain ⟨mine, opened⟩ := keeps_eq_some.mp has
  exact ⟨_, step_install sdk good mine opened opening, next _⟩

/-- Giving up an opening leaves the thread idle. -/
theorem wp_giveUp {Q : Except Exc Unit → Noted ι → Prop} (here : At i v p)
    (next : ∀ q, At i { v with opening := False } q → Q (.ok ()) q) :
    (Prog.op Op.giveUp : Coro Unit).wp (act sdk i) (contract sdk i) Q p := by
  refine wp_op sdk here (fun _ _ => trivial) fun s keeper now _ => ?_
  obtain ⟨good, rfl⟩ := now
  exact ⟨_, step_giveUp sdk good, next _⟩

/-- `open()` is refused while the session is active, and otherwise begins an opening. -/
theorem wp_checkInactive {Q : Except Exc Bool → Noted ι → Prop} (here : At i idle p)
    (refused : ∀ q, At i idle q → Q (.ok true) q)
    (admitted : ∀ q, At i { idle with opening := True } q → Q (.ok false) q) :
    (Prog.op Op.checkInactive : Coro Bool).wp (act sdk i) (contract sdk i) Q p := by
  refine wp_op sdk here (fun _ now => now.2) fun s keeper now allowed => ?_
  obtain ⟨good, same⟩ := now
  have answer : (act sdk i .checkInactive (s, keeper)).1 = s.active := rfl
  rw [answer]
  cases active : s.active with
  | true => exact ⟨_, step_refused sdk good active, fun after => refused _ (same ▸ after)⟩
  | false =>
    refine ⟨_, step_checkInactive sdk good allowed active, fun after => admitted _ ?_⟩
    rw [same] at after
    exact after

/-- What `_close_async` takes into its hand: nothing, or the client and its session. -/
theorem wp_detach {Q : Except Exc (Option ClientId × Option ClientId) → Noted ι → Prop}
    (here : At i v p) (nothing : ∀ q, At i v q → Q (.ok (none, none)) q)
    (both : ∀ c q, v.keeps c = none → At i (v.put c .opened) q → Q (.ok (some c, some c)) q) :
    (Prog.op Op.detach : Coro (Option ClientId × Option ClientId)).wp (act sdk i) (contract sdk i)
      Q p := by
  refine wp_op sdk here (fun _ _ => trivial) fun s keeper now _ => ?_
  obtain ⟨good, rfl⟩ := now
  have session : s.session = s.client := good.session
  have answer : (act sdk i .detach (s, keeper)).1 = (s.client, s.client) := by
    rw [← session]
    exact congrArg _ session.symm
  rw [answer]
  cases placed : s.client with
  | none => exact ⟨_, step_detach_none sdk good placed, nothing _⟩
  | some c =>
    have unkept : keeper c = none := (good.clients.placed c placed).2
    exact ⟨_, step_detach sdk good placed, both c _ (by simp [view, keeps, unkept])⟩

/-! ### Prompts -/

/-- A send is refused, or it is counted and has the session's lock to wait for. -/
theorem wp_beginSend {timeout : Option ℚ} {Q : Except Exc (Except Exc LockId) → Noted ι → Prop}
    (here : At i v p) (quiet : v.sending = none)
    (refused : ∀ e q, At i v q → Q (.ok (.error e)) q)
    (admitted : ∀ l q, At i { v with sending := some (l + 1) } q → Q (.ok (.ok l)) q) :
    (Prog.op (Op.beginSend timeout) : Coro (Except Exc LockId)).wp (act sdk i) (contract sdk i)
      Q p := by
  refine wp_op sdk here (fun _ _ => trivial) fun s keeper now _ => ?_
  obtain ⟨good, rfl⟩ := now
  have notSending : i ∉ s.sending := fun sends => by simp [view, sends] at quiet
  cases answer : (act sdk i (.beginSend timeout) (s, keeper)).1 with
  | error e => exact ⟨_, step_beginSend_refused sdk good answer, refused e _⟩
  | ok l => exact ⟨_, (step_beginSend sdk good notSending answer).2, admitted l _⟩

/-- Waiting for the lock ends with the lock, or with the wait cancelled. -/
theorem wp_acquire {l : LockId} {Q : Except Exc (Option Exc) → Noted ι → Prop} (here : At i v p)
    (sending : v.sending = some (l + 1)) (free : v.holds = fun _ => False)
    (cancelled : ∀ e q, At i v q → Q (.ok (some e)) q)
    (acquired : ∀ q, At i { v with holds := fun k => k = l } q → Q (.ok none) q) :
    (Prog.op (Op.acquire l) : Coro (Option Exc)).wp (act sdk i) (contract sdk i) Q p := by
  have none_held : ∀ q, At i v q → ∀ k, q.1.holder k ≠ some i := by
    rintro q ⟨-, rfl⟩ k held
    exact (congrFun free k).mp held
  refine wp_op sdk here (fun q now => none_held q now) fun s keeper now allowed => ?_
  have unheld := none_held _ now
  obtain ⟨good, rfl⟩ := now
  obtain ⟨sends, locks⟩ : i ∈ s.sending ∧ s.locks = l + 1 := by
    by_cases sends : i ∈ s.sending
    · simp only [view, if_pos sends] at sending
      exact ⟨sends, Option.some.inj sending⟩
    · simp only [view, if_neg sends] at sending
      cases sending
  cases raised : sdk.raises s.clock with
  | some e =>
    have answer : (act sdk i (.acquire l) (s, keeper)).1 = some e := by
      simp [act, Threads.annotate, sem, Op.perform, raised]
    rw [answer]
    exact ⟨_, step_acquire_cancelled sdk good raised, cancelled e _⟩
  | none =>
    have answer : (act sdk i (.acquire l) (s, keeper)).1 = none := by
      simp [act, Threads.annotate, sem, Op.perform, raised]
    have unlocked : s.holder l = none := by
      rcases allowed with unlocked | interrupted
      · exact unlocked
      · rw [raised] at interrupted
        cases interrupted
    rw [answer]
    refine ⟨_, step_acquire sdk good sends locks unlocked raised, fun after => acquired _ ?_⟩
    have only : (fun k => k = l ∨ s.holder k = some i) = fun k => k = l :=
      funext fun k => propext (or_iff_left (unheld k))
    rw [only] at after
    exact after

/-- A prompt goes out under the lock, and opens a turn with the client it went to. -/
theorem wp_send {prompt : String} {timeout : Option ℚ} {l : LockId}
    {Q : Except Exc (Except Exc ClientId) → Noted ι → Prop} (here : At i v p) (held : v.holds l)
    (silent : v.turns = fun _ => False) (gone : ∀ e q, At i v q → Q (.ok (.error e)) q)
    (sent : ∀ c q, At i { v with turns := fun d => d = c } q → Q (.ok (.ok c)) q) :
    (Prog.op (Op.send prompt timeout) : Coro (Except Exc ClientId)).wp (act sdk i) (contract sdk i)
      Q p := by
  refine wp_op sdk here (fun _ _ => trivial) fun s keeper now _ => ?_
  obtain ⟨good, rfl⟩ := now
  have session : s.session = s.client := good.session
  cases placed : s.client with
  | none =>
    refine ⟨_, step_send_gone sdk good placed, fun after => ?_⟩
    have answer : ∃ e, (act sdk i (.send prompt timeout) (s, keeper)).1 = .error e := by
      simp [act, Threads.annotate, sem, Op.perform, Shared.send, session, placed]
    obtain ⟨e, answer⟩ := answer
    rw [answer]
    exact gone e _ after
  | some c =>
    have answer : (act sdk i (.send prompt timeout) (s, keeper)).1 = .ok c := by
      simp [act, Threads.annotate, sem, Op.perform, Shared.send, session, placed]
    rw [answer]
    exact ⟨_, step_send sdk good held (fun d => (congrFun silent d).mp) placed, sent c _⟩

/-- The reply ends the turn. -/
theorem wp_reply {c : ClientId} {Q : Except Exc (Except Exc (Option Response)) → Noted ι → Prop}
    (here : At i v p) (own : v.turns = fun d => d = c)
    (next : ∀ r q, At i { v with turns := fun _ => False } q → Q (.ok r) q) :
    (Prog.op (Op.reply c) : Coro (Except Exc (Option Response))).wp (act sdk i) (contract sdk i)
      Q p := by
  refine wp_op sdk here (fun _ _ => trivial) fun s keeper now _ => ?_
  obtain ⟨good, rfl⟩ := now
  exact ⟨_, step_reply sdk good fun d => (congrFun own d).mp, next _ _⟩

/-- The lock is released with no turn open. -/
theorem wp_release {l : LockId} {Q : Except Exc Unit → Noted ι → Prop} (here : At i v p)
    (held : v.holds l) (silent : v.turns = fun _ => False)
    (next : ∀ q, At i { v with holds := fun _ => False } q → Q (.ok ()) q) :
    (Prog.op (Op.release l) : Coro Unit).wp (act sdk i) (contract sdk i) Q p := by
  refine wp_op sdk here (fun _ _ => trivial) fun s keeper now _ => ?_
  obtain ⟨good, rfl⟩ := now
  exact ⟨_, step_release sdk good held fun d => (congrFun silent d).mp, next _⟩

/-- A send is counted out once its lock is free. -/
theorem wp_endSend {Q : Except Exc Unit → Noted ι → Prop} (here : At i v p)
    (free : v.holds = fun _ => False) (next : ∀ q, At i { v with sending := none } q → Q (.ok ()) q) :
    (Prog.op Op.endSend : Coro Unit).wp (act sdk i) (contract sdk i) Q p := by
  refine wp_op sdk here (fun _ _ => trivial) fun s keeper now _ => ?_
  obtain ⟨good, rfl⟩ := now
  exact ⟨_, step_endSend sdk good fun l => (congrFun free l).mp, next _⟩

end Rules

/-! ## The methods -/

section Methods

variable (sdk : Sdk) (config : Config) {i : ι} {p : Noted ι}

/-- Nothing in hand but the right to open. -/
def opener : View := { idle with opening := True }

/-- How an open's body ends: with the object open, or with nothing. -/
def Opened (i : ι) : Except Exc Unit → Noted ι → Prop
  | .ok _, q => At i idle q
  | .error _, q => At i opener q

/-- How the opening of the client's session ends. -/
def SessionOpened (i : ι) (c : ClientId) : Except Exc Unit → Noted ι → Prop
  | .ok _, q => At i (opener.put c .opened) q
  | .error _, q => At i opener q

/-- Entering is the first thing that may be done with a new client. -/
theorem may_enterClient (raised : Bool) : ∃ st, Stage.after .new .enterClient raised = some st :=
  ⟨_, rfl⟩

/-- An entered client may be exited, whatever has become of its session. -/
theorem may_exitClient {st : Stage} (ready : st = .entered ∨ st = .created ∨ st = .left)
    (exc : Option Exc) (raised : Bool) : st.after (.exitClient exc) raised = some .closed := by
  rcases ready with rfl | rfl | rfl <;> rfl

/-- A client that is exited leaves the hand, whether or not the call raises. -/
theorem wp_exitClient {v : View} {c : ClientId} {st : Stage} {exc : Option Exc}
    {Q : Except Exc Unit → Noted ι → Prop} (here : At i (v.put c st) p) (free : v.keeps c = none)
    (ready : st = .entered ∨ st = .created ∨ st = .left) (next : ∀ r q, At i v q → Q r q) :
    (await c (.exitClient exc)).wp (act sdk i) (contract sdk i) Q p := by
  have has : (v.put c st).keeps c = some st :=
    v.put_keeps c (by rintro rfl; simp at ready)
  refine wp_await sdk here has (fun raised => ⟨_, may_exitClient ready exc raised⟩)
    fun r q st' after at' => ?_
  rw [may_exitClient ready] at after
  cases after
  rw [View.put_put, View.put_closed free] at at'
  exact next r q at'

/-- The session of a client that has been entered: open, or neither of them is. -/
theorem wp_openSession {c : ClientId} (here : At i (opener.put c .entered) p) :
    (tryCatch
      (do
        await c (.createSession config.sessionOptions)
        await c .enterSession)
      fun e => do
        await c (.exitClient none)
        throw e : Coro Unit).wp (act sdk i) (contract sdk i) (SessionOpened i c) p := by
  rw [Prog.tryCatch_eq, Prog.wp_tryCatch, Prog.bind_eq, Prog.wp_bind]
  -- whichever call raises, the client is exited
  have handler : ∀ st e q, st = .entered ∨ st = .created ∨ st = .left →
      At i (opener.put c st) q →
      (await c (.exitClient none) >>= fun _ => (throw e : Coro Unit)).wp (act sdk i)
        (contract sdk i) (SessionOpened i c) q := by
    intro st e q ready at_st
    rw [Prog.bind_eq, Prog.wp_bind]
    refine wp_exitClient sdk at_st rfl ready fun r q' at' => ?_
    cases r <;> exact at'
  refine wp_await sdk here (opener.put_keeps c nofun) (fun raised => ⟨_, rfl⟩)
    fun r q st' after at' => ?_
  rw [View.put_put] at at'
  cases r with
  | error e =>
    cases after
    exact handler _ e q (.inl rfl) at'
  | ok u =>
    cases after
    refine wp_await sdk at' (opener.put_keeps c nofun) (fun raised => ⟨_, rfl⟩)
      fun r q' st' after at' => ?_
    rw [View.put_put] at at'
    cases r with
    | error e =>
      cases after
      exact handler _ e q' (.inr (.inl rfl)) at'
    | ok u =>
      cases after
      exact at'

/-- An opening ends with its client installed, or with the client closed and the opening given up.
-/
theorem wp_openAsync (here : At i opener p) :
    (openAsync config).wp (act sdk i) (contract sdk i) (Opened i) p := by
  unfold openAsync
  rw [Prog.bind_eq, Prog.wp_bind]
  refine wp_newClient sdk here fun c q free at_new => ?_
  show ((await c .enterClient).bind _).wp _ _ _ _
  rw [Prog.wp_bind]
  refine wp_await sdk at_new (opener.put_keeps c nofun) may_enterClient fun r q st' after at' => ?_
  rw [View.put_put] at at'
  cases r with
  | error e =>
    cases after
    have gone : At i (opener.put c .closed) q := at'
    rw [View.put_closed (v := opener) rfl] at gone
    exact gone
  | ok u =>
    cases after
    show (Prog.bind _ _).wp _ _ _ _
    rw [Prog.wp_bind]
    refine Prog.wp_mono (wp_openSession sdk config at') fun r q' at' => ?_
    cases r with
    | error e => exact at'
    | ok u =>
      refine wp_install sdk at' (opener.put_keeps c nofun) trivial fun q'' at'' => ?_
      rw [View.put_put, View.put_closed rfl] at at''
      exact at''

/-- Closing keeps no client. -/
theorem closeAsync_keeps (exc : Option Exc) :
    Keeps (act sdk i) (contract sdk i) (At i idle) (closeAsync exc) := by
  intro p here
  unfold closeAsync
  rw [Prog.bind_eq, Prog.wp_bind]
  have raises : ∀ (error : Option Exc) q, At i idle q →
      (orRaise (error.elim (.ok ()) .error) : Coro Unit).wp (act sdk i) (contract sdk i)
        (fun _ q => At i idle q) q := by
    intro error q at_idle
    cases error <;> exact at_idle
  refine wp_detach sdk here (fun q at_idle => raises none q at_idle) fun c q free at_opened => ?_
  show (Prog.bind (await c (.exitSession exc)).caught _).wp _ _ _ _
  rw [Prog.wp_bind]
  refine Prog.wp_caught (wp_await sdk at_opened (idle.put_keeps c nofun) (fun raised => ⟨_, rfl⟩)
    fun r q' st' after at' => ?_)
  cases after
  rw [View.put_put] at at'
  show (Prog.bind (await c (.exitClient exc)).caught _).wp _ _ _ _
  rw [Prog.wp_bind]
  exact Prog.wp_caught (wp_exitClient sdk at' rfl (.inr (.inr rfl)) fun r' q'' at'' =>
    raises _ q'' at'')

/-- A method that opens a client leaves the thread idle, however it ends. -/
theorem opens_keeps {body : Coro Unit}
    (spec : ∀ q, At i opener q → body.wp (act sdk i) (contract sdk i) (Opened i) q) :
    Keeps (act sdk i) (contract sdk i) (At i idle) (opens body) := by
  intro p here
  unfold opens
  rw [Prog.bind_eq, Prog.wp_bind]
  refine wp_checkInactive sdk here (fun q at_idle => at_idle) fun q at_opener => ?_
  show (body.tryCatch _).wp _ _ _ _
  rw [Prog.wp_tryCatch]
  refine Prog.wp_mono (spec q at_opener) fun r q' ends => ?_
  cases r with
  | ok u => exact ends
  | error e =>
    show (Prog.bind (Prog.op Op.giveUp) _).wp _ _ _ _
    rw [Prog.wp_bind]
    exact wp_giveUp sdk ends fun q'' at_idle => at_idle

/-- `__aenter__` leaves the thread idle. -/
theorem aenter_keeps : Keeps (act sdk i) (contract sdk i) (At i idle) (aenter config) := by
  refine opens_keeps sdk fun q at_opener => ?_
  rw [Prog.bind_eq, Prog.wp_bind]
  refine Prog.wp_mono (wp_openAsync sdk config at_opener) fun r q' ends => ?_
  cases r with
  | error e => exact ends
  | ok u => exact wp_aside sdk (.setSyncActive false) trivial ends fun x q'' at' => at'

/-- A coroutine run on the loop thread keeps what it keeps, or the loop is stopped. -/
theorem wp_runOnLoop {v : View} {coroutine : Coro Unit} {Q : Except Exc Unit → Noted ι → Prop}
    (here : At i v p) (stopped : ∀ e q, At i v q → Q (.error e) q)
    (spec : ∀ q, At i v q → coroutine.wp (act sdk i) (contract sdk i) Q q) :
    (runOnLoop coroutine).wp (act sdk i) (contract sdk i) Q p := by
  unfold runOnLoop
  rw [Prog.bind_eq, Prog.wp_bind]
  refine wp_aside sdk .loop trivial here fun loop q at_v => ?_
  cases loop with
  | none => exact stopped _ q at_v
  | some l => exact spec q at_v

/-- `__enter__` leaves the thread idle. -/
theorem enter_keeps : Keeps (act sdk i) (contract sdk i) (At i idle) (enter config) := by
  refine opens_keeps sdk fun q at_opener => ?_
  rw [Prog.bind_eq, Prog.wp_bind]
  refine wp_aside sdk .startLoop trivial at_opener fun _ q at_opener => ?_
  show (Prog.bind (Prog.tryCatch _ _) _).wp _ _ _ _
  rw [Prog.wp_bind, Prog.wp_tryCatch]
  refine Prog.wp_mono (wp_runOnLoop sdk (Q := Opened i) at_opener (fun e q' at' => at')
    fun q' at' => wp_openAsync sdk config at') fun r q' ends => ?_
  cases r with
  | ok u => exact wp_aside sdk (.setSyncActive true) trivial ends fun x q₂ at₂ => at₂
  | error e =>
    show (Prog.bind (Prog.op Op.stopLoop) _).wp _ _ _ _
    rw [Prog.wp_bind]
    exact wp_aside sdk .stopLoop trivial ends fun x q₂ at₂ => at₂

/-- `__exit__` leaves the thread idle. -/
theorem exit_keeps (exc : Option Exc) :
    Keeps (act sdk i) (contract sdk i) (At i idle) (exit exc) := by
  intro p here
  unfold exit
  apply Prog.wp_finallyDo
  -- the `finally` clause keeps the view, and raises nothing
  have cleanup : ∀ (r : Except Exc Unit) q, At i idle q →
      (do
        Prog.op (Op.setSyncActive false)
        Prog.op Op.stopLoop : Coro Unit).wp (act sdk i) (contract sdk i)
        (Prog.passOn (fun _ q => At i idle q) r) q := by
    intro r q at_idle
    rw [Prog.bind_eq, Prog.wp_bind]
    exact wp_aside sdk (.setSyncActive false) trivial at_idle fun _ q' at' =>
      wp_aside sdk .stopLoop trivial at' fun _ q₂ at₂ => at₂
  rw [Prog.bind_eq, Prog.wp_bind]
  refine wp_aside sdk .loop trivial here fun loop q at_idle => ?_
  cases loop with
  | none => exact cleanup (.ok ()) q at_idle
  | some l =>
    exact wp_runOnLoop sdk at_idle (fun e q' at' => cleanup _ q' at') fun q' at' =>
      Prog.wp_mono (closeAsync_keeps sdk exc q' at') fun r q₂ at₂ => cleanup r q₂ at₂

/-- A turn, from the lock to the answer. -/
theorem turn_keeps {v : View} {l : LockId} (held : v.holds l)
    (silent : v.turns = fun _ => False) (prompt : String) (timeout : Option ℚ) :
    Keeps (act sdk i) (contract sdk i) (At i v) (turn prompt timeout) := by
  intro p here
  unfold turn
  rw [Prog.bind_eq, Prog.wp_bind, Prog.wp_bind]
  refine wp_send sdk here held silent (fun e q at' => at') fun c q at_turn => ?_
  show (Prog.bind (Prog.op (Op.reply c)) _).wp _ _ _ _
  rw [Prog.wp_bind]
  refine wp_reply sdk at_turn rfl fun r q' at' => ?_
  have back : { v with turns := fun _ => False } = v := by rw [← silent]
  have at_v : At i v q' := back ▸ at'
  cases r <;> exact at_v

/-- A send leaves the thread idle: its lock is free and its turn is over. -/
theorem sendAndWait_keeps (prompt : String) (timeout : Option ℚ) :
    Keeps (act sdk i) (contract sdk i) (At i idle) (sendAndWait config prompt timeout) := by
  intro p here
  unfold sendAndWait
  rw [Prog.bind_eq, Prog.wp_bind, Prog.wp_bind]
  refine wp_beginSend sdk here rfl (fun e q at' => at') fun l q at_sender => ?_
  show (Prog.bind (Prog.finallyDo _ _) _).wp _ _ _ _
  rw [Prog.wp_bind]
  apply Prog.wp_finallyDo
  have done : ∀ (r : Except Exc (Option Response)) q,
      At i { idle with sending := some (l + 1) } q →
      (Prog.op Op.endSend : Coro Unit).wp (act sdk i) (contract sdk i)
        (Prog.passOn (Prog.onOk (fun response q =>
          (pure (responseText response) : Coro String).wp (act sdk i) (contract sdk i)
            (fun _ q => At i idle q) q)
          (fun _ q => At i idle q : Except Exc String → Noted ι → Prop)) r) q := by
    intro r q at'
    refine wp_endSend sdk at' rfl fun q' at_idle => ?_
    cases r <;> exact at_idle
  rw [Prog.bind_eq, Prog.wp_bind]
  refine wp_acquire sdk at_sender rfl rfl (fun e q' at' => done _ q' at') fun q' at_holder => ?_
  show (Prog.finallyDo _ _).wp _ _ _ _
  apply Prog.wp_finallyDo
  refine Prog.wp_mono (turn_keeps sdk (l := l) rfl rfl _ _ q' at_holder) fun r q₂ at₂ => ?_
  refine wp_release sdk at₂ rfl rfl fun q₃ at₃ => ?_
  cases r <;> exact done _ q₃ at₃

/-- Every method call begins and ends with nothing in hand. -/
theorem carryOut_keeps (call : Call) :
    Keeps (act sdk i) (contract sdk i) (At i idle) (call.carryOut config) := by
  cases call with
  | aenter => exact (aenter_keeps sdk config).result
  | aexit exc => exact (closeAsync_keeps sdk exc).result
  | enter => exact (enter_keeps sdk config).result
  | exit exc => exact (exit_keeps sdk exc).result
  | sendAndWait prompt timeout => exact (sendAndWait_keeps sdk config prompt timeout).result

end Methods

end TTasks.AgentSession
