import TTasks.Laws.AgentSession.Sessions

/-!
# The event loop of a session that is opened with `with`

One coroutine opens and closes the object, through `__enter__` and `__exit__` alone; the others only
send prompts. What the first one changes (`desk`) the others leave alone, so it is followed from call
to call: the thread of the event loop runs while the object is open, and only then.
-/

namespace TTasks.AgentSession

open Interleave
open Prog (Contract Keeps)

variable {ι : Type}

/-! ## What opening and closing change -/

/-- The fields that opening and closing write. -/
structure Desk where
  client : Option ClientId
  active : Bool
  syncActive : Bool
  loop : Option LoopId
  running : List LoopId

/-- They as the state has them. -/
def desk (s : Shared ι) : Desk := ⟨s.client, s.active, s.syncActive, s.loop, s.running⟩

/-- Open with a running loop, or closed without one. -/
structure Desk.Settled (d : Desk) : Prop where
  client : d.client.isSome = d.active
  syncActive : d.syncActive = d.active
  loop : d.loop.isSome = d.active
  running : d.running = d.loop.toList

/-- The operations of `send_and_wait`. -/
def Op.Prompting : Op → Prop
  | .beginSend _ | .acquire _ | .send _ _ | .reply _ | .release _ | .endSend => True
  | _ => False

/-- The operations that leave the desk as it is. -/
def Op.Still : Op → Prop
  | .checkInactive | .newClient | .call _ _ | .giveUp | .loop => True
  | o => o.Prompting

/-- What sends a prompt leaves the desk as it is. -/
theorem Op.Prompting.still {o : Op} (h : o.Prompting) : o.Still := by
  cases o <;> first | exact h | trivial

/-- The calls of the coroutine that opens and closes. -/
def Call.Sync : Call → Prop
  | .enter | .exit _ | .sendAndWait _ _ => True
  | _ => False

/-- The calls of the other coroutines. -/
def Call.Prompts : Call → Prop
  | .sendAndWait _ _ => True
  | _ => False

/-- The desk once a client is in place. -/
def Desk.placed (d : Desk) (c : ClientId) : Desk := { d with client := some c, active := true }

/-- The desk without one. -/
def Desk.cleared (d : Desk) : Desk := { d with client := none, active := false }

/-! ## The programs that leave the desk alone -/

/-- An SDK call leaves the desk as it is. -/
theorem await_uses (c : ClientId) (call : SdkCall) : (await c call).Uses Op.Still :=
  (Prog.Uses.op trivial).bind fun error => by cases error <;> trivial

/-- The session of a client is opened, or the client exited. -/
theorem openSession_uses (config : Config) (c : ClientId) :
    (tryCatch
      (do
        await c (.createSession config.sessionOptions)
        await c .enterSession)
      fun e => do
        await c (.exitClient none)
        throw e : Coro Unit).Uses Op.Still :=
  Prog.Uses.tryCatch ((await_uses c _).bind fun _ => await_uses c _) fun e =>
    (await_uses c _).bind fun _ => Prog.Uses.fail e

/-- `send_and_wait` performs the operations of a prompt only. -/
theorem sendAndWait_uses (config : Config) (prompt : String) (timeout : Option ℚ) :
    (sendAndWait config prompt timeout).Uses Op.Prompting := by
  have raises : ∀ {α : Type} (r : Except Exc α), (orRaise r).Uses Op.Prompting := fun r => by
    cases r <;> trivial
  have turns : ∀ timeout, (turn prompt timeout).Uses Op.Prompting := fun _ =>
    ((Prog.Uses.op trivial).bind raises).bind fun _ => (Prog.Uses.op trivial).bind raises
  refine ((Prog.Uses.op trivial).bind raises).bind fun lock => ?_
  refine (Prog.Uses.finallyDo ?_ (Prog.Uses.op trivial)).bind fun _ => trivial
  refine (Prog.Uses.op trivial).bind fun error => (raises _).bind fun _ => ?_
  exact (turns _).finallyDo (Prog.Uses.op trivial)

section Owner

variable [DecidableEq ι] (sdk : Sdk) (config : Config) {owner : ι}

/-- These operations do leave the desk. -/
theorem desk_of_still {o : Op} (still : o.Still) (i : ι) (s : Shared ι) :
    desk (sem sdk i o s).2 = desk s := by
  cases o with
  | checkInactive =>
    cases active : s.active <;> simp [sem, Op.perform, desk, active]
  | beginSend timeout =>
    simp only [sem, Op.perform, Shared.beginSend]
    split
    · rfl
    · split
      · rfl
      · split <;> rfl
  | acquire l => cases raised : sdk.raises s.clock <;> simp [sem, Op.perform, desk, raised]
  | send prompt timeout =>
    cases session : s.session <;> simp [sem, Op.perform, Shared.send, desk, session, Shared.record]
  | install c => exact still.elim
  | detach => exact still.elim
  | startLoop => exact still.elim
  | stopLoop => exact still.elim
  | setSyncActive b => exact still.elim
  | _ => rfl

/-- The owner relies on the others to leave the desk alone, and they do. -/
def rule (owner i : ι) : Contract Op (Shared ι) where
  rely s s' := i = owner → desk s' = desk s
  guar o _ := i ≠ owner → o.Prompting

/-- The rules of the owner and of the others fit together. -/
theorem rules_compatible : Threads.Compatible (sem sdk) (rule owner) (fun _ => True)
    fun i (_ : Except Exc Unit) s => i = owner → (desk s).Settled where
  refl _ _ _ _ := rfl
  trans _ _ _ _ h h' here := (h' here).trans (h here)
  inv _ _ _ _ _ := trivial
  rely _ j other _ s _ guar here :=
    desk_of_still sdk (guar fun same => other (here.trans same.symm)).still j s
  post _ _ _ _ moved settled here := moved here ▸ settled here

/-- The owner's program keeps what is said of the desk, if its operations leave the desk alone. -/
theorem keeps_still {α : Type} {p : Coro α} (uses : p.Uses Op.Still) (D : Desk → Prop) :
    Keeps (sem sdk owner) (rule owner owner) (fun s => D (desk s)) p := by
  refine Keeps.of_uses (fun _ still s s' here moved => ?_) uses
  refine ⟨trivial, fun _ => ⟨fun other => absurd rfl other, ?_⟩⟩
  rw [desk_of_still sdk still, moved rfl]
  exact here

/-! ### Opening and closing -/

/-- How an opening ends: with a client in place, or with the desk as it was. -/
def Places (d : Desk) : Except Exc Unit → Shared ι → Prop
  | .ok _, s => ∃ c, desk s = d.placed c
  | .error _, s => desk s = d

/-- `open()` places a client, or leaves the desk as it was. -/
theorem openAsync_places (d : Desk) (s : Shared ι) (here : desk s = d) :
    (openAsync config).wp (sem sdk owner) (rule owner owner) (Places d) s := by
  unfold openAsync
  have still : ∀ {α : Type} {p : Coro α}, p.Uses Op.Still →
      Keeps (sem sdk owner) (rule owner owner) (fun s => desk s = d) p := fun uses =>
    keeps_still sdk uses (· = d)
  rw [Prog.bind_eq, Prog.wp_bind]
  have made : (Prog.op Op.newClient : Coro ClientId).Uses Op.Still := ⟨trivial, fun _ => trivial⟩
  refine Prog.wp_mono (still made s here) fun r s here => ?_
  cases r with
  | error e => exact here
  | ok c =>
    show (Prog.bind _ _).wp _ _ _ _
    rw [Prog.wp_bind]
    refine Prog.wp_mono (still (await_uses c _) s here) fun r s here => ?_
    cases r with
    | error e => exact here
    | ok _ =>
      show (Prog.bind _ _).wp _ _ _ _
      rw [Prog.wp_bind]
      refine Prog.wp_mono (still (openSession_uses config c) s here) fun r s here => ?_
      cases r with
      | error e => exact here
      | ok _ =>
        intro s' moved
        refine ⟨trivial, fun _ => ⟨fun other => absurd rfl other, c, ?_⟩⟩
        rw [← here, ← moved rfl]
        rfl

/-- `close()` clears the desk, whatever the SDK does. -/
theorem closeAsync_clears (exc : Option Exc) (d : Desk) (s : Shared ι) (here : desk s = d) :
    (closeAsync exc).wp (sem sdk owner) (rule owner owner) (fun _ s => desk s = d.cleared) s := by
  unfold closeAsync
  rw [Prog.bind_eq, Prog.wp_bind]
  intro s' moved
  refine ⟨trivial, fun _ => ⟨fun other => absurd rfl other, ?_⟩⟩
  have cleared : desk (sem sdk owner .detach s').2 = d.cleared := by
    rw [← here, ← moved rfl]
    rfl
  refine keeps_still sdk ?_ (· = d.cleared) _ cleared
  -- what is left exits what was in place
  have exits : ∀ (c : Option ClientId) call,
      (c.elim (pure none) fun c => (await c call).caught : Coro (Option Exc)).Uses Op.Still :=
    fun c call => by
      cases c with
      | none => trivial
      | some c => exact (await_uses c call).caught
  refine Prog.Uses.bind (exits _ _) fun first => Prog.Uses.bind (exits _ _) fun second => ?_
  cases (first.or second) <;> trivial

/-- An operation of the owner, on a desk that is known. -/
theorem wp_owner {o : Op} {Q : Except Exc o.Ans → Shared ι → Prop} {d : Desk} {s : Shared ι}
    (here : desk s = d) (next : ∀ s', desk s' = d →
      Q (.ok (sem sdk owner o s').1) (sem sdk owner o s').2) :
    (Prog.op o : Coro o.Ans).wp (sem sdk owner) (rule owner owner) Q s :=
  fun s' moved => ⟨trivial, fun _ => ⟨fun other => absurd rfl other,
    next s' ((moved rfl).trans here)⟩⟩

/-- The loop runs, and nothing else has changed yet. -/
def Desk.started (d : Desk) (l : LoopId) : Desk := { d with loop := some l, running := l :: d.running }

/-- `__enter__` ends with the desk settled. -/
theorem enter_settles : Keeps (sem sdk owner) (rule owner owner) (fun s => (desk s).Settled)
    (enter config) := by
  intro s settled
  unfold enter opens
  rw [Prog.bind_eq, Prog.wp_bind]
  refine wp_owner sdk (o := .checkInactive) rfl fun s₁ same => ?_
  have now : (desk s₁).Settled := same ▸ settled
  have still : desk (sem sdk owner .checkInactive s₁).2 = desk s₁ :=
    desk_of_still sdk (o := .checkInactive) trivial owner s₁
  have answer : (sem sdk owner .checkInactive s₁).1 = s₁.active := rfl
  rw [answer]
  cases active : s₁.active with
  | true =>
    show (desk _).Settled
    rw [still]
    exact now
  | false =>
    -- a closed object has no loop
    have noLoop : s₁.loop = none := by
      have follows : s₁.loop.isSome = s₁.active := now.loop
      rw [active] at follows
      exact Option.isNone_iff_eq_none.mp (by simpa using follows)
    have unwound : ∀ (e : Exc) s, desk s = desk s₁ →
        (Prog.op Op.giveUp >>= fun _ => (throw e : Coro Unit)).wp (sem sdk owner)
          (rule owner owner) (fun _ s => (desk s).Settled) s := by
      intro e s here
      have uses : (Prog.op Op.giveUp >>= fun _ => (throw e : Coro Unit)).Uses Op.Still :=
        ⟨trivial, fun _ => trivial⟩
      refine Prog.wp_mono (keeps_still sdk uses (· = desk s₁) s here) fun r s' here => ?_
      rw [here]
      exact now
    show (Prog.tryCatch _ _).wp _ _ _ _
    rw [Prog.wp_tryCatch, Prog.bind_eq, Prog.wp_bind]
    refine wp_owner sdk (o := .startLoop) still fun s₂ same => ?_
    have started : desk (sem sdk owner .startLoop s₂).2 = (desk s₁).started s₂.loops := by
      rw [← same]
      rfl
    show (Prog.bind (Prog.tryCatch _ _) _).wp _ _ _ _
    rw [Prog.wp_bind, Prog.wp_tryCatch]
    unfold runOnLoop
    rw [Prog.bind_eq, Prog.wp_bind]
    refine wp_owner sdk (o := .loop) started fun s₃ same => ?_
    have loop : s₃.loop = some s₂.loops := congrArg Desk.loop same
    have answer : (sem sdk owner .loop s₃).1 = some s₂.loops := loop
    rw [answer]
    refine Prog.wp_mono (openAsync_places sdk config _ _ same) fun r s₄ placed => ?_
    cases r with
    | ok _ =>
      obtain ⟨c, placed⟩ := placed
      refine wp_owner sdk (o := .setSyncActive true) placed fun s₅ same => ?_
      have ends : desk (sem sdk owner (.setSyncActive true) s₅).2 =
          { ((desk s₁).started s₂.loops).placed c with syncActive := true } := by
        rw [← same]
        rfl
      show (desk _).Settled
      rw [ends]
      refine ⟨rfl, rfl, rfl, ?_⟩
      have running : s₁.running = s₁.loop.toList := now.running
      simp [Desk.placed, Desk.started, desk, running, noLoop]
    | error e =>
      show (Prog.bind (Prog.op Op.stopLoop) _).wp _ _ _ _
      rw [Prog.wp_bind]
      refine wp_owner sdk (o := .stopLoop) placed fun s₅ same => unwound e _ ?_
      have ends : desk (sem sdk owner .stopLoop s₅).2 =
          { desk s₅ with loop := none, running := s₅.loop.elim s₅.running s₅.running.erase } := rfl
      have loop : s₅.loop = some s₂.loops := congrArg Desk.loop same
      have running : s₅.running = s₂.loops :: s₁.running := congrArg Desk.running same
      rw [ends, same, loop, running]
      simp [Desk.started, desk, noLoop]

/-- `__exit__` ends with the desk settled. -/
theorem exit_settles (exc : Option Exc) : Keeps (sem sdk owner) (rule owner owner)
    (fun s => (desk s).Settled) (exit exc) := by
  intro s settled
  unfold exit
  apply Prog.wp_finallyDo
  -- with no client in place, what the `finally` clause does settles the desk
  have cleanup : ∀ (r : Except Exc Unit) s, (desk s).client = none → (desk s).active = false →
      (desk s).running = (desk s).loop.toList →
      (do
        Prog.op (Op.setSyncActive false)
        Prog.op Op.stopLoop : Coro Unit).wp (sem sdk owner) (rule owner owner)
        (Prog.passOn (fun _ s => (desk s).Settled) r) s := by
    intro r s gone inactive running
    rw [Prog.bind_eq, Prog.wp_bind]
    refine wp_owner sdk (o := .setSyncActive false) rfl fun s₁ same => ?_
    have unsynced : desk (sem sdk owner (.setSyncActive false) s₁).2 =
        { desk s with syncActive := false } := by
      rw [← same]
      rfl
    refine wp_owner sdk (o := .stopLoop) unsynced fun s₂ same => ?_
    have ends : desk (sem sdk owner .stopLoop s₂).2 =
        { desk s with
          syncActive := false, loop := none
          running := (desk s).loop.elim (desk s).running (desk s).running.erase } := by
      have stopped : desk (sem sdk owner .stopLoop s₂).2 =
          { desk s₂ with
            loop := none
            running := (desk s₂).loop.elim (desk s₂).running (desk s₂).running.erase } := rfl
      rw [stopped, same]
    show (desk _).Settled
    rw [ends]
    refine ⟨by simp [gone, inactive], by simp [inactive], by simp [inactive], ?_⟩
    rw [running]
    cases (desk s).loop <;> simp
  rw [Prog.bind_eq, Prog.wp_bind]
  refine wp_owner sdk (o := .loop) rfl fun s₁ same => ?_
  have now : (desk s₁).Settled := same ▸ settled
  have answer : (sem sdk owner .loop s₁).1 = s₁.loop := rfl
  rw [answer]
  cases loop : s₁.loop with
  | none =>
    have inactive : (desk s₁).active = false := by
      rw [← now.loop]
      simp [desk, loop]
    have gone : (desk s₁).client = none :=
      Option.isNone_iff_eq_none.mp (by simpa [inactive] using now.client)
    exact cleanup (.ok ()) _ gone inactive now.running
  | some l =>
    show (runOnLoop (closeAsync exc)).wp _ _ _ _
    unfold runOnLoop
    rw [Prog.bind_eq, Prog.wp_bind]
    refine wp_owner sdk (o := .loop) (d := desk s₁) rfl fun s₂ same => ?_
    have still : s₂.loop = some l := (congrArg Desk.loop same).trans loop
    have answer : (sem sdk owner .loop s₂).1 = some l := still
    rw [answer]
    refine Prog.wp_mono (closeAsync_clears sdk exc _ _ same) fun r s₃ cleared => ?_
    refine cleanup r s₃ (by rw [cleared]; rfl) (by rw [cleared]; rfl) ?_
    rw [cleared]
    exact now.running

/-! ## The loop -/

/-- Each call of the owner ends with the desk settled. -/
theorem carryOut_settles (call : Call) (sync : call.Sync) : Keeps (sem sdk owner)
    (rule owner owner) (fun s => (desk s).Settled) (call.carryOut config) := by
  cases call with
  | enter => exact (enter_settles sdk config).result
  | exit exc => exact (exit_settles sdk exc).result
  | sendAndWait prompt timeout =>
    exact (keeps_still sdk ((sendAndWait_uses config prompt timeout).mono
      fun _ => Op.Prompting.still) _).result
  | _ => exact sync.elim

/-- Where one coroutine enters and exits the object and the others prompt, its script leaves the
object with the thread of one event loop running if it is open, and with none if it is closed, however
often an open has failed or a close has raised; and a prompt through a handler is accepted exactly
while it is open. The locks play no part in it: any order of steps will do. -/
theorem loop_follows (owner : ι) (code : ι → Code) (sync : (code owner).Uses Call.Sync)
    (prompts : ∀ i, i ≠ owner → (code i).Uses Call.Prompts) {allow : ι → Op → Shared ι → Prop}
    (s : State ι) (run : (Threads.machine (sem sdk)).Reaches (Threads.Allows allow)
      (start config code) s) (halted : ¬ (s.rest owner).Acting) :
    s.shared.client.isSome = s.shared.active ∧ s.shared.syncActive = s.shared.active ∧
      s.shared.loop.isSome = s.shared.active ∧ s.shared.running = s.shared.loop.toList := by
  have settled : (desk (start config code).shared).Settled := ⟨rfl, rfl, rfl, rfl⟩
  have sound : Threads.Sound (sem sdk) (rule owner) (fun _ => True)
      (fun i (_ : Except Exc Unit) s => i = owner → (desk s).Settled) (start config code) := by
    refine ⟨trivial, fun i => ?_⟩
    by_cases same : i = owner
    · subst same
      exact Prog.wp_mono (Keeps.expand (carryOut_settles sdk config) sync _ settled)
        fun r s settled _ => settled
    · have uses : ((code i).expand (Call.carryOut config)).Uses Op.Prompting :=
        Prog.Uses.expand (fun call only => by
          cases call with
          | sendAndWait prompt timeout => exact (sendAndWait_uses config prompt timeout).result
          | _ => exact only.elim) (prompts i same)
      have kept : Keeps (sem sdk i) (rule owner i) (fun _ => True)
          ((code i).expand (Call.carryOut config)) :=
        Keeps.of_uses (fun o only s s' _ _ => ⟨trivial, fun _ => ⟨fun _ => only, trivial⟩⟩) uses
      exact Prog.wp_mono (kept _ trivial) fun r s _ here => absurd here same
  have reached := sound.reaches (rules_compatible sdk)
    (run.mono fun _ _ _ _ _ _ => trivial)
  obtain ⟨_, ends⟩ := reached.post halted
  exact ⟨(ends rfl).client, (ends rfl).syncActive, (ends rfl).loop, (ends rfl).running⟩

end Owner

/-- An owner that enters and does not exit. -/
def entersOnly : Code := .act .enter fun _ => .ret ()

/-- One coroutine enters the object, another prompts. -/
theorem loop_follows_entered : ∃ s : State Bool,
    (Threads.machine (sem willing)).Reaches (Threads.Allows fun _ => Apart willing)
      (start plain (pair entersOnly (sends "b"))) s ∧
      s.shared.active = true ∧ s.shared.syncActive = true ∧ s.shared.running.length = 1 := by
  have ran : ∃ s ∈ (Threads.machine (sem willing)).exec (Threads.Allows fun _ => Apart willing)
      (List.replicate 9 false ++ List.replicate 6 true) (start plain (pair entersOnly (sends "b"))),
      s.Over ∧ s.shared.active = true := by
    decide +kernel
  obtain ⟨s, hs, halted, active⟩ := ran
  have run := Machine.reaches_of_exec hs
  have prompts : ∀ i, i ≠ false → (pair entersOnly (sends "b") i).Uses Call.Prompts
    | false, other => absurd rfl other
    | true, _ => ⟨trivial, fun _ => trivial⟩
  have enters : entersOnly.Uses Call.Sync := ⟨trivial, fun _ => trivial⟩
  obtain ⟨-, synced, looping, running⟩ :=
    loop_follows willing plain false (pair entersOnly (sends "b")) enters prompts s run (halted false)
  obtain ⟨l, loop⟩ := Option.isSome_iff_exists.mp (looping.trans active)
  exact ⟨s, run, active, synced.trans active, by rw [running, loop]; rfl⟩

end TTasks.AgentSession
