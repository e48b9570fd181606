import TTasks.Task
import TTasks.Interleave.Threads

/-!
# The agent session

`CopilotAgentSession` and the coroutines that share one: each opens it, closes it and sends prompts
through it, in any order. An operation is what a coroutine does between two `await`s, or the `await`
itself; others may go on before it. What the SDK answers is the environment's (`Sdk`), and an
`await` that is cancelled is one that raises.

The session that a client creates has the client's number. `opening` and `sending` note which
coroutines are within `_open_async` and `send_and_wait`, for `Apart` to speak of. Joining the thread
of a stopped event loop is taken to succeed within its five seconds.
-/

namespace TTasks.AgentSession

open Interleave

/-! ## The configuration -/

/-- What is passed to `create_session` under a name. -/
inductive OptionValue
  | text (value : String)
  /-- `PermissionHandler.approve_all`. -/
  | approveAll
  /-- `self._dispatch_event`. -/
  | dispatchEvent
  | other (repr : String)
  deriving DecidableEq

/-- A `dict`, in the order of its keys' insertion. -/
abbrev Options := List (String × OptionValue)

/-- `options[key] = value`. -/
def Options.set (options : Options) (key : String) (value : OptionValue) : Options :=
  if options.any (·.1 == key) then
    options.map fun entry => if entry.1 == key then (key, value) else entry
  else options ++ [(key, value)]

/-- `options.setdefault(key, value)`. -/
def Options.setdefault (options : Options) (key : String) (value : OptionValue) : Options :=
  if options.any (·.1 == key) then options else options ++ [(key, value)]

/-- What `__init__` accepts. -/
structure Config where
  model : String
  reasoningEffort : Option String := none
  workingDirectory : Option String := none
  timeout : Option ℚ := none
  options : Options := []
  model_ne : model ≠ ""
  timeout_pos : ∀ t ∈ timeout, 0 < t

/-- `if timeout is not None and timeout <= 0`. -/
def checkTimeout (timeout : Option ℚ) : Except Exc Unit :=
  if timeout.any (· ≤ 0) then .error (.valueError "timeout must be greater than 0") else .ok ()

theorem checkTimeout_ok {timeout : Option ℚ} :
    checkTimeout timeout = .ok () ↔ ∀ t ∈ timeout, 0 < t := by
  unfold checkTimeout
  cases timeout with
  | none => simp
  | some t => by_cases late : t ≤ 0 <;> simp [late, not_lt.mpr, not_le.mp]

/-- `CopilotAgentSession.__init__`. -/
def Config.create (model : String) (reasoningEffort workingDirectory : Option String)
    (timeout : Option ℚ) (options : Options) : Except Exc Config :=
  if named : model = "" then .error (.valueError "model must not be empty")
  else match checked : checkTimeout timeout with
    | .error e => .error e
    | .ok () => .ok
      { model, reasoningEffort, workingDirectory, timeout, options, model_ne := named
        timeout_pos := checkTimeout_ok.mp checked }

/-- The options of `_open_async`. -/
def Config.sessionOptions (config : Config) : Options :=
  let options := config.options.setdefault "on_permission_request" .approveAll
  let options := options.set "model" (.text config.model)
  let options := config.reasoningEffort.elim options fun effort =>
    options.set "reasoning_effort" (.text effort)
  let options := config.workingDirectory.elim options fun directory =>
    options.set "working_directory" (.text directory)
  options.set "on_event" .dispatchEvent

/-! ## The SDK -/

abbrev ClientId := Nat

inductive SdkCall
  /-- `client.__aenter__()`. -/
  | enterClient
  | createSession (options : Options)
  /-- `session.__aenter__()`. -/
  | enterSession
  | send (prompt : String) (timeout : Option ℚ)
  /-- `session.__aexit__(..)`, with the exception that is passed on. -/
  | exitSession (exc : Option Exc)
  | exitClient (exc : Option Exc)
  deriving DecidableEq

/-- How far a client and its session have come. -/
inductive Stage
  | new
  | entered
  | created
  | opened
  /-- The session is closed, the client is not. -/
  | left
  | closed
  deriving DecidableEq

/-- What the SDK may be called for at this stage, and the stage that the call leaves. A client that
cannot be entered needs no closing. -/
def Stage.after : Stage → SdkCall → (raised : Bool) → Option Stage
  | .new, .enterClient, raised => some (if raised then .closed else .entered)
  | .entered, .createSession _, raised => some (if raised then .entered else .created)
  | .created, .enterSession, raised => some (if raised then .created else .opened)
  | .opened, .send _ _, _ => some .opened
  | .opened, .exitSession _, _ => some .left
  | .entered, .exitClient _, _ | .created, .exitClient _, _ | .left, .exitClient _, _ => some .closed
  | _, _, _ => none

/-- A call that the SDK has served. -/
structure Entry where
  client : ClientId
  call : SdkCall
  raised : Bool
  deriving DecidableEq

/-- The stage to which the calls, the latest first, have brought a client, if each of them came at
its time. -/
def stage : List Entry → ClientId → Option Stage
  | [], _ => some .new
  | entry :: earlier, c =>
    if entry.client = c then (stage earlier c).bind (·.after entry.call entry.raised)
    else stage earlier c

/-- The event that answers a prompt: an assistant's message, or any other. -/
inductive Response
  | message (content : Option String)
  | other
  deriving DecidableEq

/-- `_response_text`. -/
def responseText : Option Response → String
  | some (.message content) => orEmpty content
  | _ => ""

/-- What an `await` comes to in the `n`-th step. -/
structure Sdk where
  raises : Nat → Option Exc
  response : Nat → Option Response

/-! ## The object -/

abbrev LockId := Nat

abbrev LoopId := Nat

/-- The object's attributes, and what stands around them. -/
structure Shared (ι : Type) where
  client : Option ClientId := none
  session : Option ClientId := none
  sendLock : Option LockId := none
  active : Bool := false
  syncActive : Bool := false
  loop : Option LoopId := none
  /-- How many clients, locks and event loops there have been. -/
  clients : Nat := 0
  locks : Nat := 0
  loops : Nat := 0
  /-- The calls that the SDK has served, the latest first. -/
  log : List Entry := []
  /-- Who has acquired the lock. -/
  holder : LockId → Option ι := fun _ => none
  /-- The turns under way. -/
  turns : List (ι × ClientId) := []
  /-- The event loops that run in threads of their own. -/
  running : List LoopId := []
  opening : List ι := []
  sending : List ι := []
  clock : Nat := 0

inductive Op
  /-- `if self._active` of `__aenter__` and `__enter__`. -/
  | checkInactive
  /-- `CopilotClient()`. -/
  | newClient
  | call (client : ClientId) (call : SdkCall)
  /-- The assignments that end `_open_async`. -/
  | install (client : ClientId)
  /-- `_open_async` has raised. -/
  | giveUp
  /-- `_close_async` up to its first `await`. -/
  | detach
  /-- `send_and_wait` up to its first `await`. -/
  | beginSend (timeout : Option ℚ)
  | acquire (lock : LockId)
  /-- `self._session.send_and_wait(..)`. -/
  | send (prompt : String) (timeout : Option ℚ)
  /-- The `await` of the turn. -/
  | reply (client : ClientId)
  | release (lock : LockId)
  /-- `send_and_wait` is over. -/
  | endSend
  /-- `self._loop`. -/
  | loop
  /-- `_start_loop_thread`. -/
  | startLoop
  /-- `_stop_loop_thread`. -/
  | stopLoop
  | setSyncActive (value : Bool)

namespace Op

@[reducible] def Ans : Op → Type
  | .checkInactive => Bool
  | .newClient => ClientId
  | .call _ _ => Option Exc
  | .detach => Option ClientId × Option ClientId
  | .beginSend _ => Except Exc LockId
  | .acquire _ => Option Exc
  | .send _ _ => Except Exc ClientId
  | .reply _ => Except Exc (Option Response)
  | .loop => Option LoopId
  | _ => Unit

end Op

section Steps

variable {ι : Type} [DecidableEq ι]

def Shared.record (s : Shared ι) (client : ClientId) (call : SdkCall) (raised : Bool) : Shared ι :=
  { s with log := ⟨client, call, raised⟩ :: s.log }

/-- `send_and_wait` up to its first `await`. -/
def Shared.beginSend (i : ι) (timeout : Option ℚ) (s : Shared ι) : Except Exc LockId × Shared ι :=
  if !s.active || s.session.isNone then
    (.error (.runtimeError "CopilotAgentSession is not active"), s)
  else match checkTimeout timeout with
    | .error e => (.error e, s)
    | .ok () =>
      match s.sendLock with
      | some lock => (.ok lock, { s with sending := i :: s.sending })
      | none => (.ok s.locks,
        { s with sendLock := some s.locks, locks := s.locks + 1, sending := i :: s.sending })

/-- `self._session.send_and_wait(prompt, timeout=timeout)`, of which `None` has no such method. -/
def Shared.send (i : ι) (prompt : String) (timeout : Option ℚ) (s : Shared ι) :
    Except Exc ClientId × Shared ι :=
  match s.session with
  | none => (.error (.exception "'NoneType' object has no attribute 'send_and_wait'"), s)
  | some c =>
    (.ok c, { s.record c (.send prompt timeout) false with turns := (i, c) :: s.turns })

/-- What an operation does. -/
def Op.perform (sdk : Sdk) (i : ι) : (o : Op) → Shared ι → o.Ans × Shared ι
  | .checkInactive, s => (s.active, if s.active then s else { s with opening := i :: s.opening })
  | .newClient, s => (s.clients, { s with clients := s.clients + 1 })
  | .call c served, s => (sdk.raises s.clock, s.record c served (sdk.raises s.clock).isSome)
  | .install c, s =>
    ((), { s with
      client := some c, session := some c, sendLock := some s.locks, locks := s.locks + 1
      active := true, opening := s.opening.erase i })
  | .giveUp, s => ((), { s with opening := s.opening.erase i })
  | .detach, s =>
    ((s.session, s.client),
      { s with client := none, session := none, sendLock := none, active := false })
  | .beginSend timeout, s => s.beginSend i timeout
  | .acquire lock, s =>
    match sdk.raises s.clock with
    | some e => (some e, s)
    | none => (none, { s with holder := Function.update s.holder lock (some i) })
  | .send prompt timeout, s => s.send i prompt timeout
  | .reply c, s =>
    ((sdk.raises s.clock).elim (.ok (sdk.response s.clock)) .error,
      { s with turns := s.turns.erase (i, c) })
  | .release lock, s => ((), { s with holder := Function.update s.holder lock none })
  | .endSend, s => ((), { s with sending := s.sending.erase i })
  | .loop, s => (s.loop, s)
  | .startLoop, s =>
    ((), { s with loop := some s.loops, loops := s.loops + 1, running := s.loops :: s.running })
  | .stopLoop, s =>
    ((), { s with loop := none, running := s.loop.elim s.running s.running.erase })
  | .setSyncActive value, s => ((), { s with syncActive := value })

/-- A step of one coroutine. -/
def sem (sdk : Sdk) (i : ι) (o : Op) (s : Shared ι) : o.Ans × Shared ι :=
  ((o.perform sdk i s).1, { (o.perform sdk i s).2 with clock := s.clock + 1 })

/-- A lock is acquired when it is free, unless the wait for it is cancelled; and an open that finds
the object closed overlaps neither another open nor a prompt. -/
def Apart (sdk : Sdk) : Op → Shared ι → Prop
  | .acquire lock, s => s.holder lock = none ∨ (sdk.raises s.clock).isSome = true
  | .checkInactive, s => s.active = true ∨ s.opening = [] ∧ s.sending = []
  | _, _ => True

end Steps

/-! ## The methods -/

abbrev Coro (α : Type) := Prog Op.Ans Exc α

def orRaise {α : Type} : Except Exc α → Coro α
  | .ok a => .ret a
  | .error e => .fail e

/-- An `await` of the SDK. -/
def await (client : ClientId) (call : SdkCall) : Coro Unit := do
  let error ← Prog.op (Op.call client call)
  orRaise (error.elim (.ok ()) .error)

section Methods

variable (config : Config)

/-- `_open_async`. -/
def openAsync : Coro Unit := do
  let client ← Prog.op Op.newClient
  await client .enterClient
  tryCatch
    (do
      await client (.createSession config.sessionOptions)
      await client .enterSession)
    fun e => do
      await client (.exitClient none)
      throw e
  Prog.op (Op.install client)

/-- `_close_async`: both are closed, and the first error is raised. -/
def closeAsync (exc : Option Exc) : Coro Unit := do
  let (session, client) ← Prog.op Op.detach
  let sessionError ← session.elim (pure none) fun c => (await c (.exitSession exc)).caught
  let clientError ← client.elim (pure none) fun c => (await c (.exitClient exc)).caught
  orRaise ((sessionError.or clientError).elim (.ok ()) .error)

/-- An open of the object, which is refused while it is active. -/
def opens (body : Coro Unit) : Coro Unit := do
  if ← Prog.op Op.checkInactive then
    throw (.runtimeError "CopilotAgentSession is already active")
  else
    tryCatch body fun e => do
      Prog.op Op.giveUp
      throw e

/-- `__aenter__`. -/
def aenter : Coro Unit := opens do
  openAsync config
  Prog.op (Op.setSyncActive false)

/-- `__aexit__`. -/
def aexit (exc : Option Exc) : Coro Unit := closeAsync exc

/-- `_run_on_loop`. -/
def runOnLoop (coroutine : Coro Unit) : Coro Unit := do
  let loop ← Prog.op Op.loop
  if loop.isNone then
    throw (.runtimeError "CopilotAgentSession event loop is not running")
  else
    coroutine

/-- `__enter__`. -/
def enter : Coro Unit := opens do
  Prog.op Op.startLoop
  tryCatch (runOnLoop (openAsync config)) fun e => do
    Prog.op Op.stopLoop
    throw e
  Prog.op (Op.setSyncActive true)

/-- `__exit__`. -/
def exit (exc : Option Exc) : Coro Unit :=
  Prog.finallyDo
    (do
      let loop ← Prog.op Op.loop
      if loop.isSome then runOnLoop (closeAsync exc) else pure ())
    (do
      Prog.op (Op.setSyncActive false)
      Prog.op Op.stopLoop)

/-- The turn of `send_and_wait`, for which it has the lock. -/
def turn (prompt : String) (timeout : Option ℚ) : Coro (Option Response) := do
  let client ← (Prog.op (Op.send prompt timeout)).bind orRaise
  (Prog.op (Op.reply client)).bind orRaise

/-- `send_and_wait`. -/
def sendAndWait (prompt : String) (timeout : Option ℚ) : Coro String := do
  let lock ← (Prog.op (Op.beginSend timeout)).bind orRaise
  let response ← Prog.finallyDo
    (do
      let error ← Prog.op (Op.acquire lock)
      orRaise (error.elim (.ok ()) .error)
      Prog.finallyDo (turn prompt (timeout.or config.timeout)) (Prog.op (Op.release lock)))
    (Prog.op Op.endSend)
  pure (responseText response)

/-- A method call, as a coroutine makes it. -/
inductive Call
  | aenter
  | aexit (exc : Option Exc)
  | enter
  | exit (exc : Option Exc)
  | sendAndWait (prompt : String) (timeout : Option ℚ)

namespace Call

@[reducible] def Ans : Call → Type
  | .sendAndWait _ _ => Except Exc String
  | _ => Except Exc Unit

def carryOut : (call : Call) → Coro call.Ans
  | .aenter => (AgentSession.aenter config).result
  | .aexit exc => (AgentSession.aexit exc).result
  | .enter => (AgentSession.enter config).result
  | .exit exc => (AgentSession.exit exc).result
  | .sendAndWait prompt timeout => (AgentSession.sendAndWait config prompt timeout).result

end Call

/-- Code that uses the object through its methods; it sees what each of them returns or raises. -/
abbrev Code := Prog Call.Ans Exc Unit

abbrev State (ι : Type) := Threads ι Op.Ans Exc Unit (Shared ι)

/-- The object as `__init__` leaves it, with code about to use it. -/
def start {ι : Type} (code : ι → Code) : State ι where
  shared := {}
  rest i := (code i).expand (Call.carryOut config)

end Methods

end TTasks.AgentSession
