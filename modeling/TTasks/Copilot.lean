import TTasks.Task
import Mathlib.Logic.Relation

/-!
# A turn of a Copilot session

The polling loop of `CopilotAgentSession.handler`, beside the event loop that completes the turn,
whoever cancels the task, and whoever closes the session. An iteration reads twice, the future and
then the task's status, so the world may move before each of them; `Run` is every way in which it
can move.

`TimeoutError` is one class, whether `future.result` raises it because the future is not done, or
because it is the exception that the future holds.
-/

namespace TTasks.Copilot

/-- The exceptions that a future can hold, as the loop tells them apart. -/
inductive TurnError
  | timeoutError (message : String)
  /-- `concurrent.futures.CancelledError`. -/
  | cancelledError
  | other (e : Exc)
  deriving DecidableEq

/-- `concurrent.futures.Future`. -/
inductive Future
  | pending
  | value (text : String)
  | cancelled
  | raised (e : TurnError)
  deriving DecidableEq

/-- What the loop and its surroundings share. -/
structure Session where
  future : Future := .pending
  /-- `context.cancelled`. -/
  cancelled : Bool := false
  /-- The event loop runs; `__exit__` stops it for good. -/
  running : Bool := true
  deriving DecidableEq

/-- What happens around the loop. -/
inductive Event
  /-- The turn ends on the event loop: `future` is what it leaves. -/
  | complete (future : Future)
  /-- The task becomes CANCELLED, and stays so. -/
  | cancelTask
  /-- `_stop_loop_thread`. -/
  | stopLoop

/-- A future is completed once, and by a running event loop. -/
def Event.apply : Event → Session → Session
  | .complete future, s => if s.future = .pending ∧ s.running then { s with future } else s
  | .cancelTask, s => { s with cancelled := true }
  | .stopLoop, s => { s with running := false }

/-- Any events, one after another. -/
def Moves (s s' : Session) : Prop := ∃ events : List Event, s' = events.foldl (fun s e => e.apply s) s

/-- Every way in which the world can move around the loop's reads: the `2 * n`-th is the read of
the future in iteration `n`, the next is that of the task's status. -/
structure Run where
  moment : Nat → Session
  moves : ∀ m, Moves (moment m) (moment (m + 1))

def taskCancelled (id : TaskId) : Exc := .taskCancelled ("Task " ++ quoted id ++ " was cancelled")

/-- One iteration: the loop is left with a value or an exception, or goes on. `abort` is what
`_abort_active` raises, if it does. -/
def iteration (id : TaskId) (abort : Option Exc) (polled checked : Session) :
    Option (Except Exc String) :=
  match polled.future with
  -- `except FutureTimeoutError`
  | .pending | .raised (.timeoutError _) =>
    if checked.cancelled then some (.error (abort.getD (taskCancelled id))) else none
  -- `except FutureCancelledError`
  | .cancelled | .raised .cancelledError => some (.error (taskCancelled id))
  | .raised (.other e) => some (.error e)
  | .value text =>
    -- `context.raise_if_cancelled()`
    if checked.cancelled then some (.error (taskCancelled id)) else some (.ok text)

variable (id : TaskId) (abort : Option Exc)

/-- Iteration `n`, if the loop comes to it. -/
def Run.iteration (w : Run) (n : Nat) : Option (Except Exc String) :=
  Copilot.iteration id abort (w.moment (2 * n)) (w.moment (2 * n + 1))

/-- The loop is left in iteration `n`, with this value or exception. -/
def Run.Leaves (w : Run) (n : Nat) (result : Except Exc String) : Prop :=
  w.iteration id abort n = some result ∧ ∀ k < n, w.iteration id abort k = none

/-- The first `fuel` iterations. -/
def Run.loop (w : Run) (fuel : Nat) : Option (Except Exc String) :=
  (List.range fuel).findSome? (w.iteration id abort)

end TTasks.Copilot
