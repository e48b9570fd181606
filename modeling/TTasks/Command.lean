import TTasks.Executor
import TTasks.Interleave.Threads

/-!
# The output of a command

`_run_command` and its two reader threads. `Process` has the group that the command runs in; here is
what comes out of its pipes. A pipe is the lines that will come out of it until its end, and what the
code does not decide is the environment's (`Os`): when a wait is over, and what the status of the task
is when it is read. Terminating the group raises nothing.
-/

namespace TTasks.Command

open Interleave

inductive OutputStream
  | stdout
  | stderr
  deriving DecidableEq, Repr

/-- What `readline` answers before the end of the pipe. -/
structure Line where
  text : String
  text_ne : text ≠ ""

/-- What `_run_command` reads of a `TaskContext`; the timeout as it is printed. -/
structure Context where
  id : TaskId
  timeout : Option String := none

/-- How `process.wait` ends. -/
inductive Waited
  | exited
  /-- `subprocess.TimeoutExpired`. -/
  | expired
  | raised (e : Exc)
  deriving DecidableEq

/-- What the code does not decide, in the `n`-th step. -/
structure Os where
  waited : Nat → Waited
  /-- `context.cancelled`. -/
  cancelled : Nat → Bool
  returncode : Int

/-! ## Steps -/

structure Shared where
  /-- What has not been read yet. -/
  coming : OutputStream → List Line
  /-- `stdout_chunks` and `stderr_chunks`. -/
  chunks : OutputStream → List String := fun _ => []
  /-- The OUTPUT events that have been published. -/
  output : List (OutputStream × String) := []
  /-- The process stands in `_running_processes`. -/
  registered : Bool := false
  started : OutputStream → Bool := fun _ => false
  /-- The reader's thread is over. -/
  finished : OutputStream → Bool := fun _ => false
  clock : Nat := 0

inductive Op
  /-- `Popen`, and the entry in `_running_processes`. -/
  | spawn
  | startReader (stream : OutputStream)
  | readline (stream : OutputStream)
  | append (stream : OutputStream) (chunk : String)
  /-- `_emit_output`. -/
  | emitOutput (stream : OutputStream) (chunk : String)
  /-- The reader's thread ends. -/
  | finish (stream : OutputStream)
  | cancelled
  /-- `_terminate_process`. -/
  | terminate
  | wait
  /-- `thread.join(remaining_timeout())`. -/
  | joinInTime (stream : OutputStream)
  | isAlive (stream : OutputStream)
  /-- `thread.join()`. -/
  | join (stream : OutputStream)
  | unregister
  /-- `"".join(chunks)`. -/
  | captured (stream : OutputStream)
  | returncode

namespace Op

@[reducible] def Ans : Op → Type
  | .readline _ => String
  | .cancelled => Bool
  | .wait => Waited
  | .isAlive _ => Bool
  | .captured _ => String
  | .returncode => Int
  | _ => Unit

/-- What an operation does. -/
def perform (os : Os) : (o : Op) → Shared → o.Ans × Shared
  | .spawn, s => ((), { s with registered := true })
  | .startReader stream, s => ((), { s with started := Function.update s.started stream true })
  | .readline stream, s =>
    match s.coming stream with
    | [] => ("", s)
    | line :: rest => (line.text, { s with coming := Function.update s.coming stream rest })
  | .append stream chunk, s =>
    ((), { s with chunks := Function.update s.chunks stream (s.chunks stream ++ [chunk]) })
  | .emitOutput stream chunk, s => ((), { s with output := s.output ++ [(stream, chunk)] })
  | .finish stream, s => ((), { s with finished := Function.update s.finished stream true })
  | .cancelled, s => (os.cancelled s.clock, s)
  | .terminate, s => ((), s)
  | .wait, s => (os.waited s.clock, s)
  | .joinInTime _, s => ((), s)
  | .isAlive stream, s => (!s.finished stream, s)
  | .join _, s => ((), s)
  | .unregister, s => ((), { s with registered := false })
  | .captured stream, s => (String.join (s.chunks stream), s)
  | .returncode, s => (os.returncode, s)

end Op

/-- The threads of one call. -/
inductive Who
  | main
  | reader (stream : OutputStream)
  deriving DecidableEq

def sem (os : Os) (_ : Who) (o : Op) (s : Shared) : o.Ans × Shared :=
  ((o.perform os s).1, { (o.perform os s).2 with clock := s.clock + 1 })

/-- A thread runs once it is started, and is joined when it is over, or by the deadline if there is
one; a wait without a timeout does not expire. -/
def Enabled (context : Context) (os : Os) : Who → Op → Shared → Prop
  | .reader stream, _, s => s.started stream = true
  | .main, .join stream, s => s.finished stream = true
  | .main, .joinInTime stream, s => s.finished stream = true ∨ context.timeout.isSome = true
  | .main, .wait, s => os.waited s.clock ≠ .expired ∨ context.timeout.isSome = true
  | .main, _, _ => True

/-! ## The code -/

abbrev Cmd (α : Type) := Prog Op.Ans Exc α

/-- `read_output`: the loop over `iter(pipe.readline, "")`, with one round more than there are
lines. -/
def readOutput (stream : OutputStream) : Nat → Cmd Unit
  | 0 => throw (.assertionError "out of rounds")
  | n + 1 => do
    let chunk ← Prog.op (Op.readline stream)
    if chunk = "" then
      Prog.op (Op.finish stream)
    else
      Prog.op (Op.append stream chunk)
      Prog.op (Op.emitOutput stream chunk)
      readOutput stream n

section Code

variable (context : Context)

/-- The wait for the process; the answer is `timed_out`. -/
def awaitProcess : Cmd Bool := do
  match ← Prog.op Op.wait with
  | .exited => pure false
  | .expired =>
    Prog.op Op.terminate
    pure true
  | .raised e => throw e

/-- `stdout_thread.is_alive() or stderr_thread.is_alive()`. -/
def anyAlive : Cmd Bool := (Prog.op (Op.isAlive .stdout)).or (Prog.op (Op.isAlive .stderr))

/-- A reader is still alive at the deadline, and no timeout has been noted yet. -/
def isLate (timedOut : Bool) : Cmd Bool :=
  if !timedOut && context.timeout.isSome then anyAlive else pure false

/-- `if condition: self._terminate_process(process)`. -/
def terminateIf (condition : Bool) : Cmd Unit :=
  if condition then Prog.op Op.terminate else pure ()

/-- The joins without a timeout. -/
def joinIf (timedOut : Bool) : Cmd Unit :=
  if timedOut then do
    Prog.op (Op.join .stdout)
    Prog.op (Op.join .stderr)
  else
    pure ()

/-- The `finally` clause, which may set `timed_out`. -/
def drain (timedOut : Bool) : Cmd Bool := do
  Prog.op (Op.joinInTime .stdout)
  Prog.op (Op.joinInTime .stderr)
  let late ← isLate context timedOut
  terminateIf late
  joinIf (timedOut || late)
  Prog.op Op.unregister
  pure (timedOut || late)

/-- `subprocess.CompletedProcess(..)`. -/
def completedProcess : Cmd CompletedProcess := do
  let stdout ← Prog.op (Op.captured .stdout)
  let stderr ← Prog.op (Op.captured .stderr)
  let returncode ← Prog.op Op.returncode
  pure { returncode, stdout := some stdout, stderr := some stderr }

def timeoutMessage : String := "Task timed out after " ++ context.timeout.getD "None" ++ " seconds"

/-- `result.stderr or f"exited with code {result.returncode}"`. -/
def failureMessage (result : CompletedProcess) : String :=
  if orEmpty result.stderr = "" then "exited with code " ++ toString result.returncode
  else orEmpty result.stderr

/-- What `_run_command` makes of a process that is over. -/
def conclude (timedOut : Bool) : Cmd CompletedProcess := do
  let result ← completedProcess
  if timedOut then
    throw (.taskTimeoutError (timeoutMessage context) result)
  else if result.returncode ≠ 0 then
    if ← Prog.op Op.cancelled then
      throw (.taskCancelled ("Task " ++ quoted context.id ++ " was cancelled"))
    else
      throw (.taskExecutionError (failureMessage result) result)
  else
    pure result

/-- `_run_command`. -/
def runCommand : Cmd CompletedProcess := do
  Prog.op Op.spawn
  Prog.op (Op.startReader .stdout)
  Prog.op (Op.startReader .stderr)
  let cancelled ← Prog.op Op.cancelled
  terminateIf cancelled
  match ← awaitProcess.result with
  | .ok timedOut =>
    let timedOut ← drain context timedOut
    conclude context timedOut
  | .error e =>
    let _ ← drain context false
    throw e

abbrev State := Threads Who Op.Ans Exc (Option CompletedProcess) Shared

/-- The call is about to begin, and this will come out of the pipes. -/
def start (lines : OutputStream → List Line) : State where
  shared := { coming := lines }
  rest
    | .main => (runCommand context).bind fun result => .ret (some result)
    | .reader stream => (readOutput stream ((lines stream).length + 1)).bind fun _ => .ret none

end Code

end TTasks.Command
