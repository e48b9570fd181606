import TTasks.Task

/-!
# The process of a command

`_run_command` starts a shell as the leader of a process group of its own. The group here is the
leader and the descendants that stay in it; every member that lives keeps the output pipes open.
`Popen.wait` and `Popen.poll` observe the leader alone, `killpg` reaches every member.

The moments at which members end by themselves belong to the environment (`Os.quits`), as does
whether `killpg` still finds a group of which no member lives (`Os.missing`). A wait without a
timeout that nothing ends is `none`. The output and the exit code are left out; nothing here depends
on them.
-/

namespace TTasks.Process

structure Member where
  ignoresTerm : Bool
  alive : Bool := true
  deriving DecidableEq

structure Group where
  leader : Member
  others : List Member := []
  deriving DecidableEq

namespace Group

/-- The leader is member 0. -/
def members (g : Group) : List Member := g.leader :: g.others

/-- Members leave the group, those that `dies` names. -/
def without (dies : Nat → Member → Bool) (g : Group) : Group where
  leader := { g.leader with alive := g.leader.alive && !dies 0 g.leader }
  others := g.others.mapIdx fun k m => { m with alive := m.alive && !dies (k + 1) m }

/-- Some member lives, so that reading the output does not end. -/
def living (g : Group) : Bool := g.members.any (·.alive)

/-- No member is alive. -/
def Ended (g : Group) : Prop := ∀ m ∈ g.members, m.alive = false

instance (g : Group) : Decidable g.Ended := inferInstanceAs (Decidable (∀ m ∈ g.members, _))

/-- `SIGTERM` ends the members that do not ignore it. -/
def term (g : Group) : Group := g.without fun _ m => !m.ignoresTerm

/-- `SIGKILL` ends all. -/
def kill (g : Group) : Group := g.without fun _ _ => true

end Group

/-- What the code does not decide. -/
structure Os where
  /-- The member ends by itself during a wait: which wait, the group as it was, the member's number. -/
  quits : Nat → Group → Nat → Bool
  /-- `killpg` raises `ProcessLookupError`. -/
  missing : Group → Bool
  missing_only : ∀ g, missing g = true → g.Ended

variable (os : Os)

/-- A group after a wait. -/
def Os.later (moment : Nat) (g : Group) : Group := g.without fun k _ => os.quits moment g k

/-- `_terminate_process`; its first wait takes five seconds at most, and the second comes after
`SIGKILL`, so that the leader has ended. -/
def terminateProcess (moment : Nat) (g : Group) : Group :=
  if os.missing g then g
  else
    let waited := os.later moment g.term
    if !waited.leader.alive then waited
    else if os.missing waited then waited
    else waited.kill

/-- `cancel`, what it does to the process that is registered for the task. -/
def cancelProcess (moment : Nat) (status : TaskStatus) (g : Group) : Group :=
  if status = .succeeded then g
  -- `process.poll() is None`
  else if g.leader.alive then terminateProcess os moment g
  else g

/-- How far `_run_command` has come when only the joins without a timeout are left. -/
structure Drained where
  group : Group
  /-- The timeout's `_terminate_process`, if it came to one: when, and on which group. -/
  stopped : Option (Nat × Group)
  deriving DecidableEq

/-- `timed_out`. -/
def Drained.timedOut (d : Drained) : Bool := d.stopped.isSome

/-- The group when `process.wait(timeout=context.timeout)` is over; `cancelled` is
`context.cancelled` before it. -/
def waited (cancelled : Bool) (g : Group) : Group :=
  os.later 1 (if cancelled then terminateProcess os 0 g else g)

/-- The joins with what remains of the timeout, after a wait that was over in time. -/
def joinReaders (g : Group) : Drained :=
  let joined := os.later 3 g
  if joined.living then ⟨terminateProcess os 4 joined, some (4, joined)⟩ else ⟨joined, none⟩

/-- `_run_command` up to the joins without a timeout. `bounded` says that the context has a timeout;
without one, the wait is for the leader, and the first joins are for the readers. -/
def drain (cancelled bounded : Bool) (g : Group) : Option Drained :=
  let after := waited os cancelled g
  if bounded then
    if after.leader.alive then
      some ⟨os.later 3 (terminateProcess os 2 after), some (2, after)⟩
    else some (joinReaders os after)
  else if after.leader.alive || (os.later 3 after).living then none
  else some ⟨os.later 3 after, none⟩

/-- `_run_command`: after a timeout the readers are joined without one. -/
def runCommand (cancelled bounded : Bool) (g : Group) : Option Drained :=
  (drain os cancelled bounded g).bind fun drained =>
    if drained.timedOut && (os.later 5 drained.group).living then none else some drained

end TTasks.Process
