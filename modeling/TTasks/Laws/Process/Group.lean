import TTasks.Process
import Mathlib.Data.List.Basic

/-!
# What is left of a process group

The leader decides whether `_terminate_process` goes on to `SIGKILL`. So the group has ended after
it when the leader outlasts `SIGTERM` and the wait, or when no other member does. `cancel` does not
signal a group at all when its leader has ended.
-/

namespace TTasks.Process

namespace Group

variable {g : Group} {dies : Nat → Member → Bool}

theorem members_without : (g.without dies).members =
    g.members.mapIdx fun k m => { m with alive := m.alive && !dies k m } := by
  rw [members, without, members, List.mapIdx_cons]

theorem living_eq_false : g.living = false ↔ g.Ended := by
  simp [living, Ended]

/-- A group has ended when each of its members has left or was not there any more. -/
theorem ended_without : (g.without dies).Ended ↔
    ∀ k m, g.members[k]? = some m → m.alive = true → dies k m = true := by
  unfold Ended
  rw [members_without]
  constructor
  · intro ended k m here alive
    have gone := ended { m with alive := m.alive && !dies k m }
      (List.mem_of_getElem? (i := k) (by rw [List.getElem?_mapIdx, here]; rfl))
    simpa [alive] using gone
  · intro each m mem
    obtain ⟨k, there⟩ := List.mem_iff_getElem?.mp mem
    rw [List.getElem?_mapIdx] at there
    obtain ⟨old, here, rfl⟩ := Option.map_eq_some_iff.mp there
    cases alive : old.alive with
    | false => rfl
    | true => simp [each k old here alive]

/-- Nothing comes back to life. -/
theorem Ended.without (ended : g.Ended) : (g.without dies).Ended := by
  rw [ended_without]
  intro k m here alive
  rw [ended m (List.mem_of_getElem? here)] at alive
  cases alive

theorem ended_kill : g.kill.Ended := ended_without.mpr fun _ _ _ _ => rfl

theorem Ended.leader (ended : g.Ended) : g.leader.alive = false :=
  ended g.leader List.mem_cons_self

end Group

variable (os : Os)

/-- The member lives, ignores `SIGTERM`, and does not end by itself during the wait after it. -/
def Outlasts (moment : Nat) (g : Group) (k : Nat) (m : Member) : Prop :=
  m.alive = true ∧ m.ignoresTerm = true ∧ os.quits moment g.term k = false

/-- The leader outlasts `SIGTERM`, so that `SIGKILL` follows, or no member does. -/
def Answers (moment : Nat) (g : Group) : Prop :=
  Outlasts os moment g 0 g.leader ∨ ∀ k m, g.members[k]? = some m → ¬ Outlasts os moment g k m

variable {os} {moment : Nat} {g : Group}

/-- What is left after `SIGTERM` and the wait. -/
theorem ended_waited : (os.later moment g.term).Ended ↔
    ∀ k m, g.members[k]? = some m → ¬ Outlasts os moment g k m := by
  rw [Os.later, Group.ended_without]
  have termed : ∀ k : Nat, g.term.members[k]? =
      g.members[k]?.map fun m : Member => { m with alive := m.alive && m.ignoresTerm } := by
    intro k
    rw [Group.term, Group.members_without, List.getElem?_mapIdx]
    simp
  constructor
  · intro leave k m here outlasts
    obtain ⟨alive, ignores, stays⟩ := outlasts
    have quit := leave k { m with alive := m.alive && m.ignoresTerm } (by rw [termed, here]; rfl)
      (by rw [alive, ignores]; rfl)
    rw [quit] at stays
    cases stays
  · intro none k m here alive
    rw [termed] at here
    obtain ⟨old, there, rfl⟩ := Option.map_eq_some_iff.mp here
    obtain ⟨lives, ignores⟩ := Bool.and_eq_true_iff.mp alive
    by_contra stays
    exact none k old there ⟨lives, ignores, Bool.eq_false_iff.mpr stays⟩

theorem leader_waited : (os.later moment g.term).leader.alive = true ↔
    Outlasts os moment g 0 g.leader := by
  simp [Os.later, Group.term, Group.without, Outlasts, and_assoc]

theorem terminateProcess_ended_iff :
    (terminateProcess os moment g).Ended ↔ Answers os moment g := by
  unfold terminateProcess
  by_cases missing : os.missing g = true
  · -- no process at all: nothing is left, and nothing outlasts the signal
    have ended := os.missing_only g missing
    rw [if_pos missing]
    refine iff_of_true ended (.inr fun k m here outlasts => ?_)
    have alive := outlasts.1
    rw [ended m (List.mem_of_getElem? here)] at alive
    cases alive
  · rw [if_neg missing]
    dsimp only
    by_cases leads : (os.later moment g.term).leader.alive = true
    · rw [leads, Bool.not_true, if_neg Bool.false_ne_true]
      refine iff_of_true ?_ (.inl (leader_waited.mp leads))
      split
      · rename_i gone
        exact os.missing_only _ gone
      · exact Group.ended_kill
    · rw [if_pos (by simpa using leads), ended_waited, Answers,
        or_iff_right fun outlasts => leads (leader_waited.mpr outlasts)]

theorem cancelProcess_ended_iff {status : TaskStatus} :
    (cancelProcess os moment status g).Ended ↔
      if status ≠ .succeeded ∧ g.leader.alive = true then Answers os moment g else g.Ended := by
  unfold cancelProcess
  by_cases succeeded : status = .succeeded
  · rw [if_pos succeeded, if_neg fun h => h.1 succeeded]
  · rw [if_neg succeeded]
    by_cases alive : g.leader.alive = true
    · rw [if_pos alive, if_pos ⟨succeeded, alive⟩]
      exact terminateProcess_ended_iff
    · rw [if_neg alive, if_neg fun h => alive h.2]

/-- A command that times out gets past its joins when its `_terminate_process` ended the group. -/
theorem runCommand_of_stopped {cancelled bounded : Bool} {drained : Drained}
    (drains : drain os cancelled bounded g = some drained) {stopped : Nat × Group}
    (mem : stopped ∈ drained.stopped) (ended : (terminateProcess os stopped.1 stopped.2).Ended) :
    runCommand os cancelled bounded g = some drained := by
  have joins : drained.group.Ended → runCommand os cancelled bounded g = some drained := by
    intro none_left
    have silent : (os.later 5 drained.group).living = false :=
      Group.living_eq_false.mpr none_left.without
    rw [runCommand, drains, Option.bind_some, silent, Bool.and_false, if_neg Bool.false_ne_true]
  apply joins
  unfold drain at drains
  dsimp only at drains
  split at drains
  · split at drains
    · cases drains
      cases mem
      exact ended.without
    · unfold joinReaders at drains
      dsimp only at drains
      split at drains
      · cases drains
        cases mem
        exact ended
      · cases drains
        cases mem
  · split at drains
    · cases drains
    · cases drains
      cases mem

/-- After `_terminate_process` and after `cancel`, no member of the group is alive exactly when the
leader outlasts `SIGTERM` or no member does; where `cancel` sends no signal, when none was alive
before. A command that times out then gets past its joins. -/
theorem group_ended_iff (os : Os) :
    (∀ moment g, (terminateProcess os moment g).Ended ↔ Answers os moment g) ∧
    (∀ moment status g, (cancelProcess os moment status g).Ended ↔
      if status ≠ .succeeded ∧ g.leader.alive = true then Answers os moment g else g.Ended) ∧
    ∀ cancelled bounded g drained, drain os cancelled bounded g = some drained →
      ∀ stopped ∈ drained.stopped, Answers os stopped.1 stopped.2 →
        runCommand os cancelled bounded g = some drained := by
  refine ⟨fun _ _ => terminateProcess_ended_iff, fun _ _ _ => cancelProcess_ended_iff, ?_⟩
  intro cancelled bounded g drained drains stopped mem answers
  exact runCommand_of_stopped drains mem (terminateProcess_ended_iff.mpr answers)

/-! ## Members that ignore `SIGTERM` -/

/-- Nobody ends by itself, and `killpg` fails on a group of which no member lives. -/
def patient : Os where
  quits _ _ _ := false
  missing g := !g.living
  missing_only g gone := Group.living_eq_false.mp (by simpa using gone)

/-- A shell and a child that both ignore `SIGTERM`. -/
def deaf : Group where
  leader := { ignoresTerm := true }
  others := [{ ignoresTerm := true }]

/-- Their command times out, `SIGKILL` ends them, and the joins return. -/
theorem runCommand_joins :
    runCommand patient false true deaf = drain patient false true deaf :=
  (group_ended_iff patient).2.2 false true deaf _ rfl (2, deaf) rfl (.inl ⟨rfl, rfl, rfl⟩)

/-- An obedient shell with a background child that ignores `SIGTERM`. -/
def stubborn : Group where
  leader := { ignoresTerm := false }
  others := [{ ignoresTerm := true }]

/-- The same when the shell has ended. -/
def orphaned : Group := { stubborn with leader := { ignoresTerm := false, alive := false } }

/-- The child outlives `_terminate_process`; `cancel` does not signal it when the shell has ended;
and the command never returns from its joins. -/
theorem child_survives : ¬ (terminateProcess patient 0 stubborn).Ended ∧
    ¬ (cancelProcess patient 0 .running orphaned).Ended ∧
    drain patient false true orphaned = some ⟨orphaned, some (4, orphaned)⟩ ∧
    runCommand patient false true orphaned = none := by decide

end TTasks.Process
