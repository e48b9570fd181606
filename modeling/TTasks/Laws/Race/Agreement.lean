import TTasks.Laws.Race.Attempt
import TTasks.Laws.Race.Cancel

/-!
# An attempt against concurrent cancels

The contracts of the attempt and of the cancels fit together, so by the rely–guarantee rule every
run without a stale step keeps the account balanced, and when all calls are over nothing is owed:
status, result and events agree. A run with a stale step shows what goes wrong otherwise.
-/

namespace TTasks

open Interleave
open Prog (Contract)

namespace Race

variable {n : Nat}

/-! ## All threads together -/

section Together

variable (x : Executor) (t : TaskId)

/-- What each thread of the race relies on and keeps to. -/
def contract : Who n → Contract TaskOp (Noted n)
  | .attempt => attemptContract x t
  | .cancel i => cancelContract x t i

/-- What each thread leaves behind. -/
def post : Who n → Except Exc Unit → Noted n → Prop
  | .attempt, _, p => Done t p
  | .cancel i, _, p => Paid i p

/-- The contracts of the attempt and the cancels fit together. -/
theorem contracts_compatible :
    Threads.Compatible (act x t) (contract (n := n) x t) (Balanced t) (post t) where
  refl
    | .attempt, p, h => ⟨h, .refl p⟩
    | .cancel _, p, h => ⟨h, .refl p, rfl⟩
  trans
    | .attempt, _, _, _, h, h' => ⟨h'.1, h.2.trans h'.2⟩
    | .cancel _, _, _, _, h, h' => ⟨h'.1, h.2.1.trans h'.2.1, h'.2.2.trans h.2.2⟩
  inv
    | .attempt, _, _, _, h => h.1
    | .cancel _, _, _, _, h => h.1
  rely
    | .attempt, .attempt, other, _, _, _, _ => absurd rfl other
    | .attempt, .cancel _, _, _, _, balanced, h => ⟨h.1, h.2.attemptRely balanced h.1⟩
    | .cancel i, .attempt, _, _, _, _, h => ⟨h.1, h.2.cancelRely i, congrFun h.2.reads i⟩
    | .cancel i, .cancel j, other, _, _, _, h =>
      have ne : i ≠ j := fun same => other (congrArg _ same)
      ⟨h.1, h.2.cancelRely ne, h.2.reads i ne⟩
  post
    | .attempt, _, _, _, rely, h => h.stable rely.2
    | .cancel _, _, _, _, rely, h => h.stable rely.2.1

/-- The threads at the start have their preconditions. -/
theorem start_sound (upstream : List TaskId) {w : World} (settled : Settled t (w.tasks t))
    (ordinary : ∀ k, (x.behaviour t k).outcome.isOrdinary = true)
    (noCancels : ∀ k, (x.behaviour t k).cancels = 0) :
    Threads.Sound (act x t) (contract x t) (Balanced t) (post t)
      ⟨((start x t n upstream w).shared, {}), (start x t n upstream w).rest⟩ where
  inv := by
    refine ⟨fun s _ => ?_, fun s final here => ?_, nofun, nofun, nofun⟩
    · simp [start, reported, World.events]
    · cases result : (w.tasks t).result with
      | none =>
        have early := settled.noResult.mp result
        have here' : (w.tasks t).status = s := here
        rcases early with h | h <;> rw [here'] at h <;> subst h <;> cases final
      | some r => exact .inl ⟨r, result, (settled.status r result).trans here⟩
  each
    | .attempt => by
      refine (Prog.wp_bind _ _ _ _ _ _).mpr ?_
      refine wp_executeOnce x (t := t) (p := ((start x t n upstream w).shared, {}))
        (fun q r _ done => ?_) ⟨rfl, settled.notRunning, List.not_mem_nil⟩ upstream ordinary
        noCancels
      cases r <;> exact done
    | .cancel i => by
      refine wp_cancel x (p := ((start x t n upstream w).shared, {})) rfl ?_ fun _ _ paid => paid
      intro _ owed
      cases owed

/-- In every run without a stale step a success lasts, and once all the calls are over the task's
status, result and events agree. -/
theorem run_agrees (n : Nat) (upstream : List TaskId) (w : World)
    (settled : Settled t (w.tasks t))
    (ordinary : ∀ k, (x.behaviour t k).outcome.isOrdinary = true)
    (noCancels : ∀ k, (x.behaviour t k).cancels = 0) (s : State n)
    (run : (Threads.machine (sem x t)).Reaches (Threads.Allows (Fresh t))
      (start x t n upstream w) s) :
    (.succeeded ∈ s.shared.entered → s.shared.world.status t = .succeeded ∧
      ∃ r, (s.shared.world.tasks t).result = some r ∧ r.status = .succeeded) ∧
    (s.Over → Agreed t s.shared) := by
  obtain ⟨a, run'⟩ := Threads.reaches_annotate (note x t) {} run
  have allowed : ∀ (p : Threads (Who n) TaskOp.Ans Exc Unit (Noted n)) who,
      p.Allows (fun who o q => Fresh t who o q.1) who →
        p.Allows (fun who => (contract x t who).allow) who := by
    intro p who h o k hrest
    cases who <;> exact h o k hrest
  have sound := (start_sound x t upstream settled ordinary noCancels).reaches
    (contracts_compatible x t) (run'.mono allowed)
  have balanced := sound.inv
  have success : s.shared.world.status t = .succeeded →
      ∃ r, (s.shared.world.tasks t).result = some r ∧ r.status = .succeeded := fun here => by
    rcases balanced.result .succeeded rfl here with hr | ⟨h, -⟩
    · exact hr
    · cases h
  refine ⟨fun entered => ⟨balanced.succeeded entered, success (balanced.succeeded entered)⟩,
    fun halted => ?_⟩
  obtain ⟨_, done⟩ := sound.post (halted .attempt)
  -- nobody who is over owes anything
  have unpaid : a.cancelOwes = none := by
    cases owed : a.cancelOwes with
    | none => rfl
    | some ib =>
      obtain ⟨_, paid⟩ := sound.post (halted (.cancel ib.1))
      exact absurd owed (paid ib.2)
  obtain ⟨owes, final⟩ : a.attemptOwes = none ∧ isFinal (s.shared.world.status t) = true := done
  refine ⟨?_, ?_, balanced.succeeded, fun status hs => ?_⟩
  -- with no debts left, the result and the count of events are as the status says
  · cases hs : s.shared.world.status t <;> rw [hs] at final <;>
      first | rfl | exact absurd final (by decide)
  · rcases balanced.result _ final rfl with hr | ⟨-, ⟨i, owed⟩ | owed⟩
    · exact hr
    · exact absurd (unpaid.symm.trans owed) nofun
    · exact absurd (owes.symm.trans owed) nofun
  · have count := balanced.events status hs
    simpa [owes, unpaid] using count

end Together

/-! ## Two runs -/

/-- A handler that raises. -/
def failing : Executor where
  handlers := fun _ => true
  behaviour := fun _ _ => { outcome := .raises (.exception "e") }

/-- One attempt on a fresh task, and one cancel. -/
def failingStart : State 1 := start failing "a" 1 [] { tasks := fun _ => {} }

/-- The attempt ends FAILED, and the cancel comes after it. -/
def lateCancel : List (Who 1) := List.replicate 13 .attempt ++ List.replicate 10 (.cancel 0)

/-- The cancel comes between the attempt's test for CANCELLED and its terminal write. -/
def cancelBetween : List (Who 1) :=
  List.replicate 8 .attempt ++ List.replicate 6 (.cancel 0) ++ List.replicate 3 .attempt

/-- Both threads are over. -/
def BothOver (s : State 1) : Prop :=
  ¬ (s.rest .attempt).Acting ∧ ¬ (s.rest (.cancel 0)).Acting

instance (s : State 1) : Decidable (BothOver s) := inferInstanceAs (Decidable (_ ∧ _))

/-- Two threads are over when both are. -/
theorem BothOver.halted {s : State 1} (h : BothOver s) : s.Over
  | .attempt => h.1
  | .cancel 0 => h.2

/-- A cancel that comes too late to disturb the attempt: the failure and the cancellation are both
reported. -/
theorem run_agrees_lateCancel : ∃ s : State 1,
    (Threads.machine (sem failing "a")).Reaches (Threads.Allows (Fresh "a")) failingStart s ∧
      s.Over ∧ Agreed "a" s.shared ∧ s.shared.entered = [.running, .failed, .cancelled] := by
  have ran : ∃ s ∈ (Threads.machine (sem failing "a")).exec (Threads.Allows (Fresh "a"))
      lateCancel failingStart, BothOver s ∧
        s.shared.entered = [.running, .failed, .cancelled] := by decide +kernel
  obtain ⟨s, hs, halted, entered⟩ := ran
  have run := Machine.reaches_of_exec hs
  refine ⟨s, run, halted.halted, ?_, entered⟩
  refine (run_agrees failing "a" 1 [] { tasks := fun _ => {} } ?_ (fun _ => rfl) (fun _ => rfl) s
    run).2 halted.halted
  constructor <;> simp

/-- A cancel between the attempt's test and its terminal write: the task ends CANCELLED with the
result of a failure, and no event says that it was cancelled. -/
theorem cancelBetween_disagrees : ∃ s : State 1,
    (Threads.machine (sem failing "a")).Reaches (fun _ _ => True) failingStart s ∧
      s.Over ∧ ¬ Agreed "a" s.shared ∧ s.shared.world.status "a" = .cancelled ∧
      (s.shared.world.tasks "a").result.map TaskResult.status = some .failed ∧
      reported s.shared.world "a" .cancelled = 0 := by
  have ran : ∃ s ∈ (Threads.machine (sem failing "a")).exec (fun _ _ => True) cancelBetween
      failingStart, BothOver s ∧ s.shared.world.status "a" = .cancelled ∧
        (s.shared.world.tasks "a").result.map TaskResult.status = some .failed ∧
        reported s.shared.world "a" .cancelled = 0 := by decide +kernel
  obtain ⟨s, hs, halted, status, result, silent⟩ := ran
  refine ⟨s, Machine.reaches_of_exec hs, halted.halted, fun agreed => ?_, status, result, silent⟩
  obtain ⟨r, hr, own⟩ := agreed.result
  rw [hr, Option.map_some, own, status] at result
  cases result

end Race

end TTasks
