import TTasks.Interleave.Detour

/-!
# Programs whose operations may raise

`raising` makes of a program one whose operations answer or raise; an exception ends the program
there. Where no operation raises, it does what it did: alone (`run_raising`), and among other threads
(`Goes.of_raising`, `Goes.raising`).
-/

namespace TTasks.Interleave

namespace Prog

variable {Op : Type} {Ans : Op → Type} {ε α σ : Type}

/-- The program goes on with an answer, or raises. -/
def goOn {β : Type} (k : β → Prog Ans ε α) : Except ε β → Prog Ans ε α
  | .ok x => k x
  | .error e => .fail e

/-- The program, with operations that may raise. -/
def raising : Prog Ans ε α → Prog (fun o => Except ε (Ans o)) ε α
  | .ret a => .ret a
  | .fail e => .fail e
  | .act o k => .act o (goOn fun x => (k x).raising)

/-- Operations that may raise, and do not. -/
structure Calm (sem : (o : Op) → σ → Ans o × σ) (sem' : (o : Op) → σ → Except ε (Ans o) × σ) :
    Prop where
  same : ∀ o s, sem' o s = (.ok (sem o s).1, (sem o s).2)

variable {sem : (o : Op) → σ → Ans o × σ} {sem' : (o : Op) → σ → Except ε (Ans o) × σ}

/-- Operations that could raise and do not run as those that could not. -/
theorem run_raising (calm : Calm sem sem') (p : Prog Ans ε α) (s : σ) :
    p.raising.run sem' s = p.run sem s := by
  induction p generalizing s with
  | ret a => rfl
  | fail e => rfl
  | act o k ih =>
    rw [raising, run_act, run_act, calm.same]
    exact ih _ _

/-- How the program has ended. -/
def outcome : Prog Ans ε α → Option (Except ε α)
  | .ret a => some (.ok a)
  | .fail e => some (.error e)
  | .act _ _ => none

/-- Making room for exceptions changes no outcome. -/
@[simp] theorem outcome_raising (p : Prog Ans ε α) : p.raising.outcome = p.outcome := by
  cases p <;> rfl

/-- A program that is still acting has no outcome yet. -/
theorem outcome_of_acting {p : Prog Ans ε α} (acting : p.Acting) : p.outcome = none := by
  cases p with
  | act o k => rfl
  | _ => exact acting.elim

end Prog

namespace Threads

open Prog (Calm)

variable {ι Op ε α σ : Type} {Ans : Op → Type} [DecidableEq ι]
  {sem : ι → (o : Op) → σ → Ans o × σ} {sem' : ι → (o : Op) → σ → Except ε (Ans o) × σ}
  {allow : ι → Op → σ → Prop} {aside : Prog Ans ε α → Prop}
  {aside' : Prog (fun o => Except ε (Ans o)) ε α → Prop} {is : List ι} {i : ι}
  {s t : Threads ι Ans ε α σ}

/-- The same threads over operations that could raise. -/
def raising (s : Threads ι Ans ε α σ) : Threads ι (fun o => Except ε (Ans o)) ε α σ :=
  ⟨s.shared, fun i => (s.rest i).raising⟩

/-- A step of the threads that could raise is a step of those that could not. -/
theorem perform_raising (calm : ∀ i, Calm (sem i) (sem' i)) (s : Threads ι Ans ε α σ) (i : ι) :
    perform sem' i s.raising = (perform sem i s).map raising := by
  have there : s.raising.rest i = (s.rest i).raising := rfl
  unfold perform
  rw [there]
  cases s.rest i with
  | ret a => rfl
  | fail e => rfl
  | act o k =>
    rw [Prog.raising]
    dsimp only
    rw [(calm i).same]
    have rests := Function.comp_update Prog.raising s.rest i (k (sem i o s.shared).1)
    exact congrArg (fun rest => some (Threads.mk (sem i o s.shared).2 rest)) rests.symm

omit [DecidableEq ι] in
/-- What a thread may do next is the same on both sides. -/
theorem allows_raising : s.raising.Allows allow i ↔ s.Allows allow i := by
  have there : s.raising.rest i = (s.rest i).raising := rfl
  constructor
  · intro h o k is
    exact h o _ (there.trans (congrArg Prog.raising is))
  · intro h o k is
    rw [there] at is
    cases program : s.rest i with
    | ret a =>
      rw [program] at is
      cases is
    | fail e =>
      rw [program] at is
      cases is
    | act o' k' =>
      rw [program] at is
      cases is
      exact h o k' program

/-- A run of operations that may raise is a run of those that do not. -/
theorem Goes.of_raising (calm : ∀ i, Calm (sem i) (sem' i)) (aside_iff : ∀ p, aside' p.raising ↔ aside p)
    {x : Threads ι (fun o => Except ε (Ans o)) ε α σ}
    (h : Goes sem' allow aside' is s.raising x) : ∃ t, x = t.raising ∧ Goes sem allow aside is s t := by
  generalize at_ : s.raising = y at h
  induction h generalizing s with
  | done => exact ⟨s, at_.symm, .done s⟩
  | aside here allowed moved _ ih =>
    subst at_
    rw [perform_raising calm] at moved
    obtain ⟨m, moved', rfl⟩ := Option.map_eq_some_iff.mp moved
    obtain ⟨t, rfl, run⟩ := ih rfl
    exact ⟨t, rfl, .aside ((aside_iff _).mp here) (allows_raising.mp allowed) moved' run⟩
  | step onWay allowed moved _ ih =>
    subst at_
    rw [perform_raising calm] at moved
    obtain ⟨m, moved', rfl⟩ := Option.map_eq_some_iff.mp moved
    obtain ⟨t, rfl, run⟩ := ih rfl
    exact ⟨t, rfl, .step (fun here => onWay ((aside_iff _).mpr here)) (allows_raising.mp allowed)
      moved' run⟩

/-- And the other way round. -/
theorem Goes.raising (calm : ∀ i, Calm (sem i) (sem' i)) (aside_iff : ∀ p, aside' p.raising ↔ aside p)
    (h : Goes sem allow aside is s t) : Goes sem' allow aside' is s.raising t.raising := by
  have performed : ∀ {a b : Threads ι Ans ε α σ} {i : ι}, perform sem i a = some b →
      perform sem' i a.raising = some b.raising := by
    intro a b i moved
    rw [perform_raising calm, moved]
    rfl
  induction h with
  | done s => exact .done _
  | aside here allowed moved _ ih =>
    exact .aside ((aside_iff _).mpr here) (allows_raising.mpr allowed) (performed moved) ih
  | step onWay allowed moved _ ih =>
    exact .step (fun here => onWay ((aside_iff _).mp here)) (allows_raising.mpr allowed)
      (performed moved) ih

end Threads

end TTasks.Interleave
