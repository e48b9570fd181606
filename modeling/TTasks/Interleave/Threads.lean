import TTasks.Interleave.Machine
import TTasks.Interleave.Prog
import Mathlib.Data.Finset.Insert
import Mathlib.Logic.Function.Basic
import Mathlib.Logic.Hydra
import Mathlib.Order.RelClasses

/-!
# Threads over a shared state

A family of programs over one shared state, as a machine: a step lets one thread perform one
operation. What an operation does may depend on the thread, so that the shared state can hold
notes about a thread (what it has read) beside the data.

`Sound.reaches` is the rely–guarantee rule: when what each thread guarantees is what the others rely
on, every thread's weakest precondition survives every step. `inevitably_of_able` is the rule for
what every run arrives at: finitely many threads cannot go on for ever, so it is enough that some
thread can move; with `inevitably_of_brought` they may bring in others. `annotate` adds notes to the
shared state that no operation reads, so that an invariant can speak of them.
-/

namespace TTasks.Interleave

/-- The shared state and what each thread still has to do. -/
structure Threads {Op : Type} (ι : Type) (Ans : Op → Type) (ε α σ : Type) where
  shared : σ
  rest : ι → Prog Ans ε α

namespace Threads

open Prog (Contract)

variable {ι Op ε α σ γ : Type} {Ans : Op → Type} [DecidableEq ι]

/-- One thread performs its next operation. -/
def perform (sem : ι → (o : Op) → σ → Ans o × σ) (i : ι) (s : Threads ι Ans ε α σ) :
    Option (Threads ι Ans ε α σ) :=
  match s.rest i with
  | .act o k =>
    some ⟨(sem i o s.shared).2, Function.update s.rest i (k (sem i o s.shared).1)⟩
  | _ => none

/-- The threads as a machine, labelled by the thread that moves. -/
def machine (sem : ι → (o : Op) → σ → Ans o × σ) : Machine (Threads ι Ans ε α σ) ι where
  step := perform sem

/-- The thread's next operation, if it has one left, is allowed. -/
def Allows (allow : ι → Op → σ → Prop) (s : Threads ι Ans ε α σ) (i : ι) : Prop :=
  ∀ o k, s.rest i = .act o k → allow i o s.shared

instance (allow : ι → Op → σ → Prop) [∀ i o s, Decidable (allow i o s)]
    (s : Threads ι Ans ε α σ) (i : ι) : Decidable (s.Allows allow i) :=
  match h : s.rest i with
  | .ret _ => isTrue fun o k h' => by rw [h] at h'; cases h'
  | .fail _ => isTrue fun o k h' => by rw [h] at h'; cases h'
  | .act o k =>
    if ok : allow i o s.shared then
      isTrue fun o' k' h' => by rw [h] at h'; cases h'; exact ok
    else isFalse fun all => ok (all o k h)

/-- Every thread has returned or raised. -/
def Over (s : Threads ι Ans ε α σ) : Prop := ∀ i, ¬ (s.rest i).Acting

/-- A thread that can take a step has an operation in front, and this is the state it leaves. -/
theorem perform_eq_some {sem : ι → (o : Op) → σ → Ans o × σ} {i : ι}
    {s s' : Threads ι Ans ε α σ} (h : perform sem i s = some s') :
    ∃ o k, s.rest i = .act o k ∧
      s' = ⟨(sem i o s.shared).2, Function.update s.rest i (k (sem i o s.shared).1)⟩ := by
  unfold perform at h
  split at h
  · rename_i o k hrest
    exact ⟨o, k, hrest, (Option.some.inj h).symm⟩
  · cases h

/-- A thread that moves is brought no nearer to another end than if it went on alone. -/
theorem run_of_perform {sem : ι → (o : Op) → σ → Ans o × σ} {i : ι}
    {s s' : Threads ι Ans ε α σ} (h : perform sem i s = some s') :
    (s'.rest i).run (sem i) s'.shared = (s.rest i).run (sem i) s.shared := by
  obtain ⟨o, k, rest, rfl⟩ := perform_eq_some h
  simp only [rest, Function.update_self, Prog.run_act]

/-! ## Rely and guarantee -/

section Rule

variable {sem : ι → (o : Op) → σ → Ans o × σ} {C : ι → Contract Op σ} {I : σ → Prop}
  {Q : ι → Except ε α → σ → Prop}

/-- The shared invariant holds and every thread has its weakest precondition. -/
structure Sound (sem : ι → (o : Op) → σ → Ans o × σ) (C : ι → Contract Op σ) (I : σ → Prop)
    (Q : ι → Except ε α → σ → Prop) (s : Threads ι Ans ε α σ) : Prop where
  inv : I s.shared
  each : ∀ i, (s.rest i).wp (sem i) (C i) (Q i) s.shared

/-- What makes the contracts of a family of threads fit together. -/
structure Compatible (sem : ι → (o : Op) → σ → Ans o × σ) (C : ι → Contract Op σ)
    (I : σ → Prop) (Q : ι → Except ε α → σ → Prop) : Prop where
  refl : ∀ i s, I s → (C i).rely s s
  trans : ∀ i a b c, (C i).rely a b → (C i).rely b c → (C i).rely a c
  inv : ∀ j o s, I s → (C j).guar o s → I (sem j o s).2
  rely : ∀ i j, i ≠ j → ∀ o s, I s → (C j).guar o s → (C i).rely s (sem j o s).2
  post : ∀ i r a b, (C i).rely a b → Q i r a → Q i r b

/-- One step of one thread keeps the invariant and every thread's precondition. -/
theorem Sound.step (fit : Compatible sem C I Q) {s s' : Threads ι Ans ε α σ}
    (sound : Sound sem C I Q s) {i : ι} (allowed : s.Allows (fun i => (C i).allow) i)
    (moved : perform sem i s = some s') : Sound sem C I Q s' := by
  obtain ⟨o, k, hrest, rfl⟩ := perform_eq_some moved
  have here := sound.each i
  rw [hrest] at here
  obtain ⟨guar, next⟩ := (here s.shared (fit.refl i _ sound.inv)).2 (allowed o k hrest)
  refine ⟨fit.inv i o _ sound.inv guar, fun j => ?_⟩
  by_cases hj : j = i
  · subst j
    simpa using next
  · simp only [Function.update_of_ne hj]
    exact Prog.wp_stable (fun {a b c} => fit.trans j a b c) (fun r {a b} => fit.post j r a b)
      (fit.rely j i hj o _ sound.inv guar) (sound.each j)

omit [DecidableEq ι] in
/-- A thread that is about to perform an operation is ready for it. -/
theorem Sound.ready (fit : Compatible sem C I Q) {s : Threads ι Ans ε α σ}
    (sound : Sound sem C I Q s) {i : ι} {o : Op} {k : Ans o → Prog Ans ε α}
    (next : s.rest i = .act o k) : (C i).ready o s.shared := by
  have here := sound.each i
  rw [next] at here
  exact (here s.shared (fit.refl i _ sound.inv)).1

/-- The rely–guarantee rule, along a run. -/
theorem Sound.reaches (fit : Compatible sem C I Q) {s s' : Threads ι Ans ε α σ}
    (sound : Sound sem C I Q s)
    (run : (machine sem).Reaches (Allows fun i => (C i).allow) s s') : Sound sem C I Q s' :=
  run.invariant sound fun _ _ _ h allowed moved => h.step fit allowed moved

/-- What every thread guarantees, and what composes, holds from the start of a run to its end. -/
theorem Sound.along (fit : Compatible sem C I Q) {R : σ → σ → Prop} (refl : ∀ a, R a a)
    (trans : ∀ {a b c}, R a b → R b c → R a c)
    (step : ∀ i o a, I a → (C i).guar o a → R a (sem i o a).2) {s s' : Threads ι Ans ε α σ}
    (sound : Sound sem C I Q s)
    (run : (machine sem).Reaches (Allows fun i => (C i).allow) s s') : R s.shared s'.shared := by
  refine (run.invariant (I := fun a => Sound sem C I Q a ∧ R s.shared a.shared)
    ⟨sound, refl _⟩ ?_).2
  rintro a i b ⟨soundA, ra⟩ allowed moved
  refine ⟨soundA.step fit allowed moved, trans ra ?_⟩
  obtain ⟨o, k, hrest, rfl⟩ := perform_eq_some moved
  have here := soundA.each i
  rw [hrest] at here
  exact step i o _ soundA.inv ((here a.shared (fit.refl i _ soundA.inv)).2 (allowed o k hrest)).1

omit [DecidableEq ι] in
/-- A thread that is over has its postcondition. -/
theorem Sound.post {s : Threads ι Ans ε α σ} (sound : Sound sem C I Q s) {i : ι}
    (halted : ¬ (s.rest i).Acting) : ∃ r, Q i r s.shared := by
  have here := sound.each i
  cases h : s.rest i with
  | ret a => rw [h] at here; exact ⟨_, here⟩
  | fail e => rw [h] at here; exact ⟨_, here⟩
  | act o k => rw [h] at halted; exact absurd trivial halted

end Rule

/-! ## What every run arrives at -/

section Crew

variable {sem : ι → (o : Op) → σ → Ans o × σ}

omit [DecidableEq ι] in
/-- What some of the threads still have to do. -/
def left (crew : Finset ι) (s : Threads ι Ans ε α σ) : Multiset (Prog Ans ε α) :=
  crew.val.map s.rest

/-- A step of one of them leaves less to do. -/
theorem left_falls {crew : Finset ι} {i : ι} (member : i ∈ crew) {s s' : Threads ι Ans ε α σ}
    (moved : perform sem i s = some s') :
    Relation.CutExpand Prog.After (s'.left crew) (s.left crew) := by
  obtain ⟨o, k, hrest, rfl⟩ := perform_eq_some moved
  have split : crew.val = i ::ₘ crew.val.erase i := (Multiset.cons_erase member).symm
  have others : (crew.val.erase i).map (Function.update s.rest i (k (sem i o s.shared).1)) =
      (crew.val.erase i).map s.rest := by
    refine Multiset.map_congr rfl fun j hj => Function.update_of_ne ?_ _ _
    rintro rfl
    exact (Multiset.Nodup.notMem_erase crew.nodup) hj
  refine ⟨{k (sem i o s.shared).1}, .act o k, fun p hp => ?_, ?_⟩
  · rw [Multiset.mem_singleton.mp hp]
    exact .act o k _
  · have before : left crew s = .act o k ::ₘ (crew.val.erase i).map s.rest := by
      rw [left, split, Multiset.map_cons, hrest, Multiset.erase_cons_head]
    have after : left crew ⟨(sem i o s.shared).2, Function.update s.rest i (k (sem i o s.shared).1)⟩ =
        k (sem i o s.shared).1 ::ₘ (crew.val.erase i).map s.rest := by
      show crew.val.map (Function.update s.rest i (k (sem i o s.shared).1)) = _
      rw [split, Multiset.map_cons, Function.update_self, Multiset.erase_cons_head, others]
    rw [before, after, Multiset.cons_add, Multiset.cons_add, add_comm _ {Prog.act o k},
      Multiset.singleton_add, add_comm _ {_}, Multiset.singleton_add, Multiset.cons_swap]

/-- A step of any other thread leaves them what they have. -/
theorem left_stays {crew : Finset ι} {i : ι} (other : i ∉ crew) {s s' : Threads ι Ans ε α σ}
    (moved : perform sem i s = some s') : s'.left crew = s.left crew := by
  obtain ⟨o, k, -, rfl⟩ := perform_eq_some moved
  refine Multiset.map_congr rfl fun j mem => Function.update_of_ne ?_ _ _
  rintro rfl
  exact other mem

/-- Where, besides finitely many threads, only those move which they have brought in, and one can move
as long as `P` does not hold, every run arrives at `P`. -/
theorem inevitably_of_brought (crew : Finset ι) (brought : Threads ι Ans ε α σ → Finset ι)
    {allow : ι → Op → σ → Prop} {J P : Threads ι Ans ε α σ → Prop}
    (keep : ∀ a i b, J a → a.Allows allow i → perform sem i a = some b → J b)
    (member : ∀ a i b, J a → a.Allows allow i → perform sem i a = some b →
      i ∈ crew ∨ (i ∉ crew ∧ i ∈ brought a ∧ brought b = brought a))
    (able : ∀ a, J a → ¬ P a → ∃ i o k, a.rest i = .act o k ∧ allow i o a.shared)
    {s : Threads ι Ans ε α σ} (start : J s) :
    Inevitably ((machine sem).Via (Allows allow)) P s := by
  have falls : ∀ a b, J a → (machine sem).Via (Allows allow) a b →
      Prod.Lex (Relation.CutExpand Prog.After) (Relation.CutExpand Prog.After)
        (left crew b, left (brought b) b) (left crew a, left (brought a) a) := by
    rintro a b h ⟨i, allowed, moved⟩
    rcases member a i b h allowed moved with mem | ⟨other, mem, same⟩
    · exact .left _ _ (left_falls mem moved)
    · rw [left_stays other moved, same]
      exact .right _ (left_falls mem moved)
  refine inevitably_of_rank (Prog.after_wf.cutExpand.prod_lex Prog.after_wf.cutExpand)
    (fun a => (left crew a, left (brought a) a))
    (fun a b h ⟨i, allowed, moved⟩ => keep a i b h allowed moved) falls (fun a h notYet => ?_) s start
  obtain ⟨i, o, k, hrest, allowed⟩ := able a h notYet
  refine ⟨⟨(sem i o a.shared).2, Function.update a.rest i (k (sem i o a.shared).1)⟩, i,
    fun o' k' h' => ?_, by simp only [machine, perform, hrest]⟩
  rw [hrest] at h'
  cases h'
  exact allowed

/-- Where only finitely many threads move, and one of them can as long as `P` does not hold, every
run arrives at `P`. -/
theorem inevitably_of_able (crew : Finset ι) {allow : ι → Op → σ → Prop}
    {J P : Threads ι Ans ε α σ → Prop}
    (keep : ∀ a i b, J a → a.Allows allow i → perform sem i a = some b → J b)
    (member : ∀ a i b, J a → a.Allows allow i → perform sem i a = some b → i ∈ crew)
    (able : ∀ a, J a → ¬ P a → ∃ i o k, a.rest i = .act o k ∧ allow i o a.shared)
    {s : Threads ι Ans ε α σ} (start : J s) :
    Inevitably ((machine sem).Via (Allows allow)) P s :=
  inevitably_of_brought crew (fun _ => ∅) keep
    (fun a i b h allowed moved => .inl (member a i b h allowed moved)) able start

end Crew

/-! ## Notes beside the shared state -/

section Notes

/-- The operations on a shared state with notes: the notes follow, and nothing depends on them. -/
def annotate (sem : ι → (o : Op) → σ → Ans o × σ) (note : ι → Op → σ → γ → γ) (i : ι) (o : Op)
    (s : σ × γ) : Ans o × (σ × γ) :=
  ((sem i o s.1).1, (sem i o s.1).2, note i o s.1 s.2)

/-- Every run can be annotated. -/
theorem reaches_annotate {sem : ι → (o : Op) → σ → Ans o × σ} {allow : ι → Op → σ → Prop}
    {s s' : Threads ι Ans ε α σ} (note : ι → Op → σ → γ → γ) (g : γ)
    (run : (machine sem).Reaches (Allows allow) s s') :
    ∃ g', (machine (annotate sem note)).Reaches (Allows fun i o (a : σ × γ) => allow i o a.1)
      ⟨(s.shared, g), s.rest⟩ ⟨(s'.shared, g'), s'.rest⟩ := by
  induction run with
  | refl => exact ⟨g, .refl⟩
  | @tail b c _ last ih =>
    obtain ⟨g', run'⟩ := ih
    obtain ⟨i, allowed, moved⟩ := last
    obtain ⟨o, k, hrest, rfl⟩ := perform_eq_some moved
    refine ⟨note i o b.shared g', run'.tail ⟨i, ?_, ?_⟩⟩
    · exact fun o' k' h' => allowed o' k' h'
    · simp only [machine, perform, hrest, annotate]

end Notes

end Threads

end TTasks.Interleave
