import Mathlib.Logic.Relation

/-!
# Labelled machines and their runs

A machine answers, for each label, the state that label leads to, or nothing when the label is not
enabled. A run takes its labels from the states that `allow` them, so one machine serves several
disciplines: every interleaving, the interleavings that avoid a window, the interleavings of one
thread alone.

`Reaches` is the runs' reachability, with its invariant rule. `Inevitably` says that every maximal
run arrives somewhere; `inevitably_of_rank` proves it from an invariant, a measure that every step
lowers and an enabled step in every state that has not arrived.
-/

namespace TTasks.Interleave

/-- A deterministic labelled transition system; the labels carry the nondeterminism. -/
structure Machine (σ Label : Type) where
  step : Label → σ → Option σ

namespace Machine

variable {σ Label : Type} (M : Machine σ Label)

/-- One step under a label that its source state allows. -/
def Via (allow : σ → Label → Prop) (s s' : σ) : Prop := ∃ l, allow s l ∧ M.step l s = some s'

/-- A run of allowed steps. -/
def Reaches (allow : σ → Label → Prop) : σ → σ → Prop := Relation.ReflTransGen (M.Via allow)

/-- The state a list of labels leads to, if every one of them is allowed and enabled. -/
def exec (allow : σ → Label → Prop) [∀ s l, Decidable (allow s l)] : List Label → σ → Option σ
  | [], s => some s
  | l :: ls, s => if allow s l then (M.step l s).bind (exec allow ls) else none

variable {M}

/-- What holds at the start and survives every allowed step holds along the run. -/
theorem Reaches.invariant {allow : σ → Label → Prop} {I : σ → Prop} {s s' : σ}
    (run : M.Reaches allow s s') (start : I s)
    (keep : ∀ a l b, I a → allow a l → M.step l a = some b → I b) : I s' := by
  induction run with
  | refl => exact start
  | tail _ last ih =>
    obtain ⟨l, ha, hs⟩ := last
    exact keep _ l _ ih ha hs

/-- A run of a stricter discipline is a run of the looser one. -/
theorem Reaches.mono {allow allow' : σ → Label → Prop} {s s' : σ} (run : M.Reaches allow s s')
    (looser : ∀ s l, allow s l → allow' s l) : M.Reaches allow' s s' :=
  Relation.ReflTransGen.mono (fun _ _ ⟨l, ha, hs⟩ => ⟨l, looser _ l ha, hs⟩) _ _ run

/-- A list of labels that is allowed throughout is a run. -/
theorem reaches_of_exec {allow : σ → Label → Prop} [∀ s l, Decidable (allow s l)] :
    ∀ {ls : List Label} {s s' : σ}, M.exec allow ls s = some s' → M.Reaches allow s s'
  | [], _, _, h => by cases h; exact .refl
  | l :: ls, s, s', h => by
    unfold exec at h
    split at h
    · rename_i allowed
      obtain ⟨m, hm, hrest⟩ := Option.bind_eq_some_iff.mp h
      exact .head ⟨l, allowed, hm⟩ (reaches_of_exec hrest)
    · cases h

end Machine

/-! ## What every run arrives at -/

section Inevitably

variable {σ : Type} {R : σ → σ → Prop} {P : σ → Prop}

/-- Every maximal run from the state reaches `P`: it holds there, or some step is possible and all
of them lead to states of which the same is true. -/
inductive Inevitably (R : σ → σ → Prop) (P : σ → Prop) : σ → Prop
  | now {s : σ} (here : P s) : Inevitably R P s
  | later {s : σ} (able : ∃ s', R s s') (next : ∀ s', R s s' → Inevitably R P s') :
      Inevitably R P s

/-- What is inevitable is reached by some run. -/
theorem Inevitably.reached {s : σ} (h : Inevitably R P s) :
    ∃ s', Relation.ReflTransGen R s s' ∧ P s' := by
  induction h with
  | now here => exact ⟨_, .refl, here⟩
  | later able _ ih =>
    obtain ⟨s', hs⟩ := able
    obtain ⟨t, ht, hp⟩ := ih s' hs
    exact ⟨t, .head hs ht, hp⟩

/-- What comes sooner or later brings along whatever it implies. -/
theorem Inevitably.mono {P' : σ → Prop} {s : σ} (h : Inevitably R P s) (imp : ∀ s, P s → P' s) :
    Inevitably R P' s := by
  induction h with
  | now here => exact .now (imp _ here)
  | later able _ ih => exact .later able ih

/-- An invariant, a measure that every step lowers, and an enabled step wherever `P` does not hold
yet: every run arrives at `P`. -/
theorem inevitably_of_rank {ι : Type} {lt : ι → ι → Prop} (wf : WellFounded lt) {I : σ → Prop}
    (rank : σ → ι) (keep : ∀ a b, I a → R a b → I b) (lower : ∀ a b, I a → R a b → lt (rank b) (rank a))
    (able : ∀ a, I a → ¬ P a → ∃ b, R a b) (s : σ) (start : I s) : Inevitably R P s := by
  induction h : rank s using wf.induction generalizing s with
  | _ r ih =>
    by_cases hp : P s
    · exact .now hp
    · refine .later (able s start hp) fun s' hs => ?_
      exact ih (rank s') (h ▸ lower s s' start hs) s' (keep s s' start hs) rfl

end Inevitably

end TTasks.Interleave
