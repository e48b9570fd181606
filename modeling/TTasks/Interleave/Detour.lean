import TTasks.Interleave.Keep

/-!
# Programs with detours

A program may leave its way for another one that comes back with nothing and raises nothing.
`Detours` says that two programs are the same but for such detours; it passes through every
combinator. Where the operations of the way answer both programs alike, and a detour shows in
nothing that they look at, both come to the same outcome alone (`Detours.run`). In a system of
threads a run with detours is a run without them once the steps on detours are left out
(`Goes.drop`), and every run without them has detours put in (`Goes.insert`): the threads that take
the other steps, in their order, are the schedule of both.
-/

namespace TTasks.Interleave

namespace Prog

variable {Op : Type} {Ans : Op → Type} {ε α β σ τ : Type}

/-! ## Detours -/

/-- The first program is the second with detours. `D` says which programs are detours, and `P` which
operations lie on the way. -/
inductive Detours (D : Prog Ans ε Unit → Prop) (P : Op → Prop) :
    Prog Ans ε α → Prog Ans ε α → Prop
  | ret (a : α) : Detours D P (.ret a) (.ret a)
  | fail (e : ε) : Detours D P (.fail e) (.fail e)
  | act {o : Op} (way : P o) {k k' : Ans o → Prog Ans ε α}
      (next : ∀ x, Detours D P (k x) (k' x)) : Detours D P (.act o k) (.act o k')
  | detour {b : Prog Ans ε Unit} (leaves : D b) {p p' : Prog Ans ε α}
      (next : Detours D P p p') : Detours D P (b.bind fun _ => p) p'

/-- The program raises nothing. -/
abbrev Total (p : Prog Ans ε α) : Prop := p.Only fun _ => True

/-- A first part that never raises can be taken out of a `try` block. -/
theorem Only.bind_tryCatch {P : Op → Prop} {b : Prog Ans ε β} (only : b.Only P)
    (k : β → Prog Ans ε α) (h : ε → Prog Ans ε α) :
    (b.bind k).tryCatch h = b.bind fun x => (k x).tryCatch h := by
  induction b with
  | ret a => rfl
  | fail e => exact only.elim
  | act o next ih =>
    simp only [Prog.bind, Prog.tryCatch]
    congr 1
    funext x
    exact ih x (only.2 x)

/-- A lifted program performs the lifted operations only. -/
theorem Only.lift {Op' : Type} {Ans' : Op' → Type} {f : Op → Op'} {back : ∀ o, Ans' (f o) → Ans o}
    {P : Op → Prop} {P' : Op' → Prop} {p : Prog Ans ε α} (imp : ∀ o, P o → P' (f o))
    (only : p.Only P) : (p.lift f back).Only P' := by
  induction p with
  | ret a => trivial
  | fail e => exact only
  | act o k ih => exact ⟨imp o only.1, fun x => ih _ (only.2 _)⟩

namespace Detours

variable {D : Prog Ans ε Unit → Prop} {P : Op → Prop} {p p' : Prog Ans ε α}

/-- A detour and nothing else. -/
theorem of_leaves {b : Prog Ans ε Unit} (leaves : D b) : Detours D P b (.ret ()) := by
  have whole : ∀ p : Prog Ans ε Unit, (p.bind fun _ => .ret ()) = p := by
    intro p
    induction p with
    | ret a => rfl
    | fail e => rfl
    | act o k ih => exact congrArg (Prog.act o) (funext ih)
  have there : Detours D P (b.bind fun _ => .ret ()) (.ret ()) := detour leaves (ret ())
  rwa [whole] at there

/-- Every program takes no detour from itself. -/
theorem refl (uses : p.Uses P) : Detours D P p p := by
  induction p with
  | ret a => exact ret a
  | fail e => exact fail e
  | act o k ih => exact act uses.1 fun x => ih x (uses.2 x)

/-- Detours in either part are detours of the sequence. -/
theorem bind {f f' : α → Prog Ans ε β} (h : Detours D P p p')
    (next : ∀ a, Detours D P (f a) (f' a)) : Detours D P (p.bind f) (p'.bind f') := by
  induction h with
  | ret a => exact next a
  | fail e => exact fail e
  | act way _ ih => exact act way ih
  | detour leaves _ ih =>
    rw [bind_assoc]
    exact detour leaves ih

/-- Detours that never raise stay detours inside a `try` block. -/
theorem tryCatch (total : ∀ b, D b → b.Total) {h h' : ε → Prog Ans ε α} (hp : Detours D P p p')
    (handlers : ∀ e, Detours D P (h e) (h' e)) :
    Detours D P (p.tryCatch h) (p'.tryCatch h') := by
  induction hp with
  | ret a => exact ret a
  | fail e => exact handlers e
  | act way _ ih => exact act way ih
  | detour leaves _ ih =>
    rw [(total _ leaves).bind_tryCatch]
    exact detour leaves ih

/-- Detours that never raise stay detours inside a `finally` block. -/
theorem finallyDo (total : ∀ b, D b → b.Total) {q q' : Prog Ans ε Unit} (hp : Detours D P p p')
    (hq : Detours D P q q') : Detours D P (p.finallyDo q) (p'.finallyDo q') :=
  (hp.tryCatch total fun e => hq.bind fun _ => fail e).bind fun a => hq.bind fun _ => ret a

/-- Detours that never raise do not show in how a program ended. -/
theorem caught (total : ∀ b, D b → b.Total) (hp : Detours D P p p') :
    Detours D P p.caught p'.caught :=
  (hp.bind fun _ => ret none).tryCatch total fun e => ret (some e)

/-- Detours that never raise do not show once exceptions are swallowed. -/
theorem swallow (total : ∀ b, D b → b.Total) {p p' : Prog Ans ε Unit} (hp : Detours D P p p') :
    Detours D P p.swallow p'.swallow :=
  hp.tryCatch total fun _ => ret ()

/-- Lifting both programs takes the detours along. -/
theorem lift {Op' : Type} {Ans' : Op' → Type} {f : Op → Op'} {back : ∀ o, Ans' (f o) → Ans o}
    {D' : Prog Ans' ε Unit → Prop} {P' : Op' → Prop} (leaves : ∀ b, D b → D' (b.lift f back))
    (way : ∀ o, P o → P' (f o)) (h : Detours D P p p') :
    Detours D' P' (p.lift f back) (p'.lift f back) := by
  induction h with
  | ret a => exact ret a
  | fail e => exact fail e
  | act on _ ih => exact act (way _ on) fun x => ih (back _ x)
  | detour d _ ih =>
    rw [lift_bind]
    exact detour (leaves _ d) ih

/-- A program that does not act takes no detour, and neither does the other. -/
theorem eq_of_not_acting (total : ∀ b, D b → b.Total) (h : Detours D P p p') (halted : ¬ p.Acting) :
    p' = p := by
  induction h with
  | ret a => rfl
  | fail e => rfl
  | act way _ _ => exact absurd trivial halted
  | detour leaves _ ih =>
    rename_i b q q' _
    cases b with
    | ret _ => exact ih halted
    | fail e => exact (total _ leaves).elim
    | act o k => exact absurd trivial halted

/-- Both programs alone: the operations on the way keep the states related and answer alike, and a
detour keeps the first state related to where the second still is. -/
theorem run {sem : (o : Op) → σ → Ans o × σ} {sem' : (o : Op) → τ → Ans o × τ} {R : σ → τ → Prop}
    (step : ∀ o s t, P o → R s t → (sem o s).1 = (sem' o t).1 ∧ R (sem o s).2 (sem' o t).2)
    (away : ∀ b s t, D b → R s t → (b.run sem s).1 = .ok () ∧ R (b.run sem s).2 t)
    (h : Detours D P p p') {s : σ} {t : τ} (start : R s t) :
    (p.run sem s).1 = (p'.run sem' t).1 ∧ R (p.run sem s).2 (p'.run sem' t).2 := by
  induction h generalizing s t with
  | ret a => exact ⟨rfl, start⟩
  | fail e => exact ⟨rfl, start⟩
  | act way _ ih =>
    obtain ⟨same, related⟩ := step _ s t way start
    rw [run_act, run_act, same]
    exact ih _ related
  | detour leaves _ ih =>
    obtain ⟨back, related⟩ := away _ s t leaves start
    have came : Prog.run sem _ s = (.ok (), (Prog.run sem _ s).2) := Prod.ext back rfl
    rw [run_bind, came]
    exact ih related

end Detours

/-! ## On a detour -/

/-- What is left of a detour. -/
inductive Rest (D : Prog Ans ε Unit → Prop) : Prog Ans ε Unit → Prop
  | start {b : Prog Ans ε Unit} (leaves : D b) : Rest D b
  | back : Rest D (.ret ())
  | on {o : Op} {k : Ans o → Prog Ans ε Unit} (here : Rest D (.act o k)) (x : Ans o) : Rest D (k x)

/-- What is left of a detour never raises, as the detour itself does not. -/
theorem Rest.total {D : Prog Ans ε Unit → Prop} (total : ∀ b, D b → b.Total)
    {b : Prog Ans ε Unit} (h : Rest D b) : b.Total := by
  induction h with
  | start leaves => exact total _ leaves
  | back => trivial
  | on _ x ih => exact ih.2 x

/-- The first program may be on a detour, and is the second one from where it comes back. -/
def Amid (D : Prog Ans ε Unit → Prop) (P : Op → Prop) (p p' : Prog Ans ε α) : Prop :=
  ∃ b q, Rest D b ∧ p = b.bind (fun _ => q) ∧ Detours D P q p'

namespace Amid

variable {D : Prog Ans ε Unit → Prop} {P : Op → Prop} {p p' : Prog Ans ε α}

/-- At the outset the program is amid no detour. -/
theorem of_detours (h : Detours D P p p') : Amid D P p p' := ⟨.ret (), p, .back, rfl, h⟩

/-- Once neither program acts, the detours are over and both have come to the same. -/
theorem eq_of_not_acting (total : ∀ b, D b → b.Total) (h : Amid D P p p') (halted : ¬ p.Acting) :
    p' = p := by
  obtain ⟨b, q, rest, rfl, detours⟩ := h
  cases b with
  | ret _ => exact detours.eq_of_not_acting total halted
  | fail e => exact (rest.total total).elim
  | act o k => exact absurd trivial halted

/-- The next operation is on a detour, or on the way of both. -/
theorem cases_act (total : ∀ b, D b → b.Total) {o : Op} {k : Ans o → Prog Ans ε α}
    (h : Amid D P (.act o k) p') :
    (∃ kb q, Rest D (.act o kb) ∧ k = (fun x => (kb x).bind fun _ => q) ∧ Detours D P q p') ∨
      P o ∧ ∃ k', p' = .act o k' ∧ ∀ x, Detours D P (k x) (k' x) := by
  obtain ⟨b, q, rest, same, detours⟩ := h
  cases b with
  | act o' kb =>
    cases same
    exact .inl ⟨kb, q, rest, rfl, detours⟩
  | fail e => exact (rest.total total).elim
  | ret _ =>
    obtain rfl : Prog.act o k = q := same
    generalize seen : Prog.act o k = q at detours
    induction detours with
    | ret a => cases seen
    | fail e => cases seen
    | act way next _ =>
      cases seen
      exact .inr ⟨way, _, rfl, next⟩
    | detour leaves next ih =>
      rename_i b r r'
      cases b with
      | ret _ => exact ih seen
      | fail e => exact (total _ leaves).elim
      | act o' kb =>
        cases seen
        exact .inl ⟨kb, r, .start leaves, rfl, next⟩

end Amid

end Prog

/-! ## Threads with detours -/

namespace Threads

open Prog (Detours Rest Amid)

variable {ι Op ε α σ τ : Type} {Ans : Op → Type} [DecidableEq ι]

/-- A run with its schedule: the threads of the list take the steps that are not on a detour, in this
order, and a step on a detour may come at any time. -/
inductive Goes (sem : ι → (o : Op) → σ → Ans o × σ) (allow : ι → Op → σ → Prop)
    (aside : Prog Ans ε α → Prop) :
    List ι → Threads ι Ans ε α σ → Threads ι Ans ε α σ → Prop
  | done (s : Threads ι Ans ε α σ) : Goes sem allow aside [] s s
  | aside {i : ι} {is : List ι} {s m s' : Threads ι Ans ε α σ} (here : aside (s.rest i))
      (allowed : s.Allows allow i) (moved : perform sem i s = some m)
      (later : Goes sem allow aside is m s') : Goes sem allow aside is s s'
  | step {i : ι} {is : List ι} {s m s' : Threads ι Ans ε α σ} (onWay : ¬ aside (s.rest i))
      (allowed : s.Allows allow i) (moved : perform sem i s = some m)
      (later : Goes sem allow aside is m s') : Goes sem allow aside (i :: is) s s'

/-- No program is on a detour. -/
def never (_ : Prog Ans ε α) : Prop := False

section Runs

variable {sem : ι → (o : Op) → σ → Ans o × σ} {allow : ι → Op → σ → Prop}
  {aside : Prog Ans ε α → Prop} {is js : List ι} {s m s' : Threads ι Ans ε α σ}

/-- Two stretches, one after the other, make one. -/
theorem Goes.trans (h : Goes sem allow aside is s m) (h' : Goes sem allow aside js m s') :
    Goes sem allow aside (is ++ js) s s' := by
  induction h with
  | done s => exact h'
  | aside here allowed moved _ ih => exact .aside here allowed moved (ih h')
  | step onWay allowed moved _ ih => exact .step onWay allowed moved (ih h')

/-- What every step keeps holds at the end of a run. -/
theorem Goes.invariant {I : Threads ι Ans ε α σ → Prop} (h : Goes sem allow aside is s s')
    (keep : ∀ i a b, I a → a.Allows allow i → perform sem i a = some b → I b) (start : I s) :
    I s' := by
  induction h with
  | done s => exact start
  | aside _ allowed moved _ ih => exact ih (keep _ _ _ start allowed moved)
  | step _ allowed moved _ ih => exact ih (keep _ _ _ start allowed moved)

/-- Without detours the schedule says everything. -/
theorem Goes.unique {t : Threads ι Ans ε α σ} (h : Goes sem allow never is s s')
    (h' : Goes sem allow never is s t) : t = s' := by
  induction h with
  | done s =>
    cases h' with
    | done => rfl
    | aside here _ _ _ => exact here.elim
  | aside here _ _ _ _ => exact here.elim
  | step _ _ moved _ ih =>
    cases h' with
    | aside here _ _ _ => exact here.elim
    | step _ _ moved' later =>
      rw [moved] at moved'
      cases moved'
      exact ih later

end Runs

/-! ### Two systems -/

section Systems

variable (sem : ι → (o : Op) → σ → Ans o × σ) (allow : ι → Op → σ → Prop)
  (sem' : ι → (o : Op) → τ → Ans o × τ) (allow' : ι → Op → τ → Prop)
  (aside : Prog Ans ε α → Prop) (D : Prog Ans ε Unit → Prop) (P : Op → Prop) (R : σ → τ → Prop)

/-- The operations on the way do the same in both systems; a detour is never held up, and shows in
nothing that the second system has; and a program shows whether it is on one. -/
structure Blind : Prop where
  total : ∀ b, D b → b.Total
  enabled : ∀ i o s t, P o → R s t → (allow i o s ↔ allow' i o t)
  answer : ∀ i o s t, P o → R s t → (sem i o s).1 = (sem' i o t).1
  effect : ∀ i o s t, P o → R s t → R (sem i o s).2 (sem' i o t).2
  free : ∀ i o k s, Rest D (.act o k) → allow i o s
  unseen : ∀ i o k s t, Rest D (.act o k) → R s t → R (sem i o s).2 t
  away : ∀ o k q, Rest D (.act o k) → aside (.act o fun x => (k x).bind fun _ => q)
  onWay : ∀ (o : Op) (k k' : Ans o → Prog Ans ε α), P o → (∀ x, Detours D P (k x) (k' x)) →
    ¬ aside (.act o k)
  halted : ∀ p, aside p → p.Acting

omit [DecidableEq ι] in
/-- The shared states are related, and every thread is the other system's with detours. -/
structure Match (s : Threads ι Ans ε α σ) (t : Threads ι Ans ε α τ) : Prop where
  shared : R s.shared t.shared
  rest : ∀ i, Amid D P (s.rest i) (t.rest i)

end Systems

section Steps

variable {sem : ι → (o : Op) → σ → Ans o × σ} {allow : ι → Op → σ → Prop}
  {sem' : ι → (o : Op) → τ → Ans o × τ} {allow' : ι → Op → τ → Prop}
  {aside : Prog Ans ε α → Prop} {D : Prog Ans ε Unit → Prop} {P : Op → Prop} {R : σ → τ → Prop}
  {s m s' : Threads ι Ans ε α σ} {t n : Threads ι Ans ε α τ} {i : ι} {is : List ι}

/-- A thread on a detour moves in one system, and any other thread in both. -/
theorem Match.step (blind : Blind sem allow sem' allow' aside D P R) (h : Match D P R s t)
    (allowed : s.Allows allow i) (moved : perform sem i s = some m) :
    aside (s.rest i) ∧ Match D P R m t ∨
      ¬ aside (s.rest i) ∧ ∃ n, t.Allows allow' i ∧ perform sem' i t = some n ∧ Match D P R m n := by
  obtain ⟨o, k, here, rfl⟩ := perform_eq_some moved
  have thread := h.rest i
  rw [here] at thread
  rcases thread.cases_act blind.total with ⟨kb, q, rest, rfl, detours⟩ | ⟨way, k', there, next⟩
  · left
    rw [here]
    refine ⟨blind.away o kb q rest, blind.unseen i o kb _ _ rest h.shared, ?_⟩
    intro j
    dsimp only
    by_cases hj : j = i
    · subst hj
      rw [Function.update_self]
      exact ⟨_, q, rest.on _, rfl, detours⟩
    · rw [Function.update_of_ne hj]
      exact h.rest j
  · right
    rw [here]
    have moved' : perform sem' i t =
        some ⟨(sem' i o t.shared).2, Function.update t.rest i (k' (sem' i o t.shared).1)⟩ := by
      unfold perform
      rw [there]
    refine ⟨blind.onWay o k k' way next, _, ?_, moved', blind.effect i o _ _ way h.shared, ?_⟩
    · intro o' k'' is
      rw [there] at is
      cases is
      exact (blind.enabled i o _ _ way h.shared).mp (allowed o k here)
    · intro j
      dsimp only
      rw [← blind.answer i o _ _ way h.shared]
      by_cases hj : j = i
      · subst hj
        rw [Function.update_self, Function.update_self]
        exact .of_detours (next _)
      · rw [Function.update_of_ne hj, Function.update_of_ne hj]
        exact h.rest j

/-- A run with its detours left out. -/
theorem Goes.drop (blind : Blind sem allow sem' allow' aside D P R) (run : Goes sem allow aside is s s')
    (h : Match D P R s t) : ∃ t', Goes sem' allow' never is t t' ∧ Match D P R s' t' := by
  induction run generalizing t with
  | done s => exact ⟨t, .done t, h⟩
  | aside here allowed moved _ ih =>
    rcases h.step blind allowed moved with ⟨-, h'⟩ | ⟨onWay, -⟩
    · exact ih h'
    · exact absurd here onWay
  | step onWay allowed moved _ ih =>
    rcases h.step blind allowed moved with ⟨here, -⟩ | ⟨-, n, allowed', moved', h'⟩
    · exact absurd here onWay
    · obtain ⟨t', run', h''⟩ := ih h'
      exact ⟨t', .step id allowed' moved' run', h''⟩

/-- A thread comes back from its detours. -/
theorem Match.comeBack (blind : Blind sem allow sem' allow' aside D P R) (h : Match D P R s t)
    (i : ι) : ∃ s', Goes sem allow aside [] s s' ∧ Match D P R s' t ∧ ¬ aside (s'.rest i) ∧
      ∀ j, j ≠ i → s'.rest j = s.rest j := by
  generalize program : s.rest i = p
  induction p generalizing s with
  | ret a => exact ⟨s, .done s, h, program ▸ fun here => blind.halted _ here, fun _ _ => rfl⟩
  | fail e => exact ⟨s, .done s, h, program ▸ fun here => blind.halted _ here, fun _ _ => rfl⟩
  | act o k ih =>
    have thread := h.rest i
    rw [program] at thread
    rcases thread.cases_act blind.total with ⟨kb, q, rest, same, -⟩ | ⟨way, k', -, next⟩
    · have allowed : s.Allows allow i := by
        intro o' k' is
        rw [program] at is
        cases is
        exact blind.free i o kb _ rest
      have moved : perform sem i s =
          some ⟨(sem i o s.shared).2, Function.update s.rest i (k (sem i o s.shared).1)⟩ := by
        unfold perform
        rw [program]
      have here : aside (s.rest i) := by
        rw [program, same]
        exact blind.away o kb q rest
      rcases h.step blind allowed moved with ⟨-, h'⟩ | ⟨onWay, -⟩
      · obtain ⟨s', run, h'', back, others⟩ := ih _ h' (Function.update_self ..)
        refine ⟨s', .aside here allowed moved run, h'', back, fun j hj => ?_⟩
        rw [others j hj]
        exact Function.update_of_ne hj _ _
      · exact absurd here onWay
    · exact ⟨s, .done s, h, program ▸ blind.onWay o k k' way next, fun _ _ => rfl⟩

/-- A run with detours put in, each as soon as it can be taken. -/
theorem Goes.insert {t' : Threads ι Ans ε α τ} (blind : Blind sem allow sem' allow' aside D P R)
    (run : Goes sem' allow' never is t t') (h : Match D P R s t) (back : ∀ i, ¬ aside (s.rest i)) :
    ∃ s', Goes sem allow aside is s s' ∧ Match D P R s' t' ∧ ∀ i, ¬ aside (s'.rest i) := by
  induction run generalizing s with
  | done t => exact ⟨s, .done s, h, back⟩
  | aside here _ _ _ _ => exact here.elim
  | step _ allowed' moved' _ ih =>
    rename_i i is t n t' _ _
    obtain ⟨o, k', there, -⟩ := perform_eq_some moved'
    have acting : (s.rest i).Acting := by
      by_contra halted
      have same := (h.rest i).eq_of_not_acting blind.total halted
      rw [← same, there] at halted
      exact halted trivial
    obtain ⟨o', k, program⟩ := acting.exists_act
    have onWay := back i
    have thread := h.rest i
    rw [program, there] at thread
    rcases thread.cases_act blind.total with ⟨kb, q, rest, same, -⟩ | ⟨way, k'', same, next⟩
    · rw [program, same] at onWay
      exact absurd (blind.away o' kb q rest) onWay
    · cases same
      have allowed : s.Allows allow i := by
        intro o₁ k₁ is
        rw [program] at is
        cases is
        exact (blind.enabled i o _ _ way h.shared).mpr (allowed' o k' there)
      have moved : perform sem i s =
          some ⟨(sem i o s.shared).2, Function.update s.rest i (k (sem i o s.shared).1)⟩ := by
        unfold perform
        rw [program]
      rcases h.step blind allowed moved with ⟨here, -⟩ | ⟨-, n', -, moved'', h'⟩
      · exact absurd here onWay
      · rw [moved'] at moved''
        cases moved''
        obtain ⟨m, home, h'', back', others⟩ := h'.comeBack blind i
        have settled : ∀ j, ¬ aside (m.rest j) := by
          intro j
          by_cases hj : j = i
          · subst hj
            exact back'
          · rw [others j hj]
            change ¬ aside (Function.update s.rest i _ j)
            rw [Function.update_of_ne hj]
            exact back j
        obtain ⟨s', later, g', back''⟩ := ih h'' settled
        exact ⟨s', .step onWay allowed moved (home.trans later), g', back''⟩

omit [DecidableEq ι] in
/-- A thread that has returned or raised has come to the same outcome in both systems. -/
theorem Match.rest_eq (blind : Blind sem allow sem' allow' aside D P R) (h : Match D P R s t)
    (halted : ¬ (s.rest i).Acting) : t.rest i = s.rest i :=
  (h.rest i).eq_of_not_acting blind.total halted

omit [DecidableEq ι] in
/-- A thread that is on no detour has ended when it has in the other system. -/
theorem Match.rest_home (blind : Blind sem allow sem' allow' aside D P R) (h : Match D P R s t)
    (home : ¬ aside (s.rest i)) (halted : ¬ (t.rest i).Acting) : s.rest i = t.rest i := by
  by_cases acting : (s.rest i).Acting
  · obtain ⟨o, k, program⟩ := acting.exists_act
    have thread := h.rest i
    rw [program] at thread home
    rcases thread.cases_act blind.total with ⟨kb, q, rest, rfl, -⟩ | ⟨-, k', there, -⟩
    · exact absurd (blind.away o kb q rest) home
    · rw [there] at halted
      exact absurd trivial halted
  · exact (h.rest_eq blind acting).symm

end Steps

end Threads

end TTasks.Interleave
