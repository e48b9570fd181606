import TTasks.Interleave.Threads

/-!
# Programs that keep a predicate

`Keeps` says that a program which starts where a predicate holds meets its contract and leaves the
predicate true, whatever its answers are and however it ends. It passes through every combinator, so
a large program is done by looking at its single operations.

`Sound.strengthen` makes what the threads of a system are known to guarantee into something that a
second family of contracts for the same system may take for granted.
-/

namespace TTasks.Interleave

namespace Prog

variable {Op : Type} {Ans : Op → Type} {ε α β σ : Type}

/-- Every operation of the program is of the kind; it may raise. -/
def Uses (P : Op → Prop) : Prog Ans ε α → Prop
  | .ret _ => True
  | .fail _ => True
  | .act o k => P o ∧ ∀ x, (k x).Uses P

namespace Uses

variable {P P' : Op → Prop} {p : Prog Ans ε α}

/-- A program that uses these operations uses any larger set. -/
theorem mono (imp : ∀ o, P o → P' o) (h : p.Uses P) : p.Uses P' := by
  induction p with
  | ret a => trivial
  | fail e => trivial
  | act o k ih => exact ⟨imp o h.1, fun x => ih x (h.2 x)⟩

/-- Where every operation is of the kind, so is every program. -/
theorem all (h : ∀ o, P o) (p : Prog Ans ε α) : p.Uses P := by
  induction p with
  | ret a => trivial
  | fail e => trivial
  | act o k ih => exact ⟨h o, ih⟩

/-- A program that performs only these operations, and never raises, uses them. -/
theorem of_only (h : p.Only P) : p.Uses P := by
  induction p with
  | ret a => trivial
  | fail e => trivial
  | act o k ih => exact ⟨h.1, fun x => ih x (h.2 x)⟩

/-- One operation uses itself. -/
theorem op {o : Op} (h : P o) : (Prog.op o : Prog Ans ε (Ans o)).Uses P := ⟨h, fun _ => trivial⟩

/-- A sequence uses what its parts use. -/
theorem bind {f : α → Prog Ans ε β} (hp : p.Uses P) (hf : ∀ a, (f a).Uses P) :
    (p.bind f).Uses P := by
  induction p with
  | ret a => exact hf a
  | fail e => trivial
  | act o k ih => exact ⟨hp.1, fun x => ih x (hp.2 x)⟩

/-- A `try` block uses what its body and its handlers use. -/
theorem tryCatch {h : ε → Prog Ans ε α} (hp : p.Uses P) (hh : ∀ e, (h e).Uses P) :
    (p.tryCatch h).Uses P := by
  induction p with
  | ret a => trivial
  | fail e => exact hh e
  | act o k ih => exact ⟨hp.1, fun x => ih x (hp.2 x)⟩

/-- A returned program uses nothing. -/
theorem ret (a : α) : (.ret a : Prog Ans ε α).Uses P := trivial

/-- A raised program uses nothing. -/
theorem fail (e : ε) : (.fail e : Prog Ans ε α).Uses P := trivial

/-- A `finally` block uses what its body and its clean-up use. -/
theorem finallyDo {q : Prog Ans ε Unit} (hp : p.Uses P) (hq : q.Uses P) : (p.finallyDo q).Uses P :=
  (hp.tryCatch fun e => hq.bind fun _ => fail e).bind fun a => hq.bind fun _ => ret a

/-- Catching the outcome uses no further operation. -/
theorem caught (hp : p.Uses P) : p.caught.Uses P :=
  (hp.bind fun _ => ret none).tryCatch fun e => ret (some e)

/-- Taking the outcome as a value uses no further operation. -/
theorem result (hp : p.Uses P) : p.result.Uses P :=
  (hp.bind fun a => ret (Except.ok a)).tryCatch fun e => ret (Except.error e)

/-- The expanded program uses what the operations' own programs use. -/
theorem expand {Op' : Type} {Ans' : Op' → Type} {f : (o : Op') → Prog Ans ε (Ans' o)}
    {P' : Op' → Prop} (hf : ∀ o, P' o → (f o).Uses P) {p : Prog Ans' ε α} (hp : p.Uses P') :
    (p.expand f).Uses P := by
  induction p with
  | ret a => exact ret a
  | fail e => exact fail e
  | act o k ih => exact (hf o hp.1).bind fun x => ih x (hp.2 x)

/-- Lifting renames the operations in use. -/
theorem lift {Op' : Type} {Ans' : Op' → Type} {f : Op → Op'} {back : ∀ o, Ans' (f o) → Ans o}
    {P' : Op' → Prop} (imp : ∀ o, P o → P' (f o)) (hp : p.Uses P) : (p.lift f back).Uses P' := by
  induction p with
  | ret a => trivial
  | fail e => trivial
  | act o k ih => exact ⟨imp o hp.1, fun x => ih _ (hp.2 _)⟩

end Uses

/-! ## Keeping a predicate -/

section Keeps

variable (sem : (o : Op) → σ → Ans o × σ) (C : Contract Op σ) (H : σ → Prop)

/-- Started where `H` holds, the program meets its contract and leaves `H` true. -/
def Keeps (p : Prog Ans ε α) : Prop := ∀ s, H s → p.wp sem C (fun _ s' => H s') s

/-- One operation keeps `H`, whatever the other threads did before it. -/
def OpKeeps (o : Op) : Prop :=
  ∀ s s', H s → C.rely s s' →
    C.ready o s' ∧ (C.allow o s' → C.guar o s' ∧ H (sem o s').2)

variable {sem C H} {p : Prog Ans ε α}

namespace Keeps

/-- A returned program keeps any assertion. -/
theorem ret (a : α) : Keeps sem C H (.ret a : Prog Ans ε α) := fun _ h => h

/-- A raised program keeps any assertion. -/
theorem fail (e : ε) : Keeps sem C H (.fail e : Prog Ans ε α) := fun _ h => h

/-- The operation in front keeps the assertion, and so does what follows each of its answers. -/
theorem act {o : Op} {k : Ans o → Prog Ans ε α} (keeps : OpKeeps sem C H o)
    (next : ∀ x, Keeps sem C H (k x)) : Keeps sem C H (.act o k) := by
  intro s h s' rely
  obtain ⟨ready, step⟩ := keeps s s' h rely
  refine ⟨ready, fun allowed => ?_⟩
  obtain ⟨guar, after⟩ := step allowed
  exact ⟨guar, next _ _ after⟩

/-- One operation keeps what it keeps. -/
theorem op {o : Op} (keeps : OpKeeps sem C H o) :
    Keeps sem C H (Prog.op o : Prog Ans ε (Ans o)) := act keeps ret

/-- A program keeps an assertion that each operation it may use keeps. -/
theorem of_uses {P : Op → Prop} (keeps : ∀ o, P o → OpKeeps sem C H o) (uses : p.Uses P) :
    Keeps sem C H p := by
  induction p with
  | ret a => exact ret a
  | fail e => exact fail e
  | act o k ih => exact act (keeps o uses.1) fun x => ih x (uses.2 x)

/-- The program's answer may bring a fact about the state it leaves. -/
theorem bind_known {f : α → Prog Ans ε β} {K : α → σ → Prop}
    (hp : ∀ s, H s → p.wp sem C (fun res s' => H s' ∧ ∀ a, res = .ok a → K a s') s)
    (hf : ∀ a s, H s → K a s → (f a).wp sem C (fun _ s' => H s') s) :
    Keeps sem C H (p.bind f) := by
  intro s h
  rw [wp_bind]
  apply wp_mono (hp s h)
  rintro (e | a) s' ⟨kept, known⟩
  · exact kept
  · exact hf a s' kept (known a rfl)

/-- A sequence keeps what both parts keep. -/
theorem bind {f : α → Prog Ans ε β} (hp : Keeps sem C H p) (hf : ∀ a, Keeps sem C H (f a)) :
    Keeps sem C H (p.bind f) := by
  intro s h
  rw [wp_bind]
  apply wp_mono (hp s h)
  rintro (e | a) s' ends
  · exact ends
  · exact hf a s' ends

/-- A `try` block keeps what its body and its handlers keep. -/
theorem tryCatch {h : ε → Prog Ans ε α} (hp : Keeps sem C H p) (hh : ∀ e, Keeps sem C H (h e)) :
    Keeps sem C H (p.tryCatch h) := by
  intro s hs
  rw [wp_tryCatch]
  apply wp_mono (hp s hs)
  rintro (e | a) s' ends
  · exact hh e s' ends
  · exact ends

/-- A `finally` block keeps what its body and its clean-up keep. -/
theorem finallyDo {q : Prog Ans ε Unit} (hp : Keeps sem C H p) (hq : Keeps sem C H q) :
    Keeps sem C H (p.finallyDo q) :=
  (hp.tryCatch fun e => hq.bind fun _ => fail e).bind fun a => hq.bind fun _ => ret a

/-- Swallowing exceptions keeps what the program keeps. -/
theorem swallow {p : Prog Ans ε Unit} (hp : Keeps sem C H p) : Keeps sem C H p.swallow :=
  hp.tryCatch fun _ => ret ()

/-- Catching the outcome keeps what the program keeps. -/
theorem caught (hp : Keeps sem C H p) : Keeps sem C H p.caught :=
  (hp.bind fun _ => ret none).tryCatch fun e => ret (some e)

/-- Taking the outcome as a value keeps what the program keeps. -/
theorem result (hp : Keeps sem C H p) : Keeps sem C H p.result :=
  (hp.bind fun a => ret (Except.ok a)).tryCatch fun e => ret (Except.error e)

/-- What each operation's program keeps, the whole program keeps. -/
theorem expand {Op' : Type} {Ans' : Op' → Type} {f : (o : Op') → Prog Ans ε (Ans' o)}
    {P : Op' → Prop} (hf : ∀ o, P o → Keeps sem C H (f o)) {p : Prog Ans' ε α} (uses : p.Uses P) :
    Keeps sem C H (p.expand f) := by
  induction p with
  | ret a => exact ret a
  | fail e => exact fail e
  | act o k ih => exact (hf o uses.1).bind fun x => ih x (uses.2 x)

/-- `all(..)` keeps what each of its tests keeps. -/
theorem all {f : β → Prog Ans ε Bool} (hf : ∀ b, Keeps sem C H (f b)) :
    ∀ bs, Keeps sem C H (Prog.all f bs)
  | [] => ret true
  | b :: bs => (hf b).bind fun ok => by
    cases ok with
    | true => exact all hf bs
    | false => exact ret false

/-- `any(..)` keeps what each of its tests keeps. -/
theorem any {f : β → Prog Ans ε Bool} (hf : ∀ b, Keeps sem C H (f b)) :
    ∀ bs, Keeps sem C H (Prog.any f bs)
  | [] => ret false
  | b :: bs => (hf b).bind fun found => by
    cases found with
    | true => exact ret true
    | false => exact any hf bs

/-- `p and q` keeps what both keep. -/
theorem and {p q : Prog Ans ε Bool} (hp : Keeps sem C H p) (hq : Keeps sem C H q) :
    Keeps sem C H (p.and q) :=
  hp.bind fun b => by
    cases b with
    | true => exact hq
    | false => exact ret false

/-- `p or q` keeps what both keep. -/
theorem or {p q : Prog Ans ε Bool} (hp : Keeps sem C H p) (hq : Keeps sem C H q) :
    Keeps sem C H (p.or q) :=
  hp.bind fun b => by
    cases b with
    | true => exact ret true
    | false => exact hq

/-- `not p` keeps what `p` keeps. -/
theorem not {p : Prog Ans ε Bool} (hp : Keeps sem C H p) : Keeps sem C H p.not :=
  hp.bind fun b => ret !b

end Keeps

/-- What holds of a program under one contract holds under another that relies on more and, for the
operations the program uses, asks for no more than the first gives. -/
theorem wp_of_contract {C' : Contract Op σ} {P : Op → Prop} {Q : Except ε α → σ → Prop}
    (rely : ∀ {a b}, C'.rely a b → C.rely a b) (allow : ∀ {o a}, C'.allow o a → C.allow o a)
    (ready : ∀ {o a}, P o → C.ready o a → C'.ready o a)
    (guar : ∀ {o a}, P o → C'.allow o a → C.guar o a → C'.guar o a) (uses : p.Uses P) {s : σ}
    (h : p.wp sem C Q s) : p.wp sem C' Q s := by
  induction p generalizing s with
  | ret a => exact h
  | fail e => exact h
  | act o k ih =>
    intro s' moved
    obtain ⟨isReady, step⟩ := h s' (rely moved)
    refine ⟨ready uses.1 isReady, fun allowed => ?_⟩
    obtain ⟨meets, next⟩ := step (allow allowed)
    exact ⟨guar uses.1 allowed meets, ih _ (uses.2 _) next⟩

end Keeps

end Prog

/-! ## One family of contracts on top of another -/

namespace Threads

open Prog (Contract)

variable {ι Op ε α σ : Type} {Ans : Op → Type} [DecidableEq ι]

/-- Along a run the invariant holds before every step, and the step is what its thread guarantees. -/
theorem Sound.strengthen {sem : ι → (o : Op) → σ → Ans o × σ} {C : ι → Contract Op σ}
    {I : σ → Prop} {Q : ι → Except ε α → σ → Prop} (fit : Compatible sem C I Q)
    {s s' : Threads ι Ans ε α σ} (sound : Sound sem C I Q s)
    (run : (machine sem).Reaches (Allows fun i => (C i).allow) s s') :
    (machine sem).Reaches
      (Allows fun i o a => (C i).allow o a ∧ I a ∧ (C i).guar o a) s s' := by
  have both := run.invariant (I := fun a => Sound sem C I Q a ∧ (machine sem).Reaches
    (Allows fun i o a => (C i).allow o a ∧ I a ∧ (C i).guar o a) s a) ⟨sound, .refl⟩ ?_
  · exact both.2
  · rintro a i b ⟨here, before⟩ allowed moved
    refine ⟨here.step fit allowed moved, before.tail ⟨i, ?_, moved⟩⟩
    intro o k next
    have thread := here.each i
    rw [next] at thread
    have permitted := allowed o k next
    exact ⟨permitted, here.inv, ((thread _ (fit.refl i _ here.inv)).2 permitted).1⟩

end Threads

end TTasks.Interleave
