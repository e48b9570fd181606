import Mathlib.Logic.Basic

/-!
# Programs of atomic operations

A thread's remaining work is a tree: it has returned, it has raised, or it is about to perform one
atomic operation and goes on with the answer. `Prog.run` performs a program with nothing else
running. `Prog.wp` is its weakest precondition under interference: before each operation the other
threads may move the shared state along `rely`, the program is then `ready` for the operation, which
is `allow`ed or not, it must meet `guar`, and what is left of the program carries on from the state
the operation leaves.

Nothing here knows what the operations are. A development supplies the operations, their answers
and their meaning (`sem`), writes its functions as programs in the monad below, proves one `wp`
lemma for each, and composes them with `wp_bind` and `wp_tryCatch`.
-/

namespace TTasks.Interleave

/-- What a thread still has to do. -/
inductive Prog {Op : Type} (Ans : Op → Type) (ε α : Type) : Type
  | ret (a : α)
  | fail (e : ε)
  | act (op : Op) (next : Ans op → Prog Ans ε α)

namespace Prog

variable {Op : Type} {Ans : Op → Type} {ε α β σ : Type}

/-! ## The monad -/

/-- One program, then another on what it returned; an exception skips the second. -/
def bind : Prog Ans ε α → (α → Prog Ans ε β) → Prog Ans ε β
  | .ret a, f => f a
  | .fail e, _ => .fail e
  | .act op k, f => .act op fun x => (k x).bind f

/-- `try p except`: a raised exception goes to the handler, and the handler's own exceptions leave
the block. -/
def tryCatch : Prog Ans ε α → (ε → Prog Ans ε α) → Prog Ans ε α
  | .ret a, _ => .ret a
  | .fail e, h => h e
  | .act op k, h => .act op fun x => (k x).tryCatch h

instance : Monad (Prog Ans ε) where
  pure := .ret
  bind := Prog.bind

instance : MonadExceptOf ε (Prog Ans ε) where
  throw := .fail
  tryCatch := Prog.tryCatch

/-- `try p finally q`: `q` runs after `p` however that ends. -/
def finallyDo (p : Prog Ans ε α) (q : Prog Ans ε Unit) : Prog Ans ε α :=
  (p.tryCatch fun e => q.bind fun _ => .fail e).bind fun a => q.bind fun _ => .ret a

/-- How the program ended, as a value. -/
def caught (p : Prog Ans ε α) : Prog Ans ε (Option ε) :=
  (p.bind fun _ => .ret none).tryCatch fun e => .ret (some e)

/-- What the program returned or raised, as a value. -/
def result (p : Prog Ans ε α) : Prog Ans ε (Except ε α) :=
  (p.bind fun a => .ret (.ok a)).tryCatch fun e => .ret (.error e)

/-- The program with its exceptions swallowed. -/
def swallow (p : Prog Ans ε Unit) : Prog Ans ε Unit := p.tryCatch fun _ => .ret ()

/-- One operation, as a program. -/
def op (o : Op) : Prog Ans ε (Ans o) := .act o .ret

/-- `all(f(b) for b in bs)`: it stops at the first `false`. -/
def all (f : β → Prog Ans ε Bool) : List β → Prog Ans ε Bool
  | [] => .ret true
  | b :: bs => (f b).bind fun ok => if ok then all f bs else .ret false

/-- `any(f(b) for b in bs)`: it stops at the first `true`. -/
def any (f : β → Prog Ans ε Bool) : List β → Prog Ans ε Bool
  | [] => .ret false
  | b :: bs => (f b).bind fun found => if found then .ret true else any f bs

/-- `p and q`, which leaves `q` alone once `p` is false. -/
def and (p q : Prog Ans ε Bool) : Prog Ans ε Bool := p.bind fun b => if b then q else .ret false

/-- `p or q`, which leaves `q` alone once `p` is true. -/
def or (p q : Prog Ans ε Bool) : Prog Ans ε Bool := p.bind fun b => if b then .ret true else q

/-- `not p`. -/
def not (p : Prog Ans ε Bool) : Prog Ans ε Bool := p.bind fun b => .ret !b

/-- A program over one set of operations, as a program over a larger set. -/
def lift {Op' : Type} {Ans' : Op' → Type} (f : Op → Op') (back : ∀ o, Ans' (f o) → Ans o) :
    Prog Ans ε α → Prog Ans' ε α
  | .ret a => .ret a
  | .fail e => .fail e
  | .act o k => .act (f o) fun x => (k (back o x)).lift f back

/-- A program with each operation carried out by a program of its own. -/
def expand {Op' : Type} {Ans' : Op' → Type} (f : (o : Op) → Prog Ans' ε (Ans o)) :
    Prog Ans ε α → Prog Ans' ε α
  | .ret a => .ret a
  | .fail e => .fail e
  | .act o k => (f o).bind fun x => (k x).expand f

/-- The program is about to perform an operation. -/
def Acting : Prog Ans ε α → Prop
  | .act _ _ => True
  | _ => False

instance (p : Prog Ans ε α) : Decidable p.Acting :=
  match p with
  | .act _ _ => isTrue trivial
  | .ret _ => isFalse id
  | .fail _ => isFalse id

/-- The program has returned. -/
def Returned : Prog Ans ε α → Prop
  | .ret _ => True
  | _ => False

instance (p : Prog Ans ε α) : Decidable p.Returned :=
  match p with
  | .ret _ => isTrue trivial
  | .act _ _ => isFalse id
  | .fail _ => isFalse id

/-- A program that is acting has an operation in front. -/
theorem Acting.exists_act {p : Prog Ans ε α} (h : p.Acting) : ∃ o k, p = .act o k := by
  cases p with
  | act o k => exact ⟨o, k, rfl⟩
  | _ => exact h.elim

/-- `pure` of the monad is the returned program. -/
@[simp] theorem pure_eq (a : α) : (pure a : Prog Ans ε α) = .ret a := rfl

/-- The monad's bind is `Prog.bind`. -/
@[simp] theorem bind_eq (p : Prog Ans ε α) (f : α → Prog Ans ε β) : (p >>= f) = p.bind f := rfl

/-- `throw` of the monad is the raised program. -/
@[simp] theorem throw_eq (e : ε) : (throw e : Prog Ans ε α) = .fail e := rfl

/-- The monad's `try` is `Prog.tryCatch`. -/
@[simp] theorem tryCatch_eq (p : Prog Ans ε α) (h : ε → Prog Ans ε α) :
    (MonadExcept.tryCatch p h : Prog Ans ε α) = p.tryCatch h := rfl

/-- Sequencing associates. -/
theorem bind_assoc {γ : Type} (p : Prog Ans ε α) (f : α → Prog Ans ε β) (g : β → Prog Ans ε γ) :
    (p.bind f).bind g = p.bind fun a => (f a).bind g := by
  induction p with
  | ret a => rfl
  | fail e => rfl
  | act o k ih => simp only [bind, ih]

/-- Expanding the operations goes through sequencing. -/
theorem expand_bind {Op' : Type} {Ans' : Op' → Type} (f : (o : Op) → Prog Ans' ε (Ans o))
    (p : Prog Ans ε α) (g : α → Prog Ans ε β) :
    (p.bind g).expand f = (p.expand f).bind fun a => (g a).expand f := by
  induction p with
  | ret a => rfl
  | fail e => rfl
  | act o k ih => simp only [bind, expand, bind_assoc, ih]

/-- Where no operation's program raises, a `try` block may be expanded part by part. -/
theorem expand_tryCatch {Op' : Type} {Ans' : Op' → Type} (f : (o : Op) → Prog Ans' ε (Ans o))
    (total : ∀ o {γ : Type} (k : Ans o → Prog Ans' ε γ) (h : ε → Prog Ans' ε γ),
      ((f o).bind k).tryCatch h = (f o).bind fun x => (k x).tryCatch h)
    (p : Prog Ans ε α) (h : ε → Prog Ans ε α) :
    (p.tryCatch h).expand f = (p.expand f).tryCatch fun e => (h e).expand f := by
  induction p with
  | ret a => rfl
  | fail e => rfl
  | act o k ih => simp only [tryCatch, expand, total, ih]

/-! ## Running alone -/

section Run

variable (sem : (o : Op) → σ → Ans o × σ)

/-- The program's whole run with no other thread between its operations. -/
def run : Prog Ans ε α → σ → Except ε α × σ
  | .ret a, s => (.ok a, s)
  | .fail e, s => (.error e, s)
  | .act o k, s => (k (sem o s).1).run (sem o s).2

/-- A returned program leaves the state alone. -/
@[simp] theorem run_ret (a : α) (s : σ) : (ret a : Prog Ans ε α).run sem s = (.ok a, s) := rfl

/-- A raised program leaves the state alone. -/
@[simp] theorem run_fail (e : ε) (s : σ) :
    (fail e : Prog Ans ε α).run sem s = (.error e, s) := rfl

/-- A run performs the operation in front and goes on with its answer. -/
@[simp] theorem run_act (o : Op) (k : Ans o → Prog Ans ε α) (s : σ) :
    (act o k).run sem s = (k (sem o s).1).run sem (sem o s).2 := rfl

/-- One operation's run is what it means. -/
@[simp] theorem run_op (o : Op) (s : σ) :
    (op o : Prog Ans ε (Ans o)).run sem s = (.ok (sem o s).1, (sem o s).2) := rfl

/-- A sequence runs its second part from where the first one left the state. -/
theorem run_bind (p : Prog Ans ε α) (f : α → Prog Ans ε β) (s : σ) :
    (p.bind f).run sem s = match p.run sem s with
      | (.ok a, s') => (f a).run sem s'
      | (.error e, s') => (.error e, s') := by
  induction p generalizing s with
  | ret a => rfl
  | fail e => rfl
  | act o k ih => simp only [bind, run_act, ih]

/-- A handler runs from where the body left the state, not from where the block began. -/
theorem run_tryCatch (p : Prog Ans ε α) (h : ε → Prog Ans ε α) (s : σ) :
    (p.tryCatch h).run sem s = match p.run sem s with
      | (.ok a, s') => (.ok a, s')
      | (.error e, s') => (h e).run sem s' := by
  induction p generalizing s with
  | ret a => rfl
  | fail e => rfl
  | act o k ih => simp only [tryCatch, run_act, ih]

/-- The program only looks at the state, and comes to the answer. -/
def Answers (p : Prog Ans ε α) (s : σ) (a : α) : Prop := p.run sem s = (.ok a, s)

namespace Answers

variable {sem} {s : σ}

/-- A returned program answers with its value. -/
theorem ret (a : α) : Answers sem (.ret a : Prog Ans ε α) s a := rfl

/-- Two programs that only look at the state do so in sequence too. -/
theorem bind {p : Prog Ans ε α} {f : α → Prog Ans ε β} {a : α} {b : β} (hp : Answers sem p s a)
    (hf : Answers sem (f a) s b) : Answers sem (p.bind f) s b := by
  rw [Answers, run_bind, hp]
  exact hf

/-- `p and q` comes to the conjunction, whether or not `q` is looked at. -/
theorem and {p q : Prog Ans ε Bool} {b c : Bool} (hp : Answers sem p s b)
    (hq : Answers sem q s c) : Answers sem (p.and q) s (b && c) :=
  hp.bind (by cases b <;> first | exact hq | exact ret _)

/-- `p or q` comes to the disjunction, whether or not `q` is looked at. -/
theorem or {p q : Prog Ans ε Bool} {b c : Bool} (hp : Answers sem p s b)
    (hq : Answers sem q s c) : Answers sem (p.or q) s (b || c) :=
  hp.bind (by cases b <;> first | exact hq | exact ret _)

/-- `not p` comes to the negation. -/
theorem not {p : Prog Ans ε Bool} {b : Bool} (hp : Answers sem p s b) :
    Answers sem p.not s (!b) := hp.bind (ret _)

/-- `all(..)` comes to the list's own `all`, wherever it stops looking. -/
theorem all {f : β → Prog Ans ε Bool} {g : β → Bool} (h : ∀ b, Answers sem (f b) s (g b)) :
    ∀ bs, Answers sem (Prog.all f bs) s (bs.all g)
  | [] => ret _
  | b :: bs => by
    refine (h b).bind ?_
    rw [List.all_cons]
    cases g b with
    | true => exact all h bs
    | false => exact ret _

end Answers

end Run

/-! ## Weakest preconditions under interference -/

/-- What a thread may assume and must ensure around its operations. -/
structure Contract (Op σ : Type) where
  /-- How other threads may move the state between two operations of this one. -/
  rely : σ → σ → Prop
  /-- What holds whenever this thread is about to perform an operation, allowed or not. -/
  ready : Op → σ → Prop := fun _ _ => True
  /-- When an operation of this thread may be taken at all. -/
  allow : Op → σ → Prop := fun _ _ => True
  /-- What holds whenever this thread performs an operation. -/
  guar : Op → σ → Prop := fun _ _ => True

section Wp

variable (sem : (o : Op) → σ → Ans o × σ) (C : Contract Op σ)

/-- The weakest precondition of a program for a postcondition on its outcome and final state. -/
def wp : Prog Ans ε α → (Except ε α → σ → Prop) → σ → Prop
  | .ret a, Q, s => Q (.ok a) s
  | .fail e, Q, s => Q (.error e) s
  | .act o k, Q, s => ∀ s', C.rely s s' → C.ready o s' ∧ (C.allow o s' →
      C.guar o s' ∧ (k (sem o s').1).wp Q (sem o s').2)

/-- A returned program has to meet the postcondition where it stands. -/
@[simp] theorem wp_ret (a : α) (Q : Except ε α → σ → Prop) (s : σ) :
    (ret a : Prog Ans ε α).wp sem C Q s ↔ Q (.ok a) s := Iff.rfl

/-- A raised program has to meet the postcondition where it stands. -/
@[simp] theorem wp_fail (e : ε) (Q : Except ε α → σ → Prop) (s : σ) :
    (fail e : Prog Ans ε α).wp sem C Q s ↔ Q (.error e) s := Iff.rfl

/-- What one operation owes: after any move of the others it is ready, and where it is allowed it
meets the guarantee and the rest carries on. -/
theorem wp_act (o : Op) (k : Ans o → Prog Ans ε α) (Q : Except ε α → σ → Prop) (s : σ) :
    (act o k).wp sem C Q s ↔ ∀ s', C.rely s s' → C.ready o s' ∧ (C.allow o s' →
      C.guar o s' ∧ (k (sem o s').1).wp sem C Q (sem o s').2) := Iff.rfl

/-- The program returns, and the predicate holds of what it returns. -/
def Returns (F : α → σ → Prop) : Except ε α → σ → Prop
  | .ok a, s => F a s
  | .error _, _ => False

/-- How a bind's continuation takes over from the first program's outcome. -/
def onOk (f : α → σ → Prop) (Q : Except ε β → σ → Prop) : Except ε α → σ → Prop
  | .ok a, s => f a s
  | .error e, s => Q (.error e) s

/-- How a `try` block's handler takes over from the body's outcome. -/
def onError (f : ε → σ → Prop) (Q : Except ε α → σ → Prop) : Except ε α → σ → Prop
  | .ok a, s => Q (.ok a) s
  | .error e, s => f e s

/-- The precondition of a sequence is that of its first part, the second part's for a postcondition.
-/
theorem wp_bind (p : Prog Ans ε α) (f : α → Prog Ans ε β) (Q : Except ε β → σ → Prop) (s : σ) :
    (p.bind f).wp sem C Q s ↔
      p.wp sem C (onOk (fun a s' => (f a).wp sem C Q s') Q) s := by
  induction p generalizing s with
  | ret a => rfl
  | fail e => rfl
  | act o k ih => simp only [bind, wp_act, ih]

/-- The precondition of a `try` block is that of its body, the handler's for the exceptions. -/
theorem wp_tryCatch (p : Prog Ans ε α) (h : ε → Prog Ans ε α) (Q : Except ε α → σ → Prop)
    (s : σ) :
    (p.tryCatch h).wp sem C Q s ↔
      p.wp sem C (onError (fun e s' => (h e).wp sem C Q s') Q) s := by
  induction p generalizing s with
  | ret a => rfl
  | fail e => rfl
  | act o k ih => simp only [tryCatch, wp_act, ih]

variable {sem C}

/-- A weaker postcondition is easier to reach. -/
theorem wp_mono {p : Prog Ans ε α} {Q Q' : Except ε α → σ → Prop} {s : σ}
    (h : p.wp sem C Q s) (imp : ∀ r s', Q r s' → Q' r s') : p.wp sem C Q' s := by
  induction p generalizing s with
  | ret a => exact imp _ _ h
  | fail e => exact imp _ _ h
  | act o k ih =>
    intro s' hr
    obtain ⟨ready, next⟩ := h s' hr
    exact ⟨ready, fun ha => ⟨(next ha).1, ih _ (next ha).2⟩⟩

/-- A first part that surely returns hands its predicate on to the second. -/
theorem wp_bind_returns {p : Prog Ans ε α} {f : α → Prog Ans ε β} {F : α → σ → Prop}
    {Q : Except ε β → σ → Prop} {s : σ} (h : p.wp sem C (Returns F) s)
    (next : ∀ a s', F a s' → (f a).wp sem C Q s') : (p.bind f).wp sem C Q s := by
  rw [wp_bind]
  refine wp_mono h fun r s' returns => ?_
  cases r with
  | error e => exact returns.elim
  | ok a => exact next a s' returns

/-- Two postconditions of one program hold together. -/
theorem wp_both {p : Prog Ans ε α} {Q Q' : Except ε α → σ → Prop} {s : σ}
    (h : p.wp sem C Q s) (h' : p.wp sem C Q' s) :
    p.wp sem C (fun r s' => Q r s' ∧ Q' r s') s := by
  induction p generalizing s with
  | ret a => exact ⟨h, h'⟩
  | fail e => exact ⟨h, h'⟩
  | act o k ih =>
    intro s' hr
    obtain ⟨ready, next⟩ := h s' hr
    exact ⟨ready, fun ha => ⟨(next ha).1, ih _ (next ha).2 ((h' s' hr).2 ha).2⟩⟩

/-- A thread that waits is not disturbed: its precondition survives what the others do. -/
theorem wp_stable (trans : ∀ {a b c}, C.rely a b → C.rely b c → C.rely a c)
    {p : Prog Ans ε α} {Q : Except ε α → σ → Prop} {s s' : σ}
    (keep : ∀ r {a b}, C.rely a b → Q r a → Q r b) (moved : C.rely s s')
    (h : p.wp sem C Q s) : p.wp sem C Q s' := by
  cases p with
  | ret a => exact keep _ moved h
  | fail e => exact keep _ moved h
  | act o k => exact fun s'' hr => h s'' (trans moved hr)

/-- The case of `wp_stable` for a program that is about to act: nothing is asked of the
postcondition. -/
theorem wp_stable_acting (trans : ∀ {a b c}, C.rely a b → C.rely b c → C.rely a c)
    {p : Prog Ans ε α} (acting : p.Acting) {Q : Except ε α → σ → Prop} {s s' : σ}
    (moved : C.rely s s') (h : p.wp sem C Q s) : p.wp sem C Q s' := by
  cases p with
  | ret a => exact acting.elim
  | fail e => exact acting.elim
  | act o k => exact fun s'' hr => h s'' (trans moved hr)

/-- A program that runs alone ends in its postcondition, if the states on the way allow that nothing
happens between two operations. -/
theorem run_of_wp {H : σ → Prop} (refl : ∀ s, H s → C.rely s s) (free : ∀ o s, C.allow o s)
    (keep : ∀ o s, H s → C.guar o s → H (sem o s).2) {p : Prog Ans ε α}
    {Q : Except ε α → σ → Prop} {s : σ} (start : H s) (h : p.wp sem C Q s) :
    Q (p.run sem s).1 (p.run sem s).2 := by
  induction p generalizing s with
  | ret a => exact h
  | fail e => exact h
  | act o k ih =>
    obtain ⟨guar, next⟩ := (h s (refl s start)).2 (free o s)
    exact ih _ (keep o s start guar) next

/-- `all` over a list: every element that is reached meets its own condition, and the answer says
whether the last one reached did. -/
theorem wp_all {f : β → Prog Ans ε Bool} {Q : Except ε Bool → σ → Prop} (I : List β → σ → Prop)
    (nil : ∀ s, I [] s → Q (.ok true) s)
    (cons : ∀ b bs s, I (b :: bs) s →
      (f b).wp sem C (onOk (fun ok s' => if ok then I bs s' else Q (.ok false) s') Q) s)
    (bs : List β) (s : σ) (h : I bs s) : (all f bs).wp sem C Q s := by
  induction bs generalizing s with
  | nil => exact nil s h
  | cons b bs ih =>
    rw [all, wp_bind]
    refine wp_mono (cons b bs s h) ?_
    rintro (e | ok) s' hq
    · exact hq
    · cases ok with
      | true => exact ih s' hq
      | false => exact hq

end Wp

/-! ## Programs of one kind of operation -/

/-- The program raises nothing, and every operation of it is of the kind. -/
def Only (P : Op → Prop) : Prog Ans ε α → Prop
  | .ret _ => True
  | .fail _ => False
  | .act o k => P o ∧ ∀ x, (k x).Only P

namespace Only

variable {P : Op → Prop} {p : Prog Ans ε α}

/-- A returned program performs nothing, so it keeps to any set of operations. -/
theorem ret (a : α) : (.ret a : Prog Ans ε α).Only P := trivial

/-- A sequence keeps to the operations that both parts keep to. -/
theorem bind {f : α → Prog Ans ε β} (hp : p.Only P) (hf : ∀ a, (f a).Only P) :
    (p.bind f).Only P := by
  induction p with
  | ret a => exact hf a
  | fail e => exact hp
  | act o k ih => exact ⟨hp.1, fun x => ih x (hp.2 x)⟩

/-- `p and q` keeps to the operations that both keep to. -/
theorem and {p q : Prog Ans ε Bool} (hp : p.Only P) (hq : q.Only P) : (p.and q).Only P :=
  hp.bind fun b => by cases b <;> first | exact hq | trivial

/-- `p or q` keeps to the operations that both keep to. -/
theorem or {p q : Prog Ans ε Bool} (hp : p.Only P) (hq : q.Only P) : (p.or q).Only P :=
  hp.bind fun b => by cases b <;> first | exact hq | trivial

/-- `not p` performs what `p` does. -/
theorem not {p : Prog Ans ε Bool} (hp : p.Only P) : p.not.Only P := hp.bind fun _ => trivial

/-- `all(..)` keeps to the operations that each of its tests keeps to. -/
theorem all {f : β → Prog Ans ε Bool} (hf : ∀ b, (f b).Only P) : ∀ bs, (Prog.all f bs).Only P
  | [] => trivial
  | b :: bs => (hf b).bind fun ok => by cases ok <;> first | exact all hf bs | trivial

end Only

/-! ## Programs that only read -/

section Reading

variable {sem : (o : Op) → σ → Ans o × σ} {C : Contract Op σ}

/-- The operations of the kind change nothing and may be taken where `H` holds, and other threads
keep `H`. -/
structure Reading (sem : (o : Op) → σ → Ans o × σ) (C : Contract Op σ) (reads : Op → Prop)
    (H : σ → Prop) : Prop where
  refl : ∀ {a}, H a → C.rely a a
  trans : ∀ {a b c}, C.rely a b → C.rely b c → C.rely a c
  stable : ∀ {a b}, H a → C.rely a b → H b
  same : ∀ {o} a, reads o → (sem o a).2 = a
  ready : ∀ {o a}, reads o → H a → C.ready o a
  guar : ∀ {o a}, reads o → H a → C.guar o a

variable {reads : Op → Prop} {H : σ → Prop} (R : Reading sem C reads H)

include R

/-- Fewer operations are easier to count as reading. -/
theorem Reading.mono {reads' : Op → Prop} (sub : ∀ o, reads' o → reads o) :
    Reading sem C reads' H where
  refl := R.refl
  trans := R.trans
  stable := R.stable
  same a h := R.same a (sub _ h)
  ready h := R.ready (sub _ h)
  guar h := R.guar (sub _ h)

/-- A read in front: the others have moved, the state is still as assumed, and the program goes on
with what it read. -/
theorem Reading.wp_act {o : Op} (ho : reads o) {k : Ans o → Prog Ans ε α}
    {Q : Except ε α → σ → Prop} {a : σ} (ha : H a)
    (next : ∀ b, H b → C.rely a b → C.allow o b → (k (sem o b).1).wp sem C Q b) :
    (act o k).wp sem C Q a := by
  intro b rely
  have hb := R.stable ha rely
  refine ⟨R.ready ho hb, fun allowed => ⟨R.guar ho hb, ?_⟩⟩
  rw [R.same b ho]
  exact next b hb rely allowed

/-- Where other threads leave the answers as they are, or else break something for good, a program
of reads ends with the answer it would have at its end, or with something broken. -/
theorem Reading.wp_frozen {B : σ → Prop}
    (still : ∀ {a b}, H a → C.rely a b → B b ∨ ∀ o, reads o → (sem o b).1 = (sem o a).1)
    {p : Prog Ans ε α} (only : p.Only reads) {a : σ} (ha : H a) :
    p.wp sem C (Returns fun x b => H b ∧ C.rely a b ∧ (B b ∨ (p.run sem b).1 = .ok x)) a := by
  induction p generalizing a with
  | ret x => exact ⟨ha, R.refl ha, .inr rfl⟩
  | fail e => exact only
  | act o k ih =>
    refine R.wp_act only.1 ha fun b hb rely _ => ?_
    refine wp_mono (ih _ (only.2 _) hb) fun r c returns => ?_
    cases r with
    | error e => exact returns
    | ok x =>
      obtain ⟨hc, rely', ends⟩ := returns
      refine ⟨hc, R.trans rely rely', ?_⟩
      rcases ends with broke | ends
      · exact .inl broke
      · refine (still hb rely').imp_right fun same => ?_
        rw [run_act, R.same c only.1, same o only.1]
        exact ends

end Reading

/-! ## Programs over a larger set of operations -/

/-- Lifting to a larger set of operations goes through sequencing. -/
theorem lift_bind {Op' : Type} {Ans' : Op' → Type} {f : Op → Op'} {back : ∀ o, Ans' (f o) → Ans o}
    (p : Prog Ans ε α) (g : α → Prog Ans ε β) :
    (p.bind g).lift f back = (p.lift f back).bind fun a => (g a).lift f back := by
  induction p with
  | ret a => rfl
  | fail e => rfl
  | act o k ih => simp only [bind, lift, ih]

/-- What holds of a program holds of it as a part of a larger system, where a part of the state is
the program's own (`proj`), something else (`R`) is kept, and the larger system's contract lets its
operations do what they do on their own. -/
theorem wp_lift {Op' σ' : Type} {Ans' : Op' → Type} {f : Op → Op'}
    {back : ∀ o, Ans' (f o) → Ans o} {sem : (o : Op) → σ → Ans o × σ} {C : Contract Op σ}
    {sem' : (o : Op') → σ' → Ans' o × σ'} {C' : Contract Op' σ'} (proj : σ' → σ) (R : σ' → Prop)
    (rely : ∀ {a b}, R a → C'.rely a b → R b ∧ C.rely (proj a) (proj b))
    (allow : ∀ {o b}, R b → C'.allow (f o) b → C.allow o (proj b))
    (ready : ∀ {o b}, R b → C.ready o (proj b) → C'.ready (f o) b)
    (guar : ∀ {o b}, R b → C'.allow (f o) b → C.guar o (proj b) →
      C'.guar (f o) b ∧ R (sem' (f o) b).2)
    (answer : ∀ o b, back o (sem' (f o) b).1 = (sem o (proj b)).1)
    (effect : ∀ o b, proj (sem' (f o) b).2 = (sem o (proj b)).2)
    {p : Prog Ans ε α} {Q : Except ε α → σ → Prop} {Q' : Except ε α → σ' → Prop} {a : σ'}
    (ha : R a) (h : p.wp sem C Q (proj a)) (imp : ∀ r b, R b → Q r (proj b) → Q' r b) :
    (p.lift f back).wp sem' C' Q' a := by
  induction p generalizing a with
  | ret x => exact imp _ _ ha h
  | fail e => exact imp _ _ ha h
  | act o k ih =>
    intro b moved
    obtain ⟨hb, moved'⟩ := rely ha moved
    obtain ⟨ready', next⟩ := h _ moved'
    refine ⟨ready hb ready', fun allowed => ?_⟩
    obtain ⟨guar', next⟩ := next (allow hb allowed)
    obtain ⟨meets, hb'⟩ := guar hb allowed guar'
    refine ⟨meets, ?_⟩
    show ((k (back o (sem' (f o) b).1)).lift f back).wp sem' C' Q' (sem' (f o) b).2
    rw [answer]
    exact ih _ hb' (effect o b ▸ next)

/-- A program makes no demands on a contract that makes none. -/
theorem wp_free (sem : (o : Op) → σ → Ans o × σ) (rely : σ → σ → Prop) (p : Prog Ans ε α) (a : σ) :
    p.wp sem { rely } (fun _ _ => True) a := by
  induction p generalizing a with
  | ret x => trivial
  | fail e => trivial
  | act o k ih => exact fun b _ => ⟨trivial, fun _ => ⟨trivial, ih _ _⟩⟩

/-! ## `try`, `finally` and short circuits -/

section Blocks

variable {sem : (o : Op) → σ → Ans o × σ} {C : Contract Op σ} {s : σ}

/-- How a `finally` clause passes on the outcome of its block, unless it raises itself. -/
def passOn (Q : Except ε α → σ → Prop) (r : Except ε α) : Except ε Unit → σ → Prop
  | .ok _, s => Q r s
  | .error e, s => Q (.error e) s

/-- A `finally` block is met when its clean-up meets it after either outcome. -/
theorem wp_finallyDo {p : Prog Ans ε α} {q : Prog Ans ε Unit} {Q : Except ε α → σ → Prop}
    (h : p.wp sem C (fun r a => q.wp sem C (passOn Q r) a) s) :
    (p.finallyDo q).wp sem C Q s := by
  rw [finallyDo, wp_bind, wp_tryCatch]
  refine wp_mono h fun r a hq => ?_
  cases r with
  | ok x =>
    show (q.bind fun _ => .ret x).wp sem C Q a
    rw [wp_bind]
    refine wp_mono hq fun r' b hr => ?_
    cases r' <;> exact hr
  | error e =>
    show (q.bind fun _ => .fail e).wp sem C _ a
    rw [wp_bind]
    refine wp_mono hq fun r' b hr => ?_
    cases r' <;> exact hr

/-- A program whose exceptions are swallowed only has to arrive, however it ends. -/
theorem wp_swallow {p : Prog Ans ε Unit} {Q : Except ε Unit → σ → Prop}
    (h : p.wp sem C (fun _ a => Q (.ok ()) a) s) : p.swallow.wp sem C Q s := by
  rw [swallow, wp_tryCatch]
  refine wp_mono h fun r a hq => ?_
  cases r <;> exact hq

/-- The exception that ended a program. -/
def raised : Except ε α → Option ε
  | .ok _ => none
  | .error e => some e

/-- A caught program passes on how it ended. -/
theorem wp_caught {p : Prog Ans ε α} {Q : Except ε (Option ε) → σ → Prop}
    (h : p.wp sem C (fun r a => Q (.ok (raised r)) a) s) : p.caught.wp sem C Q s := by
  rw [caught, wp_tryCatch, wp_bind]
  refine wp_mono h fun r a hq => ?_
  cases r <;> exact hq

/-- `p or q` by what `q` needs where `p` came to false. -/
theorem wp_or {p q : Prog Ans ε Bool} {Q : Except ε Bool → σ → Prop}
    (h : p.wp sem C (onOk (fun b a => if b then Q (.ok true) a else q.wp sem C Q a) Q) s) :
    (p.or q).wp sem C Q s := by
  rw [Prog.or, wp_bind]
  refine wp_mono h fun r a hq => ?_
  rcases r with e | b
  · exact hq
  · cases b <;> exact hq

end Blocks

/-! ## What is left of a program -/

/-- What a program is after one of its operations. -/
inductive After : Prog Ans ε α → Prog Ans ε α → Prop
  | act (o : Op) (k : Ans o → Prog Ans ε α) (x : Ans o) : After (k x) (.act o k)

/-- No program performs operations for ever. -/
theorem after_wf : WellFounded (After : Prog Ans ε α → Prog Ans ε α → Prop) := by
  refine ⟨fun p => ?_⟩
  induction p with
  | ret a => exact ⟨_, nofun⟩
  | fail e => exact ⟨_, nofun⟩
  | act o k ih =>
    refine ⟨_, fun q after => ?_⟩
    cases after with
    | act _ _ x => exact ih x

end Prog

end TTasks.Interleave
