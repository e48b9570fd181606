import TTasks.Interleave.Keep

/-!
# What a program does directly afterwards

Some operations leave a duty behind: the program that performed one goes on with another at once,
whatever the other threads do between the two. `Duty` says which operations a program may perform,
which answers of theirs leave a duty, and what meets it; `Dutiful`, that a program keeps to that. Like
`Keeps` it passes through the combinators. No contract says where a thread stands between the two
operations; here that is read off what is left of its program (`dutiful_step`).
-/

namespace TTasks.Interleave

namespace Prog

variable {Op : Type} {Ans : Op → Type} {ε α β : Type}

/-- The operation that the program is about to perform. -/
def next : Prog Ans ε α → Option Op
  | .act o _ => some o
  | _ => none

/-- Which operations may be performed, which answers leave a duty, and which operation meets it. -/
structure Duty {Op : Type} (Ans : Op → Type) where
  permits : Op → Prop
  arises : (o : Op) → Ans o → Prop
  meets : Op → Op → Prop

/-- Each duty is met by the very next operation. -/
def Dutiful (D : Duty Ans) : Prog Ans ε α → Prop
  | .ret _ => True
  | .fail _ => True
  | .act o k => D.permits o ∧ ∀ x, (D.arises o x → ∃ o', (k x).next = some o' ∧ D.meets o o') ∧
      (k x).Dutiful D

/-- What a sequence does next is what its first part does next. -/
theorem next_bind {p : Prog Ans ε α} {o : Op} (h : p.next = some o) (f : α → Prog Ans ε β) :
    (p.bind f).next = some o := by
  cases p with
  | act o' k => exact h
  | _ => cases h

/-- What a `try` block does next is what its body does next. -/
theorem next_tryCatch {p : Prog Ans ε α} {o : Op} (h : p.next = some o) (f : ε → Prog Ans ε α) :
    (p.tryCatch f).next = some o := by
  cases p with
  | act o' k => exact h
  | _ => cases h

/-- What a lifted program does next is the lifted operation. -/
theorem next_lift {Op' : Type} {Ans' : Op' → Type} {f : Op → Op'} {back : ∀ o, Ans' (f o) → Ans o}
    {p : Prog Ans ε α} {o : Op} (h : p.next = some o) : (p.lift f back).next = some (f o) := by
  cases p with
  | act o' k => cases h; rfl
  | _ => cases h

namespace Dutiful

variable {D : Duty Ans} {p : Prog Ans ε α}

/-- A returned program owes nothing. -/
theorem ret (a : α) : (.ret a : Prog Ans ε α).Dutiful D := trivial

/-- A raised program owes nothing. -/
theorem fail (e : ε) : (.fail e : Prog Ans ε α).Dutiful D := trivial

/-- A program of permitted operations that leave no duty. -/
theorem of_uses {P : Op → Prop} (free : ∀ o, P o → D.permits o ∧ ∀ x, ¬ D.arises o x)
    (uses : p.Uses P) : p.Dutiful D := by
  induction p with
  | ret a => trivial
  | fail e => trivial
  | act o k ih =>
    obtain ⟨permitted, none⟩ := free o uses.1
    exact ⟨permitted, fun x => ⟨fun arises => absurd arises (none x), ih x (uses.2 x)⟩⟩

/-- An operation that is permitted and brings no duty is dutiful. -/
theorem op {o : Op} (permitted : D.permits o) (none : ∀ x, ¬ D.arises o x) :
    (Prog.op o : Prog Ans ε (Ans o)).Dutiful D :=
  ⟨permitted, fun x => ⟨fun arises => absurd arises (none x), trivial⟩⟩

/-- A sequence of dutiful programs is dutiful, as a duty is met by the very next operation. -/
theorem bind {f : α → Prog Ans ε β} (hp : p.Dutiful D) (hf : ∀ a, (f a).Dutiful D) :
    (p.bind f).Dutiful D := by
  induction p with
  | ret a => exact hf a
  | fail e => trivial
  | act o k ih =>
    refine ⟨hp.1, fun x => ?_⟩
    obtain ⟨meets, rest⟩ := hp.2 x
    refine ⟨fun arises => ?_, ih x rest⟩
    obtain ⟨o', next, meets⟩ := meets arises
    exact ⟨o', next_bind next f, meets⟩

/-- A `try` block with a dutiful body and dutiful handlers is dutiful. -/
theorem tryCatch {h : ε → Prog Ans ε α} (hp : p.Dutiful D) (hh : ∀ e, (h e).Dutiful D) :
    (p.tryCatch h).Dutiful D := by
  induction p with
  | ret a => trivial
  | fail e => exact hh e
  | act o k ih =>
    refine ⟨hp.1, fun x => ?_⟩
    obtain ⟨meets, rest⟩ := hp.2 x
    refine ⟨fun arises => ?_, ih x rest⟩
    obtain ⟨o', next, meets⟩ := meets arises
    exact ⟨o', next_tryCatch next h, meets⟩

/-- A `finally` block of dutiful programs is dutiful. -/
theorem finallyDo {q : Prog Ans ε Unit} (hp : p.Dutiful D) (hq : q.Dutiful D) :
    (p.finallyDo q).Dutiful D :=
  (hp.tryCatch fun e => hq.bind fun _ => fail e).bind fun a => hq.bind fun _ => ret a

/-- Swallowing exceptions performs nothing, so it leaves no duty open. -/
theorem swallow {p : Prog Ans ε Unit} (hp : p.Dutiful D) : p.swallow.Dutiful D :=
  hp.tryCatch fun _ => ret ()

/-- Catching the outcome performs nothing, so it leaves no duty open. -/
theorem caught (hp : p.Dutiful D) : p.caught.Dutiful D :=
  (hp.bind fun _ => ret none).tryCatch fun e => ret (some e)

/-- A duty carried over to a larger set of operations is met by the lifted program. -/
theorem lift {Op' : Type} {Ans' : Op' → Type} {f : Op → Op'} {back : ∀ o, Ans' (f o) → Ans o}
    {D' : Duty Ans'} (permits : ∀ o, D.permits o → D'.permits (f o))
    (arises : ∀ o x, D'.arises (f o) x → D.arises o (back o x))
    (meets : ∀ o o', D.meets o o' → D'.meets (f o) (f o')) (hp : p.Dutiful D) :
    (p.lift f back).Dutiful D' := by
  induction p with
  | ret a => trivial
  | fail e => trivial
  | act o k ih =>
    refine ⟨permits o hp.1, fun x => ?_⟩
    obtain ⟨met, rest⟩ := hp.2 (back o x)
    refine ⟨fun h => ?_, ih _ rest⟩
    obtain ⟨o', next, meets'⟩ := met (arises o x h)
    exact ⟨f o', next_lift next, meets o o' meets'⟩

end Dutiful

end Prog

/-! ## Threads that meet their duties -/

namespace Threads

variable {ι Op ε α σ : Type} {Ans : Op → Type} [DecidableEq ι]

/-- A thread that performs an operation does so with permission, and is about to meet the duty that
it leaves; and all threads go on meeting theirs. -/
theorem dutiful_step {sem : ι → (o : Op) → σ → Ans o × σ} {D : Prog.Duty Ans}
    {s s' : Threads ι Ans ε α σ} {i : ι} (dutiful : ∀ j, (s.rest j).Dutiful D)
    (moved : perform sem i s = some s') : (∀ j, (s'.rest j).Dutiful D) ∧
      ∃ o, (s.rest i).next = some o ∧ s'.shared = (sem i o s.shared).2 ∧ D.permits o ∧
        (D.arises o (sem i o s.shared).1 → ∃ o', (s'.rest i).next = some o' ∧ D.meets o o') ∧
        ∀ j, j ≠ i → s'.rest j = s.rest j := by
  obtain ⟨o, k, rest, rfl⟩ := perform_eq_some moved
  have here := dutiful i
  rw [rest] at here
  obtain ⟨permitted, after⟩ := here
  have apart : ∀ j, j ≠ i → Function.update s.rest i (k (sem i o s.shared).1) j = s.rest j :=
    fun j other => Function.update_of_ne other _ _
  refine ⟨fun j => ?_, o, ?_, rfl, permitted, ?_, apart⟩
  · by_cases same : j = i
    · subst same
      simpa using (after (sem j o s.shared).1).2
    · simpa only [apart j same] using dutiful j
  · rw [rest]
    rfl
  · simpa using (after (sem i o s.shared).1).1

end Threads

end TTasks.Interleave
