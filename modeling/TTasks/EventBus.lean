import TTasks.Task

/-!
# The event bus

`_events.py`: subscribing, unsubscribing and `emit`. A callable is an object with a class of objects
that it is equal to (`same`): Python's `in` and `list.remove` go by equality, so two bound methods
of one object stand for each other. What a subscriber does with an event is data: it returns, or
it raises, and that may depend on the calls before.

A registration is known by its number. The bus keeps no registrations, only the list of callables;
`History` has them beside it, with those whose unsubscribe callback has been called.
-/

namespace TTasks

namespace Events

/-- What the subscribers are: which of them are equal, and how each call of one ends. -/
structure Subscribers (α ε κ : Type) where
  same : α → κ
  answer : List (α × ε) → α → ε → Except Exc Unit

structure EventBus (α : Type) where
  subscribers : List α := []
  errors : List Exc := []
  deriving DecidableEq, Repr

/-- A bus, with the calls it has made of its subscribers, and the registrations made with it. -/
structure History (α ε : Type) where
  bus : EventBus α := {}
  calls : List (α × ε) := []
  /-- The callables subscribed so far; a registration's number is its place. -/
  registered : List α := []
  /-- The registrations whose unsubscribe callback has been called. -/
  gone : List Nat := []
  deriving DecidableEq

section Code

variable {α ε κ : Type} [DecidableEq κ] (S : Subscribers α ε κ)

/-- `subscribe`. -/
def subscribe (a : α) (h : History α ε) : History α ε :=
  { h with
    bus := { h.bus with subscribers := h.bus.subscribers ++ [a] }
    registered := h.registered ++ [a] }

/-- `subscribers.remove(a)` where `a` is in the list: the first that is equal to it goes. -/
def remove (a : α) (subscribers : List α) : List α :=
  subscribers.eraseP fun b => S.same b = S.same a

/-- The unsubscribe callback of a registration. -/
def unsubscribe (n : Nat) (h : History α ε) : History α ε :=
  match h.registered[n]? with
  | none => h
  | some a =>
    { h with
      bus := { h.bus with subscribers := remove S a h.bus.subscribers }
      gone := n :: h.gone }

/-- `subscriber(event)`. -/
def call (event : ε) (a : α) (h : History α ε) : Except Exc Unit × History α ε :=
  (S.answer h.calls a event, { h with calls := h.calls ++ [(a, event)] })

/-- The loop of `emit`, over the subscribers as they were at its start. -/
def emitTo (event : ε) : List α → History α ε → Except Exc Unit × History α ε
  | [], h => (.ok (), h)
  | a :: rest, h =>
    match call S event a h with
    | (.ok (), h) => emitTo event rest h
    | (.error e, h) => emitTo event rest { h with bus := { h.bus with errors := h.bus.errors ++ [e] } }

/-- `emit`. -/
def emit (event : ε) (h : History α ε) : Except Exc Unit × History α ε :=
  emitTo S event h.bus.subscribers h

/-- What is done with a bus. Entering a `subscribed` block subscribes, and leaving it calls the
unsubscribe callback of the registration that it made. -/
inductive Act (α ε : Type)
  | subscribe (a : α)
  | unsubscribe (n : Nat)
  | enter (a : α)
  | leave (n : Nat)
  | emit (event : ε)

def Act.perform : Act α ε → History α ε → History α ε
  | .subscribe a, h | .enter a, h => Events.subscribe a h
  | .unsubscribe n, h | .leave n, h => Events.unsubscribe S n h
  | .emit event, h => (Events.emit S event h).2

/-! ## What the bus is for -/

/-- The callables of the registrations whose own unsubscribe has not been called yet, in the order
they were made; the first has the number `n`. -/
def livingFrom (gone : List Nat) : Nat → List α → List α
  | _, [] => []
  | n, a :: rest => if n ∈ gone then livingFrom gone (n + 1) rest else a :: livingFrom gone (n + 1) rest

def living (h : History α ε) : List α := livingFrom h.gone 0 h.registered

/-- The living registrations before the `n`-th. -/
def livingBefore (n : Nat) (h : History α ε) : List α := livingFrom h.gone 0 (h.registered.take n)

/-- Of these callables, those from the first one on that is equal to `a` are `a` itself. -/
def Uniform (a : α) : List α → Prop
  | [] => True
  | b :: rest => if S.same b = S.same a then ∀ c ∈ b :: rest, c = a else Uniform a rest

/-- A first unsubscribe of a registration finds no living registration before it with an equal
callable, unless from there on up to it all have the very same one; a further unsubscribe finds none
with an equal callable anywhere. -/
def Clean : Act α ε → History α ε → Prop
  | .unsubscribe n, h | .leave n, h =>
    ∀ a ∈ h.registered[n]?,
      if n ∈ h.gone then ∀ b ∈ living h, S.same b ≠ S.same a
      else Uniform S a (livingBefore n h)
  | _, _ => True

/-- An emit calls exactly the living registrations, each once and in their order. -/
def Delivers (h : History α ε) : Prop :=
  ∀ event, (emit S event h).2.calls = h.calls ++ (living h).map fun a => (a, event)

/-- An unsubscribe that is not the first of its registration changes nothing. -/
def Repeats : Act α ε → History α ε → Prop
  | .unsubscribe n, h | .leave n, h => n ∈ h.gone → (unsubscribe S n h).bus = h.bus
  | _, _ => True

/-- All along a history the bus does what it is for. -/
def Faithful : List (Act α ε) → History α ε → Prop
  | [], h => Delivers S h
  | act :: acts, h => Delivers S h ∧ Repeats S act h ∧ Faithful acts (act.perform S h)

/-- Every act of a history is clean where it is done. -/
def AllClean : List (Act α ε) → History α ε → Prop
  | [], _ => True
  | act :: acts, h => Clean S act h ∧ AllClean acts (act.perform S h)

/-- The exceptions of the calls of one emit, in their order. -/
def raisedBy (event : ε) : List α → List (α × ε) → List Exc
  | [], _ => []
  | a :: rest, calls =>
    match S.answer calls a event with
    | .ok () => raisedBy event rest (calls ++ [(a, event)])
    | .error e => e :: raisedBy event rest (calls ++ [(a, event)])

end Code

end Events

end TTasks
