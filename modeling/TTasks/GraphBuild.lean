import TTasks.Graph
import TTasks.Relational.Table

/-!
# Building a graph

`TaskGraph.add` and `__setitem__` on arguments of any type, with the four structures they write:
`_tasks`, `_deps`, `_finally` and `_optional`. A call may raise at any point, and what it has written
by then stays, so a call is a function of the graph that answers an outcome and a graph.

A dict is a table of its items. Task objects are compared by identity; what `add` reads of one is
its id. An iterable is what it yields and, where it raises, the exception it ends with.
-/

namespace TTasks

open Relational

namespace GraphBuild

/-- The exceptions of `add`: its own, and those of the iterable it consumes. -/
inductive AddError
  | typeError (message : String)
  | valueError (message : String)
  | raised (error : Exc)
  deriving DecidableEq, Repr

/-- An argument: a task object, a bool, or anything else, known by the name of its type. -/
inductive Value (τ : Type)
  | task (object : τ)
  | bool (value : Bool)
  | other (typeName : String)

def Value.typeName {τ : Type} : Value τ → String
  | .task _ => "Task"
  | .bool _ => "bool"
  | .other name => name

structure Iterable (τ : Type) where
  items : List (Value τ) := []
  raises : Option AddError := none

/-- The arguments of `add`. -/
structure Args (τ : Type) where
  task : Value τ
  after : Iterable τ := {}
  finally_ : Value τ := .bool false
  required : Value τ := .bool true

abbrev Dict (β : Type) := Table (Prod.fst : TaskId × β → TaskId)

/-- `d[k] = v`. -/
def Dict.assign {β : Type} (d : Dict β) (k : TaskId) (v : β) : Dict β :=
  d.upsert (k, v) (fun old => (old.1, v)) fun _ => rfl

def Dict.keys {β : Type} (d : Dict β) : List TaskId := d.rows.map Prod.fst

structure Graph (τ : Type) where
  tasks : Dict τ := .empty
  deps : Dict (List TaskId) := .empty
  finallyIds : List TaskId := []
  optionalIds : List TaskId := []

section Code

variable {τ : Type} (id : τ → TaskId)

/-- The checks that `add` begins with. -/
def Args.check (a : Args τ) : Except AddError (τ × Bool × Bool) :=
  match a.task with
  | .task task =>
    match a.finally_ with
    | .bool isFinally =>
      match a.required with
      | .bool required =>
        if !required && !isFinally then
          .error (.valueError "required=False is only valid with finally_=True")
        else .ok (task, isFinally, required)
      | _ => .error (.typeError "required must be a bool")
    | _ => .error (.typeError "finally_ must be a bool")
  | other => .error (.typeError ("Expected Task, got " ++ other.typeName))

/-- The `for` loop over `after`. -/
def collect : List (Value τ) → List TaskId → Except AddError (List TaskId)
  | [], deps => .ok deps
  | .task dep :: rest, deps => collect rest (if id dep ∈ deps then deps else deps ++ [id dep])
  | other :: _, _ => .error (.typeError ("Expected Task dependency, got " ++ other.typeName))

/-- What comes of `after`: the dependency ids, or the exception that stops the loop. -/
def Iterable.dependencies (after : Iterable τ) : Except AddError (List TaskId) :=
  match collect id after.items [], after.raises with
  | .ok deps, none => .ok deps
  | .ok _, some e => .error e
  | .error e, _ => .error e

/-- The writes after the loop. -/
def Graph.register (g : Graph τ) (t : TaskId) (deps : List TaskId) (isFinally required : Bool) :
    Graph τ :=
  { g with
    deps := g.deps.assign t deps
    finallyIds := if isFinally then t :: g.finallyIds.erase t else g.finallyIds.filter (· ≠ t)
    optionalIds :=
      if isFinally && !required then t :: g.optionalIds.erase t
      else g.optionalIds.filter (· ≠ t) }

/-- `add`. -/
def Graph.add (g : Graph τ) (a : Args τ) : Except AddError Unit × Graph τ :=
  match a.check with
  | .error e => (.error e, g)
  | .ok (task, isFinally, required) =>
    let named := { g with tasks := g.tasks.assign (id task) task }
    match a.after.dependencies id with
    | .error e => (.error e, named)
    | .ok deps => (.ok (), named.register (id task) deps isFinally required)

/-- The calls that build a graph. -/
inductive Call (τ : Type)
  | add (args : Args τ)
  | setItem (task : Value τ) (deps : Iterable τ)

/-- The arguments that reach `add`. -/
def Call.args : Call τ → Args τ
  | .add args => args
  | .setItem task deps => { task, after := deps }

def Call.perform (c : Call τ) (g : Graph τ) : Except AddError Unit × Graph τ := g.add id c.args

end Code

end GraphBuild

end TTasks
