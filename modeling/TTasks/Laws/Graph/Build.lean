import TTasks.GraphBuild

/-!
# What the calls that build a graph leave

A call whose own checks fail writes nothing, and a call that comes to its end writes a consistent
graph. In between, a call that raises while it consumes
`after` has already written `_tasks`: it leaves the graph as it was exactly if the object was there
under its id before (`Harmless`).
-/

namespace TTasks

open Relational

namespace GraphBuild

/-! ## Dicts -/

section Dicts

variable {β : Type} {d : Dict β} {t u : TaskId} {v : β}

theorem find?_assign : (d.assign t v).find? u = if u = t then some (t, v) else d.find? u := by
  rw [Dict.assign, Table.find?_upsert]
  by_cases same : u = t
  · subst same
    rw [if_pos rfl, if_pos rfl]
    cases h : d.find? u with
    | none => rfl
    | some old =>
      have keyed : old.1 = u := (Table.find?_eq_some.mp h).2
      rw [Option.elim_some, keyed]
  · rw [if_neg same, if_neg same]

theorem mem_keys_assign : u ∈ (d.assign t v).keys ↔ u = t ∨ u ∈ d.keys := by
  unfold Dict.keys
  rw [Table.mem_keys_iff, Table.mem_keys_iff, find?_assign]
  split <;> simp [*]

/-- Assigning what is there changes nothing. -/
theorem assign_self (there : d.find? t = some (t, v)) : d.assign t v = d := by
  have mem := (Table.find?_eq_some.mp there).1
  have key : t ∈ d.rows.map Prod.fst := List.mem_map_of_mem mem
  have same : (d.assign t v).rows = d.rows := by
    unfold Dict.assign Table.upsert
    rw [dif_pos key]
    change d.rows.map (fun old => if old.1 = t then (old.1, v) else old) = d.rows
    conv_rhs => rw [← List.map_id d.rows]
    apply List.map_congr_left
    intro row hrow
    split
    · rename_i keyed
      rw [List.inj_on_of_nodup_map d.keys_nodup hrow mem keyed]
      rfl
    · rfl
  cases h : d.assign t v
  cases d
  simp only [h] at same
  subst same
  rfl

theorem mem_assign {e : TaskId × β} (h : e ∈ (d.assign t v).rows) : e = (t, v) ∨ e ∈ d.rows := by
  have found : (d.assign t v).find? e.1 = some e := Table.find?_eq_some.mpr ⟨h, rfl⟩
  rw [find?_assign] at found
  split at found
  · exact .inl (Option.some.inj found).symm
  · exact .inr (Table.find?_eq_some.mp found).1

end Dicts

/-! ## One call -/

section Calls

variable {τ : Type} {id : τ → TaskId} {g : Graph τ} {c : Call τ}

/-- What `_validate`, the scheduler and the store take for granted about the four structures. -/
structure Consistent (g : Graph τ) : Prop where
  keys : ∀ u, u ∈ g.tasks.keys ↔ u ∈ g.deps.keys
  nodup : ∀ e ∈ g.deps.rows, e.2.Nodup
  optional : ∀ u ∈ g.optionalIds, u ∈ g.finallyIds
  registered : ∀ u ∈ g.finallyIds, u ∈ g.tasks.keys

/-- If the call raises while it consumes `after`, its task object is registered already. -/
def Harmless (id : τ → TaskId) (c : Call τ) (g : Graph τ) : Prop :=
  ∀ task flags e, c.args.check = .ok (task, flags) → c.args.after.dependencies id = .error e →
    g.tasks.find? (id task) = some (id task, task)

theorem consistent_empty : Consistent ({} : Graph τ) where
  keys _ := .rfl
  nodup _ h := by cases h
  optional _ h := by cases h
  registered _ h := by cases h

/-- The loop collects each id once. -/
theorem collect_nodup {items : List (Value τ)} {deps found : List TaskId} (nodup : deps.Nodup)
    (collected : collect id items deps = .ok found) : found.Nodup := by
  induction items generalizing deps with
  | nil =>
    cases collected
    exact nodup
  | cons item items ih =>
    cases item with
    | task dep =>
      refine ih ?_ collected
      split
      · exact nodup
      · rename_i new
        refine List.nodup_append.mpr ⟨nodup, List.nodup_singleton _, ?_⟩
        rintro a old b mem rfl
        rw [List.mem_singleton] at mem
        exact new (mem ▸ old)
    | bool b => cases collected
    | other name => cases collected

theorem dependencies_ok {after : Iterable τ} {deps : List TaskId}
    (h : after.dependencies id = .ok deps) : collect id after.items [] = .ok deps := by
  unfold Iterable.dependencies at h
  split at h <;> cases h
  assumption

/-- The writes after the loop keep the structures consistent. -/
theorem Consistent.register (consistent : Consistent g) (task : τ) {deps : List TaskId}
    (nodup : deps.Nodup) {isFinally required : Bool} :
    Consistent ({ g with tasks := g.tasks.assign (id task) task }.register (id task) deps isFinally
      required) where
  keys u := by
    change u ∈ (g.tasks.assign _ _).keys ↔ u ∈ (g.deps.assign _ _).keys
    rw [mem_keys_assign, mem_keys_assign, consistent.keys]
  nodup e he := by
    rcases mem_assign he with rfl | old
    · exact nodup
    · exact consistent.nodup e old
  optional u hu := by
    change u ∈ (if isFinally then _ else _ : List TaskId)
    change u ∈ (if (isFinally && !required) = true then _ else _ : List TaskId) at hu
    cases isFinally with
    | false =>
      obtain ⟨old, other⟩ := List.mem_filter.mp hu
      exact List.mem_filter.mpr ⟨consistent.optional u old, other⟩
    | true =>
      by_cases same : u = id task
      · exact same ▸ List.mem_cons_self
      · have old : u ∈ g.optionalIds := by
          cases required with
          | true => exact (List.mem_filter.mp hu).1
          | false => exact List.mem_of_mem_erase ((List.mem_cons.mp hu).resolve_left same)
        exact List.mem_cons_of_mem _ ((List.mem_erase_of_ne same).mpr (consistent.optional u old))
  registered u hu := by
    change u ∈ (g.tasks.assign _ _).keys
    rw [mem_keys_assign]
    change u ∈ (if isFinally = true then _ else _ : List TaskId) at hu
    by_cases same : u = id task
    · exact .inl same
    · right
      apply consistent.registered u
      cases isFinally with
      | false => exact (List.mem_filter.mp hu).1
      | true => exact List.mem_of_mem_erase ((List.mem_cons.mp hu).resolve_left same)

/-- The three ways a call can go. -/
theorem perform_cases (id : τ → TaskId) (c : Call τ) (g : Graph τ) :
    (∃ e, c.args.check = .error e ∧ c.perform id g = (.error e, g)) ∨
    (∃ task flags e, c.args.check = .ok (task, flags) ∧ c.args.after.dependencies id = .error e ∧
      c.perform id g = (.error e, { g with tasks := g.tasks.assign (id task) task })) ∨
    ∃ task isFinally required deps, c.args.check = .ok (task, isFinally, required) ∧
      c.args.after.dependencies id = .ok deps ∧
      c.perform id g = (.ok (), { g with tasks := g.tasks.assign (id task) task }.register (id task)
        deps isFinally required) := by
  unfold Call.perform Graph.add
  cases checked : c.args.check with
  | error e => exact .inl ⟨e, rfl, rfl⟩
  | ok checked' =>
    obtain ⟨task, isFinally, required⟩ := checked'
    right
    cases after : c.args.after.dependencies id with
    | error e => exact .inl ⟨task, _, e, rfl, rfl, rfl⟩
    | ok deps => exact .inr ⟨task, isFinally, required, deps, rfl, rfl, rfl⟩

/-- A call that raises changes nothing, if and only if it is harmless. -/
theorem unchanged_iff (id : τ → TaskId) (c : Call τ) (g : Graph τ) :
    (∀ e, (c.perform id g).1 = .error e → (c.perform id g).2 = g) ↔ Harmless id c g := by
  rcases perform_cases id c g with ⟨e, refused, outcome⟩ | ⟨task, flags, e, checked, failed, outcome⟩ |
    ⟨task, isFinally, required, deps, checked, collected, outcome⟩
  · rw [outcome]
    refine ⟨fun _ task flags e' checked => ?_, fun _ _ _ => rfl⟩
    rw [refused] at checked
    cases checked
  · rw [outcome]
    constructor
    · intro kept task' flags' e' checked' _
      rw [checked] at checked'
      cases checked'
      have same := kept e rfl
      have found : (g.tasks.assign (id task) task).find? (id task) = some (id task, task) := by
        rw [find?_assign, if_pos rfl]
      rwa [show g.tasks.assign (id task) task = g.tasks from congrArg Graph.tasks same] at found
    · intro harmless e' _
      change { g with tasks := g.tasks.assign (id task) task } = g
      rw [assign_self (harmless task flags e checked failed)]
  · rw [outcome]
    refine ⟨fun _ task' flags' e' _ failed => ?_, fun _ e failed => ?_⟩
    · rw [collected] at failed
      cases failed
    · cases failed

/-- A harmless call keeps the structures consistent. -/
theorem Consistent.perform (consistent : Consistent g) (harmless : Harmless id c g) :
    Consistent (c.perform id g).2 := by
  have kept := (unchanged_iff id c g).mpr harmless
  rcases perform_cases id c g with ⟨e, -, outcome⟩ | ⟨task, flags, e, -, -, outcome⟩ |
    ⟨task, isFinally, required, deps, -, collected, outcome⟩
  · rw [outcome]
    exact consistent
  · rw [kept e (congrArg Prod.fst outcome)]
    exact consistent
  · rw [outcome]
    exact consistent.register task (collect_nodup .nil (dependencies_ok collected))

end Calls

/-! ## Sequences of calls -/

section Sequences

variable {τ : Type} (id : τ → TaskId)

/-- The structures are consistent all along, and a call that raises leaves them as they were. -/
def Behaves : List (Call τ) → Graph τ → Prop
  | [], g => Consistent g
  | c :: cs, g => Consistent g ∧ (∀ e, (c.perform id g).1 = .error e → (c.perform id g).2 = g) ∧
    Behaves cs (c.perform id g).2

/-- Every call is harmless where it is made. -/
def AllHarmless : List (Call τ) → Graph τ → Prop
  | [], _ => True
  | c :: cs, g => Harmless id c g ∧ AllHarmless cs (c.perform id g).2

theorem behaves_iff_of_consistent (calls : List (Call τ)) {g : Graph τ} (consistent : Consistent g) :
    Behaves id calls g ↔ AllHarmless id calls g := by
  induction calls generalizing g with
  | nil => exact iff_of_true consistent trivial
  | cons c cs ih =>
    constructor
    · rintro ⟨-, kept, later⟩
      have harmless := (unchanged_iff id c g).mp kept
      exact ⟨harmless, (ih (consistent.perform harmless)).mp later⟩
    · rintro ⟨harmless, later⟩
      exact ⟨consistent, (unchanged_iff id c g).mpr harmless,
        (ih (consistent.perform harmless)).mpr later⟩

/-- From a new graph on, the four structures are consistent and failed calls leave no trace, if and
only if every call that raises while it consumes `after` is for an object already registered. -/
theorem behaves_iff (calls : List (Call τ)) : Behaves id calls {} ↔ AllHarmless id calls {} :=
  behaves_iff_of_consistent id calls consistent_empty

end Sequences

/-- `graph.add(a, after=[object()])` on a new graph: it raises, and `a` is in `_tasks` alone. -/
theorem halfDone_add : ¬ Behaves (fun t : TaskId => t)
    [.add { task := .task "a", after := { items := [.other "object"] } }] {} := by
  rintro ⟨-, kept, -⟩
  have same := congrArg (fun g => g.tasks.keys) (kept _ rfl)
  cases same

end GraphBuild

end TTasks
