import TTasks.Graph

/-!
# The views of a graph

What a `TaskGraph` shows of its members, of their statuses after a run, and of its edges. A task is
shown by its id, and the order is that of insertion.

Left out: `__repr__`.
-/

namespace TTasks.TaskGraph

variable (g : TaskGraph)

/-! ## Members -/

/-- `is_optional`. -/
def isOptional (t : TaskId) : Bool := t ∈ g.optionalIds

/-- `items`. -/
def items : List (TaskId × List TaskId) := g.keys.map fun t => (t, g.deps t)

/-- `finally_tasks`. -/
def finallyTasks : List TaskId := g.keys.filter g.isFinally

/-- `optional_tasks`. -/
def optionalTasks : List TaskId := g.keys.filter g.isOptional

/-- `required_tasks`. -/
def requiredTasks : List TaskId := g.keys.filter fun t => !g.isOptional t

/-! ## Statuses -/

variable (w : World)

/-- The members with a status. -/
def withStatus (status : TaskStatus) : List TaskId := g.keys.filter fun t => w.status t == status

/-- The tasks that are SUCCEEDED. -/
def succeeded : List TaskId := g.withStatus w .succeeded

/-- The tasks that are FAILED. -/
def failed : List TaskId := g.withStatus w .failed

/-- The tasks that are CANCELLED. -/
def cancelled : List TaskId := g.withStatus w .cancelled

/-- The tasks that are BLOCKED. -/
def blocked : List TaskId := g.withStatus w .blocked

/-- `optional_failed`. -/
def optionalFailed : List TaskId := (g.failed w).filter g.isOptional

/-- `required_failed`. -/
def requiredFailed : List TaskId := (g.failed w).filter fun t => !g.isOptional t

/-- `required_blocked`. -/
def requiredBlocked : List TaskId := (g.blocked w).filter fun t => !g.isOptional t

/-- `ok`, on the exceptions that the last run has kept. -/
def ok (errors : TaskId → Option Exc) : Bool :=
  (g.keys.filter fun t => !g.isOptional t).all fun t =>
    w.status t == .succeeded && (errors t).isNone

/-! ## Edges -/

/-- The tasks with no dependency, read off the edges. -/
def roots : List TaskId := (g.edges.filter fun e => e.2.isEmpty).map Prod.fst

/-- `depended_on`, which `leaves` collects. -/
def dependedOn : List TaskId := g.edges.foldl (fun seen e => seen ∪ e.2) []

/-- The tasks that no other depends on. -/
def leaves : List TaskId := g.keys.filter fun t => !(g.dependedOn.contains t)

/-! ## What is in them -/

variable {g w} {t : TaskId}

/-- A view by status shows the members with that status. -/
@[simp] theorem mem_withStatus {status : TaskStatus} :
    t ∈ g.withStatus w status ↔ t ∈ g.keys ∧ w.status t = status := by
  simp [withStatus]

/-- The required tasks are the members that are not optional. -/
@[simp] theorem mem_requiredTasks : t ∈ g.requiredTasks ↔ t ∈ g.keys ∧ t ∉ g.optionalIds := by
  simp [requiredTasks, isOptional]

/-- A required failure is a required task that is FAILED. -/
@[simp] theorem mem_requiredFailed :
    t ∈ g.requiredFailed w ↔ t ∈ g.requiredTasks ∧ w.status t = .failed := by
  simp only [requiredFailed, failed, List.mem_filter, mem_withStatus, mem_requiredTasks]
  simp [isOptional, and_right_comm]

/-- A required task that is BLOCKED. -/
@[simp] theorem mem_requiredBlocked :
    t ∈ g.requiredBlocked w ↔ t ∈ g.requiredTasks ∧ w.status t = .blocked := by
  simp only [requiredBlocked, blocked, List.mem_filter, mem_withStatus, mem_requiredTasks]
  simp [isOptional, and_right_comm]

/-- `ok` asks of the required tasks only, and of each that it succeeded without an error. -/
theorem ok_iff {errors : TaskId → Option Exc} : g.ok w errors = true ↔
    ∀ t ∈ g.requiredTasks, w.status t = .succeeded ∧ errors t = none := by
  simp [ok, isOptional, or_iff_not_imp_left]

/-- `depended_on` collects every dependency of an edge. -/
theorem mem_dependedOn : t ∈ g.dependedOn ↔ ∃ e ∈ g.edges, t ∈ e.2 := by
  have grow : ∀ (es : List (TaskId × List TaskId)) (seen : List TaskId),
      t ∈ es.foldl (fun seen e => seen ∪ e.2) seen ↔ t ∈ seen ∨ ∃ e ∈ es, t ∈ e.2 := by
    intro es
    induction es with
    | nil => simp
    | cons e es ih =>
      intro seen
      rw [List.foldl_cons, ih, List.mem_union_iff, List.exists_mem_cons_iff, or_assoc]
  rw [dependedOn, grow]
  simp

/-- A root is a member whose edge has no dependency. -/
theorem mem_roots : t ∈ g.roots ↔ t ∈ g.keys ∧ (t, []) ∈ g.edges := by
  constructor
  · intro member
    obtain ⟨⟨u, ds⟩, found, rfl⟩ := List.mem_map.mp member
    obtain ⟨edge, empty⟩ := List.mem_filter.mp found
    obtain rfl : ds = [] := List.isEmpty_iff.mp empty
    exact ⟨List.mem_map_of_mem edge, edge⟩
  · rintro ⟨-, edge⟩
    exact List.mem_map.mpr ⟨(t, []), List.mem_filter.mpr ⟨edge, rfl⟩, rfl⟩

/-- A leaf is a member that no edge depends on. -/
theorem mem_leaves : t ∈ g.leaves ↔ t ∈ g.keys ∧ ∀ e ∈ g.edges, t ∉ e.2 := by
  simp [leaves, mem_dependedOn]

end TTasks.TaskGraph
