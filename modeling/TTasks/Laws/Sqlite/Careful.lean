import TTasks.Laws.Sqlite.Open

/-!
# What a store promises of an open

An open that goes through leaves every known table in place: what it found, if the version was
current or no known table was there, and new tables otherwise. It takes no row away unless it may
rebuild. `Hazard` lists what comes in between: foreign keys between the tables of a rebuild, tables
whose names differ from known ones in the case of their letters, and a metadata table without a key.
-/

namespace TTasks.Sqlite.Connection

open Interleave Relational

/-! ## The promise -/

/-- What a store promises of an open: it never takes data away silently, it goes through where it
should, and the file it leaves can be opened again. -/
structure Careful (rules : DropRules) (allow : Bool) (file : File) : Prop where
  accepts : allow = false →
    ((openFile rules allow file).1 = .ok () ↔ Fresh file ∨ Current file)
  keeps : allow = false → ∀ t ∈ file.rows, t.rows <+: rowsOf (openFile rules allow file).2 t.spelling
  rebuilds : allow = true → (openFile rules allow file).1 = .ok ()
  spares : allow = true → ∀ t ∈ file.rows, ¬ t.IsKnown →
    rowsOf (openFile rules allow file).2 t.spelling = t.rows
  reuses : allow = true → Fresh file ∨ Current file →
    ∀ t ∈ file.rows, t.rows <+: rowsOf (openFile rules allow file).2 t.spelling
  drops : allow = true → ¬ (Fresh file ∨ Current file) →
    ∀ t : KnownTable, (openFile rules allow file).2.find? (.known t) = some t.stamped
  stamps : (openFile rules allow file).1 = .ok () → Current (openFile rules allow file).2
  reopens : (openFile rules allow file).1 = .ok () →
    openFile rules false (openFile rules allow file).2 = (.ok (), (openFile rules allow file).2)

/-- What keeps a store from the promise. -/
inductive Hazard (rules : DropRules) (allow : Bool) (file : File) : Prop
  /-- SQLite finds a metadata table where `_enforce_schema_version` finds no known one. -/
  | misspelt (fresh : Fresh file) (there : file.find? (.known .metadata) ≠ none)
  /-- The metadata table has no key that keeps a second version row out. -/
  | keyless (current : Current file) (t : SqlTable)
      (there : file.find? (.known .metadata) = some t) (keyless : t.definition.keys = [])
  /-- A foreign key forbids one of the drops. -/
  | refused (allowed : allow = true) (foreign : ¬ (Fresh file ∨ Current file))
      (stops : Refused rules file)
  /-- The drops take a table that is not a known one as its name is written. -/
  | lost (allowed : allow = true) (foreign : ¬ (Fresh file ∨ Current file)) (rows : ¬ Bare file)

section Careful

variable {rules : DropRules} {file : File}

/-- Filling a table leaves its spelling. -/
theorem KnownTable.fill_spelling (t : KnownTable) (table : SqlTable) :
    (t.fill table).spelling = table.spelling := by
  unfold KnownTable.fill
  split
  · exact table.versioned_spelling
  · rfl

/-- Filling a table keeps its rows in front. -/
theorem KnownTable.prefix_fill (t : KnownTable) (table : SqlTable) :
    table.rows <+: (t.fill table).rows := by
  unfold KnownTable.fill
  split
  · exact table.prefix_versioned
  · exact List.prefix_rfl

/-- The rows that were there are there still. -/
theorem Filled.keeps {file' : File} (filled : Filled file file') {t : SqlTable}
    (mem : t ∈ file.rows) : t.rows <+: rowsOf file' t.spelling := by
  have there := find?_of_mem mem
  cases named : t.name with
  | other name =>
    rw [named] at there
    rw [rowsOf_eq (by rw [named, filled.1, there]) rfl]
  | known u =>
    rw [named] at there
    rw [rowsOf_eq (by rw [named, filled.2, there, Option.getD_some]) (u.fill_spelling t)]
    exact u.prefix_fill t

/-- Only the metadata table gets a row. -/
theorem Filled.spares {file' : File} (filled : Filled file file') {t : SqlTable}
    (mem : t ∈ file.rows) (other : t.name ≠ .known .metadata) : rowsOf file' t.spelling = t.rows := by
  have there := find?_of_mem mem
  cases named : t.name with
  | other name =>
    rw [named] at there
    rw [rowsOf_eq (by rw [named, filled.1, there]) rfl]
  | known u =>
    rw [named] at there
    refine rowsOf_eq ?_ rfl
    rw [named, filled.2, there, Option.getD_some, KnownTable.fill, if_neg]
    rintro rfl
    exact other named

/-- A file whose metadata was written by this version is of this version. -/
theorem current_of_stamped (there : file.find? (.known .metadata) = some KnownTable.metadata.stamped) :
    Current file :=
  current_iff.mpr ⟨_, there, by decide, by decide, by decide, versionRow, by decide, by decide⟩

/-- The version row fills every column of a metadata table. -/
theorem versionRow_fills {t : SqlTable} (expected : Expected file) (mem : t ∈ file.rows)
    (spelt : t.spelling = KnownTable.metadata.text) :
    ∀ column ∈ t.definition.columnNames, versionRow.get column ≠ .null := by
  have fills : ∀ column ∈ KnownTable.metadata.definition.columnNames,
      versionRow.get column ≠ .null := by decide
  exact fun column inside => fills column ((expected t mem .metadata spelt column).mp inside)

/-- A file that passes, and has no hazard, has a metadata table with both columns or none. -/
theorem columns_of_passed {allow : Bool} (passed : Fresh file ∨ Current file)
    (safe : ¬ Hazard rules allow file) :
    ∀ t ∈ file.find? (.known .metadata),
      "key" ∈ t.definition.columnNames ∧ "value" ∈ t.definition.columnNames := by
  intro t there
  rcases passed with fresh | current
  · exact absurd (Hazard.misspelt fresh (Option.ne_none_iff_exists'.mpr ⟨t, there⟩)) safe
  · obtain ⟨u, found, -, key, value, -⟩ := current_iff.mp current
    cases found.symm.trans there
    exact ⟨key, value⟩

/-- A file with every known table and the current version stays as it is when it is opened. -/
theorem openFile_complete (complete : ∀ t : KnownTable, file.find? (.known t) ≠ none)
    (current : Current file)
    (closed : ∀ t ∈ file.find? (.known .metadata), t.admits versionRow = false) :
    openFile rules false file = (.ok (), file) := by
  obtain ⟨t, there, -, key, value, -⟩ := current_iff.mp current
  refine openFile_passed rules false (.inr current) ?_
  rw [completed, created_of_present fun t _ => complete t]
  exact insertVersion_of_admits there key value (closed t there)

/-- The version that an open leaves. -/
theorem Filled.current {file' : File} (filled : Filled file file')
    (made : Current file ∨ file.find? (.known .metadata) = none) : Current file' := by
  rcases made with current | absent
  · obtain ⟨t, there, spelt, key, value, row, first, same⟩ := current_iff.mp current
    have after := filled.2 .metadata
    rw [there, Option.getD_some, KnownTable.fill, if_pos rfl] at after
    refine current_iff.mpr ⟨_, after, t.versioned_spelling.trans spelt, ?_, ?_, row,
      t.prefix_versioned.find?_eq_some first, same⟩
    · rwa [SqlTable.versioned_definition]
    · rwa [SqlTable.versioned_definition]
  · refine current_of_stamped ?_
    rw [filled.2, absent, Option.getD_none, KnownTable.fill_created]

/-- A file that passes the check keeps everything, unless the version cannot be written. -/
theorem careful_of_passed {allow : Bool} (expected : Current file → Expected file)
    (passed : Fresh file ∨ Current file) (safe : ¬ Hazard rules allow file) :
    Careful rules allow file := by
  have made : Current file ∨ file.find? (.known .metadata) = none :=
    passed.symm.imp_right fun fresh => not_not.mp fun there => safe (.misspelt fresh there)
  obtain ⟨file', inserted, filled⟩ := insertVersion_completed file (columns_of_passed passed safe)
  have opened := openFile_passed rules allow passed inserted
  have current := filled.current made
  -- the metadata table takes no second row of the version
  have closed : ∀ t ∈ file'.find? (.known .metadata), t.admits versionRow = false := by
    intro t there
    rw [filled.2] at there
    cases there
    rw [KnownTable.fill, if_pos rfl]
    rcases made with current | absent
    · obtain ⟨u, found, spelt, -⟩ := current_iff.mp current
      rw [found, Option.getD_some]
      refine SqlTable.versioned_closed (fun keyless => safe (.keyless current u found keyless)) ?_
      exact versionRow_fills (expected current) (Table.find?_eq_some.mp found).1 spelt
    · rw [absent]
      decide
  constructor <;> rw [opened]
  · intro _
    exact iff_of_true rfl passed
  · intro _ t mem
    exact filled.keeps mem
  -- no unknown table is among those that the open fills
  · intro _
    rfl
  · intro _ t mem unknown
    refine filled.spares mem fun named => ?_
    have found := find?_of_mem mem
    rw [named] at found
    rcases made with current | absent
    · obtain ⟨u, there, spelt, -⟩ := current_iff.mp current
      cases there.symm.trans found
      exact unknown ⟨_, spelt⟩
    · cases absent.symm.trans found
  · intro _ _ t mem
    exact filled.keeps mem
  · intro _ foreign
    exact absurd passed foreign
  · intro _
    exact current
  · intro _
    exact openFile_complete (fun t => by simp [filled.2 t]) current closed

/-- A file that is refused is left as it was. -/
theorem careful_of_refused (keyed : Keyed file) (foreign : ¬ (Fresh file ∨ Current file)) :
    Careful rules false file := by
  obtain ⟨e, opened⟩ := openFile_refused rules keyed foreign
  constructor <;> rw [opened]
  · intro _
    exact iff_of_false (fun failed => by cases failed) foreign
  · intro _ t mem
    rw [rowsOf_eq (find?_of_mem mem) rfl]
  all_goals
    intro impossible
    cases impossible

/-- After a rebuild no table is spelt otherwise than the source spells it. -/
theorem rowsOf_misspelt {file' : File} {t : SqlTable} {u : KnownTable} (named : t.name = .known u)
    (unknown : ¬ t.IsKnown) (there : file'.find? (.known u) = some u.stamped) :
    rowsOf file' t.spelling = [] := by
  have found : file'.find? (.ofSpelling t.spelling) = some u.stamped := by
    rw [← there, ← named, SqlTable.name]
  rw [rowsOf, found, Option.filter_some_neg]
  · rfl
  · exact decide_eq_false fun same => unknown ⟨u, same.symm⟩

/-- A rebuild that goes through drops the known tables and nothing else. -/
theorem careful_of_rebuilt (keyed : Keyed file) (separate : Separate file) (bare : Bare file)
    (foreign : ¬ (Fresh file ∨ Current file)) (goes : ¬ Refused rules file) :
    Careful rules true file := by
  obtain ⟨file', opened, others, stamped⟩ :=
    openFile_rebuilt rules keyed separate bare foreign goes
  have current : Current file' := current_of_stamped (stamped .metadata)
  constructor <;> rw [opened]
  · intro impossible
    cases impossible
  · intro impossible
    cases impossible
  · intro _
    rfl
  · intro _ t mem unknown
    have there := find?_of_mem mem
    cases named : t.name with
    | other name =>
      rw [named] at there
      rw [rowsOf_eq (by rw [named, others, there]) rfl]
    | known u =>
      rw [rowsOf_misspelt named unknown (stamped u), bare t mem ⟨⟨u, named⟩, unknown⟩]
  · intro _ passed
    exact absurd passed foreign
  · intro _ _ t
    exact stamped t
  · intro _
    exact current
  · intro _
    refine openFile_complete (fun t => by simp [stamped t]) current fun t there => ?_
    rw [stamped] at there
    cases there
    decide

/-- A metadata table that is spelt otherwise never counts as one. -/
theorem not_careful_of_misspelt {allow : Bool} (fresh : Fresh file)
    (there : file.find? (.known .metadata) ≠ none) : ¬ Careful rules allow file := by
  intro careful
  have through : (openFile rules allow file).1 = .ok () := by
    cases allow with
    | false => exact (careful.accepts rfl).mpr (.inl fresh)
    | true => exact careful.rebuilds rfl
  obtain ⟨t, found⟩ := Option.ne_none_iff_exists'.mp there
  have stamps := careful.stamps through
  cases inserted : insertVersion (completed file) with
  | error e =>
    rw [openFile_unversioned rules allow (.inl fresh) inserted] at through
    cases through
  | ok file' =>
    rw [openFile_passed rules allow (.inl fresh) inserted] at stamps
    obtain ⟨t', found', spelt, -⟩ := current_iff.mp stamps
    have same : t'.spelling = t.spelling := by
      have before := find?_completed file .metadata
      rw [found, Option.getD_some] at before
      obtain ⟨key, value⟩ := columns_of_insertVersion before inserted
      obtain ⟨file'', inserted', after⟩ := insertVersion_ok before key value
      cases inserted.symm.trans inserted'
      rw [after, if_pos rfl] at found'
      cases found'
      exact t.versioned_spelling
    exact fresh t (Table.find?_eq_some.mp found).1 ⟨_, same ▸ spelt⟩

/-- Every open puts one more row into a metadata table without a key. -/
theorem not_careful_of_keyless {allow : Bool} (expected : Expected file) (current : Current file)
    {t : SqlTable} (there : file.find? (.known .metadata) = some t)
    (keyless : t.definition.keys = []) : ¬ Careful rules allow file := by
  intro careful
  obtain ⟨u, found, spelt, key, value, -⟩ := current_iff.mp current
  cases found.symm.trans there
  have fills := versionRow_fills expected (Table.find?_eq_some.mp there).1 spelt
  have more : ∀ v : SqlTable, v.definition = t.definition → v.versioned = v.add versionRow := by
    intro v same
    rw [SqlTable.versioned, if_pos]
    exact SqlTable.admits_of_keyless (same ▸ keyless) (same ▸ fills)
  obtain ⟨file', inserted, filled⟩ := insertVersion_completed file fun v found => by
    cases there.symm.trans found
    exact ⟨key, value⟩
  have opened := openFile_passed rules allow (.inr current) inserted
  have reopens := careful.reopens
  rw [opened] at reopens
  have after : file'.find? (.known .metadata) = some (t.add versionRow) := by
    rw [filled.2, there, Option.getD_some, KnownTable.fill, if_pos rfl, more t rfl]
  obtain ⟨file'', inserted', filled'⟩ := insertVersion_completed file' fun v found => by
    cases after.symm.trans found
    exact ⟨key, value⟩
  -- the second open is the first one once more, on a file that has a row more
  have again := openFile_passed rules false (.inr (filled.current (.inl current))) inserted'
  have same : file'' = file' := congrArg Prod.snd (again.symm.trans (reopens rfl))
  have twice := filled'.2 .metadata
  rw [same, after, Option.getD_some, KnownTable.fill, if_pos rfl, more (t.add versionRow) rfl] at twice
  have longer := congrArg (fun v => v.rows.length) (Option.some_injective _ twice)
  simp [SqlTable.add] at longer

/-- A rebuild that a foreign key refuses stops half way. -/
theorem not_careful_of_refused (keyed : Keyed file) (foreign : ¬ (Fresh file ∨ Current file))
    (stops : Refused rules file) : ¬ Careful rules true file := by
  intro careful
  obtain ⟨e, file', opened⟩ := openFile_stopped rules keyed foreign stops
  have through := careful.rebuilds rfl
  rw [opened] at through
  cases through

/-- A rebuild that drops a misspelt table loses its rows. -/
theorem not_careful_of_lost (foreign : ¬ (Fresh file ∨ Current file)) (rows : ¬ Bare file) :
    ¬ Careful rules true file := by
  intro careful
  refine rows fun t mem misspelt => ?_
  obtain ⟨⟨u, named⟩, unknown⟩ := misspelt
  rw [← careful.spares rfl t mem unknown]
  exact rowsOf_misspelt named unknown (careful.drops rfl foreign u)

/-- Every open is careful, but for the hazards: a foreign key that forbids one of a rebuild's drops,
a table that SQLite takes for a known one although its name is written otherwise, and a metadata
table whose version row is not kept single by a key. -/
theorem careful_iff (rules : DropRules) (allow : Bool) {file : File} (keyed : Keyed file)
    (expected : Current file → Expected file) (separate : Separate file) :
    Careful rules allow file ↔ ¬ Hazard rules allow file := by
  constructor
  · intro careful hazard
    cases hazard with
    | misspelt fresh there => exact not_careful_of_misspelt fresh there careful
    | keyless current t there keyless =>
      exact not_careful_of_keyless (expected current) current there keyless careful
    | refused allowed foreign stops =>
      subst allowed
      exact not_careful_of_refused keyed foreign stops careful
    | lost allowed foreign rows =>
      subst allowed
      exact not_careful_of_lost foreign rows careful
  · intro safe
    by_cases passed : Fresh file ∨ Current file
    · exact careful_of_passed expected passed safe
    · cases allow with
      | false => exact careful_of_refused keyed passed
      | true =>
        exact careful_of_rebuilt keyed separate
          (not_not.mp fun rows => safe (.lost rfl passed rows)) passed
          fun stops => safe (.refused rfl passed stops)

end Careful

/-! ## A file that cannot be rebuilt -/

/-- A graph of an older schema, and a task that names its graph. -/
def older : File where
  rows :=
    [{ spelling := "metadata"
       definition := KnownTable.metadata.definition
       rows := [[("key", .text "schema_version"), ("value", .text "3")]] },
     { spelling := "graphs"
       definition := { columns := [{ name := "id" }], primaryKey := ["id"] }
       rows := [[("id", .text "g")]] },
     { spelling := "tasks"
       definition :=
         { columns := [{ name := "id" }, { name := "graph_id" }]
           primaryKey := ["id"]
           foreignKeys := [⟨["graph_id"], .known .graphs, ["id"], .noAction⟩] }
       rows := [[("id", .text "t"), ("graph_id", .text "g")]] }]
  keys_nodup := by decide

/-- Each table of the older file is one of the library's. -/
theorem older_known : ∀ t ∈ older.rows, t.IsKnown := by
  simp only [older, List.forall_mem_cons]
  exact ⟨⟨.metadata, rfl⟩, ⟨.graphs, rfl⟩, ⟨.tasks, rfl⟩, by simp⟩

/-- So none of the others refers to one. -/
theorem older_separate : Separate older :=
  fun t mem unknown => absurd (older_known t mem) unknown

/-- Its metadata has the two columns that the check reads. -/
theorem older_keyed : Keyed older := by
  have columns : ∀ t ∈ older.rows, t.spelling = KnownTable.metadata.text →
      "key" ∈ t.definition.columnNames ∧ "value" ∈ t.definition.columnNames := by decide +kernel
  exact columns

/-- Its version is not the current one. -/
theorem older_outdated : ¬ Current older := by
  have other : storedVersion older ≠ some schemaVersion := by decide +kernel
  exact other

/-- The rebuild drops `graphs` before `tasks`, and raises. -/
theorem older_not_rebuilt : Keyed older ∧ (Current older → Expected older) ∧ Separate older ∧
    (openFile .noActions true older).1 = .error (.integrityError "FOREIGN KEY constraint failed") ∧
    ¬ Careful .noActions true older := by
  have raised : (openFile .noActions true older).1 =
      .error (.integrityError "FOREIGN KEY constraint failed") := by decide +kernel
  refine ⟨older_keyed, fun current => absurd current older_outdated, older_separate, raised, ?_⟩
  intro careful
  have through := careful.rebuilds rfl
  rw [raised] at through
  cases through

/-- Without the flag the same file is refused and kept. -/
theorem older_kept : Careful .noActions false older := by
  refine (careful_iff .noActions false older_keyed (fun current => absurd current older_outdated)
    older_separate).mpr fun hazard => ?_
  cases hazard with
  | misspelt fresh _ => exact fresh _ List.mem_cons_self ⟨.metadata, rfl⟩
  | keyless current => exact older_outdated current
  | refused allowed => cases allowed
  | lost allowed => cases allowed

/-- The same version, beside a table that only its capitals tell from a known one. -/
def shouting : File where
  rows :=
    [{ spelling := "metadata"
       definition := KnownTable.metadata.definition
       rows := [[("key", .text "schema_version"), ("value", .text "3")]] },
     { spelling := "TASKS"
       definition := { columns := [{ name := "id" }], primaryKey := ["id"] }
       rows := [[("id", .text "t")]] }]
  keys_nodup := by decide

example : (openFile .noActions true shouting).1 = .ok () ∧
    rowsOf (openFile .noActions true shouting).2 "TASKS" = [] := by decide +kernel

end TTasks.Sqlite.Connection
