import TTasks.Sqlite.Connection

/-!
# One store opens a file

What each statement of an open leaves, and from it what a whole open does: it passes the file, refuses
it, or drops the known tables and makes them anew.
-/

namespace TTasks.Sqlite.Connection

open Interleave Relational

/-! ## What a file holds -/

/-- `_KNOWN_TABLES` has the table's name, as it is written. -/
def SqlTable.IsKnown (t : SqlTable) : Prop := ∃ u : KnownTable, t.spelling = u.text

/-- SQLite takes the name for a known one, and `_enforce_schema_version` does not. -/
def SqlTable.Misspelt (t : SqlTable) : Prop := (∃ u : KnownTable, t.name = .known u) ∧ ¬ t.IsKnown

/-- The rows of the table that is spelt so. -/
def rowsOf (file : File) (spelling : String) : List Row :=
  ((file.find? (.ofSpelling spelling)).filter fun t => t.spelling = spelling).elim [] SqlTable.rows

/-- No known table is present. -/
def Fresh (file : File) : Prop := ∀ t ∈ file.rows, ¬ t.IsKnown

/-- `str(row[0])` of the version row, if there is a metadata table and a row. -/
def storedVersion (file : File) : Option String :=
  if .metadata ∈ knownPresent (tableNames file) then
    match selectVersion file with
    | .ok row => row.map Value.str
    | .error _ => none
  else none

/-- The stored version is the current one. -/
def Current (file : File) : Prop := storedVersion file = some schemaVersion

/-- A metadata table has key and value columns. -/
def Keyed (file : File) : Prop :=
  ∀ t ∈ file.rows, t.spelling = KnownTable.metadata.text →
    "key" ∈ t.definition.columnNames ∧ "value" ∈ t.definition.columnNames

/-- Every known table has the columns that the schema gives it. -/
def Expected (file : File) : Prop :=
  ∀ t ∈ file.rows, ∀ u : KnownTable, t.spelling = u.text →
    ∀ column, column ∈ t.definition.columnNames ↔ column ∈ u.definition.columnNames

/-- No unknown table has a foreign key into a known one. -/
def Separate (file : File) : Prop :=
  ∀ t ∈ file.rows, ¬ t.IsKnown → ∀ key ∈ t.definition.foreignKeys,
    ∀ u ∈ file.find? key.parent, ¬ u.IsKnown

/-- A foreign key forbids one of the drops of a rebuild. -/
def Refused (rules : DropRules) (file : File) : Prop :=
  ∃ e, knownTables.foldlM (fun f t => dropIfExists rules t f) file = .error e

/-- Misspelt tables hold no rows that a rebuild could drop. -/
def Bare (file : File) : Prop := ∀ t ∈ file.rows, t.Misspelt → t.rows = []

/-- The table after `INSERT OR IGNORE`. -/
def SqlTable.versioned (t : SqlTable) : SqlTable :=
  if t.admits versionRow then t.add versionRow else t

/-- What becomes of the table of a known name. -/
def KnownTable.fill (t : KnownTable) (table : SqlTable) : SqlTable :=
  if t = .metadata then table.versioned else table

/-- A known table that a successful open has made. -/
def KnownTable.stamped (t : KnownTable) : SqlTable :=
  ⟨t.text, t.definition, if t = .metadata then [versionRow] else []⟩

/-- The file with the known tables it lacked, and the version row. -/
def Filled (base file : File) : Prop :=
  (∀ name, file.find? (.other name) = base.find? (.other name)) ∧
    ∀ t : KnownTable,
      file.find? (.known t) = some (t.fill ((base.find? (.known t)).getD t.created))

/-- A lookup by a table's own name finds it, as names are unique. -/
theorem find?_of_mem {file : File} {t : SqlTable} (mem : t ∈ file.rows) :
    file.find? t.name = some t :=
  Table.find?_eq_some.mpr ⟨mem, rfl⟩

/-- A table spelt as the library's own is that table of the library. -/
theorem SqlTable.name_of_spelling {t : SqlTable} {u : KnownTable} (spelt : t.spelling = u.text) :
    t.name = .known u := by
  rw [SqlTable.name, spelt, TableName.ofSpelling_text]

/-- A table of any other name is unknown to Python too. -/
theorem SqlTable.not_isKnown_of_other {t : SqlTable} {name : String} (named : t.name = .other name) :
    ¬ t.IsKnown := by
  rintro ⟨u, spelt⟩
  rw [SqlTable.name_of_spelling spelt] at named
  cases named

/-- Filling a created table puts the version in, where it is the metadata. -/
theorem KnownTable.fill_created (t : KnownTable) : t.fill t.created = t.stamped := by
  cases t <;> decide

/-- Only the metadata table is created with a row of its own. -/
theorem KnownTable.stamped_eq_created {t : KnownTable} (other : t ≠ .metadata) :
    t.stamped = t.created := by
  rw [KnownTable.stamped, if_neg other, KnownTable.created]

/-- Python reads the rows of a table by its spelling. -/
theorem rowsOf_eq {file : File} {t t' : SqlTable} (there : file.find? t.name = some t')
    (spelt : t'.spelling = t.spelling) : rowsOf file t.spelling = t'.rows := by
  have found : file.find? (.ofSpelling t.spelling) = some t' := there
  rw [rowsOf, found, Option.filter_some_pos (by simpa using spelt)]
  rfl

/-- The known tables that `_enforce_schema_version` finds. -/
theorem mem_knownPresent {file : File} {t : KnownTable} :
    t ∈ knownPresent (tableNames file) ↔
      ∃ table, file.find? (.known t) = some table ∧ table.spelling = t.text := by
  rw [knownPresent, List.mem_filter, and_iff_right (mem_knownTables t), decide_eq_true_iff,
    tableNames, List.mem_map]
  constructor
  · rintro ⟨table, mem, spelt⟩
    exact ⟨table, SqlTable.name_of_spelling spelt ▸ find?_of_mem mem, spelt⟩
  · rintro ⟨table, there, spelt⟩
    exact ⟨table, (Table.find?_eq_some.mp there).1, spelt⟩

/-- A fresh file is one in which Python finds none of its tables. -/
theorem fresh_iff {file : File} : Fresh file ↔ knownPresent (tableNames file) = [] := by
  rw [List.eq_nil_iff_forall_not_mem]
  constructor
  · intro fresh t mem
    obtain ⟨table, there, spelt⟩ := mem_knownPresent.mp mem
    exact fresh table (Table.find?_eq_some.mp there).1 ⟨t, spelt⟩
  · rintro none table mem ⟨t, spelt⟩
    exact none t (mem_knownPresent.mpr
      ⟨table, SqlTable.name_of_spelling spelt ▸ find?_of_mem mem, spelt⟩)

/-- The answer where the columns are there. -/
theorem selectVersion_eq {file : File} {t : SqlTable}
    (there : file.find? (.known .metadata) = some t) (key : "key" ∈ t.definition.columnNames)
    (value : "value" ∈ t.definition.columnNames) :
    selectVersion file =
      .ok ((t.rows.find? fun row => row.get "key" = .text "schema_version").map fun row =>
        row.get "value") := by
  unfold selectVersion
  rw [there]
  dsimp only
  rw [if_neg (not_not.mpr value), if_neg (not_not.mpr key)]

/-- A version is read from a row of a metadata table that has the two columns. -/
theorem current_iff {file : File} :
    Current file ↔ ∃ t, file.find? (.known .metadata) = some t ∧
      t.spelling = KnownTable.metadata.text ∧ "key" ∈ t.definition.columnNames ∧
      "value" ∈ t.definition.columnNames ∧
      ∃ row, t.rows.find? (fun row => row.get "key" = .text "schema_version") = some row ∧
        (row.get "value").str = schemaVersion := by
  unfold Current storedVersion
  constructor
  · intro current
    split at current
    · rename_i present
      obtain ⟨t, there, spelt⟩ := mem_knownPresent.mp present
      refine ⟨t, there, spelt, ?_⟩
      unfold selectVersion at current
      rw [there] at current
      dsimp only at current
      split at current
      · rename_i row found
        split at found
        · cases found
        · rename_i value
          split at found
          · cases found
          · rename_i key
            cases found
            rw [Option.map_map] at current
            obtain ⟨row, first, same⟩ := Option.map_eq_some_iff.mp current
            exact ⟨not_not.mp key, not_not.mp value, row, first, same⟩
      · cases current
    · cases current
  · rintro ⟨t, there, spelt, key, value, row, first, same⟩
    rw [if_pos (mem_knownPresent.mpr ⟨t, there, spelt⟩), selectVersion_eq there key value, first]
    exact congrArg some same

/-! ## The statements -/

/-- `CREATE TABLE IF NOT EXISTS` is seen at its own name only. -/
theorem find?_createIfAbsent (t : KnownTable) (file : File) (name : TableName) :
    (createIfAbsent t file).find? name =
      if name = .known t then some ((file.find? name).getD t.created) else file.find? name := by
  unfold createIfAbsent
  cases inserted : file.insert t.created with
  | some file' =>
    have free : file.find? (.known t) = none := by
      unfold Table.insert at inserted
      split at inserted
      · cases inserted
      · rename_i free
        rw [KnownTable.created_name] at free
        exact Table.find?_eq_none.mpr free
    rw [Option.getD_some, Table.find?_insert inserted, KnownTable.created_name]
    by_cases here : name = .known t
    · rw [if_pos here, if_pos here, here, free, Option.getD_none]
    · rw [if_neg here, if_neg here]
  | none =>
    have taken : (file.find? (.known t)).isSome = true := by
      unfold Table.insert at inserted
      split at inserted
      · rename_i taken
        rw [KnownTable.created_name] at taken
        exact Table.mem_keys_iff.mp taken
      · cases inserted
    rw [Option.getD_none]
    by_cases here : name = .known t
    · obtain ⟨old, there⟩ := Option.isSome_iff_exists.mp taken
      rw [if_pos here, here, there, Option.getD_some]
    · rw [if_neg here]

/-- `CREATE TABLE IF NOT EXISTS` leaves a table that is there. -/
theorem createIfAbsent_of_present {t : KnownTable} {file : File}
    (there : file.find? (.known t) ≠ none) : createIfAbsent t file = file := by
  have taken : t.created.name ∈ file.rows.map SqlTable.name := by
    rw [KnownTable.created_name]
    rwa [Ne, Table.find?_eq_none, not_not] at there
  unfold createIfAbsent Table.insert
  rw [dif_pos taken, Option.getD_none]

/-- The tables that the `CREATE` statements leave. -/
theorem find?_created (ts : List KnownTable) (file : File) (name : TableName) :
    (ts.foldl (fun f t => createIfAbsent t f) file).find? name =
      match name with
      | .known t =>
        if t ∈ ts then some ((file.find? name).getD t.created) else file.find? name
      | .other _ => file.find? name := by
  induction ts generalizing file with
  | nil => cases name <;> simp
  | cons u ts ih =>
    rw [List.foldl_cons, ih]
    cases name with
    | other n => exact (find?_createIfAbsent u file (.other n)).trans (if_neg (by simp))
    | known t =>
      dsimp only
      rw [find?_createIfAbsent]
      by_cases here : t = u
      · subst here
        rw [if_pos rfl, if_pos (List.mem_cons_self)]
        split <;> simp
      · have other : TableName.known t ≠ .known u := by simpa using here
        rw [if_neg other]
        simp only [List.mem_cons, here, false_or]

/-- The schema script leaves a file that has all the tables. -/
theorem created_of_present {ts : List KnownTable} {file : File}
    (there : ∀ t ∈ ts, file.find? (.known t) ≠ none) :
    ts.foldl (fun f t => createIfAbsent t f) file = file := by
  induction ts with
  | nil => rfl
  | cons t ts ih =>
    rw [List.foldl_cons, createIfAbsent_of_present (there t List.mem_cons_self)]
    exact ih fun u mem => there u (List.mem_cons_of_mem _ mem)

/-- The file with the known tables it lacked. -/
def completed (file : File) : File := createdTables.foldl (fun f t => createIfAbsent t f) file

/-- After the schema script each of the library's tables is there: the one that was, or a new one.
-/
theorem find?_completed (file : File) (t : KnownTable) :
    (completed file).find? (.known t) = some ((file.find? (.known t)).getD t.created) := by
  have found := find?_created createdTables file (.known t)
  dsimp only at found
  rwa [if_pos (by cases t <;> decide)] at found

/-! ## The version row -/

/-- Writing the version leaves the spelling. -/
theorem SqlTable.versioned_spelling (t : SqlTable) : t.versioned.spelling = t.spelling := by
  unfold SqlTable.versioned
  split <;> rfl

/-- Writing the version leaves the definition. -/
theorem SqlTable.versioned_definition (t : SqlTable) : t.versioned.definition = t.definition := by
  unfold SqlTable.versioned
  split <;> rfl

/-- Writing the version keeps the rows that were there. -/
theorem SqlTable.prefix_versioned (t : SqlTable) : t.rows <+: t.versioned.rows := by
  unfold SqlTable.versioned
  split
  · exact List.prefix_append _ _
  · exact List.prefix_rfl

/-- The version is written where the metadata has the columns for it and the row is not refused. -/
theorem insertVersion_of_admits {file : File} {t : SqlTable}
    (there : file.find? (.known .metadata) = some t) (key : "key" ∈ t.definition.columnNames)
    (value : "value" ∈ t.definition.columnNames) (closed : t.admits versionRow = false) :
    insertVersion file = .ok file := by
  unfold insertVersion
  rw [there]
  dsimp only
  rw [if_neg (not_not.mpr key), if_neg (not_not.mpr value), closed, if_neg Bool.false_ne_true]

/-- Where the version could be written, the metadata has the columns for it. -/
theorem columns_of_insertVersion {file file' : File} {t : SqlTable}
    (there : file.find? (.known .metadata) = some t) (inserted : insertVersion file = .ok file') :
    "key" ∈ t.definition.columnNames ∧ "value" ∈ t.definition.columnNames := by
  unfold insertVersion at inserted
  rw [there] at inserted
  dsimp only at inserted
  split at inserted
  · cases inserted
  · rename_i key
    split at inserted
    · cases inserted
    · rename_i value
      exact ⟨not_not.mp key, not_not.mp value⟩

/-- What `INSERT OR IGNORE` leaves where the columns are there. -/
theorem insertVersion_ok {file : File} {t : SqlTable}
    (there : file.find? (.known .metadata) = some t) (key : "key" ∈ t.definition.columnNames)
    (value : "value" ∈ t.definition.columnNames) :
    ∃ file', insertVersion file = .ok file' ∧
      ∀ name, file'.find? name =
        if name = .known .metadata then some t.versioned else file.find? name := by
  have named : t.name = .known .metadata := (Table.find?_eq_some.mp there).2
  cases open' : t.admits versionRow with
  | false =>
    refine ⟨file, insertVersion_of_admits there key value open', fun name => ?_⟩
    by_cases here : name = .known .metadata
    · rw [if_pos here, here, there, SqlTable.versioned, open', if_neg Bool.false_ne_true]
    · rw [if_neg here]
  | true =>
    unfold insertVersion
    rw [there]
    dsimp only
    rw [if_neg (not_not.mpr key), if_neg (not_not.mpr value), open', if_pos rfl]
    refine ⟨_, rfl, fun name => ?_⟩
    rw [Table.find?_upsert, named]
    by_cases here : name = .known .metadata
    · rw [if_pos here, if_pos here, here, there, SqlTable.versioned, open', if_pos rfl]
      rfl
    · rw [if_neg here, if_neg here]

/-- Where a metadata table has no key, the row comes once more with every open. -/
theorem SqlTable.admits_of_keyless {t : SqlTable} (keyless : t.definition.keys = [])
    (columns : ∀ column ∈ t.definition.columnNames, versionRow.get column ≠ .null) :
    t.admits versionRow = true := by
  rw [SqlTable.admits, keyless, Bool.and_eq_true, List.all_eq_true, List.all_eq_true]
  refine ⟨fun column mem => ?_, fun _ _ => rfl⟩
  have filled := columns column.name (List.mem_map_of_mem mem)
  simpa using .inr filled

/-- Where it has one, the row is there once. -/
theorem SqlTable.versioned_closed {t : SqlTable} (keyed : t.definition.keys ≠ [])
    (columns : ∀ column ∈ t.definition.columnNames, versionRow.get column ≠ .null) :
    t.versioned.admits versionRow = false := by
  unfold SqlTable.versioned
  cases open' : t.admits versionRow with
  | false => rw [if_neg Bool.false_ne_true, open']
  | true =>
    obtain ⟨key, mem⟩ := List.exists_mem_of_ne_nil _ keyed
    have inside : ∀ column ∈ key, column ∈ t.definition.columnNames :=
      t.definition.keys_in key (List.mem_filter.mp mem).1
    rw [if_pos rfl, SqlTable.admits, Bool.and_eq_false_iff]
    right
    rw [List.all_eq_false]
    refine ⟨versionRow, List.mem_append_right _ List.mem_cons_self, ?_⟩
    rw [Bool.not_eq_true, List.all_eq_false]
    refine ⟨key, mem, ?_⟩
    rw [Bool.not_eq_true, List.any_eq_false]
    intro column within
    simpa using columns column (inside column within)

/-! ## The drops -/

section Drops

variable {rules : DropRules}

/-- Foreign keys do not lead from an unknown table to a known one. -/
theorem Separate.not_leads {file : File} (separate : Separate file) {t u : SqlTable}
    (mem : t ∈ file.rows) (unknown : ¬ t.IsKnown) (parent : u ∈ file.rows) (known : u.IsKnown) :
    ¬ Relation.TransGen (Refers file) t.name u.name := by
  have away : ∀ a b, Refers file a b → (∀ v ∈ file.find? a, ¬ v.IsKnown) →
      ∀ v ∈ file.find? b, ¬ v.IsKnown := by
    rintro a b ⟨child, there, key, inside, rfl⟩ unknown v found
    exact separate child (Table.find?_eq_some.mp there).1 (unknown child there) key inside v found
  have start : ∀ v ∈ file.find? t.name, ¬ v.IsKnown := by
    intro v found
    cases (find?_of_mem mem).symm.trans found
    exact unknown
  have stays : ∀ b, Relation.TransGen (Refers file) t.name b → ∀ v ∈ file.find? b, ¬ v.IsKnown := by
    intro b path
    induction path with
    | single first => exact away _ _ first start
    | tail _ last ih => exact away _ _ last ih
  intro leads
  exact stays _ leads u (find?_of_mem parent) known

/-- An unknown table takes no part in a drop, unless it is the one that is dropped. -/
theorem unknown_spared {t : KnownTable} {file : File} (separate : Separate file) (bare : Bare file)
    {table : SqlTable} (mem : table ∈ file.rows) (unknown : ¬ table.IsKnown) :
    rules.leaves file (.known t) table = table := by
  cases dropped : file.find? (.known t) with
  | none => exact rules.idle file _ table fun u there => by rw [dropped] at there; cases there
  | some u =>
    obtain ⟨inside, named⟩ := Table.find?_eq_some.mp dropped
    by_cases known : u.IsKnown
    · refine rules.spares file _ table mem ?_
      rw [← named]
      exact separate.not_leads mem unknown inside known
    · refine rules.idle file _ table fun v there => ?_
      cases dropped.symm.trans there
      exact bare u inside ⟨⟨t, named⟩, known⟩

/-- The file after a drop that nothing refuses: every table but the dropped one, with its spelling. -/
theorem dropIfExists_ok {t : KnownTable} {file file' : File}
    (dropped : dropIfExists rules t file = .ok file') (name : TableName) :
    file'.find? name =
      if name = .known t then none else (file.find? name).map (rules.leaves file (.known t)) := by
  unfold dropIfExists at dropped
  split at dropped
  · rename_i absent
    cases dropped
    have none' := Option.isNone_iff_eq_none.mp absent
    by_cases here : name = .known t
    · rw [if_pos here, here, none']
    · have same : (file.find? name).map (rules.leaves file (.known t)) = file.find? name := by
        cases file.find? name with
        | none => rfl
        | some table =>
          rw [Option.map_some, rules.idle file _ table fun u there => by rw [none'] at there; cases there]
      rw [if_neg here, same]
  · split at dropped
    · cases dropped
    · cases dropped
      rw [Table.find?_map, Table.find?_deleteWhere]
      by_cases here : name = .known t
      · rw [if_pos here, Option.map_eq_none_iff, Option.filter_eq_none_iff]
        intro table there
        simp [(Table.find?_eq_some.mp there).2, here]
      · rw [if_neg here]
        cases there : file.find? name with
        | none => rfl
        | some table =>
          have named := (Table.find?_eq_some.mp there).2
          rw [Option.filter_some_pos (by simp [named, here])]

/-- A table that is left was there before, under the same spelling. -/
theorem of_dropIfExists {t : KnownTable} {file file' : File}
    (dropped : dropIfExists rules t file = .ok file') {table : SqlTable} (mem : table ∈ file'.rows) :
    ∃ old ∈ file.rows, rules.leaves file (.known t) old = table ∧ old.spelling = table.spelling := by
  have there := find?_of_mem mem
  rw [dropIfExists_ok dropped] at there
  split at there
  · cases there
  · obtain ⟨old, found, rfl⟩ := Option.map_eq_some_iff.mp there
    exact ⟨old, (Table.find?_eq_some.mp found).1, rfl, (rules.leaves_spelling file _ old).symm⟩

/-- Spelling decides what Python recognises. -/
theorem SqlTable.isKnown_congr {t u : SqlTable} (same : t.spelling = u.spelling) :
    t.IsKnown ↔ u.IsKnown := by
  rw [SqlTable.IsKnown, SqlTable.IsKnown, same]

/-- An unknown table that is left is as it was. -/
theorem unknown_of_dropIfExists {t : KnownTable} {file file' : File} (separate : Separate file)
    (bare : Bare file) (dropped : dropIfExists rules t file = .ok file') {table : SqlTable}
    (mem : table ∈ file'.rows) (unknown : ¬ table.IsKnown) : table ∈ file.rows := by
  obtain ⟨old, was, left, spelt⟩ := of_dropIfExists dropped mem
  rw [unknown_spared separate bare was (fun known =>
    unknown ((SqlTable.isKnown_congr spelt).mp known))] at left
  exact left ▸ was

/-- Dropping a table gives no unknown table a foreign key into a known one. -/
theorem Separate.dropped {t : KnownTable} {file file' : File} (separate : Separate file)
    (bare : Bare file) (dropped : dropIfExists rules t file = .ok file') : Separate file' := by
  intro table mem unknown key inside u there known
  have was := unknown_of_dropIfExists separate bare dropped mem unknown
  rw [dropIfExists_ok dropped] at there
  split at there
  · cases there
  · obtain ⟨parent, found, rfl⟩ := Option.map_eq_some_iff.mp there
    refine separate table was unknown key inside parent found ?_
    exact (SqlTable.isKnown_congr (rules.leaves_spelling file _ parent)).mp known

/-- Dropping a table puts no rows into a misspelt one. -/
theorem Bare.dropped {t : KnownTable} {file file' : File} (separate : Separate file)
    (bare : Bare file) (dropped : dropIfExists rules t file = .ok file') : Bare file' :=
  fun table mem misspelt =>
    bare table (unknown_of_dropIfExists separate bare dropped mem misspelt.2) misspelt

/-- Drops that go through leave no known table and no other table changed. -/
theorem dropped_spec {ts : List KnownTable} {file file' : File} (separate : Separate file)
    (bare : Bare file)
    (dropped : ts.foldlM (fun f t => dropIfExists rules t f) file = .ok file') :
    (∀ name, file'.find? (.other name) = file.find? (.other name)) ∧
      (∀ t ∈ ts, file'.find? (.known t) = none) ∧
      ∀ u : KnownTable, file.find? (.known u) = none → file'.find? (.known u) = none := by
  induction ts generalizing file with
  | nil =>
    cases dropped
    exact ⟨fun _ => rfl, by simp, fun _ h => h⟩
  | cons t ts ih =>
    rw [List.foldlM_cons] at dropped
    obtain ⟨mid, first, rest⟩ := bind_ok dropped
    obtain ⟨others, gone, absent⟩ := ih (separate.dropped bare first) (bare.dropped separate first) rest
    have step := dropIfExists_ok first
    refine ⟨fun name => (others name).trans ?_, fun u mem => ?_, fun u none => absent u ?_⟩
    · rw [step, if_neg (fun same => by cases same)]
      cases there : file.find? (.other name) with
      | none => rfl
      | some table =>
        obtain ⟨mem, named⟩ := Table.find?_eq_some.mp there
        rw [Option.map_some,
          unknown_spared separate bare mem (SqlTable.not_isKnown_of_other named)]
    · rcases List.mem_cons.mp mem with rfl | later
      · exact absent u (by rw [step, if_pos rfl])
      · exact gone u later
    · rw [step, none]
      exact ite_self _

end Drops

/-! ## The run of one open -/

section Alone

variable (rules : DropRules)

/-- The schema script of a connection alone, with no transaction open, is the fold over its
statements. -/
theorem run_createAll (ts : List KnownTable) {s : Shared Unit} (idle : s.pending = none) :
    (createAll ts).run (sem rules ()) s =
      (.ok (), { s with file := ts.foldl (fun f t => createIfAbsent t f) s.file }) := by
  induction ts generalizing s with
  | nil => rfl
  | cons t ts ih =>
    have step : (sem rules () (.create t) s).2 = { s with file := createIfAbsent t s.file } := by
      simp only [sem, Shared.write, Shared.seen, idle, Option.isSome_none, Bool.false_eq_true,
        if_false]
    rw [createAll, Prog.run_act, step]
    exact ih idle

/-- The drops of a rebuild: all of them, or up to the one that is refused. -/
theorem run_dropAll (ts : List KnownTable) {s : Shared Unit} (idle : s.pending = none) :
    (∃ file', ts.foldlM (fun f t => dropIfExists rules t f) s.file = .ok file' ∧
      (dropAll ts).run (sem rules ()) s = (.ok (), { s with file := file' })) ∨
    ∃ e file', ts.foldlM (fun f t => dropIfExists rules t f) s.file = .error e ∧
      (dropAll ts).run (sem rules ()) s = (.error e, { s with file := file' }) := by
  induction ts generalizing s with
  | nil => exact .inl ⟨s.file, rfl, rfl⟩
  | cons t ts ih =>
    have seen : s.seen () = s.file := by rw [Shared.seen, idle]
    rw [List.foldlM_cons]
    cases dropped : dropIfExists rules t s.file with
    | error e =>
      right
      have step : sem rules () (.drop t) s = (.error e, s) := by simp only [sem, seen, dropped]
      refine ⟨e, s.file, rfl, ?_⟩
      rw [dropAll, Prog.run_act, step]
      rfl
    | ok file =>
      have step : sem rules () (.drop t) s = (.ok (), { s with file }) := by
        simp only [sem, seen, dropped, Shared.write, idle, Option.isSome_none, Bool.false_eq_true,
          if_false]
      rw [dropAll, Prog.run_act, step]
      exact ih (s := { s with file }) idle

/-- A file that passes the check is left as it is. -/
theorem run_enforce_passed {allow : Bool} {s : Shared Unit} (idle : s.pending = none)
    (passed : Fresh s.file ∨ Current s.file) :
    (enforceSchemaVersion allow).run (sem rules ()) s = (.ok (), s) := by
  have seen : s.seen () = s.file := by rw [Shared.seen, idle]
  rw [enforceSchemaVersion, Prog.run_act]
  simp only [sem, seen]
  by_cases fresh : Fresh s.file
  · rw [if_pos (fresh_iff.mp fresh)]
    rfl
  · have current := passed.resolve_left fresh
    obtain ⟨t, there, spelt, -⟩ := current_iff.mp current
    have present : KnownTable.metadata ∈ knownPresent (tableNames s.file) :=
      mem_knownPresent.mpr ⟨t, there, spelt⟩
    rw [if_neg (fun empty => fresh (fresh_iff.mpr empty)), if_pos present, Prog.run_act]
    simp only [sem, seen]
    unfold Current storedVersion at current
    rw [if_pos present] at current
    cases answer : selectVersion s.file with
    | error e => rw [answer] at current; cases current
    | ok row =>
      rw [answer] at current
      dsimp only at current
      rw [ofAnswer, Prog.bind, current, compareVersion, if_pos rfl]
      rfl

/-- A file that does not pass is refused without the flag; with it, the known tables go. -/
theorem run_enforce_foreign (allow : Bool) {s : Shared Unit} (idle : s.pending = none)
    (keyed : Keyed s.file) (foreign : ¬ (Fresh s.file ∨ Current s.file)) :
    ∃ version, (enforceSchemaVersion allow).run (sem rules ()) s =
      if allow then
        (dropAll knownTables).run (sem rules ())
          { s with warnings := s.warnings ++ [mismatch version] }
      else (.error (.runtimeError (mismatch version)), s) := by
  have seen : s.seen () = s.file := by rw [Shared.seen, idle]
  obtain ⟨stale, outdated⟩ := not_or.mp foreign
  have compared : ∀ version, version ≠ some schemaVersion →
      (compareVersion allow version).run (sem rules ()) s =
        if allow then
          (dropAll knownTables).run (sem rules ())
            { s with warnings := s.warnings ++ [mismatch version] }
        else (.error (.runtimeError (mismatch version)), s) := by
    intro version differs
    rw [compareVersion, if_neg differs]
    cases allow <;> rfl
  rw [enforceSchemaVersion, Prog.run_act]
  simp only [sem, seen]
  rw [if_neg fun empty => stale (fresh_iff.mpr empty)]
  by_cases there : KnownTable.metadata ∈ knownPresent (tableNames s.file)
  · obtain ⟨t, found, spelt⟩ := mem_knownPresent.mp there
    obtain ⟨key, value⟩ := keyed t (Table.find?_eq_some.mp found).1 spelt
    have answer := selectVersion_eq found key value
    rw [if_pos there, Prog.run_act]
    simp only [sem, seen, answer]
    refine ⟨_, compared _ ?_⟩
    unfold Current storedVersion at outdated
    rwa [if_pos there, answer] at outdated
  · rw [if_neg there]
    exact ⟨none, compared none (by decide)⟩

/-- The rest of the block, when the check went through and the version row goes in. -/
theorem run_completed {s : Shared Unit} (idle : s.pending = none) {file' : File}
    (inserted : insertVersion (completed s.file) = .ok file') :
    ((createAll createdTables).bind fun _ =>
      .act Statement.insertVersion ofAnswer).run (sem rules ()) s =
      (.ok (), { s with file := completed s.file, pending := some ((), file') }) := by
  rw [Prog.run_bind, run_createAll rules createdTables idle]
  dsimp only
  rw [Prog.run_act]
  simp only [sem, Shared.seen, idle]
  rw [show insertVersion (createdTables.foldl _ s.file) = .ok file' from inserted]
  rfl

/-- The rest of the block, when `metadata` lacks a column. -/
theorem run_unversioned {s : Shared Unit} (idle : s.pending = none) {e : OpenError}
    (failed : insertVersion (completed s.file) = .error e) :
    ((createAll createdTables).bind fun _ =>
      .act Statement.insertVersion ofAnswer).run (sem rules ()) s =
      (.error e, { s with file := completed s.file }) := by
  rw [Prog.run_bind, run_createAll rules createdTables idle]
  dsimp only
  rw [Prog.run_act]
  simp only [sem, Shared.seen, idle]
  rw [show insertVersion (createdTables.foldl _ s.file) = .error e from failed]
  rfl

/-- The block commits what its body did. -/
theorem openFile_committed {allow : Bool} {file file' : File} {s : Shared Unit}
    (body : (initBody allow).run (sem rules ()) { file } = (.ok (), s))
    (pending : s.pending = some ((), file')) : openFile rules allow file = (.ok (), file') := by
  unfold openFile initSchema
  rw [Prog.run_bind, Prog.run_tryCatch, body]
  simp [Prog.run, sem, pending]

/-- The block raises what its body raised. -/
theorem openFile_raised {allow : Bool} {file : File} {e : OpenError} {s : Shared Unit}
    (body : (initBody allow).run (sem rules ()) { file } = (.error e, s)) :
    openFile rules allow file = (.error e, s.file) := by
  unfold openFile initSchema
  rw [Prog.run_bind, Prog.run_tryCatch, body]
  cases h : s.pending with
  | none => simp [Prog.run, sem, h]
  | some p => simp [Prog.run, sem, h]

/-- A file that passes the check and takes the version opens. -/
theorem openFile_passed (allow : Bool) {file file' : File} (passed : Fresh file ∨ Current file)
    (inserted : insertVersion (completed file) = .ok file') :
    openFile rules allow file = (.ok (), file') := by
  refine openFile_committed rules ?_
    (rfl : ({ file := completed file, pending := some ((), file') } : Shared Unit).pending = _)
  rw [initBody, Prog.run_bind, run_enforce_passed rules rfl passed]
  exact run_completed rules (s := { file }) rfl inserted

/-- A file that passes the check and does not take the version raises from the write. -/
theorem openFile_unversioned (allow : Bool) {file : File} (passed : Fresh file ∨ Current file)
    {e : OpenError} (failed : insertVersion (completed file) = .error e) :
    openFile rules allow file = (.error e, completed file) := by
  have body : (initBody allow).run (sem rules ()) { file } =
      (.error e, { file := completed file }) := by
    rw [initBody, Prog.run_bind, run_enforce_passed rules rfl passed]
    exact run_unversioned rules (s := { file }) rfl failed
  rw [openFile_raised rules body]

/-- The version row goes in where `metadata` has its columns. -/
theorem insertVersion_completed (file : File)
    (columns : ∀ t ∈ file.find? (.known .metadata),
      "key" ∈ t.definition.columnNames ∧ "value" ∈ t.definition.columnNames) :
    ∃ file', insertVersion (completed file) = .ok file' ∧ Filled file file' := by
  have there := find?_completed file .metadata
  obtain ⟨table, made⟩ :
      ∃ table, (file.find? (.known .metadata)).getD KnownTable.metadata.created = table := ⟨_, rfl⟩
  have has : "key" ∈ table.definition.columnNames ∧ "value" ∈ table.definition.columnNames := by
    subst made
    cases old : file.find? (.known .metadata) with
    | none => decide
    | some t => exact columns t old
  rw [made] at there
  obtain ⟨file', inserted, found⟩ := insertVersion_ok there has.1 has.2
  refine ⟨file', inserted, fun name => ?_, fun t => ?_⟩
  · rw [found, if_neg (fun same => by cases same)]
    exact find?_created createdTables file (.other name)
  · rw [found, KnownTable.fill]
    by_cases here : t = .metadata
    · rw [here, if_pos rfl, if_pos rfl, made]
    · rw [if_neg (by simpa using here), if_neg here]
      exact find?_completed file t

/-- A file that does not pass the check is refused and left as it was. -/
theorem openFile_refused {file : File} (keyed : Keyed file)
    (foreign : ¬ (Fresh file ∨ Current file)) :
    ∃ e, openFile rules false file = (.error e, file) := by
  obtain ⟨version, enforced⟩ :=
    run_enforce_foreign rules false (s := { file }) rfl keyed foreign
  refine ⟨.runtimeError (mismatch version), openFile_raised rules (s := { file }) ?_⟩
  rw [initBody, Prog.run_bind, enforced]
  rfl

/-- A rebuild that no foreign key forbids. -/
theorem openFile_rebuilt {file : File} (keyed : Keyed file) (separate : Separate file)
    (bare : Bare file) (foreign : ¬ (Fresh file ∨ Current file)) (goes : ¬ Refused rules file) :
    ∃ file', openFile rules true file = (.ok (), file') ∧
      (∀ name, file'.find? (.other name) = file.find? (.other name)) ∧
      ∀ t : KnownTable, file'.find? (.known t) = some t.stamped := by
  obtain ⟨version, enforced⟩ :=
    run_enforce_foreign rules true (s := { file }) rfl keyed foreign
  rw [if_pos rfl] at enforced
  rcases run_dropAll rules knownTables (s := { file, warnings := [] ++ [mismatch version] }) rfl with
    ⟨mid, dropped, run⟩ | ⟨e, mid, dropped, run⟩
  · obtain ⟨others, gone, -⟩ := dropped_spec separate bare dropped
    have absent : ∀ t : KnownTable, mid.find? (.known t) = none :=
      fun t => gone t (mem_knownTables t)
    obtain ⟨file', inserted, filled⟩ := insertVersion_completed mid fun t there => by
      rw [absent] at there
      cases there
    refine ⟨file', openFile_committed rules ?_
      (rfl : ({ file := completed mid, pending := some ((), file'),
                warnings := [] ++ [mismatch version] } : Shared Unit).pending = _),
      fun name => (filled.1 name).trans (others name), fun t => ?_⟩
    · rw [initBody, Prog.run_bind, enforced, run]
      exact run_completed rules (s := { file := mid, warnings := [] ++ [mismatch version] }) rfl
        inserted
    · rw [filled.2 t, absent t, Option.getD_none, KnownTable.fill_created]
  · exact absurd ⟨e, dropped⟩ goes

/-- A rebuild that a foreign key forbids. -/
theorem openFile_stopped {file : File} (keyed : Keyed file)
    (foreign : ¬ (Fresh file ∨ Current file)) (stops : Refused rules file) :
    ∃ e file', openFile rules true file = (.error e, file') := by
  obtain ⟨version, enforced⟩ :=
    run_enforce_foreign rules true (s := { file }) rfl keyed foreign
  rw [if_pos rfl] at enforced
  rcases run_dropAll rules knownTables (s := { file, warnings := [] ++ [mismatch version] }) rfl with
    ⟨mid, dropped, -⟩ | ⟨e, mid, -, run⟩
  · obtain ⟨e, failed⟩ := stops
    cases failed.symm.trans dropped
  · refine ⟨e, mid, openFile_raised rules
      (s := { file := mid, warnings := [] ++ [mismatch version] }) ?_⟩
    rw [initBody, Prog.run_bind, enforced, run]

end Alone

end TTasks.Sqlite.Connection
