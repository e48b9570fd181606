import TTasks.Interleave.Threads
import TTasks.Relational.Table
import TTasks.Task

/-!
# Opening a database file

`_Connection._init_schema` with `_enforce_schema_version`, statement by statement, on a file with any
tables: those of `_KNOWN_TABLES`, whatever their columns are, and others. `_enforce_schema_version`
compares the names it reads with `_KNOWN_TABLES` as they are written; to SQLite the case of their
letters makes no difference, so that `DROP TABLE IF EXISTS tasks` drops a table `TASKS`.

Outside a transaction each statement commits on its own. `INSERT` opens one, which the end of the
connection block commits; until then only this connection sees what it wrote, and the others wait
before they write. `PRAGMA journal_mode` and `PRAGMA synchronous` leave the tables alone and are left
out.

What the foreign keys make of a `DROP TABLE` is SQLite's own: `DropRules` says what is relied on.
-/

namespace TTasks.Sqlite.Connection

open Interleave Relational

/-! ## Files -/

/-- `_KNOWN_TABLES`, the names. -/
inductive KnownTable
  | graphDependencies
  | graphTasks
  | graphs
  | taskResults
  | tasks
  | metadata
  deriving DecidableEq

/-- `_KNOWN_TABLES`, in the order of the drops. -/
def knownTables : List KnownTable :=
  [.graphDependencies, .graphTasks, .graphs, .taskResults, .tasks, .metadata]

theorem mem_knownTables (t : KnownTable) : t ∈ knownTables := by cases t <;> decide

/-- The name as the source writes it. -/
def KnownTable.text : KnownTable → String
  | .graphDependencies => "graph_dependencies"
  | .graphTasks => "graph_tasks"
  | .graphs => "graphs"
  | .taskResults => "task_results"
  | .tasks => "tasks"
  | .metadata => "metadata"

/-- The table that a statement means by a name, whatever the case of its letters. -/
inductive TableName
  | known (t : KnownTable)
  | other (folded : String)
  deriving DecidableEq

/-- SQLite folds the letters of ASCII. -/
def TableName.ofSpelling (spelling : String) : TableName :=
  let folded := spelling.toList.map Char.toLower
  match knownTables.find? fun t => t.text.toList = folded with
  | some t => .known t
  | none => .other (String.ofList folded)

@[simp]
theorem TableName.ofSpelling_text (t : KnownTable) : ofSpelling t.text = .known t := by
  cases t <;> rfl

/-- A value as `sqlite3` hands it over; of a float or a blob only what `str` prints. -/
inductive Value
  | null
  | text (s : String)
  | integer (n : Int)
  | printed (s : String)
  deriving DecidableEq

/-- `str`. -/
def Value.str : Value → String
  | .null => "None"
  | .text s => s
  | .integer n => toString n
  | .printed s => s

inductive OnDelete
  | noAction
  | restrict
  | setNull
  | setDefault
  | cascade
  deriving DecidableEq

structure ForeignKey where
  columns : List String
  parent : TableName
  parentColumns : List String
  onDelete : OnDelete
  deriving DecidableEq

/-- The name of a column is in lower case, as SQLite compares it. -/
structure Column where
  name : String
  notNull : Bool := false
  deriving DecidableEq

/-- What `CREATE TABLE` says of a table, the types of its columns and their defaults apart. -/
structure Definition where
  columns : List Column
  primaryKey : List String
  /-- The `UNIQUE` constraints. -/
  unique : List (List String) := []
  foreignKeys : List ForeignKey := []
  /-- A key is made of the table's own columns. -/
  keys_in : ∀ key ∈ primaryKey :: unique, ∀ column ∈ key, column ∈ columns.map (·.name) := by decide
  deriving DecidableEq

def Definition.columnNames (d : Definition) : List String := d.columns.map (·.name)

/-- The keys that no two rows may share: the primary key, if there is one, and the unique ones. -/
def Definition.keys (d : Definition) : List (List String) :=
  (d.primaryKey :: d.unique).filter (· ≠ [])

abbrev Row := List (String × Value)

/-- The value in a column. -/
def Row.get (row : Row) (column : String) : Value := (row.lookup column).getD .null

/-- A table has the name that its `CREATE` statement spelt. -/
structure SqlTable where
  spelling : String
  definition : Definition
  rows : List Row
  deriving DecidableEq

/-- The name by which SQLite finds the table. -/
def SqlTable.name (t : SqlTable) : TableName := .ofSpelling t.spelling

/-- No two tables of a file have one name, whatever the case of its letters. -/
abbrev File := Table SqlTable.name

/-- A file in which a table refers to another by a foreign key. -/
def Refers (file : File) (child parent : TableName) : Prop :=
  ∃ t ∈ file.find? child, ∃ key ∈ t.definition.foreignKeys, key.parent = parent

/-- What `DROP TABLE` does to the other tables under `PRAGMA foreign_keys = ON`: it is refused when
a row would be left without its parent, else the keys' actions change the rows that refer to it. -/
structure DropRules where
  refuses : File → TableName → Bool
  /-- The file, the table that is dropped, and what becomes of another. -/
  leaves : File → TableName → SqlTable → SqlTable
  leaves_spelling : ∀ file dropped t, (leaves file dropped t).spelling = t.spelling
  /-- Only a table from which foreign keys lead to the dropped one is changed, -/
  spares : ∀ file dropped t, t ∈ file.rows → ¬ Relation.TransGen (Refers file) t.name dropped →
    leaves file dropped t = t
  /-- and only if the dropped one has rows. -/
  idle : ∀ file dropped t, (∀ u ∈ file.find? dropped, u.rows = []) → leaves file dropped t = t

theorem DropRules.leaves_name (rules : DropRules) (file : File) (dropped : TableName) (t : SqlTable) :
    (rules.leaves file dropped t).name = t.name :=
  congrArg TableName.ofSpelling (rules.leaves_spelling file dropped t)

/-- What SQLite does where no foreign key has an action: it refuses to drop a table while a row of
another refers to one of its rows. -/
def DropRules.noActions : DropRules where
  refuses file dropped :=
    file.rows.any fun child => child.name != dropped &&
      child.definition.foreignKeys.any fun key => key.parent == dropped &&
        child.rows.any fun row => ((file.find? dropped).elim [] SqlTable.rows).any fun parent =>
          key.columns.all (row.get · != .null) &&
            key.columns.map row.get == key.parentColumns.map parent.get
  leaves _ _ t := t
  leaves_spelling _ _ _ := rfl
  spares _ _ _ _ _ := rfl
  idle _ _ _ _ := rfl

/-! ## The schema -/

/-- `_SCHEMA_VERSION`. -/
def schemaVersion : String := "4"

private def required (name : String) : Column := ⟨name, true⟩

private def cascades (column : String) (parent : KnownTable) : ForeignKey :=
  ⟨[column], .known parent, ["id"], .cascade⟩

/-- The `CREATE TABLE` statements of `_init_schema`. -/
def KnownTable.definition : KnownTable → Definition
  | .metadata => { columns := [{ name := "key" }, required "value"], primaryKey := ["key"] }
  | .tasks =>
    { columns :=
        [{ name := "id" }, required "title", required "description", required "payload",
          required "type", required "status", { name := "error" }, { name := "timeout" },
          { name := "blocked_by" }, required "created_at"]
      primaryKey := ["id"] }
  | .taskResults =>
    { columns :=
        [{ name := "task_id" }, required "status", required "started_at", required "finished_at",
          required "duration", required "output", { name := "error" }, { name := "returncode" },
          { name := "termination_reason" }]
      primaryKey := ["task_id"]
      foreignKeys := [cascades "task_id" .tasks] }
  | .graphs =>
    { columns := [{ name := "id" }, required "title", required "created_at"]
      primaryKey := ["id"] }
  | .graphTasks =>
    { columns :=
        [required "graph_id", required "task_id", required "is_finally", required "is_optional",
          required "position"]
      primaryKey := ["graph_id", "task_id"]
      foreignKeys := [cascades "graph_id" .graphs, cascades "task_id" .tasks] }
  | .graphDependencies =>
    { columns :=
        [required "graph_id", required "task_id", required "dependency_id", required "position"]
      primaryKey := ["graph_id", "task_id", "dependency_id"]
      foreignKeys :=
        [cascades "graph_id" .graphs, cascades "task_id" .tasks, cascades "dependency_id" .tasks] }

/-- A new table. -/
def KnownTable.created (t : KnownTable) : SqlTable := ⟨t.text, t.definition, []⟩

@[simp]
theorem KnownTable.created_name (t : KnownTable) : t.created.name = .known t :=
  TableName.ofSpelling_text t

/-- The order of the `CREATE TABLE` statements. -/
def createdTables : List KnownTable :=
  [.metadata, .tasks, .taskResults, .graphs, .graphTasks, .graphDependencies]

/-- The row of the current version. -/
def versionRow : Row := [("key", .text "schema_version"), ("value", .text schemaVersion)]

/-! ## Statements on a file -/

inductive OpenError
  | runtimeError (message : String)
  | operationalError (message : String)
  | integrityError (message : String)
  deriving DecidableEq

/-- `SELECT name FROM sqlite_master WHERE type = 'table'`. -/
def tableNames (file : File) : List String := file.rows.map (·.spelling)

/-- `SELECT value FROM metadata WHERE key = 'schema_version'`, `fetchone`. -/
def selectVersion (file : File) : Except OpenError (Option Value) :=
  match file.find? (.known .metadata) with
  | none => .error (.operationalError "no such table: metadata")
  | some t =>
    if "value" ∉ t.definition.columnNames then .error (.operationalError "no such column: value")
    else if "key" ∉ t.definition.columnNames then .error (.operationalError "no such column: key")
    else
      .ok ((t.rows.find? fun row => row.get "key" = .text "schema_version").map fun row =>
        row.get "value")

/-- `CREATE TABLE IF NOT EXISTS`. -/
def createIfAbsent (t : KnownTable) (file : File) : File :=
  (file.insert t.created).getD file

/-- `DROP TABLE IF EXISTS`. -/
def dropIfExists (rules : DropRules) (t : KnownTable) (file : File) : Except OpenError File :=
  if (file.find? (.known t)).isNone then .ok file
  else if rules.refuses file (.known t) then
    .error (.integrityError "FOREIGN KEY constraint failed")
  else
    .ok ((file.deleteWhere fun other => other.name = .known t).map (rules.leaves file (.known t))
      (rules.leaves_name file (.known t)))

/-- The row breaks no `NOT NULL` and no key of the table. A key with a null in it breaks nothing. -/
def SqlTable.admits (t : SqlTable) (row : Row) : Bool :=
  t.definition.columns.all (fun column => !column.notNull || row.get column.name != .null) &&
    t.rows.all fun old =>
      t.definition.keys.all fun key =>
        key.any fun column => row.get column == .null || row.get column != old.get column

def SqlTable.add (t : SqlTable) (row : Row) : SqlTable := { t with rows := t.rows ++ [row] }

theorem SqlTable.add_name (row : Row) (t : SqlTable) : (t.add row).name = t.name := rfl

/-- `INSERT OR IGNORE INTO metadata(key, value) VALUES ('schema_version', ?)`. -/
def insertVersion (file : File) : Except OpenError File :=
  match file.find? (.known .metadata) with
  | none => .error (.operationalError "no such table: metadata")
  | some t =>
    if "key" ∉ t.definition.columnNames then
      .error (.operationalError "table metadata has no column named key")
    else if "value" ∉ t.definition.columnNames then
      .error (.operationalError "table metadata has no column named value")
    else if t.admits versionRow then
      .ok (file.upsert t (·.add versionRow) (SqlTable.add_name versionRow))
    else .ok file

/-! ## Connections -/

/-- The file, and the transaction that a connection has open on it. -/
structure Shared (ι : Type) where
  file : File
  pending : Option (ι × File) := none
  warnings : List String := []

inductive Statement
  | tableNames
  | selectVersion
  | warn (message : String)
  | drop (t : KnownTable)
  | create (t : KnownTable)
  | insertVersion
  | commit
  | rollback
  deriving DecidableEq

abbrev Statement.Ans : Statement → Type
  | .tableNames => List String
  | .selectVersion => Except OpenError (Option Value)
  | .drop _ | .insertVersion => Except OpenError Unit
  | .warn _ | .create _ | .commit | .rollback => Unit

/-- The statements that take the write lock. -/
def Statement.writes : Statement → Bool
  | .drop _ | .create _ | .insertVersion => true
  | _ => false

section Sem

variable {ι : Type} [DecidableEq ι]

/-- The file as a connection sees it. -/
def Shared.seen (s : Shared ι) (i : ι) : File :=
  match s.pending with
  | some (j, file) => if j = i then file else s.file
  | none => s.file

/-- `CREATE` and `DROP` join the connection's transaction, or commit at once. -/
def Shared.write (s : Shared ι) (i : ι) (file : File) : Shared ι :=
  if s.pending.isSome then { s with pending := some (i, file) } else { s with file }

def sem (rules : DropRules) (i : ι) : (o : Statement) → Shared ι → o.Ans × Shared ι
  | .tableNames, s => (tableNames (s.seen i), s)
  | .selectVersion, s => (selectVersion (s.seen i), s)
  | .warn message, s => ((), { s with warnings := s.warnings ++ [message] })
  | .drop t, s =>
    match dropIfExists rules t (s.seen i) with
    | .ok file => (.ok (), s.write i file)
    | .error e => (.error e, s)
  | .create t, s => ((), s.write i (createIfAbsent t (s.seen i)))
  | .insertVersion, s =>
    match insertVersion (s.seen i) with
    | .ok file => (.ok (), { s with pending := some (i, file) })
    | .error e => (.error e, s)
  | .commit, s =>
    ((),
      match s.pending with
      | some (j, file) => if j = i then { s with file, pending := none } else s
      | none => s)
  | .rollback, s =>
    ((),
      match s.pending with
      | some (j, _) => if j = i then { s with pending := none } else s
      | none => s)

/-- A write waits while another connection's transaction is open. -/
def Waits (i : ι) (o : Statement) (s : Shared ι) : Prop :=
  o.writes = true → ∀ j ∈ s.pending.map Prod.fst, j = i

instance (i : ι) (o : Statement) (s : Shared ι) : Decidable (Waits i o s) :=
  inferInstanceAs (Decidable (_ → _))

end Sem

/-! ## `_init_schema` -/

abbrev Sql := Prog Statement.Ans OpenError

/-- A statement's answer, or its exception. -/
def ofAnswer {α : Type} : Except OpenError α → Sql α
  | .ok a => .ret a
  | .error e => .fail e

/-- `for table in _KNOWN_TABLES: connection.execute(…)`. -/
def dropAll : List KnownTable → Sql Unit
  | [] => .ret ()
  | t :: ts => .act (Statement.drop t) fun answer => (ofAnswer answer).bind fun _ => dropAll ts

/-- The `CREATE TABLE IF NOT EXISTS` statements. -/
def createAll : List KnownTable → Sql Unit
  | [] => .ret ()
  | t :: ts => .act (Statement.create t) fun _ => createAll ts

/-- The text of the `RuntimeError` and of the warning. -/
def mismatch : Option String → String
  | none =>
    "SQLite store at this path has known tables but no schema_version row. Refusing to touch it. " ++
      "Pass allow_destructive_migration=True to drop and rebuild."
  | some version =>
    "SQLite store schema_version " ++ quoted version ++ " does not match current " ++
      quoted schemaVersion ++ ". Pass allow_destructive_migration=True to drop and rebuild."

/-- The end of `_enforce_schema_version`. -/
def compareVersion (allowDestructive : Bool) (version : Option String) : Sql Unit :=
  if version = some schemaVersion then .ret ()
  else if !allowDestructive then .fail (.runtimeError (mismatch version))
  else .act (Statement.warn (mismatch version)) fun _ => dropAll knownTables

/-- `known_present`. -/
def knownPresent (names : List String) : List KnownTable :=
  knownTables.filter fun t => t.text ∈ names

/-- `_enforce_schema_version`. -/
def enforceSchemaVersion (allowDestructive : Bool) : Sql Unit :=
  .act Statement.tableNames fun existing =>
    if knownPresent existing = [] then .ret ()
    else if .metadata ∈ knownPresent existing then
      .act Statement.selectVersion fun answer =>
        (ofAnswer answer).bind fun row => compareVersion allowDestructive (row.map Value.str)
    else compareVersion allowDestructive none

/-- The body of `_init_schema`'s connection block. -/
def initBody (allowDestructive : Bool) : Sql Unit :=
  (enforceSchemaVersion allowDestructive).bind fun _ =>
    (createAll createdTables).bind fun _ =>
      .act Statement.insertVersion ofAnswer

/-- `_init_schema`: the block commits when its body returns and rolls back when it raises. -/
def initSchema (allowDestructive : Bool) : Sql Unit :=
  ((initBody allowDestructive).tryCatch fun e =>
    .act Statement.rollback fun _ => .fail e).bind fun _ =>
      .act Statement.commit fun _ => .ret ()

/-- One store opens the file while nobody else has it open. -/
def openFile (rules : DropRules) (allowDestructive : Bool) (file : File) :
    Except OpenError Unit × File :=
  let (outcome, s) := (initSchema allowDestructive).run (sem rules ()) { file }
  (outcome, s.file)

/-- Any number of stores open an empty file. -/
def openers (ι : Type) : Threads ι Statement.Ans OpenError Unit (Shared ι) where
  shared := { file := .empty }
  rest _ := initSchema false

end TTasks.Sqlite.Connection
