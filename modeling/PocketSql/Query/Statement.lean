import PocketSql.Query.Shell
import PocketSql.Store.Database
import PocketSql.Syntax.Statement

/-!
# Execution of statements

What a statement answers and what it leaves of the database. A statement looks at
the table that it names and at no other one. It works in place: row by row, counter by
counter and cell by cell, and nothing takes back what it has written before it fails.
-/

namespace PocketSql

/-- The answer to a query. -/
structure QueryResult where
  columns : List String
  rows : List Row

/-- What a statement answers: a query its result, any other statement nothing. -/
abbrev Outcome := Except EvalError (Option QueryResult)

/-- Puts the faults of work in place at a position. -/
def workAt {σ α : Type} (position : Position) (work : EStateM Fault σ α) :
    EStateM EvalError σ α :=
  work.adaptExcept (⟨position, ·⟩)

/-- The table of a name that has to exist. -/
def Database.find (db : Database) (name : Ident) : Except EvalError Table :=
  match db.table? name.name with
  | some table => .ok table
  | none => .error ⟨name.position, .unknownTable name.name⟩

/-- The value of a default, converted to the type of its column. -/
def ColumnDefinition.defaultValue (d : ColumnDefinition) : Except EvalError (Option Value) :=
  match d.default with
  | none => .ok none
  | some e => do
    match ← e.eval .empty with
    | none => return none
    | some value => return some (← faultAt e.position (orCastFault (value.cast d.type)))

def ColumnDefinition.column (d : ColumnDefinition) : Except EvalError Column := do
  let default ← d.defaultValue
  let column := { Column.plain d.name.name d.type with default, nullable := d.nullable }
  if d.autoIncrement then faultAt d.name.position column.withAutoIncrement
  else return column

/-- The columns of definitions whose names differ from each other and from those in
`seen`. -/
def columnsOf (seen : List String) : List ColumnDefinition → Except EvalError (List Column)
  | [] => .ok []
  | d :: rest =>
    if d.name.name ∈ seen then .error ⟨d.name.position, .duplicateColumn d.name.name⟩
    else do
      let column ← d.column
      return column :: (← columnsOf (d.name.name :: seen) rest)

/-- Stores a new table, whose name may not be taken. -/
def CreateTable.work (s : CreateTable) : EStateM EvalError Database Unit := do
  let db ← get
  if (db.table? s.table.name).isSome then
    throw ⟨s.table.position, .duplicateTable s.table.name⟩
  else
    let columns ← liftExcept (columnsOf [] s.columns)
    modify (·.put (Table.empty s.table.name columns))

/-- The rows of a table on which a condition holds, as a mask. -/
def Table.matching (t : Table) (condition : Option Expr) : Except EvalError (List Bool) :=
  t.selection fun row => Expr.holds (t.scope row) condition

/-- A star stands for all columns. -/
def Table.expand (t : Table) : Expr → List Expr
  | .star position => t.columnNames.map fun name => .ident ⟨position, name⟩
  | e => [e]

/-- The heading of a projection: a column's name, or a question mark. -/
def Expr.heading : Expr → String
  | .ident name => name.name
  | _ => "?"

/-- Evaluates the projections on every row that the condition holds on. -/
def Table.project (t : Table) (projections : List Expr) (condition : Option Expr) :
    Except EvalError QueryResult := do
  let mask ← t.matching condition
  let rows ← (t.selected mask).mapM fun row => projections.mapM (Expr.eval (t.scope row))
  return { columns := projections.map Expr.heading, rows }

/-- Takes aggregate projections apart into shells that share their slots. -/
def shellsOf (slots : List Slot) : List Expr → Except EvalError (List Shell × List Slot)
  | [] => .ok ([], slots)
  | e :: rest => do
    e.checkAggregate false
    match Shell.ofExpr slots e with
    | (.error error, _) => .error error
    | (.ok shell, slots) => do
      let (shells, slots) ← shellsOf slots rest
      return (shell :: shells, slots)

/-- Steps all slots through the rows that the condition holds on. -/
def Table.accumulate (t : Table) (position : Position) (condition : Option Expr) :
    List Slot → List Row → Except EvalError (List Slot)
  | slots, [] => .ok slots
  | slots, row :: rest => do
    if ← Expr.holds (t.scope row) condition then
      let slots ← slots.mapM (Slot.step position (t.scope row))
      t.accumulate position condition slots rest
    else
      t.accumulate position condition slots rest

/-- Evaluates aggregate projections to one row, or to none for a table without rows. -/
def Table.aggregate (t : Table) (position : Position) (projections : List Expr)
    (condition : Option Expr) : Except EvalError QueryResult := do
  let (shells, slots) ← shellsOf [] projections
  let slots ← t.accumulate position condition slots t.rows
  let columns := shells.map fun _ => "?"
  if t.rows = [] then
    return { columns, rows := [] }
  else
    let results := slots.map fun slot => slot.accumulator.result
    let row ← shells.mapM (Shell.eval results)
    return { columns, rows := [row] }

/-- The table that a query names. -/
def Select.source (s : Select) (db : Database) : Except EvalError Table :=
  match s.table with
  | .ident name => db.find name
  | e => .error ⟨e.position, .tableSubexpression⟩

def Select.run (s : Select) (db : Database) : Except EvalError QueryResult := do
  let table ← s.source db
  let projections := s.projections.flatMap table.expand
  if projections.any Expr.hasAggregate then
    table.aggregate s.position projections s.condition
  else
    table.project projections s.condition

/-- Works on the table of a name that has to exist. -/
def Database.onTable {α : Type} (name : Ident) (work : EStateM EvalError Table α) :
    EStateM EvalError Database α := fun db =>
  match db.find name with
  | .error e => .error e db
  | .ok table =>
    match work table with
    | .ok result table => .ok result (db.set name.name table)
    | .error e table => .error e (db.set name.name table)

/-- Adds the new row. -/
def Insert.work (s : Insert) : EStateM EvalError Table Unit := do
  let table ← get
  let targets ← liftExcept (faultAt s.position (table.targets (s.columns.map Ident.name)))
  if s.values.length ≠ targets.length then
    throw ⟨s.position, .insertArity s.values.length targets.length⟩
  else
    let values ← liftExcept (s.values.mapM (Expr.eval .empty))
    workAt s.position (Table.insertion targets values)

/-- The column that an assignment changes, with its index. -/
def Assignment.target (a : Assignment) (t : Table) : Except EvalError (Column × Nat) :=
  faultAt a.column.position (t.findColumn a.column.name)

/-- A cell to write: the indices of its row and its column, and what it will hold. -/
structure Change where
  row : Nat
  column : Nat
  cell : Option Value

/-- The cell that an assignment writes into the row of an index. -/
def Assignment.change (a : Assignment) (scope : Scope) (target : Column × Nat) (row : Nat) :
    Except EvalError Change := do
  let value ← a.value.eval scope
  let cell ← faultAt a.value.position (target.1.accept value)
  return { row, column := target.2, cell }

/-- The rows that a mask marks, with their indices. -/
def Table.selectedIndices (t : Table) (mask : List Bool) : List (Row × Nat) :=
  ((t.rows.zipIdx.zip mask).filter Prod.snd).map Prod.fst

/-- All cells to write, row by row. Their values are those of the rows before the
statement. -/
def Table.changes (t : Table) (assignments : List (Assignment × (Column × Nat)))
    (mask : List Bool) : Except EvalError (List Change) := do
  let changes ← (t.selectedIndices mask).mapM fun (row, index) =>
    assignments.mapM fun (assignment, target) => assignment.change (t.scope row) target index
  return changes.flatten

/-- Writes the assigned cells one after the other, so the last one of a column stays. -/
def Update.work (s : Update) : EStateM EvalError Table Unit := do
  let table ← get
  let targets ← liftExcept (s.assignments.mapM (Assignment.target · table))
  let mask ← liftExcept (table.matching s.condition)
  let changes ← liftExcept (table.changes (s.assignments.zip targets) mask)
  forM changes fun change =>
    workAt s.position (Table.writeCell change.row change.column change.cell)

/-- Removes the rows that the condition holds on. -/
def Delete.work (s : Delete) : EStateM EvalError Table Unit := do
  let table ← get
  match s.condition with
  | none => set { table with rows := [] }
  | some condition =>
    let mask ← liftExcept (table.matching (some condition))
    workAt s.position (Table.deletion mask)

/-- What a statement does to the database, and the result of a query. -/
def Statement.work : Statement → EStateM EvalError Database (Option QueryResult)
  | .createTable s => do
    s.work
    return none
  | .select s => do
    let db ← get
    liftExcept ((s.run db).map some)
  | .insert s => do
    Database.onTable s.table s.work
    return none
  | .update s => do
    Database.onTable s.table s.work
    return none
  | .delete s => do
    Database.onTable s.table s.work
    return none

/-- Executes a statement: its outcome and the database behind it. -/
def Database.execute (db : Database) (s : Statement) : Outcome × Database :=
  match s.work db with
  | .ok result db => (.ok result, db)
  | .error e db => (.error (e.caughtAt s.position), db)

end PocketSql
