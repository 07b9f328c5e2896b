import PocketSql.Store.Column

/-!
# Tables

A table is a name, a list of columns and a list of rows with one cell for each
column. Rows keep the order in which they were inserted. Rows are added, removed and
written in place: what has been written before a fault stays.
-/

namespace PocketSql

/-- The cells of a row in the order of the columns. -/
abbrev Row := List (Option Value)

structure Table where
  name : String
  columns : List Column
  rows : List Row

namespace Table

def empty (name : String) (columns : List Column) : Table :=
  { name, columns, rows := [] }

/-- The first column of the given name, with its index. -/
def column? (t : Table) (name : String) : Option (Column × Nat) :=
  t.columns.zipIdx.find? fun (column, _) => column.name == name

def columnIndex? (t : Table) (name : String) : Option Nat :=
  (t.column? name).map Prod.snd

def columnNames (t : Table) : List String :=
  t.columns.map Column.name

/-- The column of a name that has to exist, with its index. -/
def findColumn (t : Table) (name : String) : Except Fault (Column × Nat) :=
  match t.column? name with
  | some found => .ok found
  | none => .error (.unknownTableColumn name t.name)

/-- The indices of the named columns, none of which may be one of those `seen`. -/
def distinctIndices (t : Table) (seen : List Nat) : List String → Except Fault (List Nat)
  | [] => .ok []
  | name :: rest => do
    let (_, index) ← t.findColumn name
    if index ∈ seen then .error (.duplicateColumn name)
    else return index :: (← t.distinctIndices (index :: seen) rest)

/-- The indices of the columns that an insertion names; it means all columns by
naming none. -/
def targets (t : Table) (names : List String) : Except Fault (List Nat) :=
  if names = [] then .ok (List.range t.columns.length) else t.distinctIndices [] names

/-- The value given for a column, the last one if there are several. -/
def given? (targets : List Nat) (values : List (Option Value)) (index : Nat) :
    Option (Option Value) :=
  (targets.zip values).reverse.lookup index

/-- What the columns hold in a new row: the values given, and the others filled. -/
def newCells (t : Table) (targets : List Nat) (values : List (Option Value)) :
    Except Fault Row :=
  t.columns.zipIdx.mapM fun (column, index) =>
    match given? targets values index with
    | some value => .ok value
    | none => column.fill

/-- Converts every cell to its column. -/
def acceptRow (t : Table) (cells : Row) : Except Fault Row :=
  (t.columns.zip cells).mapM fun (column, value) => column.accept value

/-- The row that an insertion of values into the target columns stores. -/
def newRow (t : Table) (targets : List Nat) (values : List (Option Value)) :
    Except Fault Row :=
  if targets.length ≠ values.length then
    .error (.insertArity values.length targets.length)
  else
    match targets.find? (t.columns.length ≤ ·) with
    | some index => .error (.misuse (.outOfBounds t.columns.length index))
    | none => do
      let cells ← t.newCells targets values
      t.acceptRow cells

/-- The columns that an insertion leaves out. -/
def leftOut (t : Table) (targets : List Nat) : List Nat :=
  (List.range t.columns.length).filter (· ∉ targets)

/-- Moves the counter of a column on, if it has one. -/
def advanceAt (t : Table) (index : Nat) : Table :=
  { t with columns := t.columns.modify index Column.moveOn }

/-- Adds a row behind all others. -/
def push (t : Table) (row : Row) : Table :=
  { t with rows := t.rows ++ [row] }

/-- Adds a row in place that holds the values in the target columns and what the
other columns are filled with. The counters that filled a cell move on. -/
def insertion (targets : List Nat) (values : List (Option Value)) :
    EStateM Fault Table Unit := do
  let t ← get
  let row ← liftExcept (t.newRow targets values)
  forM (t.leftOut targets) fun index => modify (·.advanceAt index)
  modify (·.push row)

/-- The table behind an insertion. -/
def insert (t : Table) (targets : List Nat) (values : List (Option Value)) :
    Except Fault Table :=
  match insertion targets values t with
  | .ok _ t => .ok t
  | .error fault _ => .error fault

/-- Asks a predicate of every row, in order. -/
def selection {ε : Type} (t : Table) (predicate : Row → Except ε Bool) :
    Except ε (List Bool) :=
  t.rows.mapM predicate

/-- The rows that a mask marks. -/
def selected (t : Table) (mask : List Bool) : List Row :=
  ((t.rows.zip mask).filter Prod.snd).map Prod.fst

/-- The rows that a mask does not mark. -/
def unmarked : List Row → List Bool → List Row
  | row :: rows, marked :: mask =>
    if marked then unmarked rows mask else row :: unmarked rows mask
  | rows, _ => rows

/-- Removes the rows that a mask marks. -/
def deleteSelected (t : Table) (mask : List Bool) : Table :=
  { t with rows := unmarked t.rows mask }

/-- Removes the rows that a mask marks, in place. The mask is read row by row, so one
that is too short fails behind the rows that it covers. -/
def deletion (mask : List Bool) : EStateM Fault Table Unit := do
  let t ← get
  set (t.deleteSelected mask)
  if mask.length < t.rows.length then
    throw (.misuse (.outOfBounds mask.length mask.length))

/-- Writes a cell of a row in place. -/
def writeCell (row column : Nat) (cell : Option Value) : EStateM Fault Table Unit := do
  let t ← get
  match t.rows[row]? with
  | none => throw (.misuse (.outOfBounds t.rows.length row))
  | some cells =>
    if column < cells.length then
      set { t with rows := t.rows.set row (cells.set column cell) }
    else
      throw (.misuse (.outOfBounds cells.length column))

end Table

end PocketSql
