import PocketSql.Fault

/-!
# Columns

The schema of one column of a table, and the counter of a column that numbers
its rows.
-/

namespace PocketSql

structure Column where
  name : String
  type : DataType
  /-- What an insertion stores that leaves the column out. -/
  default : Option Value
  nullable : Bool
  autoIncrement : Bool
  /-- What the counter hands out next; nothing once it has handed out the greatest integer. -/
  next : Option Int64

namespace Column

/-- A column that may be null, without a default. -/
def plain (name : String) (type : DataType) : Column :=
  { name, type, default := none, nullable := true, autoIncrement := false, next := some 1 }

/-- Makes the column number its rows. Only a column of integers can. -/
def withAutoIncrement (c : Column) : Except Fault Column :=
  if c.type = .integer then .ok { c with autoIncrement := true }
  else .error (.invalidAutoIncrement c.name c.type)

/-- What is stored for a row that gives no value: the next number or the default. -/
def fill (c : Column) : Except Fault (Option Value) :=
  if c.autoIncrement then
    match c.next with
    | some number => .ok (some (.integer number))
    | none => .error .integerOverflow
  else
    .ok c.default

/-- Moves the counter on. -/
def advance (c : Column) : Column :=
  { c with next := c.next.bind (Integer.add? · 1) }

/-- Moves the counter on if the column numbers its rows. -/
def moveOn (c : Column) : Column :=
  if c.autoIncrement then c.advance else c

/-- Converts a value to the type of the column, and keeps null out of a column that
does not allow it. -/
def accept (c : Column) : Option Value → Except Fault (Option Value)
  | some value => (orCastFault (value.cast c.type)).map some
  | none => if c.nullable then .ok none else .error (.notNullViolation c.name)

end Column

end PocketSql
