import PocketSql.Syntax.Expr
import PocketSql.Value.DataType

/-!
# Statements

The syntax trees of statements. The position of a statement is that of its first
keyword.
-/

namespace PocketSql

structure ColumnDefinition where
  name : Ident
  type : DataType
  nullable : Bool
  default : Option Expr
  autoIncrement : Bool

structure CreateTable where
  position : Position
  table : Ident
  columns : List ColumnDefinition

/-- The table is read as an expression, of which only a name denotes a table. -/
structure Select where
  position : Position
  projections : List Expr
  table : Expr
  condition : Option Expr

/-- No columns stand for all of them. -/
structure Insert where
  position : Position
  table : Ident
  columns : List Ident
  values : List Expr

structure Assignment where
  column : Ident
  value : Expr

structure Update where
  position : Position
  table : Ident
  assignments : List Assignment
  condition : Option Expr

structure Delete where
  position : Position
  table : Ident
  condition : Option Expr

inductive Statement where
  | createTable (statement : CreateTable)
  | select (statement : Select)
  | insert (statement : Insert)
  | update (statement : Update)
  | delete (statement : Delete)

def Statement.position : Statement → Position
  | createTable s => s.position
  | select s => s.position
  | insert s => s.position
  | update s => s.position
  | delete s => s.position

def Statement.label : Statement → String
  | createTable _ => "CreateTable"
  | select _ => "Select"
  | insert _ => "Insert"
  | update _ => "Update"
  | delete _ => "Delete"

/-- The name, the type and the constraints, without the default itself. -/
def ColumnDefinition.label (d : ColumnDefinition) : String :=
  "ColumnDefinition(" ++ d.name.name ++ " " ++ d.type.name ++
    (if d.nullable then "" else " NOT NULL") ++
    (if d.default.isSome then " DEFAULT" else "") ++
    (if d.autoIncrement then " AUTOINCREMENT" else "") ++ ")"

end PocketSql
