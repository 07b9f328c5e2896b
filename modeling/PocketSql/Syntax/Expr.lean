import PocketSql.Number.Integer
import PocketSql.Number.Text
import PocketSql.Token.Basic

/-!
# Expressions

The syntax trees of expressions. A tree remembers the position of each of its
nodes in the text it was read from.
-/

namespace PocketSql

/-- The name of a table, a column or a function. -/
structure Ident where
  position : Position
  name : String
deriving DecidableEq

inductive Literal where
  | null
  | boolean (value : Bool)
  | integer (value : Int64)
  | number (value : Float)
  | string (value : String)

def Literal.label : Literal → String
  | null => "Null"
  | boolean value => "BooleanLiteral(" ++ (if value then "true" else "false") ++ ")"
  | integer value => "IntegerLiteral(" ++ Integer.text value ++ ")"
  | number value => "NumberLiteral(" ++ Number.text value ++ ")"
  | string value => "StringLiteral(" ++ Text.quote value ++ ")"

inductive Expr where
  | ident (name : Ident)
  | literal (position : Position) (value : Literal)
  /-- All columns in a projection list, all rows as the argument of a function. -/
  | star (position : Position)
  | unary (position : Position) (op : Kind) (operand : Expr)
  | binary (op : Kind) (lhs rhs : Expr)
  | call (function : Ident) (arguments : List Expr)

/-- A binary expression stands where its left operand does. -/
def Expr.position : Expr → Position
  | ident name => name.position
  | literal position _ => position
  | star position => position
  | unary position _ _ => position
  | binary _ lhs _ => lhs.position
  | call function _ => function.position

def Expr.label : Expr → String
  | ident name => "Ident(" ++ name.name ++ ")"
  | literal _ value => value.label
  | star _ => "SelectStar"
  | unary _ op _ => "Unary(" ++ op.text ++ ")"
  | binary op _ _ => "Binary(" ++ op.text ++ ")"
  | call _ _ => "FunctionCall"

end PocketSql
