import PocketSql.Query.Operator
import PocketSql.Store.Table
import PocketSql.Syntax.Expr

/-!
# Evaluation of expressions

The value of an expression in a scope. Operands are evaluated from left to right,
and all of them before the operator is applied.
-/

namespace PocketSql

/-- What the names in an expression stand for. -/
abbrev Scope := String → Except Fault (Option Value)

/-- The scope without any names. -/
def Scope.empty : Scope :=
  fun name => .error (.unknownColumn name)

/-- The scope in which the columns of a table stand for the cells of a row. -/
def Table.scope (t : Table) (row : Row) : Scope :=
  fun name =>
    match t.columnIndex? name with
    | none => .error (.unknownColumn name)
    | some index =>
      match row[index]? with
      | some cell => .ok cell
      | none => .error (.misuse (.outOfBounds row.length index))

def Literal.value : Literal → Option Value
  | null => none
  | boolean value => some (.boolean value)
  | integer value => some (.integer value)
  | number value => some (.number value)
  | string value => some (.string value)

/-- The value of an expression. A fault is put at the name, the star, the sign or the
left operand that it belongs to. -/
def Expr.eval (scope : Scope) : Expr → Except EvalError (Option Value)
  | ident name => faultAt name.position (scope name.name)
  | literal _ value => .ok value.value
  | star position => .error ⟨position, .misplacedStar⟩
  | call function _ => .error ⟨function.position, .scalarFunction function.name⟩
  | unary position op operand => do
    let operand ← operand.eval scope
    faultAt position (Operator.unary op operand)
  | binary op lhs rhs => do
    let left ← lhs.eval scope
    let right ← rhs.eval scope
    faultAt lhs.position (Operator.binary op left right)

/-- Whether a condition holds. It holds where there is none, and it does not hold
where it is null. -/
def Expr.holds (scope : Scope) : Option Expr → Except EvalError Bool
  | none => .ok true
  | some condition => do
    match ← condition.eval scope with
    | some value => faultAt condition.position (orCastFault value.toBoolean)
    | none => .ok false

end PocketSql
