import PocketSql.Token.Position
import PocketSql.Value.Cast

/-!
# Faults of statements

Why a statement fails, without the place where it does. An error is a fault with
the position of the part of the statement that raised it.
-/

namespace PocketSql

/-- The functions over all rows of a table. -/
inductive AggregateFunction where
  | count
  | min
  | max
  | sum
deriving DecidableEq

namespace AggregateFunction

def name : AggregateFunction → String
  | count => "COUNT"
  | min => "MIN"
  | max => "MAX"
  | sum => "SUM"

/-- The function of a name in small letters. -/
def ofName? (name : String) : Option AggregateFunction :=
  match name with
  | "count" => some count
  | "min" => some min
  | "max" => some max
  | "sum" => some sum
  | _ => none

end AggregateFunction

/-- Misuse of the library that no statement read from a text brings about. -/
inductive Misuse where
  | notComparison (op : Kind)
  | notArithmetic (op : Kind)
  | notLogical (op : Kind)
  | notBinary (op : Kind)
  | outOfBounds (size index : Nat)
deriving DecidableEq

inductive Fault where
  | unknownTable (table : String)
  | duplicateTable (table : String)
  | duplicateColumn (column : String)
  | unknownColumn (column : String)
  | unknownTableColumn (column table : String)
  | invalidAutoIncrement (column : String) (type : DataType)
  | tableSubexpression
  | insertArity (values targets : Nat)
  | notNullViolation (column : String)
  | aggregateArity (function : AggregateFunction) (arguments : Nat)
  | nestedAggregate
  | ungroupedColumn (column : String)
  | unknownFunction (function : String)
  | scalarFunction (function : String)
  | invalidAggregateInput (function : AggregateFunction) (value : Value)
  | misplacedStar
  | invalidComparison (lhs : Value) (op : Kind) (rhs : Value)
  | invalidArithmetic (lhs : Value) (op : Kind) (rhs : Value)
  | invalidUnary (op : Kind) (value : Value)
  | nullOperand (op : Kind)
  | divideByZero
  | integerOverflow
  | cast (fault : CastFault)
  | misuse (fault : Misuse)

def Misuse.message : Misuse → String
  | notComparison op => op.text ++ " is not a comparison operator"
  | notArithmetic op => op.text ++ " is not an arithmetic operator"
  | notLogical op => op.text ++ " is not a logical operator"
  | notBinary op => op.text ++ " is not a binary operator"
  | outOfBounds size index =>
    "index out of bounds: the len is " ++ toString size ++ " but the index is " ++ toString index

/-- A name in the double quotes of a message, as it is. -/
def inQuotes (name : String) : String :=
  "\"" ++ name ++ "\""

def Fault.message : Fault → String
  | unknownTable table => "relation " ++ inQuotes table ++ " does not exist"
  | duplicateTable table => "relation " ++ inQuotes table ++ " already exists"
  | duplicateColumn column => "column " ++ inQuotes column ++ " specified more than once"
  | unknownColumn column => "column " ++ inQuotes column ++ " does not exist"
  | unknownTableColumn column table =>
    "column " ++ inQuotes column ++ " of relation " ++ inQuotes table ++ " does not exist"
  | invalidAutoIncrement column type =>
    "AUTOINCREMENT requires an INTEGER column, but " ++ inQuotes column ++ " is " ++ type.name
  | tableSubexpression => "table subexpressions not supported"
  | insertArity values targets =>
    "INSERT has " ++ toString values ++ " expressions but " ++ toString targets ++
      " target columns"
  | notNullViolation column =>
    "null value in column " ++ inQuotes column ++ " violates not-null constraint"
  | aggregateArity function arguments =>
    "wrong number of arguments to " ++ function.name ++ ": got " ++ toString arguments ++
      ", want 1"
  | nestedAggregate => "aggregate function calls cannot be nested"
  | ungroupedColumn column =>
    "column " ++ inQuotes column ++
      " must appear in the GROUP BY clause or be used in an aggregate function"
  | unknownFunction function => "unknown function: " ++ function
  | scalarFunction function => "non-aggregate functions are not implemented: " ++ function
  | invalidAggregateInput function value =>
    "cannot compute " ++ function.name ++ " of " ++ Value.describe (some value)
  | misplacedStar => "\"*\" is only valid in a projection list or as the argument of COUNT"
  | invalidComparison lhs op rhs =>
    "invalid comparison: " ++ lhs.text ++ " " ++ op.text ++ " " ++ rhs.text
  | invalidArithmetic lhs op rhs =>
    "invalid arithmetic expression: " ++ lhs.text ++ " " ++ op.text ++ " " ++ rhs.text
  | invalidUnary op value =>
    "invalid value for unary " ++ op.text ++ ": " ++ Value.describe (some value)
  | nullOperand op => "NULL is not a valid operand of " ++ op.text
  | divideByZero => "divide by zero"
  | integerOverflow => "integer out of range"
  | cast fault => fault.message
  | misuse fault => "internal error: " ++ fault.message

abbrev EvalError := Located Fault

def EvalError.message (e : EvalError) : String :=
  "eval:" ++ e.position.text ++ ": " ++ e.value.message

/-- The error of a statement at the given position. A reach beyond the end of something is
caught only where the statement ends, and is reported there. -/
def EvalError.caughtAt (position : Position) (e : EvalError) : EvalError :=
  match e.value with
  | .misuse (.outOfBounds _ _) => ⟨position, e.value⟩
  | _ => e

/-- Puts the fault of a failed computation at a position. -/
def faultAt {α : Type} (position : Position) (result : Except Fault α) : Except EvalError α :=
  result.mapError (⟨position, ·⟩)

/-- Takes the fault of a failed cast as that of a statement. -/
def orCastFault {α : Type} (result : Except CastFault α) : Except Fault α :=
  result.mapError .cast

end PocketSql
