import PocketSql.Fault

/-!
# Operators

The meaning of operators on values that may be null. An operand that is a string
is read as a value of the other operand's type where that helps; an integer meets
a number as a number.
-/

namespace PocketSql.Operator

/-- How two values compare, if they are ordered at all. The operator is only named
in the fault of values that cannot be compared. -/
def order? (op : Kind) : Value → Value → Except Fault (Option Ordering)
  | .boolean a, .boolean b => .ok (some (compare a b))
  | .integer a, .integer b => .ok (some (compare a.toInt b.toInt))
  | .integer a, .number b => .ok (Number.order? (Number.ofInteger a) b)
  | .number a, .integer b => .ok (Number.order? a (Number.ofInteger b))
  | .number a, .number b => .ok (Number.order? a b)
  | .string a, .integer b => do
    let a ← orCastFault (Value.string a).toInteger
    return some (compare a.toInt b.toInt)
  | .integer a, .string b => do
    let b ← orCastFault (Value.string b).toInteger
    return some (compare a.toInt b.toInt)
  | .string a, .number b => do
    let a ← orCastFault (Value.string a).toNumber
    return Number.order? a b
  | .number a, .string b => do
    let b ← orCastFault (Value.string b).toNumber
    return Number.order? a b
  | .string a, .string b => .ok (some (compare a b))
  | .string a, .timestamp b => do
    let a ← orCastFault (Value.string a).toTimestamp
    return some (a.order b)
  | .timestamp a, .string b => do
    let b ← orCastFault (Value.string b).toTimestamp
    return some (a.order b)
  | .timestamp a, .timestamp b => .ok (some (a.order b))
  | a, b => .error (.invalidComparison a op b)

/-- Whether a comparison holds of values in the given order. Of values that are not
ordered, nothing but their difference holds. -/
def holds? : Kind → Option Ordering → Option Bool
  | .equal, order => some (order == some .eq)
  | .notEqual, order => some (order != some .eq)
  | .less, order => some (order == some .lt)
  | .lessEqual, order => some (order == some .lt || order == some .eq)
  | .greater, order => some (order == some .gt)
  | .greaterEqual, order => some (order == some .gt || order == some .eq)
  | _, _ => none

/-- Compares two values. No comparison holds of null. -/
def comparison (op : Kind) : Option Value → Option Value → Except Fault Bool
  | some a, some b => do
    match holds? op (← order? op a b) with
    | some result => .ok result
    | none => .error (.misuse (.notComparison op))
  | _, _ => .ok false

def orOverflow : Option Int64 → Except Fault Int64
  | some value => .ok value
  | none => .error .integerOverflow

def integerArithmetic (op : Kind) (a b : Int64) : Except Fault Int64 :=
  match op with
  | .plus => orOverflow (Integer.add? a b)
  | .minus => orOverflow (Integer.sub? a b)
  | .star => orOverflow (Integer.mul? a b)
  | .slash => if b = 0 then .error .divideByZero else orOverflow (Integer.div? a b)
  | op => .error (.misuse (.notArithmetic op))

def numberArithmetic (op : Kind) (a b : Float) : Except Fault Float :=
  match op with
  | .plus => .ok (a + b)
  | .minus => .ok (a - b)
  | .star => .ok (a * b)
  | .slash => if b == 0 then .error .divideByZero else .ok (a / b)
  | op => .error (.misuse (.notArithmetic op))

/-- Arithmetic on two values: on integers if neither is a number. -/
def arithmeticOf (op : Kind) : Value → Value → Except Fault Value
  | .integer a, .integer b => (integerArithmetic op a b).map .integer
  | .string a, .integer b => do
    let a ← orCastFault (Value.string a).toInteger
    (integerArithmetic op a b).map .integer
  | .integer a, .string b => do
    let b ← orCastFault (Value.string b).toInteger
    (integerArithmetic op a b).map .integer
  | .integer a, .number b => (numberArithmetic op (Number.ofInteger a) b).map .number
  | .number a, .integer b => (numberArithmetic op a (Number.ofInteger b)).map .number
  | .number a, .number b => (numberArithmetic op a b).map .number
  | .string a, .number b => do
    let a ← orCastFault (Value.string a).toNumber
    (numberArithmetic op a b).map .number
  | .number a, .string b => do
    let b ← orCastFault (Value.string b).toNumber
    (numberArithmetic op a b).map .number
  | a, b => .error (.invalidArithmetic a op b)

/-- Adds, subtracts, multiplies or divides. A null operand makes the result null. -/
def arithmetic (op : Kind) : Option Value → Option Value → Except Fault (Option Value)
  | some a, some b => (arithmeticOf op a b).map some
  | _, _ => .ok none

/-- Joins the texts of two values. A null operand makes the result null. -/
def concatenation : Option Value → Option Value → Except Fault (Option Value)
  | some a, some b => do
    let a ← orCastFault a.toText
    let b ← orCastFault b.toText
    return some (.string (a ++ b))
  | _, _ => .ok none

/-- Joins two booleans, of which neither may be null. -/
def logical (op : Kind) : Option Value → Option Value → Except Fault Bool
  | some a, some b => do
    let a ← orCastFault a.toBoolean
    let b ← orCastFault b.toBoolean
    match op with
    | .kwAnd => .ok (a && b)
    | .kwOr => .ok (a || b)
    | op => .error (.misuse (.notLogical op))
  | _, _ => .error (.nullOperand op)

/-- Applies any binary operator. -/
def binary (op : Kind) (a b : Option Value) : Except Fault (Option Value) :=
  if op = .kwAnd ∨ op = .kwOr then (logical op a b).map (some ∘ .boolean)
  else if op = .concat then concatenation a b
  else if op.isComparison then (comparison op a b).map (some ∘ .boolean)
  else if op.isArithmetic then arithmetic op a b
  else .error (.misuse (.notBinary op))

/-- Applies a sign to an integer or a number. Null stays null. -/
def unary (op : Kind) : Option Value → Except Fault (Option Value)
  | none => .ok none
  | some value =>
    match op, value with
    | .plus, .integer i => .ok (some (.integer i))
    | .plus, .number x => .ok (some (.number x))
    | .minus, .integer i => (orOverflow (Integer.neg? i)).map (some ∘ .integer)
    | .minus, .number x => .ok (some (.number (-x)))
    | op, value => .error (.invalidUnary op value)

end PocketSql.Operator
