import PocketSql.Query.Accumulator
import PocketSql.Query.Expression

/-!
# Aggregate projections

An aggregate projection is taken apart into calls of aggregate functions, each
with an accumulator, and the shell around them. The accumulators take all rows;
then the shell is evaluated once on their results.
-/

namespace PocketSql

/-- A call of an aggregate function: the expression to evaluate for every row, unless
rows are counted, and the state. -/
structure Slot where
  argument : Option Expr
  accumulator : Accumulator

/-- An expression with its aggregate calls replaced by numbers of slots. -/
inductive Shell where
  | slot (index : Nat)
  | unary (position : Position) (op : Kind) (operand : Shell)
  | binary (position : Position) (op : Kind) (lhs rhs : Shell)
  /-- A part without aggregate calls. -/
  | leaf (e : Expr)

def isAggregate (function : String) : Bool :=
  (AggregateFunction.ofName? function).isSome

mutual

/-- Whether an expression calls an aggregate function anywhere. -/
def Expr.hasAggregate : Expr → Bool
  | .call function arguments => isAggregate function.name || Expr.anyHasAggregate arguments
  | .unary _ _ operand => operand.hasAggregate
  | .binary _ lhs rhs => lhs.hasAggregate || rhs.hasAggregate
  | _ => false

def Expr.anyHasAggregate : List Expr → Bool
  | [] => false
  | first :: rest => first.hasAggregate || Expr.anyHasAggregate rest

end

mutual

/-- Checks that no aggregate call stands inside another one and that every column
stands inside one. The first violation in the order of the text is reported;
`inside` tells that the expression stands inside a call. -/
def Expr.checkAggregate (inside : Bool) : Expr → Except EvalError Unit
  | .ident name =>
    if inside then .ok () else .error ⟨name.position, .ungroupedColumn name.name⟩
  | .call function arguments =>
    if isAggregate function.name then
      if inside then .error ⟨function.position, .nestedAggregate⟩
      else Expr.checkAllAggregate true arguments
    else Expr.checkAllAggregate inside arguments
  | .unary _ _ operand => operand.checkAggregate inside
  | .binary _ lhs rhs => do
    lhs.checkAggregate inside
    rhs.checkAggregate inside
  | .literal _ _ => .ok ()
  | .star _ => .ok ()

def Expr.checkAllAggregate (inside : Bool) : List Expr → Except EvalError Unit
  | [] => .ok ()
  | first :: rest => do
    first.checkAggregate inside
    Expr.checkAllAggregate inside rest

end

/-- The slot of a call. The function has to be an aggregate one and takes one
argument; a star as the argument of a count counts rows. -/
def Slot.ofCall (function : Ident) (arguments : List Expr) : Except Fault Slot :=
  match AggregateFunction.ofName? function.name with
  | none => .error (.unknownFunction function.name)
  | some known =>
    match known, arguments with
    | .count, [.star _] => .ok ⟨none, .rows 0⟩
    | known, [argument] => .ok ⟨some argument, .start known⟩
    | known, arguments => .error (.aggregateArity known arguments.length)

/-- Takes an expression apart. The slots of its calls, from left to right, follow the
slots that are there already; those before an error stay. -/
def Shell.ofExpr (slots : List Slot) : Expr → Except EvalError Shell × List Slot
  | .call function arguments =>
    match faultAt function.position (Slot.ofCall function arguments) with
    | .error e => (.error e, slots)
    | .ok new => (.ok (.slot slots.length), slots ++ [new])
  | .unary position op operand =>
    match Shell.ofExpr slots operand with
    | (.error e, slots) => (.error e, slots)
    | (.ok operand, slots) => (.ok (.unary position op operand), slots)
  | .binary op lhs rhs =>
    match Shell.ofExpr slots lhs with
    | (.error e, slots) => (.error e, slots)
    | (.ok left, slots) =>
      match Shell.ofExpr slots rhs with
      | (.error e, slots) => (.error e, slots)
      | (.ok right, slots) => (.ok (.binary lhs.position op left right), slots)
  | e => (.ok (.leaf e), slots)

/-- Evaluates a shell on the results of all slots. -/
def Shell.eval (results : List (Option Value)) : Shell → Except EvalError (Option Value)
  | slot index =>
    match results[index]? with
    | some result => .ok result
    | none => .error ⟨.start, .misuse (.outOfBounds results.length index)⟩
  | unary position op operand => do
    let operand ← operand.eval results
    faultAt position (Operator.unary op operand)
  | binary position op lhs rhs => do
    let left ← lhs.eval results
    let right ← rhs.eval results
    faultAt position (Operator.binary op left right)
  | leaf e => e.eval .empty

/-- Takes one more row into a slot. A fault of the function is put at its argument,
or at the given position if it has none. -/
def Slot.step (position : Position) (scope : Scope) (s : Slot) : Except EvalError Slot := do
  let value ← match s.argument with
    | some argument => argument.eval scope
    | none => .ok none
  let accumulator ← faultAt (s.argument.elim position Expr.position) (s.accumulator.step value)
  return { s with accumulator }

end PocketSql
