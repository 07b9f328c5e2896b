import PocketSql.Query.Operator

/-!
# Accumulators

The running state of an aggregate function, which takes one value for each row.
-/

namespace PocketSql

/-- A running result. It is an integer until the first number comes in, and a number
from then on. -/
inductive Numeric where
  | integer (value : Int64)
  | number (value : Float)

namespace Numeric

def toFloat : Numeric → Float
  | integer value => Number.ofInteger value
  | number value => value

def toValue : Numeric → Value
  | integer value => .integer value
  | number value => .number value

/-- Takes a value as the input of a function, which has to be numeric. -/
def ofValue (function : AggregateFunction) : Value → Except Fault Numeric
  | .integer value => .ok (integer value)
  | .number value => .ok (number value)
  | value => .error (.invalidAggregateInput function value)

end Numeric

/-- The end of the order at which an accumulator looks for its result. -/
inductive Extremum where
  | least
  | greatest
deriving DecidableEq

namespace Extremum

def function : Extremum → AggregateFunction
  | least => .min
  | greatest => .max

def prefersInteger : Extremum → Int64 → Int64 → Bool
  | least, candidate, current => candidate.toInt < current.toInt
  | greatest, candidate, current => current.toInt < candidate.toInt

def prefersNumber : Extremum → Float → Float → Bool
  | least, candidate, current => candidate < current
  | greatest, candidate, current => current < candidate

/-- The better of two results. The current one stays unless the candidate is strictly
better. -/
def better (e : Extremum) : Numeric → Numeric → Numeric
  | .integer current, .integer candidate =>
    .integer (if e.prefersInteger candidate current then candidate else current)
  | current, candidate =>
    .number (if e.prefersNumber candidate.toFloat current.toFloat then candidate.toFloat
      else current.toFloat)

end Extremum

inductive Accumulator where
  /-- Counts rows. -/
  | rows (count : Nat)
  /-- Counts values that are not null. -/
  | values (count : Nat)
  | extremum (which : Extremum) (best : Option Numeric)
  | sum (total : Option Numeric)

namespace Accumulator

/-- The state of a function before the first row. -/
def start : AggregateFunction → Accumulator
  | .count => values 0
  | .min => extremum .least none
  | .max => extremum .greatest none
  | .sum => sum none

/-- Adds to a total. The sum of integers has to be an integer. -/
def addTo : Numeric → Numeric → Except Fault Numeric
  | .integer total, .integer addend =>
    (Operator.orOverflow (Integer.add? total addend)).map .integer
  | total, addend => .ok (.number (total.toFloat + addend.toFloat))

/-- Takes the value of one more row, in place. Null counts as a row and as nothing else.
The new state is written when nothing can fail anymore. -/
def intake (value : Option Value) : EStateM Fault Accumulator Unit := do
  match ← get, value with
  | rows count, _ => set (rows (count + 1))
  | values count, some _ => set (values (count + 1))
  | extremum which best, some value =>
    let candidate ← liftExcept (Numeric.ofValue which.function value)
    match best with
    | none => set (extremum which (some candidate))
    | some current => set (extremum which (some (which.better current candidate)))
  | sum total, some value =>
    let addend ← liftExcept (Numeric.ofValue .sum value)
    match total with
    | none => set (sum (some addend))
    | some total =>
      let total ← liftExcept (addTo total addend)
      set (sum (some total))
  | _, none => pure ()

/-- The state behind one more value. -/
def step (a : Accumulator) (value : Option Value) : Except Fault Accumulator :=
  match intake value a with
  | .ok _ a => .ok a
  | .error fault _ => .error fault

/-- The result for the rows so far. -/
def result : Accumulator → Option Value
  | rows count => some (.integer (Int64.ofNat count))
  | values count => some (.integer (Int64.ofNat count))
  | extremum _ best => best.map Numeric.toValue
  | sum total => total.map Numeric.toValue

end Accumulator

end PocketSql
