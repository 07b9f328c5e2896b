/-!
# The order of numbers

Numbers are ordered as doubles, in which a value that is not a number has no
place. Integers take part as the nearest double.
-/

namespace PocketSql.Number

/-- How two doubles are ordered; the two zeros are equal, and nothing is ordered
with a value that is not a number. -/
def order? (a b : Float) : Option Ordering :=
  if a < b then some .lt
  else if a == b then some .eq
  else if b < a then some .gt
  else none

/-- The double nearest to an integer. Halfway between two of them it is the one with the
even significand. -/
def ofInteger (i : Int64) : Float :=
  .ofModel (.ofInt64 i)

/-- Cuts off the fraction. Beyond the integers it gives the nearest one, and zero
for a value that is not a number. -/
def truncate (x : Float) : Int64 :=
  x.toInt64

end PocketSql.Number
