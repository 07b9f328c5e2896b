/-!
# Shortest decimals

A finite double stands for all reals that round to it. Of the decimals among
them, `Magnitude.shortest` takes one with the fewest digits, and of those the
nearest to the double. The search is exact: it goes from coarse to fine through
the decimal grids and asks of each whether one of the two grid points next to
the double lies in the interval.
-/

namespace PocketSql.Number

/-- The value `digits * 10 ^ exponent`. -/
structure Decimal where
  digits : Nat
  exponent : Int
deriving DecidableEq

/-- The magnitude `significand * 2 ^ exponent` of a finite double. -/
structure Magnitude where
  significand : Nat
  exponent : Int
deriving DecidableEq

namespace Magnitude

/-- Two to the power of 52, the least significand of a double with all its digits. -/
def fullSignificand : Nat := 4503599627370496

/-- The exponent of the smallest doubles. -/
def leastExponent : Int := -1074

/-- The magnitude in the lower 63 bits of a double that is finite: eleven bits of a
biased exponent before 52 bits of the significand. -/
def ofBits (bits : Nat) : Magnitude :=
  if bits / fullSignificand = 0 then ⟨bits, leastExponent⟩
  else ⟨fullSignificand + bits % fullSignificand, leastExponent + bits / fullSignificand - 1⟩

/-- Four times the distance from the double down to the end of the interval that
rounds to it, in units of the last place. It is one instead of two where the
doubles below lie twice as dense. -/
def quartersBelow (x : Magnitude) : Nat :=
  if x.significand = fullSignificand ∧ x.exponent ≠ leastExponent then 1 else 2

/-- The power of a base, or one for a negative exponent. A factor with any exponent is
`powerUp base e` in the numerator and `powerUp base (-e)` in the denominator. -/
def powerUp (base : Nat) (exponent : Int) : Nat :=
  Nat.pow base exponent.toNat

/-- Four times `point * 10 ^ grid`, in units that make `scaledLow` and `scaledHigh`
comparable with it. -/
def scaledPoint (x : Magnitude) (grid : Int) (point : Nat) : Nat :=
  4 * point * powerUp 10 grid * powerUp 2 (-x.exponent)

/-- The lower end of the interval that rounds to the double. -/
def scaledLow (x : Magnitude) (grid : Int) : Nat :=
  (4 * x.significand - x.quartersBelow) * powerUp 10 (-grid) * powerUp 2 x.exponent

/-- The upper end of the interval that rounds to the double. -/
def scaledHigh (x : Magnitude) (grid : Int) : Nat :=
  (4 * x.significand + 2) * powerUp 10 (-grid) * powerUp 2 x.exponent

/-- Whether `point * 10 ^ grid` rounds to the double. The ends of the interval do
so exactly if the significand is even. -/
def admits (x : Magnitude) (grid : Int) (point : Nat) : Bool :=
  if x.significand % 2 = 0 then
    x.scaledLow grid ≤ x.scaledPoint grid point && x.scaledPoint grid point ≤ x.scaledHigh grid
  else
    x.scaledLow grid < x.scaledPoint grid point && x.scaledPoint grid point < x.scaledHigh grid

/-- The double in units of `10 ^ grid` is `numerator / denominator`. -/
def numerator (x : Magnitude) (grid : Int) : Nat :=
  x.significand * powerUp 2 x.exponent * powerUp 10 (-grid)

def denominator (x : Magnitude) (grid : Int) : Nat :=
  powerUp 2 (-x.exponent) * powerUp 10 grid

/-- The point of a grid next to the double from below. -/
def pointBelow (x : Magnitude) (grid : Int) : Nat :=
  x.numerator grid / x.denominator grid

/-- Whether the next point up is at least as near to the double as the one below. -/
def leansUp (x : Magnitude) (grid : Int) : Bool :=
  x.denominator grid ≤ 2 * (x.numerator grid % x.denominator grid)

/-- The better of the two points of a grid next to the double, if one of them
rounds to it. Halfway between two points that both do, the upper one is taken. -/
def nearestOn (x : Magnitude) (grid : Int) : Option Nat :=
  if x.admits grid (x.pointBelow grid) then
    if x.admits grid (x.pointBelow grid + 1) && x.leansUp grid then some (x.pointBelow grid + 1)
    else some (x.pointBelow grid)
  else if x.admits grid (x.pointBelow grid + 1) then some (x.pointBelow grid + 1)
  else none

/-- Tries the grids from `10 ^ grid` downwards. -/
def search (x : Magnitude) (grid : Int) : Nat → Decimal
  | 0 => ⟨0, 0⟩
  | steps + 1 =>
    match x.nearestOn grid with
    | some point => ⟨point, grid⟩
    | none => x.search (grid - 1) steps

/-- A power of ten above the double: `30103 / 100000` is a little more than the
decimal logarithm of two. -/
def topGrid (x : Magnitude) : Int :=
  (x.significand.log2 + 1 + x.exponent) * 30103 / 100000 + 1

/-- Seventeen digits always suffice, so twenty grids from the top one do too. -/
def shortest (x : Magnitude) : Decimal :=
  x.search x.topGrid 20

end Magnitude

end PocketSql.Number
