import PocketSql.Number.Integer
import PocketSql.Number.Shortest

/-!
# Number texts

How a double is written and which texts are read as one. Writing is positional
at every magnitude; reading also takes exponents and the names of the values
that are not finite.
-/

namespace PocketSql.Number

/-- Puts a point before the last `places` digits, behind at least one digit. -/
def insertPoint (places : Nat) (digits : List Char) : List Char :=
  if places < digits.length then
    digits.take (digits.length - places) ++ '.' :: digits.drop (digits.length - places)
  else
    '0' :: '.' :: List.replicate (places - digits.length) '0' ++ digits

/-- Writes a decimal without an exponent, and without a point if that is not needed. -/
def Decimal.positional (x : Decimal) : List Char :=
  if 0 ≤ x.exponent then Nat.toDigits 10 x.digits ++ List.replicate x.exponent.toNat '0'
  else insertPoint x.exponent.natAbs (Nat.toDigits 10 x.digits)

/-- The digits of the double in the lower 63 bits, which may not be infinite. -/
def magnitudeText (bits : Nat) : List Char :=
  if bits = 0 then ['0'] else (Magnitude.ofBits bits).shortest.positional

/-- Two to the power of 63, the bit of a double's sign. -/
def signBit : Nat := 9223372036854775808

/-- Writes a double. Zero keeps its sign; a value that is not a number has none. -/
def chars (x : Float) : List Char :=
  if x.isNaN then "NaN".toList
  else
    (if signBit ≤ x.toBits.toNat then ['-'] else []) ++
      (if x.isInf then "inf".toList else magnitudeText (x.toBits.toNat % signBit))

def text (x : Float) : String :=
  String.ofList (chars x)

/-- The double nearest to `digits * 10 ^ exponent`. The digits count `length`
places, which tells the exponents beyond all doubles. -/
def ofDecimal (digits length : Nat) (exponent : Int) : Float :=
  if digits = 0 ∨ length + exponent < -400 then 0
  else if 400 < exponent then 1 / 0
  else Float.ofScientific digits (exponent < 0) exponent.natAbs

/-- The digits behind a point, if the text begins with one. -/
def fractionDigits : List Char → List Char
  | '.' :: rest => rest.takeWhile Char.isDigit
  | _ => []

/-- What follows the point and its digits, if the text begins with a point. -/
def afterFraction : List Char → List Char
  | '.' :: rest => rest.dropWhile Char.isDigit
  | rest => rest

/-- Reads an exponent: `e` or `E`, an optional sign and at least one digit. No
text stands for the exponent zero. -/
def readExponent? : List Char → Option Int
  | [] => some 0
  | e :: rest => if e = 'e' ∨ e = 'E' then Integer.readSigned? rest else none

/-- The double of the digits before and behind a point, of which there has to be one,
and the text of an exponent. -/
def ofParts? (whole fraction exponent : List Char) : Option Float :=
  if whole ++ fraction = [] then none
  else (readExponent? exponent).map fun e =>
    ofDecimal (Nat.ofDigitChars 10 (whole ++ fraction) 0) (whole ++ fraction).length
      (e - fraction.length)

/-- Reads a number without a sign: digits with an optional point, at least one
digit on either side of it, and an optional exponent. -/
def readUnsigned? (text : List Char) : Option Float :=
  ofParts? (text.takeWhile Char.isDigit) (fractionDigits (text.dropWhile Char.isDigit))
    (afterFraction (text.dropWhile Char.isDigit))

/-- Reads the name of a value that is not finite, in any case. -/
def readName? (text : List Char) : Option Float :=
  if text.map Char.toLower ∈ ["inf".toList, "infinity".toList] then some (1 / 0)
  else if text.map Char.toLower = "nan".toList then some (0 / 0)
  else none

/-- Reads a magnitude: a name or a number without a sign. -/
def readMagnitude? (text : List Char) : Option Float :=
  (readName? text).or (readUnsigned? text)

/-- Reads a magnitude behind an optional sign. -/
def read? (text : List Char) : Option Float :=
  match text with
  | '+' :: rest => readMagnitude? rest
  | '-' :: rest => (readMagnitude? rest).map fun x => -x
  | rest => readMagnitude? rest

end PocketSql.Number
