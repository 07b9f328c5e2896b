/-!
# Integers

Integers are 64-bit words with a sign. Every operation is the one on the
unbounded integers, and it fails where the result has no word.
-/

namespace PocketSql.Integer

/-- The word of an integer, if it has one. -/
def ofInt? (value : Int) : Option Int64 :=
  if -9223372036854775808 ≤ value ∧ value ≤ 9223372036854775807 then some (Int64.ofInt value)
  else none

def add? (a b : Int64) : Option Int64 :=
  ofInt? (a.toInt + b.toInt)

def sub? (a b : Int64) : Option Int64 :=
  ofInt? (a.toInt - b.toInt)

def mul? (a b : Int64) : Option Int64 :=
  ofInt? (a.toInt * b.toInt)

/-- Division toward zero. Besides a zero divisor it fails for the least word divided
by minus one. -/
def div? (a b : Int64) : Option Int64 :=
  if b = 0 then none else ofInt? (a.toInt.tdiv b.toInt)

def neg? (a : Int64) : Option Int64 :=
  ofInt? (-a.toInt)

/-- Reads a run of digits, which may not be empty. -/
def readDigits? (digits : List Char) : Option Nat :=
  if digits ≠ [] ∧ digits.all Char.isDigit then some (Nat.ofDigitChars 10 digits 0) else none

/-- Reads an optional sign and a run of digits. -/
def readSigned? (text : List Char) : Option Int :=
  match text with
  | '+' :: digits => (readDigits? digits).map Int.ofNat
  | '-' :: digits => (readDigits? digits).map fun value => -(value : Int)
  | digits => (readDigits? digits).map Int.ofNat

/-- Reads an optional sign and a run of digits whose value has a word. -/
def read? (text : List Char) : Option Int64 :=
  (readSigned? text).bind ofInt?

/-- The decimal digits of a value, behind a minus sign if it is negative. -/
def digits (value : Int) : List Char :=
  if value < 0 then '-' :: Nat.toDigits 10 value.natAbs else Nat.toDigits 10 value.natAbs

def text (value : Int64) : String :=
  String.ofList (digits value.toInt)

end PocketSql.Integer
