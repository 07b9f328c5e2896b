import PocketSql.Text.Character

/-!
# Readers of fields

Small readers that take one field of a date or a time from the front of a text.
-/

namespace PocketSql.Timestamp

/-- Reads a value from the front of a text and leaves the rest. -/
abbrev Reader := StateT (List Char) Option

namespace Reader

/-- Reads as many digits as there are, and at least `least`. -/
def digits (least : Nat) : Reader (List Char) := fun text =>
  if (text.takeWhile Char.isDigit).length < least then none
  else some (text.takeWhile Char.isDigit, text.dropWhile Char.isDigit)

/-- Reads at most `most` digits, and at least `least`. -/
def digitsUpTo (least most : Nat) : Reader (List Char) := fun text =>
  if ((text.take most).takeWhile Char.isDigit).length < least then none
  else
    some ((text.take most).takeWhile Char.isDigit,
      text.drop ((text.take most).takeWhile Char.isDigit).length)

def valueOf (digits : List Char) : Nat :=
  Nat.ofDigitChars 10 digits 0

/-- Reads a number of as many digits as there are. -/
def number : Reader Nat :=
  valueOf <$> digits 1

def numberUpTo (least most : Nat) : Reader Nat :=
  valueOf <$> digitsUpTo least most

/-- Reads a number of exactly `width` digits. -/
def fixed (width : Nat) : Reader Nat :=
  numberUpTo width width

def char (c : Char) : Reader Unit := fun text =>
  match text with
  | d :: rest => if d = c then some ((), rest) else none
  | [] => none

/-- Reads one of the given characters if it comes next, and tells whether it did. -/
def skips (chars : List Char) : Reader Bool := fun text =>
  match text with
  | c :: rest => if c ∈ chars then some (true, rest) else some (false, text)
  | [] => some (false, [])

/-- Reads any number of blanks. -/
def blanks : Reader Unit := fun text =>
  some ((), Text.skipBlanks text)

/-- Reads at least one blank. -/
def someBlanks : Reader Unit := fun text =>
  match text with
  | c :: rest => if Text.isBlank c then some ((), Text.skipBlanks rest) else none
  | [] => none

/-- Reads one of the given names of three letters, in any case, as its index. -/
def name (names : List String) : Reader Nat := fun text =>
  (names.findIdx? fun name => name.toList = (text.take 3).map Char.toLower).map fun index =>
    (index, text.drop 3)

/-- Day names from Sunday on. -/
def weekdayNames : List String := ["sun", "mon", "tue", "wed", "thu", "fri", "sat"]

def monthNames : List String :=
  ["jan", "feb", "mar", "apr", "may", "jun", "jul", "aug", "sep", "oct", "nov", "dec"]

def month : Reader Nat := do
  return (← name monthNames) + 1

/-- Reads a fraction of a second, if a point comes next, as nanoseconds. At least
one digit follows the point, and the digits after the ninth do not count. -/
def fraction : Reader Nat := do
  if ← skips ['.'] then
    let run ← digits 1
    return valueOf (run.take 9) * Nat.pow 10 (9 - run.length)
  else
    return 0

/-- Reads the sign of an offset as whether it is negative. -/
def offsetSign (allowMinusSign : Bool) : Reader Bool := fun text =>
  match text with
  | '+' :: rest => some (false, rest)
  | '-' :: rest => some (true, rest)
  | c :: rest => if allowMinusSign && c == '\u2212' then some (true, rest) else none
  | [] => none

/-- Reads a sign, two digits for hours, a separator and two digits for minutes as
an offset in seconds. -/
def offset (separator : Reader Unit) (allowMinusSign : Bool) : Reader Int := do
  let negative ← offsetSign allowMinusSign
  let hours ← fixed 2
  separator
  let minutes ← fixed 2
  if minutes < 60 then
    let seconds : Int := hours * 3600 + minutes * 60
    return if negative then -seconds else seconds
  else
    failure

/-- Reads any mix of blanks and colons. -/
def blanksOrColons : Reader Unit := fun text =>
  some ((), text.dropWhile fun c => c == ':' || Text.isBlank c)

/-- Reads a number of one or two digits behind blanks. -/
def short : Reader Nat := do
  blanks
  numberUpTo 1 2

/-- Reads a year of one to four digits, or of any length behind a sign. -/
def signedYear : Reader Int := do
  blanks
  if ← skips ['-'] then
    return -(← number)
  else if ← skips ['+'] then
    return (← number)
  else
    return (← numberUpTo 1 4)

end Reader

end PocketSql.Timestamp
