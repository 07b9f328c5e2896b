import PocketSql.Timestamp.Basic
import PocketSql.Timestamp.Reader

/-!
# Timestamp texts

The layouts in which a timestamp may be written: the internet date format, the
mail date format, a layout that begins with the day of the week and ends with
the year, and dates with an optional time of day that are read as UTC.
-/

namespace PocketSql.Timestamp

open Reader

/-- Reads `YYYY-MM-DD`, a `T` or a space, `HH:MM:SS` with an optional fraction,
and `Z` or an offset with a colon. -/
def internetDate : Reader CivilTime := do
  let year ← fixed 4
  char '-'
  let month ← fixed 2
  char '-'
  let day ← fixed 2
  unless ← skips ['T', 't'] do char ' '
  let hour ← fixed 2
  char ':'
  let minute ← fixed 2
  char ':'
  let second ← fixed 2
  let nanosecond ← fraction
  let offset ← if ← skips ['Z', 'z'] then pure 0 else offset (char ':') true
  return ⟨year, month, day, hour, minute, second, nanosecond, offset⟩

/-- Reads the day of the week and the comma behind it, if a day's name comes next. -/
def mailWeekday : Reader (Option Nat) := fun text =>
  match name weekdayNames text with
  | some (day, ',' :: rest) => some (some day, rest)
  | some _ => none
  | none => some (none, text)

/-- Reads a year of at least two digits. Two digits stand for the years from 1950
to 2049, and three count from 1900. -/
def mailYear : Reader Nat := do
  let run ← digits 2
  if run.length = 2 then
    return if valueOf run < 50 then valueOf run + 2000 else valueOf run + 1900
  else if run.length = 3 then
    return valueOf run + 1900
  else
    return valueOf run

/-- Reads the seconds behind a colon, if one comes next. -/
def mailSecond : Reader Nat := fun text =>
  match Text.skipBlanks text with
  | ':' :: rest => fixed 2 rest
  | _ => some (0, text)

/-- The names of zones in small letters, with their offsets in hours. -/
def zones : List (String × Int) :=
  [("gmt", 0), ("ut", 0), ("edt", -4), ("est", -5), ("cdt", -5), ("cst", -6),
    ("mdt", -6), ("mst", -7), ("pdt", -7), ("pst", -8)]

/-- The offset in hours of a name in small letters. Any one letter but `j` stands for
no offset. -/
def zoneHours? (letters : List Char) : Option Int :=
  (zones.lookup (String.ofList letters)).or
    (if letters.length = 1 ∧ letters ≠ ['j'] then some 0 else none)

/-- Reads the name of a zone, or an offset of four digits. -/
def mailZone : Reader Int := fun text =>
  if text.takeWhile Char.isAlpha = [] then offset (pure ()) false text
  else
    (zoneHours? ((text.takeWhile Char.isAlpha).map Char.toLower)).map fun hours =>
      (hours * 3600, text.dropWhile Char.isAlpha)

/-- Reads a mail date up to its zone. -/
def mailDate : Reader CivilTime := do
  blanks
  let weekday ← mailWeekday
  blanks
  let day ← numberUpTo 1 2
  someBlanks
  let month ← month
  someBlanks
  let year ← mailYear
  someBlanks
  let hour ← fixed 2
  blanks
  char ':'
  blanks
  let minute ← fixed 2
  let second ← mailSecond
  someBlanks
  let offset ← mailZone
  let date : CivilTime := ⟨year, month, day, hour, minute, second, 0, offset⟩
  if weekday.all (· = date.weekday) then return date else failure

/-- Whether the text is a run of comments in parentheses, each behind any number
of blanks. Comments nest, and a backslash takes its meaning from the character
after it. `depth` counts the open parentheses, and `blank` tells that the text
has just gone through a blank outside all comments. -/
def isComments : (depth : Nat) → (blank : Bool) → List Char → Bool
  | 0, blank, [] => !blank
  | _ + 1, _, [] => false
  | 0, _, c :: rest =>
    if c = '(' then isComments 1 false rest else Text.isBlank c && isComments 0 true rest
  | depth + 1, _, '\\' :: _ :: rest => isComments (depth + 1) false rest
  | depth + 1, _, c :: rest =>
    if c = '(' then isComments (depth + 2) false rest
    else if c = ')' then isComments depth false rest
    else isComments (depth + 1) false rest

/-- Reads the day of the week, the month, the day, the time, the offset and the
year, with blanks between them or not. -/
def longDate : Reader CivilTime := do
  let weekday ← name weekdayNames
  blanks
  let month ← month
  blanks
  let day ← short
  blanks
  let hour ← short
  char ':'
  let minute ← short
  char ':'
  let second ← short
  blanks
  let offset ← offset blanksOrColons true
  blanks
  let year ← signedYear
  let date : CivilTime := ⟨year, month, day, hour, minute, second, 0, offset⟩
  if weekday = date.weekday then return date else failure

/-- Reads a date as its midnight in UTC. -/
def plainDate : Reader CivilTime := do
  let year ← signedYear
  char '-'
  let month ← short
  char '-'
  let day ← short
  return ⟨year, month, day, 0, 0, 0, 0, 0⟩

/-- Reads a date, a `T` or any number of blanks, and a time with an optional
fraction, in UTC. -/
def plainDateTime : Reader CivilTime := do
  let date ← plainDate
  unless ← skips ['T'] do blanks
  let hour ← short
  char ':'
  let minute ← short
  char ':'
  let second ← short
  let nanosecond ← fraction
  return { date with hour, minute, second, nanosecond }

/-- Reads a whole text; `accepts` tells what may be left of it. -/
def readWhole (layout : Reader CivilTime) (accepts : List Char → Bool) (text : List Char) :
    Option Timestamp := do
  let (date, rest) ← layout text
  if accepts rest then ofCivil? date else none

/-- The text before ` UTC` or else before ` GMT`, if it ends in one of them. -/
def withoutZoneName (text : List Char) : List Char :=
  if text.drop (text.length - 4) = " UTC".toList ∨ text.drop (text.length - 4) = " GMT".toList then
    text.take (text.length - 4)
  else
    text

/-- Tries the layouts one after the other. -/
def parse? (text : List Char) : Option Timestamp :=
  readWhole internetDate List.isEmpty text
    <|> readWhole mailDate (isComments 0 false) text
    <|> readWhole longDate List.isEmpty text
    <|> readWhole plainDateTime List.isEmpty (withoutZoneName text)
    <|> readWhole plainDate List.isEmpty (withoutZoneName text)

end PocketSql.Timestamp
