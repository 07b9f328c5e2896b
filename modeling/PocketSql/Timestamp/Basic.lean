import PocketSql.Timestamp.Civil

/-!
# Timestamps

A timestamp is an instant that remembers the local time in which it was written.
Its text shows the local time to whole seconds; its order is that of instants.
-/

namespace PocketSql

/-- A civil time that exists. -/
structure Timestamp extends CivilTime where
  valid : toCivilTime.Valid
deriving DecidableEq

namespace Timestamp

def ofCivil? (t : CivilTime) : Option Timestamp :=
  if valid : t.Valid then some ⟨t, valid⟩ else none

/-- Earlier instants come first, whatever their offsets. -/
def order (a b : Timestamp) : Ordering :=
  (compare a.unixSeconds b.unixSeconds).then (compare a.subsecond b.subsecond)

/-- The decimal digits of a number behind as many zeros as fill the width. -/
def padded (width n : Nat) : List Char :=
  List.replicate (width - (Nat.toDigits 10 n).length) '0' ++ Nat.toDigits 10 n

/-- Four digits, behind a sign for the years before zero and after 9999. -/
def yearText (year : Int) : List Char :=
  if 0 ≤ year ∧ year ≤ 9999 then padded 4 year.toNat
  else (if year < 0 then '-' else '+') :: padded 4 year.natAbs

/-- `Z` for UTC, otherwise a sign, two digits for the hours, a colon and two
digits for the minutes. -/
def offsetText (offset : Int) : List Char :=
  if offset = 0 then ['Z']
  else
    (if offset < 0 then '-' else '+') ::
      padded 2 (offset.natAbs / 3600) ++ ':' :: padded 2 (offset.natAbs / 60 % 60)

def textChars (t : Timestamp) : List Char :=
  yearText t.year ++ '-' :: padded 2 t.month ++ '-' :: padded 2 t.day ++
    'T' :: padded 2 t.hour ++ ':' :: padded 2 t.minute ++ ':' :: padded 2 t.second ++
    offsetText t.offset

/-- The date, a `T`, the time to whole seconds and the offset. -/
def text (t : Timestamp) : String :=
  String.ofList t.textChars

end Timestamp

end PocketSql
