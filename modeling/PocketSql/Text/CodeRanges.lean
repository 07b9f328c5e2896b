/-!
# Sets of code points

A property of characters is kept as a sorted list of closed ranges of code
points, the form in which the Unicode character database lists it.
-/

namespace PocketSql.Text

/-- Closed ranges `(first, last)` of code points, in increasing order. -/
abbrev CodeRanges := List (Nat × Nat)

/-- Whether a range of the list holds the code point. The ranges are sorted, so
the first one that starts beyond it ends the search. -/
def CodeRanges.covers : CodeRanges → Nat → Bool
  | [], _ => false
  | (first, last) :: rest, code =>
    if code < first then false
    else if code ≤ last then true
    else CodeRanges.covers rest code

end PocketSql.Text
