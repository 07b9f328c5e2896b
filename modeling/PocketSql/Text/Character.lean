import PocketSql.Text.WhiteSpace
import PocketSql.Text.Alphabetic
import PocketSql.Text.Numeric

/-!
# Character classes

The classes that decide where a word or a run of blanks ends. They are those of
Unicode, so a word may be written in any script. Numbers are not read by these
classes: only the ten ASCII digits have a value.
-/

namespace PocketSql.Text

def isBlank (c : Char) : Bool :=
  whiteSpace.covers c.toNat

def isLetter (c : Char) : Bool :=
  alphabetic.covers c.toNat

/-- What may begin a word. -/
def isWordStart (c : Char) : Bool :=
  isLetter c || c == '_'

/-- What may continue a word. -/
def isWordPart (c : Char) : Bool :=
  isLetter c || numeric.covers c.toNat || c == '_'

def skipBlanks (text : List Char) : List Char :=
  text.dropWhile isBlank

end PocketSql.Text
