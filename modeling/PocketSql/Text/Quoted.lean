import PocketSql.Text.GraphemeExtend
import PocketSql.Text.Unprintable

/-!
# Quoted text

The form in which a string is shown: in double quotes, on one line, with every
character either visible or escaped.
-/

namespace PocketSql.Text

/-- Letters without a visible form: the fillers for missing parts of Hangul syllables. -/
def hangulFillers : CodeRanges := [(0x115F, 0x1160), (0x3164, 0x3164), (0xFFA0, 0xFFA0)]

/-- The voicing marks of halfwidth Katakana. They extend the letter before them, but are
written in a place of their own. -/
def halfwidthVoicingMarks : CodeRanges := [(0xFF9E, 0xFF9F)]

def isInvisible (c : Char) : Bool :=
  unprintable.covers c.toNat || hangulFillers.covers c.toNat

/-- Whether a character is drawn onto the one before it. -/
def isAttached (c : Char) : Bool :=
  graphemeExtend.covers c.toNat && !halfwidthVoicingMarks.covers c.toNat

/-- A code point in hexadecimal: a backslash, `u` and the digits in braces. -/
def escapeCode (c : Char) : List Char :=
  ['\\', 'u', '\x7b'] ++ Nat.toDigits 16 c.toNat ++ ['\x7d']

/-- A character has a short escape if it is a common control character, the
quote or the backslash; it is written by its code if it is invisible or would
attach to the character before it. -/
def escape (c : Char) : List Char :=
  if c = '\x00' then ['\\', '0']
  else if c = '\t' then ['\\', 't']
  else if c = '\r' then ['\\', 'r']
  else if c = '\n' then ['\\', 'n']
  else if c = '\\' then ['\\', '\\']
  else if c = '"' then ['\\', '"']
  else if isAttached c || isInvisible c then escapeCode c
  else [c]

def quote (text : String) : String :=
  String.ofList ('"' :: text.toList.flatMap escape ++ ['"'])

end PocketSql.Text
