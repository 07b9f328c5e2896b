import PocketSql.Text.Cased
import PocketSql.Text.CaseIgnorable
import PocketSql.Text.LowercaseMapping

/-!
# Lowercase text

The full lowercase mapping of Unicode. Two characters go beyond the simple
mappings: a dotted capital I becomes two characters, and the form of a capital
sigma depends on whether it ends a word.
-/

namespace PocketSql.Text

/-- The lowercase form of a character wherever it stands. -/
def lowercaseChar (c : Char) : List Char :=
  if c = '\u0130' then ['i', '\u0307']
  else [Char.ofNat (CaseRun.apply lowercaseRuns c.toNat)]

/-- Whether the text, less the case-ignorable characters that it starts with,
goes on with a cased one. -/
def meetsCased (text : List Char) : Bool :=
  match text.dropWhile fun c => caseIgnorable.covers c.toNat with
  | [] => false
  | c :: _ => cased.covers c.toNat

/-- A capital sigma ends a word when cased text stands before it and none
follows; `before` is what stands before it, the nearest character first. -/
def lowercaseSigma (before after : List Char) : Char :=
  if meetsCased before && !meetsCased after then '\u03C2' else '\u03C3'

/-- The lowercase form of `text`, which stands behind the reverse of `before`. -/
def lowercaseAfter (before : List Char) : List Char → List Char
  | [] => []
  | c :: rest =>
    (if c = '\u03A3' then [lowercaseSigma before rest] else lowercaseChar c) ++
      lowercaseAfter (c :: before) rest

def lowercase (text : List Char) : List Char :=
  lowercaseAfter [] text

end PocketSql.Text
