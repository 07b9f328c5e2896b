/-!
# Positions

A position is a line and a column of a text. The position behind a text depends
on that text alone, so every position that the library reports can be checked
against the text before it.
-/

namespace PocketSql

/-- Lines count from one, columns count characters from zero. -/
structure Position where
  line : Nat
  column : Nat
deriving DecidableEq

namespace Position

def start : Position := ⟨1, 0⟩

/-- Positions are ordered by line, then by column. -/
instance : LT Position where
  lt a b := a.line < b.line ∨ (a.line = b.line ∧ a.column < b.column)

/-- The position behind `text`, which begins at the given position. A line feed, a
carriage return, and a carriage return with a line feed each end one line. -/
def after (p : Position) : List Char → Position
  | [] => p
  | '\r' :: '\n' :: rest => after ⟨p.line + 1, 0⟩ rest
  | c :: rest =>
    if c = '\n' ∨ c = '\r' then after ⟨p.line + 1, 0⟩ rest
    else after ⟨p.line, p.column + 1⟩ rest

def text (p : Position) : String :=
  toString p.line ++ ":" ++ toString p.column

end Position

/-- A value, often the cause of an error, and the position it belongs to. -/
structure Located (α : Type) where
  position : Position
  value : α
deriving DecidableEq

end PocketSql
