import PocketSql.Token.Stream

/-!
# Scanning

A scanner steps through a text one token at a time. It keeps the last token, and
once it has met the end or an error no step changes it any more.
-/

namespace PocketSql

structure Scanner where
  /-- Where the unread text begins. -/
  position : Position
  /-- The unread text. -/
  rest : List Char
  token : Token
  error : Option LexError

namespace Scanner

def ofString (text : String) : Scanner :=
  ⟨.start, text.toList, ⟨.eof, .start, ""⟩, none⟩

/-- The scanner that has met the end at a position. -/
def atEnd (position : Position) : Scanner :=
  ⟨position, [], ⟨.eof, position, ""⟩, none⟩

/-- The scanner that has met an error, before the text that is no token. -/
def failed (error : LexError) (text : List Char) : Scanner :=
  ⟨error.position, text, ⟨.eof, error.position, ""⟩, some error⟩

/-- Moves to the next token and tells whether there was one. -/
def scan (s : Scanner) : Bool × Scanner :=
  if s.error.isSome then (false, s)
  else
    match Text.skipBlanks s.rest with
    | [] => (false, atEnd (s.position.afterBlanks s.rest))
    | c :: text =>
      match Lexeme.read c text with
      | .error fault => (false, failed ⟨s.position.afterBlanks s.rest, fault⟩ (c :: text))
      | .ok lexeme =>
        (true,
          { position := (s.position.afterBlanks s.rest).after lexeme.raw
            rest := lexeme.rest
            token := lexeme.token (s.position.afterBlanks s.rest)
            error := none })

end Scanner

end PocketSql
