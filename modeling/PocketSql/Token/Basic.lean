import PocketSql.Token.Kind
import PocketSql.Token.Position
import PocketSql.Text.Quoted

/-!
# Tokens

A token is a kind, the position of its first character and a literal. The
literal of an identifier is in small letters, that of a number is its text, and
that of a string its contents; all other tokens have none.
-/

namespace PocketSql

structure Token where
  kind : Kind
  position : Position
  literal : String
deriving DecidableEq

/-- The kind, with the literal in parentheses if the kind has literals. -/
def Token.text (t : Token) : String :=
  match t.kind with
  | .identifier => "Ident(" ++ t.literal ++ ")"
  | .numberLiteral => "NumberLiteral(" ++ t.literal ++ ")"
  | .stringLiteral => "StringLiteral(" ++ Text.quote t.literal ++ ")"
  | kind => kind.text

/-- Why no token could be read. -/
inductive LexFault where
  | unexpectedChar (c : Char)
  | invalidNumber (literal : String)
  | unterminatedString
deriving DecidableEq

abbrev LexError := Located LexFault

def LexFault.message : LexFault → String
  | unexpectedChar c => "unexpected character: " ++ String.singleton c
  | invalidNumber literal =>
    "invalid numeric literal: " ++ Text.quote literal ++ ": invalid float literal"
  | unterminatedString => "unterminated string"

def LexError.message (e : LexError) : String :=
  "lexer:" ++ e.position.text ++ ": " ++ e.value.message

end PocketSql
