import PocketSql.Token.Stream

/-!
# Syntax errors

Why a text is not a batch of statements: it has no token at some place, a token
does not fit, an integer is too large, or an expression is too deep.
-/

namespace PocketSql

inductive ParseFault where
  | unexpected (found : Kind) (expected : List Kind)
  | integerOutOfRange (literal : String)
  | tooDeep (limit : Nat)
deriving DecidableEq

abbrev ParseError := Located ParseFault

inductive SyntaxError where
  | lexical (error : LexError)
  | grammatical (error : ParseError)
  /-- A number token whose literal is no number; no text gives one. -/
  | malformedNumber (literal : String)
deriving DecidableEq

def ParseFault.message : ParseFault → String
  | unexpected found expected =>
    "current token is \"" ++ found.text ++ "\", want one of [" ++
      " ".intercalate (expected.map Kind.text) ++ "]"
  | integerOutOfRange literal => "integer literal out of range: " ++ literal
  | tooDeep limit => "expression nested deeper than " ++ toString limit ++ " levels"

def ParseError.message (e : ParseError) : String :=
  "parse error at " ++ e.position.text ++ ": " ++ e.value.message

def SyntaxError.message : SyntaxError → String
  | lexical error => error.message
  | grammatical error => error.message
  | malformedNumber literal =>
    "internal error: unvalidated numeric literal " ++ Text.quote literal

end PocketSql
