import PocketSql.Token.Lexeme

/-!
# Token streams

The tokens of a text, up to its end or to the first place where no token can be
read. Every token, the end and the error carry the position behind the text
before them.
-/

namespace PocketSql

/-- The position behind the blanks that a text begins with. -/
def Position.afterBlanks (p : Position) (text : List Char) : Position :=
  p.after (text.takeWhile Text.isBlank)

/-- The token of a lexeme that begins at a position. -/
def Lexeme.token (l : Lexeme) (position : Position) : Token :=
  ⟨l.kind, position, l.literal⟩

/-- What a reader of tokens has before it. -/
inductive TokenStream where
  /-- Nothing but the end of the text. -/
  | done (position : Position)
  /-- Text that is no token. -/
  | broken (error : LexError)
  | next (token : Token) (rest : TokenStream)

namespace TokenStream

/-- The number of tokens before the end or the error. -/
@[simp]
def length : TokenStream → Nat
  | done _ => 0
  | broken _ => 0
  | next _ rest => rest.length + 1

/-- The tokens of a text that begins at the given position. -/
def ofChars (position : Position) (text : List Char) : TokenStream :=
  match _hskip : Text.skipBlanks text with
  | [] => .done (position.afterBlanks text)
  | c :: rest =>
    match _hread : Lexeme.read c rest with
    | .error fault => .broken ⟨position.afterBlanks text, fault⟩
    | .ok lexeme =>
      .next (lexeme.token (position.afterBlanks text))
        (ofChars ((position.afterBlanks text).after lexeme.raw) lexeme.rest)
termination_by text.length
decreasing_by
  have hrest := Lexeme.length_rest_lt _hread
  have hblanks := (List.dropWhile_suffix Text.isBlank (l := text)).length_le
  rw [Text.skipBlanks] at _hskip
  rw [_hskip] at hblanks
  omega

def ofString (text : String) : TokenStream :=
  ofChars .start text.toList

/-- The tokens of a list, with the end at the given position. -/
def ofList (tokens : List Token) (finish : Position) : TokenStream :=
  tokens.foldr next (done finish)

/-- All tokens and a final one for the end, or the error. -/
def toList : TokenStream → Except LexError (List Token)
  | done position => .ok [⟨.eof, position, ""⟩]
  | broken error => .error error
  | next token rest => do return token :: (← rest.toList)

end TokenStream

/-- The tokens of a text with a final one for its end. -/
def tokenize (text : String) : Except LexError (List Token) :=
  (TokenStream.ofString text).toList

end PocketSql
