import PocketSql.Number.Text
import PocketSql.Text.Character
import PocketSql.Text.Lowercase
import PocketSql.Token.Basic

/-!
# Lexemes

Reading one token from the front of a text that does not begin with a blank.
Nothing is skipped or read twice: the raw characters of a lexeme and the rest
make up the text, and a lexeme has at least one character.
-/

namespace PocketSql

/-- A token without its position, the characters it was read from and the rest of
the text. -/
structure Lexeme where
  kind : Kind
  literal : String
  raw : List Char
  rest : List Char
deriving DecidableEq

namespace Lexeme

/-- The characters of numeric literals. -/
def isNumberPart (c : Char) : Bool :=
  Char.isDigit c || c == '.' || c == 'e'

/-- A number begins with a digit, or with a point that a digit follows. -/
def startsNumber : List Char → Bool
  | '.' :: c :: _ => Char.isDigit c
  | c :: _ => Char.isDigit c
  | [] => false

/-- A run of such characters is a token if it is the text of a number. -/
def ofNumber (raw rest : List Char) : Except LexFault Lexeme :=
  if (Number.read? raw).isSome then .ok ⟨.numberLiteral, String.ofList raw, raw, rest⟩
  else .error (.invalidNumber (String.ofList raw))

/-- Takes the longest run of digits, points and the letter `e`. -/
def readNumber (text : List Char) : Except LexFault Lexeme :=
  ofNumber (text.takeWhile isNumberPart) (text.dropWhile isNumberPart)

/-- A word is a keyword or an identifier by its small letters. -/
def ofWord (raw rest : List Char) : Lexeme :=
  match Kind.keyword? (Text.lowercase raw) with
  | some kind => ⟨kind, "", raw, rest⟩
  | none => ⟨.identifier, String.ofList (Text.lowercase raw), raw, rest⟩

/-- Takes the longest run of letters, digits and underscores. -/
def readWord (text : List Char) : Lexeme :=
  ofWord (text.takeWhile Text.isWordPart) (text.dropWhile Text.isWordPart)

/-- Takes a symbol that the text begins with. -/
def readSymbol (kind : Kind) (text : List Char) : Lexeme :=
  ⟨kind, "", kind.text.toList, text.drop kind.text.toList.length⟩

/-- The contents of a string literal behind its opening quote, with the characters
up to and including the closing quote and the rest. A quote inside is written
twice, and a carriage return with a line feed is read as the line feed. -/
def stringBody : List Char → Option (List Char × List Char × List Char)
  | [] => none
  | '\'' :: '\'' :: text =>
    (stringBody text).map fun (content, raw, rest) =>
      ('\'' :: content, '\'' :: '\'' :: raw, rest)
  | '\r' :: '\n' :: text =>
    (stringBody text).map fun (content, raw, rest) =>
      ('\n' :: content, '\r' :: '\n' :: raw, rest)
  | c :: text =>
    if c = '\'' then some ([], ['\''], text)
    else (stringBody text).map fun (content, raw, rest) => (c :: content, c :: raw, rest)

/-- Takes a string literal, from behind its opening quote. -/
def readString (text : List Char) : Except LexFault Lexeme :=
  match stringBody text with
  | some (content, raw, rest) =>
    .ok ⟨.stringLiteral, String.ofList content, '\'' :: raw, rest⟩
  | none => .error .unterminatedString

/-- Takes the lexeme at the front of the text whose first character is `c`. -/
def read (c : Char) (text : List Char) : Except LexFault Lexeme :=
  if startsNumber (c :: text) then readNumber (c :: text)
  else
    match Kind.symbol? (c :: text) with
    | some kind => .ok (readSymbol kind (c :: text))
    | none =>
      if c = '\'' then readString text
      else if Text.isWordStart c then .ok (readWord (c :: text))
      else .error (.unexpectedChar c)

theorem isNumberPart_of_startsNumber {c : Char} {text : List Char}
    (h : startsNumber (c :: text) = true) : isNumberPart c = true := by
  unfold startsNumber at h
  split at h
  · next heq =>
    obtain ⟨rfl, -⟩ := List.cons.inj heq
    rfl
  · next heq =>
    obtain ⟨rfl, -⟩ := List.cons.inj heq
    simp [isNumberPart, h]
  · contradiction

theorem isWordPart_of_isWordStart {c : Char} (h : Text.isWordStart c = true) :
    Text.isWordPart c = true := by
  unfold Text.isWordStart at h
  unfold Text.isWordPart
  grind

theorem raw_append_stringBody {text content raw rest : List Char}
    (h : stringBody text = some (content, raw, rest)) : raw ++ rest = text := by
  fun_induction stringBody text generalizing content raw rest with
  | case1 => contradiction
  | case2 text ih =>
    obtain ⟨⟨_, _, _⟩, hbody, hparts⟩ := Option.map_eq_some_iff.mp h
    cases hparts
    simp [ih hbody]
  | case3 text ih =>
    obtain ⟨⟨_, _, _⟩, hbody, hparts⟩ := Option.map_eq_some_iff.mp h
    cases hparts
    simp [ih hbody]
  | case4 text =>
    cases h
    rfl
  | case5 c text _ _ _ ih =>
    obtain ⟨⟨_, _, _⟩, hbody, hparts⟩ := Option.map_eq_some_iff.mp h
    cases hparts
    simp [ih hbody]

@[simp]
theorem ofWord_raw (raw rest : List Char) : (ofWord raw rest).raw = raw := by
  unfold ofWord
  split <;> rfl

@[simp]
theorem ofWord_rest (raw rest : List Char) : (ofWord raw rest).rest = rest := by
  unfold ofWord
  split <;> rfl

theorem raw_of_ofNumber {raw rest : List Char} {l : Lexeme} (h : ofNumber raw rest = .ok l) :
    l.raw = raw ∧ l.rest = rest := by
  unfold ofNumber at h
  split at h
  · cases h
    exact ⟨rfl, rfl⟩
  · contradiction

theorem symbol_text_ne_nil {kind : Kind} (h : kind ∈ Kind.symbols) :
    kind.text.toList ≠ [] := by
  revert kind
  decide

theorem raw_append_readSymbol {kind : Kind} {text : List Char}
    (h : Kind.symbol? text = some kind) :
    (readSymbol kind text).raw ++ (readSymbol kind text).rest = text := by
  have hbegins := List.find?_some h
  rw [List.isPrefixOf_iff_prefix] at hbegins
  exact (List.prefix_iff_eq_append.mp hbegins)

/-- The raw characters and the rest make up the text. -/
theorem raw_append_rest {c : Char} {text : List Char} {l : Lexeme}
    (h : read c text = .ok l) : l.raw ++ l.rest = c :: text := by
  unfold read at h
  split at h
  · obtain ⟨hraw, hrest⟩ := raw_of_ofNumber h
    rw [hraw, hrest, List.takeWhile_append_dropWhile]
  · split at h
    · next kind hkind =>
      cases h
      exact raw_append_readSymbol hkind
    · split at h
      · next hc =>
        unfold readString at h
        split at h
        · next hbody =>
          cases h
          simp [raw_append_stringBody hbody, hc]
        · contradiction
      · split at h
        · cases h
          simp [readWord]
        · contradiction

/-- A lexeme has at least one character. -/
theorem raw_ne_nil {c : Char} {text : List Char} {l : Lexeme}
    (h : read c text = .ok l) : l.raw ≠ [] := by
  unfold read at h
  split at h
  · next hstart =>
    obtain ⟨hraw, -⟩ := raw_of_ofNumber h
    simp [hraw, isNumberPart_of_startsNumber hstart]
  · split at h
    · next kind hkind =>
      cases h
      exact symbol_text_ne_nil (List.mem_of_find?_eq_some hkind)
    · split at h
      · unfold readString at h
        split at h
        · cases h
          simp
        · contradiction
      · split at h
        · next hword =>
          cases h
          simp [readWord, isWordPart_of_isWordStart hword]
        · contradiction

theorem length_rest_lt {c : Char} {text : List Char} {l : Lexeme}
    (h : read c text = .ok l) : l.rest.length < (c :: text).length := by
  have happend := congrArg List.length (raw_append_rest h)
  have hpos := List.length_pos_iff.mpr (raw_ne_nil h)
  rw [List.length_append] at happend
  omega

end Lexeme

end PocketSql
