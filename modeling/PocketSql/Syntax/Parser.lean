import PocketSql.Syntax.Fault
import PocketSql.Syntax.Statement

/-!
# Reading token streams

Expressions, statements and batches of statements, read from a stream of tokens.
What is read leaves fewer tokens than it found. The results carry that fact, so
readers can call each other without a measure of their own.

Expressions are read by the precedence of their operators. A depth is passed down
to the parts of an expression: parentheses, signs and every operator of a chain
raise it for what stands inside or behind them, up to a limit.
-/

namespace PocketSql

/-- A value read from a stream, and the rest of the stream, which has fewer than
`bound` tokens. -/
structure Parsed (α : Type) (bound : Nat) where
  value : α
  rest : TokenStream
  shorter : rest.length < bound

/-- The outcome of reading from a stream with fewer than `bound` tokens left. -/
abbrev Parse (α : Type) (bound : Nat) := Except SyntaxError (Parsed α bound)

namespace TokenStream

/-- The error for a stream that begins with none of the kinds that the grammar
allows there. Text that is no token is reported before anything else. -/
def unexpected (expected : List Kind) : TokenStream → SyntaxError
  | .done position => .grammatical ⟨position, .unexpected .eof expected⟩
  | .broken error => .lexical error
  | .next token _ => .grammatical ⟨token.position, .unexpected token.kind expected⟩

/-- Takes a token of the given kind. Where there is none, `expected` is reported. -/
def expectAmong (expected : List Kind) (kind : Kind) (s : TokenStream) :
    Parse Token s.length :=
  match s with
  | .next token rest =>
    if token.kind = kind then .ok ⟨token, rest, Nat.lt_succ_self _⟩
    else .error (unexpected expected (.next token rest))
  | s => .error (s.unexpected expected)

/-- Takes a token of the given kind, which has to come next. -/
def expect (kind : Kind) (s : TokenStream) : Parse Token s.length :=
  s.expectAmong [kind] kind

/-- Takes a token of the given kind if it comes next, and tells whether it did. -/
def accept (kind : Kind) (s : TokenStream) : Parse Bool (s.length + 1) :=
  match s with
  | .done position => .ok ⟨false, .done position, Nat.lt_succ_self _⟩
  | .broken error => .error (.lexical error)
  | .next token rest =>
    if token.kind = kind then .ok ⟨true, rest, by rw [length]; omega⟩
    else .ok ⟨false, .next token rest, Nat.lt_succ_self _⟩

def expectIdent (s : TokenStream) : Parse Ident s.length := do
  let ⟨token, rest, shorter⟩ ← s.expect .identifier
  return ⟨⟨token.position, token.literal⟩, rest, shorter⟩

/-- Reads one item, and another one behind every comma. -/
def commaSeparated {α : Type} (item : (s : TokenStream) → Parse α s.length) (s : TokenStream) :
    Parse (List α) s.length := do
  let ⟨first, rest, hfirst⟩ ← item s
  let ⟨more, rest, hmore⟩ ← rest.accept .comma
  if more then
    let ⟨others, rest, hothers⟩ ← rest.commaSeparated item
    return ⟨first :: others, rest, by omega⟩
  else
    return ⟨[first], rest, by omega⟩
termination_by s.length

end TokenStream

/-! ## Expressions -/

/-- The depth at which no part of an expression may be nested any more. -/
def maxDepth : Nat := 256

/-- The precedence of the loosest operators. -/
def lowestPrecedence : Nat := 1

/-- The kinds that begin a primary expression. -/
def primaryStart : List Kind :=
  [.leftParen, .identifier, .plus, .minus, .numberLiteral, .stringLiteral,
    .kwTrue, .kwFalse, .kwNull]

/-- Fails at the position if the limit of the depth is reached. -/
def checkDepth (depth : Nat) (position : Position) : Except SyntaxError Unit :=
  if depth < maxDepth then .ok ()
  else .error (.grammatical ⟨position, .tooDeep maxDepth⟩)

/-- A literal of digits alone is an integer, any other one a number. -/
def numberLiteral (token : Token) : Except SyntaxError Literal :=
  if token.literal.toList.all Char.isDigit then
    match Integer.read? token.literal.toList with
    | some value => .ok (.integer value)
    | none => .error (.grammatical ⟨token.position, .integerOutOfRange token.literal⟩)
  else
    match Number.read? token.literal.toList with
    | some value => .ok (.number value)
    | none => .error (.malformedNumber token.literal)

namespace TokenStream

mutual

/-- Reads a parenthesised expression, a name, a call, a sign with its primary, or
a literal. -/
def primary (depth : Nat) (s : TokenStream) : Parse Expr s.length :=
  match s with
  | .next token rest =>
    match token.kind with
    | .leftParen => do
      checkDepth depth token.position
      let ⟨inner, rest, hinner⟩ ← rest.expression (depth + 1) lowestPrecedence
      let ⟨_, rest, hclose⟩ ← rest.expect .rightParen
      return ⟨inner, rest, by rw [length]; omega⟩
    | .identifier => do
      let ⟨isCall, rest, hopen⟩ ← rest.accept .leftParen
      if isCall then
        let ⟨isEmpty, rest, hempty⟩ ← rest.accept .rightParen
        if isEmpty then
          return ⟨.call ⟨token.position, token.literal⟩ [], rest, by rw [length]; omega⟩
        else
          let ⟨arguments, rest, harguments⟩ ← rest.projections depth
          let ⟨_, rest, hclose⟩ ← rest.expect .rightParen
          return ⟨.call ⟨token.position, token.literal⟩ arguments, rest, by rw [length]; omega⟩
      else
        return ⟨.ident ⟨token.position, token.literal⟩, rest, by rw [length]; omega⟩
    | .plus | .minus => do
      checkDepth depth token.position
      let ⟨operand, rest, hoperand⟩ ← rest.primary (depth + 1)
      return ⟨.unary token.position token.kind operand, rest, by rw [length]; omega⟩
    | .numberLiteral => do
      let value ← numberLiteral token
      return ⟨.literal token.position value, rest, Nat.lt_succ_self _⟩
    | .stringLiteral =>
      .ok ⟨.literal token.position (.string token.literal), rest, Nat.lt_succ_self _⟩
    | .kwTrue => .ok ⟨.literal token.position (.boolean true), rest, Nat.lt_succ_self _⟩
    | .kwFalse => .ok ⟨.literal token.position (.boolean false), rest, Nat.lt_succ_self _⟩
    | .kwNull => .ok ⟨.literal token.position .null, rest, Nat.lt_succ_self _⟩
    | _ => .error (unexpected primaryStart (.next token rest))
  | s => .error (s.unexpected primaryStart)
termination_by (s.length, 0)

/-- Reads an expression whose operators outside parentheses all bind at least as
tightly as the given precedence. -/
def expression (depth precedence : Nat) (s : TokenStream) : Parse Expr s.length := do
  let ⟨first, rest, hfirst⟩ ← s.primary depth
  let ⟨whole, rest, hwhole⟩ ← rest.operators depth precedence first
  return ⟨whole, rest, by omega⟩
termination_by (s.length, 1)

/-- Folds the operators that follow an expression onto it from the left. The right
operand of each takes the tighter operators that follow it. -/
def operators (depth precedence : Nat) (lhs : Expr) (s : TokenStream) :
    Parse Expr (s.length + 1) :=
  match s with
  | .done position => .ok ⟨lhs, .done position, Nat.lt_succ_self _⟩
  | .broken error => .error (.lexical error)
  | .next token rest =>
    if token.kind.precedence = 0 ∨ token.kind.precedence < precedence then
      .ok ⟨lhs, .next token rest, Nat.lt_succ_self _⟩
    else do
      checkDepth depth token.position
      let ⟨rhs, rest, hrhs⟩ ← rest.expression (depth + 1) (token.kind.precedence + 1)
      let ⟨whole, rest, hwhole⟩ ←
        rest.operators (depth + 1) precedence (.binary token.kind lhs rhs)
      return ⟨whole, rest, by rw [length]; omega⟩
termination_by (s.length, 0)

/-- Reads a star or an expression. -/
def projection (depth : Nat) (s : TokenStream) : Parse Expr s.length :=
  match s with
  | .next token rest =>
    if token.kind = .star then .ok ⟨.star token.position, rest, Nat.lt_succ_self _⟩
    else expression depth lowestPrecedence (.next token rest)
  | s => s.expression depth lowestPrecedence
termination_by (s.length, 2)

/-- Reads stars and expressions between commas. -/
def projections (depth : Nat) (s : TokenStream) : Parse (List Expr) s.length := do
  let ⟨first, rest, hfirst⟩ ← s.projection depth
  let ⟨more, rest, hmore⟩ ← rest.accept .comma
  if more then
    let ⟨others, rest, hothers⟩ ← rest.projections depth
    return ⟨first :: others, rest, by omega⟩
  else
    return ⟨[first], rest, by omega⟩
termination_by (s.length, 3)

end

end TokenStream

/-! ## Statements -/

/-- The keywords that begin a statement. -/
def statementStart : List Kind :=
  [.kwCreate, .kwSelect, .kwInsert, .kwUpdate, .kwDelete]

namespace TokenStream

/-- Reads an expression that is no part of another one. -/
def wholeExpression (s : TokenStream) : Parse Expr s.length :=
  s.expression 0 lowestPrecedence

/-- Reads the expression behind a keyword, if the keyword comes next. -/
def clause (keyword : Kind) (s : TokenStream) : Parse (Option Expr) (s.length + 1) := do
  let ⟨present, rest, hkeyword⟩ ← s.accept keyword
  if present then
    let ⟨value, rest, hvalue⟩ ← rest.wholeExpression
    return ⟨some value, rest, by omega⟩
  else
    return ⟨none, rest, hkeyword⟩

def condition (s : TokenStream) : Parse (Option Expr) (s.length + 1) :=
  s.clause .kwWhere

def dataType (s : TokenStream) : Parse DataType s.length :=
  match s with
  | .next token rest =>
    match DataType.ofKeyword? token.kind with
    | some type => .ok ⟨type, rest, Nat.lt_succ_self _⟩
    | none => .error (unexpected DataType.keywords (.next token rest))
  | s => .error (s.unexpected DataType.keywords)

/-- Reads `NOT NULL`, `NULL` or nothing as whether nulls are allowed. -/
def nullability (s : TokenStream) : Parse Bool (s.length + 1) := do
  let ⟨negated, rest, hnot⟩ ← s.accept .kwNot
  if negated then
    let ⟨_, rest, hnull⟩ ← rest.expect .kwNull
    return ⟨false, rest, by omega⟩
  else
    let ⟨_, rest, hnull⟩ ← rest.accept .kwNull
    return ⟨true, rest, by omega⟩

/-- Reads a default and the auto-increment mark, at most one of each and in either
order, on top of those already read. -/
def fillClauses (default : Option Expr) (autoIncrement : Bool) (s : TokenStream) :
    Parse (Option Expr × Bool) (s.length + 1) :=
  match s with
  | .done position => .ok ⟨(default, autoIncrement), .done position, Nat.lt_succ_self _⟩
  | .broken error => .error (.lexical error)
  | .next token rest =>
    if token.kind = .kwDefault ∧ default.isNone then do
      let ⟨value, rest, hvalue⟩ ← rest.wholeExpression
      let ⟨clauses, rest, hclauses⟩ ← rest.fillClauses (some value) autoIncrement
      return ⟨clauses, rest, by rw [length]; omega⟩
    else if token.kind = .kwAutoIncrement ∧ autoIncrement = false then do
      let ⟨clauses, rest, hclauses⟩ ← rest.fillClauses default true
      return ⟨clauses, rest, by rw [length]; omega⟩
    else
      .ok ⟨(default, autoIncrement), .next token rest, Nat.lt_succ_self _⟩
termination_by s.length

def columnDefinition (s : TokenStream) : Parse ColumnDefinition s.length := do
  let ⟨name, rest, hname⟩ ← s.expectIdent
  let ⟨type, rest, htype⟩ ← rest.dataType
  let ⟨nullable, rest, hnullable⟩ ← rest.nullability
  let ⟨(default, autoIncrement), rest, hfill⟩ ← rest.fillClauses none false
  return ⟨{ name, type, nullable, default, autoIncrement }, rest, by omega⟩

def createTable (s : TokenStream) : Parse CreateTable s.length := do
  let ⟨create, rest, hcreate⟩ ← s.expect .kwCreate
  let ⟨_, rest, htable⟩ ← rest.expect .kwTable
  let ⟨table, rest, hname⟩ ← rest.expectIdent
  let ⟨_, rest, hopen⟩ ← rest.expect .leftParen
  let ⟨columns, rest, hcolumns⟩ ← rest.commaSeparated columnDefinition
  let ⟨_, rest, hclose⟩ ← rest.expectAmong [.comma, .rightParen] .rightParen
  return ⟨{ position := create.position, table, columns }, rest, by omega⟩

def select (s : TokenStream) : Parse Select s.length := do
  let ⟨select, rest, hselect⟩ ← s.expect .kwSelect
  let ⟨projections, rest, hprojections⟩ ← rest.projections 0
  let ⟨_, rest, hfrom⟩ ← rest.expect .kwFrom
  let ⟨table, rest, htable⟩ ← rest.wholeExpression
  let ⟨condition, rest, hcondition⟩ ← rest.condition
  return ⟨{ position := select.position, projections, table, condition }, rest, by omega⟩

/-- Reads the columns that an insertion names, if it names any. -/
def targetColumns (s : TokenStream) : Parse (List Ident) (s.length + 1) := do
  let ⟨named, rest, hopen⟩ ← s.accept .leftParen
  if named then
    let ⟨columns, rest, hcolumns⟩ ← rest.commaSeparated expectIdent
    let ⟨_, rest, hclose⟩ ← rest.expect .rightParen
    return ⟨columns, rest, by omega⟩
  else
    return ⟨[], rest, hopen⟩

def insert (s : TokenStream) : Parse Insert s.length := do
  let ⟨insert, rest, hinsert⟩ ← s.expect .kwInsert
  let ⟨_, rest, hinto⟩ ← rest.expect .kwInto
  let ⟨table, rest, htable⟩ ← rest.expectIdent
  let ⟨columns, rest, hcolumns⟩ ← rest.targetColumns
  let ⟨_, rest, hkeyword⟩ ← rest.expect .kwValues
  let ⟨_, rest, hopen⟩ ← rest.expect .leftParen
  let ⟨values, rest, hvalues⟩ ← rest.commaSeparated wholeExpression
  let ⟨_, rest, hclose⟩ ← rest.expect .rightParen
  return ⟨{ position := insert.position, table, columns, values }, rest, by omega⟩

def assignment (s : TokenStream) : Parse Assignment s.length := do
  let ⟨column, rest, hcolumn⟩ ← s.expectIdent
  let ⟨_, rest, hequal⟩ ← rest.expect .equal
  let ⟨value, rest, hvalue⟩ ← rest.wholeExpression
  return ⟨{ column, value }, rest, by omega⟩

/-- Reads assignments, which may stand in one pair of parentheses. -/
def assignments (s : TokenStream) : Parse (List Assignment) s.length := do
  let ⟨enclosed, rest, hopen⟩ ← s.accept .leftParen
  let ⟨assignments, rest, hassignments⟩ ← rest.commaSeparated assignment
  if enclosed then
    let ⟨_, rest, hclose⟩ ← rest.expect .rightParen
    return ⟨assignments, rest, by omega⟩
  else
    return ⟨assignments, rest, by omega⟩

def update (s : TokenStream) : Parse Update s.length := do
  let ⟨update, rest, hupdate⟩ ← s.expect .kwUpdate
  let ⟨table, rest, htable⟩ ← rest.expectIdent
  let ⟨_, rest, hset⟩ ← rest.expect .kwSet
  let ⟨assignments, rest, hassignments⟩ ← rest.assignments
  let ⟨condition, rest, hcondition⟩ ← rest.condition
  return ⟨{ position := update.position, table, assignments, condition }, rest, by omega⟩

def delete (s : TokenStream) : Parse Delete s.length := do
  let ⟨delete, rest, hdelete⟩ ← s.expect .kwDelete
  let ⟨_, rest, hfrom⟩ ← rest.expect .kwFrom
  let ⟨table, rest, htable⟩ ← rest.expectIdent
  let ⟨condition, rest, hcondition⟩ ← rest.condition
  return ⟨{ position := delete.position, table, condition }, rest, by omega⟩

/-- Applies a function to what was read. -/
def mapParsed {α β : Type} {bound : Nat} (f : α → β) (result : Parse α bound) : Parse β bound :=
  result.map fun parsed => ⟨f parsed.value, parsed.rest, parsed.shorter⟩

def statement (s : TokenStream) : Parse Statement s.length :=
  match s with
  | .next token rest =>
    match token.kind with
    | .kwCreate => mapParsed .createTable (createTable (.next token rest))
    | .kwSelect => mapParsed .select (select (.next token rest))
    | .kwInsert => mapParsed .insert (insert (.next token rest))
    | .kwUpdate => mapParsed .update (update (.next token rest))
    | .kwDelete => mapParsed .delete (delete (.next token rest))
    | _ => .error (unexpected statementStart (.next token rest))
  | s => .error (s.unexpected statementStart)

/-- Reads statements up to the end. A semicolon stands between two statements, and
one may stand behind the last. -/
def statements (s : TokenStream) : Except SyntaxError (List Statement) :=
  match s with
  | .done _ => .ok []
  | s => do
    let ⟨first, rest, _⟩ ← s.statement
    let ⟨separated, rest, _⟩ ← rest.accept .semicolon
    if separated then
      return first :: (← rest.statements)
    else
      match rest with
      | .done _ => return [first]
      | rest => .error (rest.unexpected [.semicolon])
termination_by s.length

end TokenStream

/-- The statements of a text. -/
def parse (text : String) : Except SyntaxError (List Statement) :=
  (TokenStream.ofString text).statements

end PocketSql
