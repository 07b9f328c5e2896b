import Mathlib
import PocketSql.Syntax.Parser

/-!
# Relocation

Tokens, trees and errors with other positions.  Nothing but the positions changes, so a
text that stands elsewhere is expected to give the same trees and the same errors there.
-/

namespace PocketSql

/-! ## Trees -/

section Trees

variable (place : Position → Position)

/-- What is located, at another place. -/
def Located.move {α : Type} (e : Located α) : Located α :=
  { e with position := place e.position }

def Token.move (t : Token) : Token :=
  { t with position := place t.position }

@[simp]
theorem Token.kind_move (t : Token) : (t.move place).kind = t.kind := by
  rfl

@[simp]
theorem Token.literal_move (t : Token) : (t.move place).literal = t.literal := by
  rfl

def Ident.move (name : Ident) : Ident :=
  { name with position := place name.position }

mutual

def Expr.move : Expr → Expr
  | .ident name => .ident (name.move place)
  | .literal position value => .literal (place position) value
  | .star position => .star (place position)
  | .unary position op operand => .unary (place position) op operand.move
  | .binary op lhs rhs => .binary op lhs.move rhs.move
  | .call function arguments => .call (function.move place) (Expr.moveAll arguments)

def Expr.moveAll : List Expr → List Expr
  | [] => []
  | first :: rest => first.move :: Expr.moveAll rest

end

@[simp]
theorem Expr.moveAll_eq_map (es : List Expr) :
    Expr.moveAll place es = es.map (Expr.move place) := by
  induction es with
  | nil => rfl
  | cons e es ih => rw [Expr.moveAll, ih, List.map_cons]

theorem Expr.move_call (function : Ident) (arguments : List Expr) :
    (Expr.call function arguments).move place =
      .call (function.move place) (arguments.map (Expr.move place)) := by
  rw [Expr.move, moveAll_eq_map]

/-- A tree stands where it has been moved to. -/
@[simp]
theorem Expr.position_move : (e : Expr) → (e.move place).position = place e.position
  | .ident _ | .literal _ _ | .star _ | .unary _ _ _ | .call _ _ => rfl
  | .binary _ lhs _ => Expr.position_move lhs

def ColumnDefinition.move (d : ColumnDefinition) : ColumnDefinition :=
  { d with name := d.name.move place, default := d.default.map (Expr.move place) }

def CreateTable.move (s : CreateTable) : CreateTable :=
  ⟨place s.position, s.table.move place, s.columns.map (ColumnDefinition.move place)⟩

def Select.move (s : Select) : Select :=
  ⟨place s.position, s.projections.map (Expr.move place), s.table.move place,
    s.condition.map (Expr.move place)⟩

def Insert.move (s : Insert) : Insert :=
  ⟨place s.position, s.table.move place, s.columns.map (Ident.move place),
    s.values.map (Expr.move place)⟩

def Assignment.move (a : Assignment) : Assignment :=
  ⟨a.column.move place, a.value.move place⟩

def Update.move (s : Update) : Update :=
  ⟨place s.position, s.table.move place, s.assignments.map (Assignment.move place),
    s.condition.map (Expr.move place)⟩

def Delete.move (s : Delete) : Delete :=
  ⟨place s.position, s.table.move place, s.condition.map (Expr.move place)⟩

def Statement.move : Statement → Statement
  | .createTable s => .createTable (s.move place)
  | .select s => .select (s.move place)
  | .insert s => .insert (s.move place)
  | .update s => .update (s.move place)
  | .delete s => .delete (s.move place)

end Trees

/-! ## Streams and errors -/

/-- Where tokens are moved to, and what becomes of the error that a stream ends with. -/
structure Relocation where
  place : Position → Position
  lexical : LexError → LexError

def SyntaxError.move (f : Relocation) : SyntaxError → SyntaxError
  | lexical error => .lexical (f.lexical error)
  | grammatical error => .grammatical (error.move f.place)
  | malformedNumber literal => .malformedNumber literal

namespace TokenStream

def move (f : Relocation) : TokenStream → TokenStream
  | done position => done (f.place position)
  | broken error => broken (f.lexical error)
  | next t rest => next (t.move f.place) (rest.move f)

end TokenStream

end PocketSql
