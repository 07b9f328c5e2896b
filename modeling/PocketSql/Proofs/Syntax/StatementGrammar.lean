import Mathlib
import PocketSql.Syntax.Statement
import PocketSql.Proofs.Syntax.Grammar

/-!
# The grammar of statements

Statements and batches of them, as relations between the tokens of a phrase and what
they stand for.  A relation puts the parts of a phrase next to each other, so each part
stands once in the tree, in the order of the tokens.  What the expressions of a level
are is left open; those of a batch are the sentences of the stratified grammar.
-/

namespace PocketSql

/-- Phrases with a comma between two of them, and what they stand for, one by one. -/
inductive DerivesList {α : Type} (Item : List Token → α → Prop) : List Token → List α → Prop
  | last {ts : List Token} {a : α} : Item ts a → DerivesList Item ts [a]
  | more {ts others : List Token} {comma : Token} {a : α} {as : List α} : Item ts a →
      comma.kind = .comma → DerivesList Item others as →
      DerivesList Item (ts ++ comma :: others) (a :: as)

inductive DerivesName : List Token → Ident → Prop
  | name {t : Token} : t.kind = .identifier → DerivesName [t] ⟨t.position, t.literal⟩

/-! ## Columns -/

/-- The part behind the type of a column that allows or forbids nulls. -/
inductive DerivesNullability : List Token → Bool → Prop
  | unmarked : DerivesNullability [] true
  | null {t : Token} : t.kind = .kwNull → DerivesNullability [t] true
  | notNull {negation t : Token} : negation.kind = .kwNot → t.kind = .kwNull →
      DerivesNullability [negation, t] false

/-- A keyword that may be left out. -/
inductive DerivesMark (keyword : Kind) : List Token → Bool → Prop
  | absent : DerivesMark keyword [] false
  | present {t : Token} : t.kind = keyword → DerivesMark keyword [t] true

section Grammar

variable (Expression : Nat → List Token → Expr → Prop)

/-- A keyword with an expression behind it, which may be left out. -/
inductive DerivesClause (keyword : Kind) : List Token → Option Expr → Prop
  | absent : DerivesClause keyword [] none
  | present {t : Token} {ts : List Token} {e : Expr} : t.kind = keyword → Expression 1 ts e →
      DerivesClause keyword (t :: ts) (some e)

/-- A default and the mark of an auto-increment column, in either order. -/
inductive DerivesFill : List Token → Option Expr × Bool → Prop
  | defaultFirst {ds ms : List Token} {default : Option Expr} {autoIncrement : Bool} :
      DerivesClause Expression .kwDefault ds default →
      DerivesMark .kwAutoIncrement ms autoIncrement →
      DerivesFill (ds ++ ms) (default, autoIncrement)
  | markFirst {ds ms : List Token} {default : Option Expr} {autoIncrement : Bool} :
      DerivesMark .kwAutoIncrement ms autoIncrement →
      DerivesClause Expression .kwDefault ds default →
      DerivesFill (ms ++ ds) (default, autoIncrement)

inductive DerivesColumn : List Token → ColumnDefinition → Prop
  | column {name keyword : Token} {ns fs : List Token} {type : DataType} {nullable : Bool}
      {default : Option Expr} {autoIncrement : Bool} : name.kind = .identifier →
      DataType.ofKeyword? keyword.kind = some type → DerivesNullability ns nullable →
      DerivesFill Expression fs (default, autoIncrement) →
      DerivesColumn (name :: keyword :: (ns ++ fs))
        ⟨⟨name.position, name.literal⟩, type, nullable, default, autoIncrement⟩

/-! ## Statements -/

inductive DerivesCreateTable : List Token → CreateTable → Prop
  | createTable {create keyword name opening closing : Token} {ts : List Token}
      {columns : List ColumnDefinition} : create.kind = .kwCreate → keyword.kind = .kwTable →
      name.kind = .identifier → opening.kind = .leftParen →
      DerivesList (DerivesColumn Expression) ts columns → closing.kind = .rightParen →
      DerivesCreateTable (create :: keyword :: name :: opening :: (ts ++ [closing]))
        ⟨create.position, ⟨name.position, name.literal⟩, columns⟩

inductive DerivesSelect : List Token → Select → Prop
  | select {select keyword : Token} {ps es cs : List Token} {projections : List Expr}
      {table : Expr} {condition : Option Expr} : select.kind = .kwSelect →
      DerivesList (Expression 0) ps projections → keyword.kind = .kwFrom →
      Expression 1 es table → DerivesClause Expression .kwWhere cs condition →
      DerivesSelect (select :: (ps ++ keyword :: (es ++ cs)))
        ⟨select.position, projections, table, condition⟩

/-- The columns that an insertion names, at least one if it names any. -/
inductive DerivesTargets : List Token → List Ident → Prop
  | all : DerivesTargets [] []
  | named {opening closing : Token} {ts : List Token} {columns : List Ident} :
      opening.kind = .leftParen → DerivesList DerivesName ts columns →
      closing.kind = .rightParen → DerivesTargets (opening :: (ts ++ [closing])) columns

inductive DerivesInsert : List Token → Insert → Prop
  | insert {insert keyword name values opening closing : Token} {cs es : List Token}
      {columns : List Ident} {exprs : List Expr} : insert.kind = .kwInsert →
      keyword.kind = .kwInto → name.kind = .identifier → DerivesTargets cs columns →
      values.kind = .kwValues → opening.kind = .leftParen →
      DerivesList (Expression 1) es exprs → closing.kind = .rightParen →
      DerivesInsert (insert :: keyword :: name :: (cs ++ values :: opening :: (es ++ [closing])))
        ⟨insert.position, ⟨name.position, name.literal⟩, columns, exprs⟩

inductive DerivesAssignment : List Token → Assignment → Prop
  | assignment {name equal : Token} {ts : List Token} {value : Expr} : name.kind = .identifier →
      equal.kind = .equal → Expression 1 ts value →
      DerivesAssignment (name :: equal :: ts) ⟨⟨name.position, name.literal⟩, value⟩

/-- Assignments, bare or in one pair of parentheses. -/
inductive DerivesAssignments : List Token → List Assignment → Prop
  | bare {ts : List Token} {assignments : List Assignment} :
      DerivesList (DerivesAssignment Expression) ts assignments → DerivesAssignments ts assignments
  | enclosed {opening closing : Token} {ts : List Token} {assignments : List Assignment} :
      opening.kind = .leftParen → DerivesList (DerivesAssignment Expression) ts assignments →
      closing.kind = .rightParen → DerivesAssignments (opening :: (ts ++ [closing])) assignments

inductive DerivesUpdate : List Token → Update → Prop
  | update {update name keyword : Token} {ts cs : List Token} {assignments : List Assignment}
      {condition : Option Expr} : update.kind = .kwUpdate → name.kind = .identifier →
      keyword.kind = .kwSet → DerivesAssignments Expression ts assignments →
      DerivesClause Expression .kwWhere cs condition →
      DerivesUpdate (update :: name :: keyword :: (ts ++ cs))
        ⟨update.position, ⟨name.position, name.literal⟩, assignments, condition⟩

inductive DerivesDelete : List Token → Delete → Prop
  | delete {delete keyword name : Token} {cs : List Token} {condition : Option Expr} :
      delete.kind = .kwDelete → keyword.kind = .kwFrom → name.kind = .identifier →
      DerivesClause Expression .kwWhere cs condition →
      DerivesDelete (delete :: keyword :: name :: cs)
        ⟨delete.position, ⟨name.position, name.literal⟩, condition⟩

inductive DerivesStatement : List Token → Statement → Prop
  | createTable {ts : List Token} {s : CreateTable} : DerivesCreateTable Expression ts s →
      DerivesStatement ts (.createTable s)
  | select {ts : List Token} {s : Select} : DerivesSelect Expression ts s →
      DerivesStatement ts (.select s)
  | insert {ts : List Token} {s : Insert} : DerivesInsert Expression ts s →
      DerivesStatement ts (.insert s)
  | update {ts : List Token} {s : Update} : DerivesUpdate Expression ts s →
      DerivesStatement ts (.update s)
  | delete {ts : List Token} {s : Delete} : DerivesDelete Expression ts s →
      DerivesStatement ts (.delete s)

/-- Statements with a semicolon between two of them and perhaps one behind the last. -/
inductive DerivesBatch : List Token → List Statement → Prop
  | empty : DerivesBatch [] []
  | last {ts : List Token} {s : Statement} : DerivesStatement Expression ts s → DerivesBatch ts [s]
  | more {ts others : List Token} {semicolon : Token} {s : Statement}
      {statements : List Statement} : DerivesStatement Expression ts s →
      semicolon.kind = .semicolon → DerivesBatch others statements →
      DerivesBatch (ts ++ semicolon :: others) (s :: statements)

end Grammar

/-- The token lists that are batches, whether or not their numerals fit into integers. -/
def BatchSentence (ts : List Token) : Prop :=
  ∃ statements, DerivesBatch (Derives fun t _ => t.IsLiteral) ts statements

end PocketSql
