import Mathlib
import PocketSql.Syntax.Expr

/-!
# The grammar of expressions

The stratified grammar: each level of binary operators is left associative over the
next tighter level, and the tightest level is that of the primaries.  A derivation
relates the tokens of a sentence to its tree, from which only parentheses are gone.
Level zero is that of an argument or a projection, which may also be a star.
-/

namespace PocketSql

/-- The binary operators of a level, from the loosest level to the tightest. -/
def operatorsAt : Nat → List Kind
  | 1 => [.kwOr]
  | 2 => [.kwAnd]
  | 3 => [.equal, .notEqual, .less, .lessEqual, .greater, .greaterEqual]
  | 4 => [.plus, .minus, .concat]
  | 5 => [.star, .slash]
  | _ => []

/-- The level of the primaries. -/
def primaryLevel : Nat := 6

/-! ## Literals -/

/-- A numeral, which may be too large for an integer. -/
def Token.IsNumeral (t : Token) : Prop :=
  t.kind = .numberLiteral ∧ t.literal.toList.all Char.isDigit = true

/-- A token and the value it stands for.  Digits alone are an integer, any other text
of a number is a number. -/
inductive Token.Denotes (t : Token) : Literal → Prop
  | null : t.kind = .kwNull → Denotes t .null
  | true : t.kind = .kwTrue → Denotes t (.boolean true)
  | false : t.kind = .kwFalse → Denotes t (.boolean false)
  | string : t.kind = .stringLiteral → Denotes t (.string t.literal)
  | integer {value : Int64} : t.IsNumeral → Integer.read? t.literal.toList = some value →
      Denotes t (.integer value)
  | number {value : Float} : t.kind = .numberLiteral →
      t.literal.toList.all Char.isDigit = Bool.false →
      Number.read? t.literal.toList = some value → Denotes t (.number value)

/-- A token that may stand for a value. -/
def Token.IsLiteral (t : Token) : Prop :=
  t.IsNumeral ∨ ∃ value, t.Denotes value

/-! ## Derivations -/

/-- The parts of a list, and their tokens with a comma between two of them. -/
inductive Separated : List (List Token) → List Token → Prop
  | last (ts : List Token) : Separated [ts] ts
  | more {parts : List (List Token)} {comma : Token} {others : List Token} (ts : List Token) :
      comma.kind = .comma → Separated parts others →
      Separated (ts :: parts) (ts ++ comma :: others)

/-- The tokens of a sentence of a level, and its tree.  The values of literals are those
that `Value` relates to their tokens. -/
inductive Derives (Value : Token → Literal → Prop) : Nat → List Token → Expr → Prop
  | literal {t : Token} {value : Literal} : Value t value →
      Derives Value primaryLevel [t] (.literal t.position value)
  | name {t : Token} : t.kind = .identifier →
      Derives Value primaryLevel [t] (.ident ⟨t.position, t.literal⟩)
  | group {opening closing : Token} {ts : List Token} {e : Expr} :
      opening.kind = .leftParen → Derives Value 1 ts e → closing.kind = .rightParen →
      Derives Value primaryLevel (opening :: (ts ++ [closing])) e
  | sign {t : Token} {ts : List Token} {e : Expr} : t.kind = .plus ∨ t.kind = .minus →
      Derives Value primaryLevel ts e →
      Derives Value primaryLevel (t :: ts) (.unary t.position t.kind e)
  | emptyCall {t opening closing : Token} : t.kind = .identifier →
      opening.kind = .leftParen → closing.kind = .rightParen →
      Derives Value primaryLevel [t, opening, closing] (.call ⟨t.position, t.literal⟩ [])
  | call {t opening closing : Token} {ts : List Token} {items : List (List Token × Expr)} :
      t.kind = .identifier → opening.kind = .leftParen →
      Separated (items.map Prod.fst) ts →
      (∀ item ∈ items, Derives Value 0 item.1 item.2) → closing.kind = .rightParen →
      Derives Value primaryLevel (t :: opening :: (ts ++ [closing]))
        (.call ⟨t.position, t.literal⟩ (items.map Prod.snd))
  | fold {level : Nat} {ls rs : List Token} {op : Token} {l r : Expr} :
      Derives Value level ls l → op.kind ∈ operatorsAt level → Derives Value (level + 1) rs r →
      Derives Value level (ls ++ op :: rs) (.binary op.kind l r)
  | tighter {level : Nat} {ts : List Token} {e : Expr} : level < primaryLevel →
      Derives Value (level + 1) ts e → Derives Value level ts e
  | star {t : Token} : t.kind = .star → Derives Value 0 [t] (.star t.position)

/-- The token lists of a level, whether or not their numerals fit into integers. -/
def Sentence (level : Nat) (ts : List Token) : Prop :=
  ∃ e, Derives (fun t _ => t.IsLiteral) level ts e

/-! ## Levels -/

theorem mem_operatorsAt {kind : Kind} {level : Nat} :
    kind ∈ operatorsAt level ↔ 1 ≤ level ∧ kind.precedence = level := by
  match level with
  | 0 => simp [operatorsAt]
  | 1 => cases kind <;> decide
  | 2 => cases kind <;> decide
  | 3 => cases kind <;> decide
  | 4 => cases kind <;> decide
  | 5 => cases kind <;> decide
  | level + 6 => cases kind <;> simp [operatorsAt, Kind.precedence]

theorem precedence_lt_primaryLevel (kind : Kind) : kind.precedence < primaryLevel := by
  cases kind <;> decide

/-- What can be taken over from the next tighter level can be from any tighter one. -/
theorem loosen_of_tighter {P : Nat → Prop}
    (htighter : ∀ level, level < primaryLevel → P (level + 1) → P level) {level tight : Nat}
    (htight : tight ≤ primaryLevel) (hle : level ≤ tight) (hP : P tight) : P level := by
  induction hle using Nat.decreasingInduction with
  | self => exact hP
  | of_succ below hbelow ih =>
      apply htighter
      · exact hbelow.trans_le htight
      · exact ih

variable {Value : Token → Literal → Prop}

/-- A sentence of a level is one of every looser level. -/
theorem Derives.loosen {level tight : Nat} {ts : List Token} {e : Expr}
    (htight : tight ≤ primaryLevel) (hle : level ≤ tight) (hts : Derives Value tight ts e) :
    Derives Value level ts e :=
  loosen_of_tighter (P := (Derives Value · ts e)) (fun _ => .tighter) htight hle hts

/-- A derivation stays one when more values are allowed. -/
theorem Derives.mono {Value' : Token → Literal → Prop} (hvalue : ∀ t v, Value t v → Value' t v)
    {level : Nat} {ts : List Token} {e : Expr} (hts : Derives Value level ts e) :
    Derives Value' level ts e := by
  induction hts with
  | literal hv => exact .literal (hvalue _ _ hv)
  | name hkind => exact .name hkind
  | group hopen _ hclose ih => exact .group hopen ih hclose
  | sign hkind _ ih => exact .sign hkind ih
  | emptyCall hkind hopen hclose => exact .emptyCall hkind hopen hclose
  | call hkind hopen hitems _ hclose ih => exact .call hkind hopen hitems ih hclose
  | fold _ hop _ ihl ihr => exact .fold ihl hop ihr
  | tighter hlevel _ ih => exact .tighter hlevel ih
  | star hkind => exact .star hkind

theorem Derives.sentence {level : Nat} {ts : List Token} {e : Expr}
    (hts : Derives Token.Denotes level ts e) : Sentence level ts :=
  ⟨e, hts.mono fun _ v hv => .inr ⟨v, hv⟩⟩

end PocketSql
