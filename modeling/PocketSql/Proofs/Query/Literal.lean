import Mathlib
import PocketSql.Query.Expression
import PocketSql.Proofs.Syntax.FlatReading
import PocketSql.Proofs.Syntax.Numeral

/-!
# Literals of values

A cell is written as a literal, and what is read from it has the value of the cell again.
A literal has no sign: a negative integer is written as the negation of a positive one.  So
the least integer, whose negation is none, cannot be written this way.
-/

namespace PocketSql

open Parse (outcome)
open TokenStream

/-- The text of a literal for the value. -/
def Value.literalText : Value → String
  | boolean value => if value then "TRUE" else "FALSE"
  | integer value => Integer.text value
  | number value => Number.text value
  | string value => String.ofList (quoted value.toList)
  | timestamp value => String.ofList (quoted value.text.toList)

def cellText : Option Value → String
  | none => "NULL"
  | some value => value.literalText

/-- An integer that has a negation, or a string that can stand between quotes as it is, or a
boolean. -/
def Value.HasLiteral : Value → Prop
  | boolean _ => True
  | integer value => value ≠ Int64.minValue
  | string value => ¬['\r', '\n'] <:+: value.toList
  | number _ | timestamp _ => False

/-! ## Numerals -/

theorem isDigits_toDigits (n : Nat) : IsDigits (Nat.toDigits 10 n) :=
  ⟨Nat.toDigits_ne_nil, fun _ hc => Nat.isDigit_of_mem_toDigits (by decide) (by decide) hc⟩

theorem isNumberText_of_isDigits {digits : List Char} (hdigits : IsDigits digits) :
    IsNumberText digits where
  begins := hdigits.isNumeral.startsNumber
  parts := hdigits.isNumberPart
  value := Number.isSome_read? hdigits.isNumeral

/-- The numeral of a value that an integer can have. -/
theorem literalOf_numeral {n : Nat} (hn : n < 2 ^ 63) (position : Position) :
    literalOf ⟨.numberLiteral, position, String.ofList (Nat.toDigits 10 n)⟩ =
      .ok (.integer (Int64.ofInt n)) := by
  have hdigits := isDigits_toDigits n
  have hread : Integer.read? (Nat.toDigits 10 n) = some (Int64.ofInt n) := by
    rw [Integer.read?_of_isDigits hdigits, Nat.ofDigitChars_ten_toDigits, Integer.ofInt?,
      if_pos (by omega)]
  simp only [literalOf, numberLiteral, String.toList_ofList]
  rw [if_pos (List.all_eq_true.mpr hdigits.isDigit), hread]

/-- The negation of a numeral. -/
theorem eval_negative {n : Nat} (hn : n < 2 ^ 63) (scope : Scope) (position position' : Position) :
    (Expr.unary position .minus (.literal position' (.integer (Int64.ofInt n)))).eval scope =
      .ok (some (.integer (Int64.ofInt (-n)))) := by
  have hvalue : (Int64.ofInt n).toInt = n := Int64.toInt_ofInt_of_le (by omega) (by omega)
  have hneg : Integer.neg? (Int64.ofInt n) = some (Int64.ofInt (-n)) := by
    rw [Integer.neg?, hvalue, Integer.ofInt?, if_pos (by omega)]
  simp only [Expr.eval, Literal.value]
  refine bind_of_ok rfl (faultAt_eq_ok.mpr ?_)
  simp only [Operator.unary, hneg]
  rfl

/-! ## Literals -/

/-- The text is read as an expression that has the value of the cell wherever it stands. -/
def ReadsAs (text : List Char) (cell : Option Value) : Prop :=
  ∃ tokens, Spells tokens text ∧ Consumes (fun s => outcome s.wholeExpression) tokens
    expressionFollow fun e => ∀ scope, e.eval scope = .ok cell

section Cells

variable {spelling : List Char} {kind : Kind} {literal : String}

/-- One token that stands for a value. -/
theorem readsAs_of_literal {value : Literal} (happart : StandsApart spelling kind literal)
    (hkind : kind ∈ literalKinds)
    (hvalue : ∀ position, literalOf ⟨kind, position, literal⟩ = .ok value) :
    ReadsAs spelling value.value := by
  refine ⟨_, happart.spells, (consumes_literal hkind hvalue).imp ?_⟩
  rintro _ ⟨position, rfl⟩ scope
  rfl

theorem readsAs_integer {value : Int64} (hvalue : value ≠ Int64.minValue) :
    ReadsAs (Integer.digits value.toInt) (some (.integer value)) := by
  have hmagnitude : value.toInt.natAbs < 2 ^ 63 := by
    have hmin : value.toInt ≠ -2 ^ 63 := fun heq =>
      hvalue (Int64.toInt_inj.mp (heq.trans Int64.toInt_minValue.symm))
    have hlower := Int64.le_toInt value
    have hupper := Int64.toInt_lt value
    omega
  have happart : StandsApart (Nat.toDigits 10 value.toInt.natAbs) .numberLiteral
      (String.ofList (Nat.toDigits 10 value.toInt.natAbs)) := by
    have hnumber := isNumberText_of_isDigits (isDigits_toDigits value.toInt.natAbs)
    rw [← String.toList_ofList (l := Nat.toDigits 10 value.toInt.natAbs)] at hnumber
    simpa using standsApart_number hnumber
  rw [Integer.digits]
  split
  · next hnegative =>
    have hself : Int64.ofInt (-value.toInt.natAbs) = value := by
      rw [Int.ofNat_natAbs_of_nonpos hnegative.le, neg_neg, Int64.ofInt_toInt]
    refine ⟨(.minus, "") :: _, fun contents rest hset hrest =>
      (happart.spells contents rest hset hrest).punctuation .minus (by decide),
      (consumes_negative (by decide) (literalOf_numeral hmagnitude)).imp ?_⟩
    rintro _ ⟨position, position', rfl⟩ scope
    rw [eval_negative hmagnitude, hself]
  · next hnonneg =>
    have hself : Int64.ofInt value.toInt.natAbs = value := by
      rw [Int.natAbs_of_nonneg (not_lt.mp hnonneg), Int64.ofInt_toInt]
    have hread := readsAs_of_literal happart (by decide) (literalOf_numeral hmagnitude)
    rwa [hself] at hread

theorem readsAs_keyword {value : Literal} (kind : Kind) (hkeyword : kind ∈ Kind.keywords)
    (hkind : kind ∈ literalKinds)
    (hvalue : ∀ position, literalOf ⟨kind, position, ""⟩ = .ok value) :
    ReadsAs kind.text.toList value.value :=
  readsAs_of_literal (standsApart_keyword hkeyword) hkind hvalue

theorem readsAs_string {text : String} (htext : ¬['\r', '\n'] <:+: text.toList) :
    ReadsAs (quoted text.toList) (Literal.string text).value :=
  readsAs_of_literal (standsApart_string htext) (by decide) fun _ => rfl

/-- A literal has the value that it is written for. -/
theorem readsAs_cellText {cell : Option Value} (hcell : ∀ value ∈ cell, value.HasLiteral) :
    ReadsAs (cellText cell).toList cell := by
  cases cell with
  | none => exact readsAs_keyword .kwNull (by decide) (by decide) fun _ => rfl
  | some value =>
      have hvalue : value.HasLiteral := hcell value rfl
      rw [cellText]
      cases value with
      | boolean b =>
          cases b with
          | true => exact readsAs_keyword .kwTrue (by decide) (by decide) fun _ => rfl
          | false => exact readsAs_keyword .kwFalse (by decide) (by decide) fun _ => rfl
      | integer i =>
          rw [Value.literalText, Integer.text, String.toList_ofList]
          exact readsAs_integer hvalue
      | string text =>
          rw [Value.literalText, String.toList_ofList]
          exact readsAs_string hvalue
      | number | timestamp => cases hvalue

end Cells

end PocketSql
