import Mathlib
import PocketSql.Query.Operator
import PocketSql.Proofs.Store.Insertion

/-!
# Operands of different types

An operator that meets values of two types applies to their casts to one of them: a string is
cast to the type of an integer, a number or a timestamp, and an integer to a number.  The
operators do so without casting as such, with a case of their own for each pair of types and
each order of the two.
-/

namespace PocketSql

/-- The type in which values of two types are compared, if they are. -/
def DataType.common? : DataType → DataType → Option DataType
  | .boolean, .boolean => some .boolean
  | .integer, .integer | .string, .integer | .integer, .string => some .integer
  | .number, .number | .integer, .number | .number, .integer => some .number
  | .string, .number | .number, .string => some .number
  | .string, .string => some .string
  | .timestamp, .timestamp | .string, .timestamp | .timestamp, .string => some .timestamp
  | _, _ => none

theorem DataType.common?_comm (s t : DataType) : s.common? t = t.common? s := by
  cases s <;> cases t <;> rfl

theorem DataType.common?_string {t : DataType} (ht : t ≠ .boolean) :
    DataType.string.common? t = some t := by
  cases t <;> first
    | rfl
    | exact absurd rfl ht

theorem orCastFault_map_bind {α β γ : Type} (x : Except CastFault α) (f : α → β)
    (k : β → Except Fault γ) :
    orCastFault (x.map f) >>= k = orCastFault x >>= fun a => k (f a) := by
  cases x <;> rfl

namespace Operator

variable {op : Kind} {a b : Value} {type : DataType}

/-! ## Both operands -/

theorem order?_eq_casts (htype : a.dataType.common? b.dataType = some type) :
    order? op a b = orCastFault (a.cast type) >>= fun a =>
      orCastFault (b.cast type) >>= fun b => order? op a b := by
  cases a <;> cases b <;> cases htype <;>
    simp only [Value.cast, orCastFault_map_bind] <;> rfl

theorem order?_of_common?_eq_none (htype : a.dataType.common? b.dataType = none) :
    order? op a b = .error (.invalidComparison a op b) := by
  cases a <;> cases b <;> first
    | rfl
    | cases htype

/-- Strings and timestamps are compared, but not calculated with. -/
theorem arithmeticOf_eq_casts (htype : a.dataType.common? b.dataType = some type)
    (hnumeric : type = .integer ∨ type = .number) :
    arithmeticOf op a b = orCastFault (a.cast type) >>= fun a =>
      orCastFault (b.cast type) >>= fun b => arithmeticOf op a b := by
  rcases hnumeric with rfl | rfl <;> cases a <;> cases b <;> cases htype <;>
    simp only [Value.cast, orCastFault_map_bind] <;> rfl

/-! ## One operand -/

/-- The operator treats `a`, on either side of `b`, as its cast to the type of `b`. -/
def Casts {α : Type} (apply : Option Value → Option Value → Except Fault α) (a b : Value) : Prop :=
  match a.cast b.dataType with
  | .ok c =>
    apply (some a) (some b) = apply (some c) (some b) ∧
      apply (some b) (some a) = apply (some b) (some c)
  | .error fault =>
    apply (some a) (some b) = .error (.cast fault) ∧
      apply (some b) (some a) = .error (.cast fault)

/-- An operand that has the common type stays as it is. -/
theorem casts_of_eq {α β : Type} {operate : Value → Value → Except Fault β}
    {apply : Option Value → Option Value → Except Fault α} {conclude : β → Except Fault α}
    (happly : ∀ a b, apply (some a) (some b) = operate a b >>= conclude)
    (hoperate : ∀ a' b', a'.dataType.common? b'.dataType = some b.dataType →
      operate a' b' = orCastFault (a'.cast b.dataType) >>= fun a' =>
        orCastFault (b'.cast b.dataType) >>= fun b' => operate a' b')
    (htype : a.dataType.common? b.dataType = some b.dataType) : Casts apply a b := by
  have hb : orCastFault (b.cast b.dataType) = .ok b := orCastFault_eq_ok.mpr b.cast_dataType
  have hleft := hoperate a b htype
  have hright := hoperate b a ((DataType.common?_comm _ _).trans htype)
  rw [hb] at hleft hright
  rw [Casts, happly, happly, hleft, hright]
  cases a.cast b.dataType with
  | ok c => exact ⟨(happly c b).symm, (happly b c).symm⟩
  | error fault => exact ⟨rfl, rfl⟩

theorem casts_comparison (htype : a.dataType.common? b.dataType = some b.dataType) :
    Casts (comparison op) a b :=
  casts_of_eq (fun _ _ => rfl) (fun _ _ => order?_eq_casts) htype

theorem casts_arithmetic (htype : a.dataType.common? b.dataType = some b.dataType)
    (hnumeric : b.dataType = .integer ∨ b.dataType = .number) : Casts (arithmetic op) a b := by
  have happly (a b : Value) :
      arithmetic op (some a) (some b) = arithmeticOf op a b >>= fun v => .ok (some v) := by
    rw [arithmetic]
    cases arithmeticOf op a b <;> rfl
  exact casts_of_eq happly (fun _ _ h => arithmeticOf_eq_casts h hnumeric) htype

/-- A string beside an integer, a number or a timestamp is compared as its cast, and beside an
integer or a number it is also calculated with as its cast.  An integer beside a number is taken
as its cast for both.  Where the cast fails, so does the operator, with the fault of the cast. -/
theorem operands_are_cast (op : Kind) :
    (∀ (s : String) (v : Value), v.dataType ∈ [.integer, .number, .timestamp] →
      Casts (comparison op) (.string s) v) ∧
    (∀ (s : String) (v : Value), v.dataType ∈ [.integer, .number] →
      Casts (arithmetic op) (.string s) v) ∧
    ∀ (i : Int64) (x : Float), Casts (comparison op) (.integer i) (.number x) ∧
      Casts (arithmetic op) (.integer i) (.number x) := by
  have hstring {types : List DataType} (htypes : DataType.boolean ∉ types) (s : String) {v : Value}
      (hv : v.dataType ∈ types) :
      (Value.string s).dataType.common? v.dataType = some v.dataType :=
    DataType.common?_string fun hboolean => htypes (hboolean ▸ hv)
  refine ⟨fun s v hv => casts_comparison (hstring (by decide) s hv), fun s v hv => ?_, fun i x => ?_⟩
  · exact casts_arithmetic (hstring (by decide) s hv) (by simpa using hv)
  · exact ⟨casts_comparison rfl, casts_arithmetic rfl (.inr rfl)⟩

/-- A word is refused before the divisor is looked at, digits are not. -/
theorem texts_divided_by_zero :
    (Value.integer 0).dataType ∈ [.integer, .number, .timestamp] ∧
      (Value.integer 0).dataType ∈ [.integer, .number] ∧
      comparison .less (some (.string "12")) (some (.integer 0)) =
        comparison .less (some (.integer 12)) (some (.integer 0)) ∧
      arithmetic .slash (some (.string "twelve")) (some (.integer 0)) =
        .error (.cast (.unreadable "twelve" .integer)) ∧
      arithmetic .slash (some (.string "12")) (some (.integer 0)) = .error .divideByZero := by
  have hdigits : (Value.string "12").cast .integer = .ok (.integer 12) := by rfl
  have hword : (Value.string "twelve").cast .integer = .error (.unreadable "twelve" .integer) := by
    rfl
  have hless := (operands_are_cast .less).1 "12" (.integer 0) (by decide)
  have hquotient := (operands_are_cast .slash).2.1 "12" (.integer 0) (by decide)
  have hrefused := (operands_are_cast .slash).2.1 "twelve" (.integer 0) (by decide)
  simp only [Casts, Value.dataType, hdigits, hword] at hless hquotient hrefused
  exact ⟨by decide, by decide, hless.1, hrefused.1, hquotient.1⟩

end Operator

end PocketSql
