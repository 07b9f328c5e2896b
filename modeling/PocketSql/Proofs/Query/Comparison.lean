import Mathlib
import PocketSql.Proofs.Number.Places
import PocketSql.Proofs.Query.Conversion
import PocketSql.Proofs.Query.Faults

/-!
# Laws of comparison

Two values compare the same in either order, with the operator mirrored.  All six operators
fail on the same values.  Where they do not, all answers follow from one order of the two
values, which is missing for null and for what is not a number.
-/

namespace PocketSql

/-- The comparison that holds of two values exactly if the given one holds of them in the
other order. -/
def Kind.mirrored : Kind → Kind
  | less => greater
  | lessEqual => greaterEqual
  | greater => less
  | greaterEqual => lessEqual
  | op => op

theorem Kind.mirrored_mirrored (op : Kind) : op.mirrored.mirrored = op := by
  cases op <;> rfl

/-- The values are compared as numbers, and one of them is not a number. -/
def NaNTakesPart (a b : Value) : Prop :=
  (a.dataType = .number ∨ b.dataType = .number) ∧
    ∃ v ∈ [a, b], ∃ x, v.toNumber = .ok x ∧ x.isNaN = true

theorem Timestamp.order_swap (a b : Timestamp) : b.order a = (a.order b).swap := by
  rw [order, order, Ordering.swap_then]
  exact congrArg₂ Ordering.then Std.OrientedOrd.eq_swap Std.OrientedOrd.eq_swap

theorem DataType.eq_number_iff {s t type : DataType} (htype : s.common? t = some type) :
    type = .number ↔ s = .number ∨ t = .number := by
  cases s <;> cases t <;> cases htype <;> decide

theorem Value.cast_number {v w : Value} :
    v.cast .number = .ok w ↔ ∃ x, v.toNumber = .ok x ∧ .number x = w :=
  map_eq_ok

namespace Operator

variable {op op' : Kind} {a b : Value} {o : Option Ordering} {type : DataType}

/-! ## The order of two values -/

theorem order?_eq_ok : order? op a b = .ok o ↔
    ∃ type a' b', a.dataType.common? b.dataType = some type ∧ a.cast type = .ok a' ∧
      b.cast type = .ok b' ∧ order? op a' b' = .ok o := by
  cases htype : a.dataType.common? b.dataType with
  | none => simp [order?_of_common?_eq_none htype]
  | some type => simp [order?_eq_casts htype, bind_eq_ok]

theorem order?_swap_of_dataType (htype : a.dataType = b.dataType)
    (horder : order? op a b = .ok o) : order? op' b a = .ok (o.map Ordering.swap) := by
  cases a <;> cases b <;> cases htype <;> cases horder
  case boolean | integer | string =>
    exact congrArg (Except.ok ∘ some) Std.OrientedOrd.eq_swap
  case number => exact congrArg Except.ok (Number.order?_swap _ _)
  case timestamp => exact congrArg (Except.ok ∘ some) (Timestamp.order_swap _ _)

/-- The operator plays no part in the order, it only shows in the fault of values that have
none. -/
theorem order?_swap (horder : order? op a b = .ok o) :
    order? op' b a = .ok (o.map Ordering.swap) := by
  obtain ⟨type, a', b', htype, ha, hb, horder⟩ := order?_eq_ok.mp horder
  have hsame : a'.dataType = b'.dataType :=
    (Value.dataType_of_cast ha).trans (Value.dataType_of_cast hb).symm
  exact order?_eq_ok.mpr ⟨type, b', a', (DataType.common?_comm _ _).trans htype, hb, ha,
    order?_swap_of_dataType hsame horder⟩

theorem order?_of_ok (horder : order? op a b = .ok o) : order? op' a b = .ok o := by
  have hswapped : order? op' b a = .ok (o.map Ordering.swap) := order?_swap horder
  have htwice : order? op' a b = .ok ((o.map Ordering.swap).map Ordering.swap) :=
    order?_swap hswapped
  rw [htwice, Option.map_map]
  cases o <;> simp

theorem order?_ne_none (htype : a.dataType = b.dataType) (hnumber : a.dataType ≠ .number)
    (horder : order? op a b = .ok o) : o ≠ none := by
  cases a <;> cases b <;> cases htype <;> cases horder
  case boolean | integer | string | timestamp => exact Option.some_ne_none _
  case number => exact absurd rfl hnumber

theorem order?_eq_none_iff (horder : order? op a b = .ok o) : o = none ↔ NaNTakesPart a b := by
  obtain ⟨type, a', b', htype, ha, hb, horder⟩ := order?_eq_ok.mp horder
  rw [NaNTakesPart, ← DataType.eq_number_iff htype]
  by_cases hnumber : type = .number
  · subst hnumber
    obtain ⟨x, hx, rfl⟩ := Value.cast_number.mp ha
    obtain ⟨y, hy, rfl⟩ := Value.cast_number.mp hb
    cases horder
    rw [Number.order?_eq_none]
    simp [hx, hy]
  · have htype' := Value.dataType_of_cast ha
    have hsome := order?_ne_none (htype'.trans (Value.dataType_of_cast hb).symm)
      (htype' ▸ hnumber) horder
    simp [hsome, hnumber]

/-! ## Operators over an order -/

theorem holds?_mirrored (op : Kind) (o : Option Ordering) :
    holds? op.mirrored (o.map Ordering.swap) = holds? op o := by
  cases op <;> rcases o with _ | _ | _ | _ <;> rfl

theorem comparison_eq_ok {result : Bool} : comparison op (some a) (some b) = .ok result ↔
    ∃ o, order? op a b = .ok o ∧ holds? op o = some result := by
  rw [comparison, bind_eq_ok]
  refine exists_congr fun o => and_congr_right fun _ => ?_
  cases holds? op o <;> simp

theorem comparison_none {l r : Option Value} (hnull : l = none ∨ r = none) (op : Kind) :
    comparison op l r = .ok false := by
  rcases hnull with rfl | rfl
  · rfl
  · cases l <;> rfl

theorem isOk_comparison_iff (hop : op.isComparison = true) :
    (comparison op (some a) (some b)).isOk = true ↔ ∃ o, order? op a b = .ok o := by
  constructor
  · intro hok
    cases hresult : comparison op (some a) (some b) with
    | error fault =>
        rw [hresult] at hok
        cases hok
    | ok result =>
        obtain ⟨o, horder, -⟩ := comparison_eq_ok.mp hresult
        exact ⟨o, horder⟩
  · rintro ⟨o, horder⟩
    obtain ⟨result, hholds⟩ := exists_holds? hop o
    rw [comparison_eq_ok.mpr ⟨o, horder, hholds⟩]
    rfl

theorem null_or_values (l r : Option Value) :
    (l = none ∨ r = none) ∨ ∃ a b, l = some a ∧ r = some b := by
  cases l <;> cases r <;> simp

theorem comparison_mirrored {l r : Option Value} {result : Bool}
    (hholds : comparison op l r = .ok result) : comparison op.mirrored r l = .ok result := by
  rcases null_or_values l r with hnull | ⟨a, b, rfl, rfl⟩
  · rw [comparison_none hnull] at hholds
    rw [comparison_none hnull.symm, hholds]
  · obtain ⟨o, horder, hholds⟩ := comparison_eq_ok.mp hholds
    exact comparison_eq_ok.mpr ⟨_, order?_swap horder, (holds?_mirrored op o).trans hholds⟩

/-- The answers of all comparisons of two values: three of them are given, the others are
made up of these. -/
structure Answers (l r : Option Value) (lt eq gt : Bool) : Prop where
  less : comparison .less l r = .ok lt
  equal : comparison .equal l r = .ok eq
  greater : comparison .greater l r = .ok gt
  notEqual : comparison .notEqual l r = .ok !eq
  lessEqual : comparison .lessEqual l r = .ok (lt || eq)
  greaterEqual : comparison .greaterEqual l r = .ok (gt || eq)

theorem answers_of_order? (horder : order? op a b = .ok o) :
    Answers (some a) (some b) (o == some .lt) (o == some .eq) (o == some .gt) where
  less := comparison_eq_ok.mpr ⟨o, order?_of_ok horder, rfl⟩
  equal := comparison_eq_ok.mpr ⟨o, order?_of_ok horder, rfl⟩
  greater := comparison_eq_ok.mpr ⟨o, order?_of_ok horder, rfl⟩
  notEqual := comparison_eq_ok.mpr ⟨o, order?_of_ok horder, rfl⟩
  lessEqual := comparison_eq_ok.mpr ⟨o, order?_of_ok horder, rfl⟩
  greaterEqual := comparison_eq_ok.mpr ⟨o, order?_of_ok horder, rfl⟩

theorem count_of_order (o : Option Ordering) :
    [o == some .lt, o == some .eq, o == some .gt].count true = if o = none then 0 else 1 := by
  rcases o with _ | _ | _ | _ <;> rfl

/-- Whether a comparison fails depends on the values alone, and two values compare the same
in the other order with the mirrored operator.  No comparison holds of null.  Otherwise, where
comparing does not fail, at most one of `<`, `=` and `>` holds, exactly one if everything that
takes part as a number is one, and the other operators are what their names say. -/
theorem comparison_laws (l r : Option Value) :
    (∀ op op' : Kind, op.isComparison = true → op'.isComparison = true →
      (comparison op l r).isOk = (comparison op' l r).isOk) ∧
    (∀ (op : Kind) (result : Bool),
      comparison op.mirrored r l = .ok result ↔ comparison op l r = .ok result) ∧
    (l = none ∨ r = none → ∀ op, comparison op l r = .ok false) ∧
    ∀ (a b : Value) (op : Kind), l = some a → r = some b → op.isComparison = true →
      (comparison op l r).isOk = true → ∃ lt eq gt : Bool,
        Answers l r lt eq gt ∧ [lt, eq, gt].count true ≤ 1 ∧
          ([lt, eq, gt].count true = 1 ↔ ¬NaNTakesPart a b) := by
  refine ⟨?_, ?_, comparison_none, ?_⟩
  · intro op op' hop hop'
    rcases null_or_values l r with hnull | ⟨a, b, rfl, rfl⟩
    · rw [comparison_none hnull, comparison_none hnull]
    · rw [Bool.eq_iff_iff, isOk_comparison_iff hop, isOk_comparison_iff hop']
      exact exists_congr fun o => ⟨order?_of_ok, order?_of_ok⟩
  · intro op result
    refine ⟨fun hholds => ?_, comparison_mirrored⟩
    rw [← op.mirrored_mirrored]
    exact comparison_mirrored hholds
  · rintro a b op rfl rfl hop hok
    obtain ⟨o, horder⟩ := (isOk_comparison_iff hop).mp hok
    refine ⟨_, _, _, answers_of_order? horder, ?_, ?_⟩
    · rw [count_of_order]
      split <;> decide
    · rw [count_of_order, ← order?_eq_none_iff horder]
      split <;> simp [*]

/-- The text `nan` is read as a number beside a number. -/
theorem nan_text_unordered :
    Kind.less.isComparison = true ∧ Kind.notEqual.isComparison = true ∧
      ((none : Option Value) = none ∨ some (Value.number 1) = none) ∧
      comparison .notEqual none (some (.number 1)) = .ok false ∧
      (comparison .less (some (.string "nan")) (some (.number 1))).isOk = true ∧
      (comparison .notEqual (some (.string "nan")) (some (.number 1))).isOk = true ∧
      comparison .greater (some (.number 1)) (some (.string "nan")) = .ok false ∧
      NaNTakesPart (.string "nan") (.number 1) ∧
      ∃ lt eq gt, Answers (some (.string "nan")) (some (.number 1)) lt eq gt ∧
        [lt, eq, gt].count true = 0 := by
  have hless : comparison .less (some (.string "nan")) (some (.number 1)) = .ok false := by rfl
  have hnan : NaNTakesPart (.string "nan") (.number 1) :=
    ⟨.inr rfl, .string "nan", List.mem_cons_self, _, rfl, rfl⟩
  obtain ⟨hfails, hmirrored, -, hanswers⟩ :=
    comparison_laws (some (.string "nan")) (some (.number 1))
  have hok : (comparison .less (some (.string "nan")) (some (.number 1))).isOk = true := by
    rw [hless]
    rfl
  obtain ⟨lt, eq, gt, hall, hle, hone⟩ := hanswers _ _ .less rfl rfl rfl hok
  have hcount : [lt, eq, gt].count true ≠ 1 := fun h => hone.mp h hnan
  exact ⟨rfl, rfl, .inl rfl, (comparison_laws none (some (.number 1))).2.2.1 (.inl rfl) .notEqual,
    hok, (hfails .less .notEqual rfl rfl).symm.trans hok, (hmirrored .less false).mpr hless, hnan,
    lt, eq, gt, hall, by omega⟩

end Operator

end PocketSql
