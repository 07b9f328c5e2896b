import Mathlib
import PocketSql.Number.Order

/-!
# The places of doubles

Doubles that are numbers have places in a linear order, which the comparisons read: one is less
than the other where its place is, and they are equal in the same place, like the two zeros.
What is not a number has no place, and no comparison holds of it.
-/

namespace PocketSql.Number

open Float.Model UnpackedFloat

/-- A linear order with room for all doubles: the sign and the kind of the double, its exponent
and its significand, the last two turned around below zero. -/
abbrev Place := ℤ ×ₗ ℤ ×ₗ ℤ

namespace Place

def of (kind exponent significand : ℤ) : Place :=
  toLex (kind, toLex (exponent, significand))

theorem compare_of (kind exponent significand kind' exponent' significand' : ℤ) :
    compare (of kind exponent significand) (of kind' exponent' significand') =
      (compare kind kind').then
        ((compare exponent exponent').then (compare significand significand')) := by
  rfl

end Place

/-- The place of a double that has been taken apart. -/
def placeOf? : UnpackedFloat → Option Place
  | .notANumber => none
  | .infinity .negative => some (.of (-2) 0 0)
  | .finite .negative significand exponent _ => some (.of (-1) (-exponent) (-significand))
  | .zero _ => some (.of 0 0 0)
  | .finite .positive significand exponent _ => some (.of 1 exponent significand)
  | .infinity .positive => some (.of 2 0 0)

theorem compare_natCast (a b : ℕ) : compare (a : ℤ) (b : ℤ) = compare a b := by
  rcases lt_trichotomy a b with hab | rfl | hab
  · rw [compare_lt_iff_lt.mpr hab, compare_lt_iff_lt.mpr (Int.ofNat_lt.mpr hab)]
  · rw [compare_eq_iff_eq.mpr rfl, compare_eq_iff_eq.mpr rfl]
  · rw [compare_gt_iff_gt.mpr hab, compare_gt_iff_gt.mpr (Int.ofNat_lt.mpr hab)]

theorem compare_neg (a b : ℤ) : compare (-a) (-b) = (compare a b).swap := by
  rcases lt_trichotomy a b with hab | rfl | hab
  · rw [compare_lt_iff_lt.mpr hab, compare_gt_iff_gt.mpr (Int.neg_lt_neg hab)]
    rfl
  · rw [compare_eq_iff_eq.mpr rfl, compare_eq_iff_eq.mpr rfl]
    rfl
  · rw [compare_gt_iff_gt.mpr hab, compare_lt_iff_lt.mpr (Int.neg_lt_neg hab)]
    rfl

/-- Doubles compare as their places do. -/
theorem compare_eq (a b : UnpackedFloat) :
    a.compare b = (do return compare (← placeOf? a) (← placeOf? b)) := by
  rcases a with (_ | _) | _ | (_ | _) | ⟨_ | _, m, e, hm⟩ <;>
    rcases b with (_ | _) | _ | (_ | _) | ⟨_ | _, m', e', hm'⟩ <;> first
    | rfl
    | simp only [UnpackedFloat.compare, placeOf?, Option.bind_eq_bind, Option.bind_some,
        Option.pure_def, Place.compare_of, compare_neg, compare_natCast, Ordering.swap_then,
        compare_eq_iff_eq.mpr rfl, Ordering.eq_then]

/-- The place of a double, if it is a number. -/
def place? (x : Float) : Option Place :=
  placeOf? x.toModel.unpack

section Comparisons

variable {x y : Float}

theorem compare_toModel_eq_some {o : Ordering} :
    x.toModel.unpack.compare y.toModel.unpack = some o ↔
      ∃ p q, place? x = some p ∧ place? y = some q ∧ compare p q = o := by
  rw [compare_eq, place?, place?]
  cases placeOf? x.toModel.unpack <;> cases placeOf? y.toModel.unpack <;> simp

theorem lt_iff : x < y ↔ ∃ p q, place? x = some p ∧ place? y = some q ∧ p < q := by
  have hlt : x < y ↔ x.toModel.unpack.compare y.toModel.unpack = some .lt :=
    decide_eq_true_iff.trans beq_iff_eq
  simp only [hlt, compare_toModel_eq_some, compare_lt_iff_lt]

theorem beq_iff : (x == y) = true ↔ ∃ p, place? x = some p ∧ place? y = some p := by
  have hbeq : (x == y) = true ↔ x.toModel.unpack.compare y.toModel.unpack = some .eq := by
    change (x.toModel.unpack.compare y.toModel.unpack == some .eq) = true ↔ _
    exact beq_iff_eq
  simp only [hbeq, compare_toModel_eq_some, compare_eq_iff_eq]
  constructor
  · rintro ⟨p, _, hx, hy, rfl⟩
    exact ⟨p, hx, hy⟩
  · rintro ⟨p, hx, hy⟩
    exact ⟨p, p, hx, hy, rfl⟩

theorem isNaN_iff : x.isNaN = true ↔ place? x = none := by
  rw [Float.isNaN, Float.Model.isNaN, place?]
  rcases x.toModel.unpack with (_ | _) | _ | (_ | _) | ⟨_ | _, _, _, _⟩ <;>
    simp [UnpackedFloat.isNaN, placeOf?]

/-- Doubles are ordered as their places are. -/
theorem order?_eq (x y : Float) :
    order? x y = (do return compare (← place? x) (← place? y)) := by
  rw [order?]
  split_ifs with hlt heq hgt
  · obtain ⟨p, q, hp, hq, hpq⟩ := lt_iff.mp hlt
    simp [hp, hq, compare_lt_iff_lt.mpr hpq]
  · obtain ⟨p, hp, hq⟩ := beq_iff.mp heq
    simp [hp, hq]
  · obtain ⟨q, p, hq, hp, hqp⟩ := lt_iff.mp hgt
    simp [hp, hq, compare_gt_iff_gt.mpr hqp]
  · cases hx : place? x with
    | none => rfl
    | some p =>
        cases hy : place? y with
        | none => rfl
        | some q =>
            rcases lt_trichotomy p q with hpq | rfl | hpq
            · exact absurd (lt_iff.mpr ⟨p, q, hx, hy, hpq⟩) hlt
            · exact absurd (beq_iff.mpr ⟨p, hx, hy⟩) heq
            · exact absurd (lt_iff.mpr ⟨q, p, hy, hx, hpq⟩) hgt

theorem order?_swap (x y : Float) : order? y x = (order? x y).map Ordering.swap := by
  rw [order?_eq, order?_eq]
  cases place? x with
  | none => cases place? y <;> rfl
  | some p =>
      cases place? y with
      | none => rfl
      | some q => exact congrArg some Std.OrientedOrd.eq_swap

theorem order?_eq_none : order? x y = none ↔ x.isNaN = true ∨ y.isNaN = true := by
  rw [order?_eq, isNaN_iff, isNaN_iff]
  cases place? x <;> cases place? y <;> simp

end Comparisons

end PocketSql.Number
