import Mathlib
import PocketSql.Proofs.Number.Rounding
import PocketSql.Proofs.Query.Accumulation

/-!
# Extrema and the order of rows

The least and the greatest of integers and numbers do not depend on the order of the rows, apart
from what is not a number.  Such a value is passed over, except in the first place, where it is
taken and nothing replaces it.
-/

namespace PocketSql

open Number (Place)

/-! ## Numeric values in order -/

namespace Numeric

/-- The place of a value among the doubles, in which integers take part as the nearest one. -/
def place? (v : Numeric) : Option Place :=
  Number.place? v.toFloat

/-- The value is not a number, which an integer always is. -/
def isNaN : Numeric → Bool
  | integer _ => false
  | number x => x.isNaN

end Numeric

/-- The first value of a column is not a number. -/
def startsWithNaN (column : List Numeric) : Bool :=
  column.head?.any Numeric.isNaN

theorem startsWithNaN_append {column : List Numeric} (hcolumn : column ≠ [])
    (column' : List Numeric) : startsWithNaN (column ++ column') = startsWithNaN column := by
  rw [startsWithNaN, List.head?_append_of_ne_nil _ hcolumn, startsWithNaN]

/-- Two results are the same value. Doubles are if they are equal, as the two zeros are, or if
neither of them is a number. -/
def SameResult : Option Value → Option Value → Prop
  | some (.number x), some (.number y) => (x == y) = true ∨ x.isNaN = true ∧ y.isNaN = true
  | result, result' => result = result'

theorem SameResult.symm {result result' : Option Value} (h : SameResult result result') :
    SameResult result' result := by
  have hnumber {x y : Float} (h : SameResult (some (.number x)) (some (.number y))) :
      SameResult (some (.number y)) (some (.number x)) := by
    rcases h with hbeq | ⟨hx, hy⟩
    · obtain ⟨p, hx, hy⟩ := Number.beq_iff.mp hbeq
      exact .inl (Number.beq_iff.mpr ⟨p, hy, hx⟩)
    · exact .inr ⟨hy, hx⟩
  rcases result with _ | _ | _ | _ | _ | _ <;> rcases result' with _ | _ | _ | _ | _ | _ <;> first
    | exact hnumber h
    | exact Eq.symm h

namespace Extremum

theorem Precedes.antisymm {α : Type*} [PartialOrder α] {which : Extremum} {a b : α}
    (hab : which.Precedes a b) (hba : which.Precedes b a) : a = b := by
  cases which with
  | least => exact le_antisymm hab hba
  | greatest => exact le_antisymm hba hab

theorem Precedes.of_not {α : Type*} [LinearOrder α] {which : Extremum} {a b : α}
    (hab : ¬which.Precedes a b) : which.Precedes b a := by
  cases which <;> exact (not_le.mp hab).le

/-- The better of two doubles, where the current one stays unless the candidate is strictly
better. -/
def choose (which : Extremum) (current candidate : Float) : Float :=
  if which.prefersNumber candidate current then candidate else current

variable {which : Extremum}

theorem better_number_left (x : Float) (v : Numeric) :
    which.better (.number x) v = .number (which.choose x v.toFloat) := by
  rfl

theorem better_number_right (v : Numeric) (y : Float) :
    which.better v (.number y) = .number (which.choose v.toFloat y) := by
  cases v <;> rfl

theorem prefersNumber_iff {candidate current : Float} :
    which.prefersNumber candidate current = true ↔
      ∃ p q, Number.place? current = some p ∧ Number.place? candidate = some q ∧
        ¬which.Precedes p q := by
  cases which with
  | least =>
      simp only [prefersNumber, decide_eq_true_eq, Number.lt_iff, Precedes, not_le]
      constructor
      · rintro ⟨q, p, hq, hp, hlt⟩
        exact ⟨p, q, hp, hq, hlt⟩
      · rintro ⟨p, q, hp, hq, hlt⟩
        exact ⟨q, p, hq, hp, hlt⟩
  | greatest => simp only [prefersNumber, decide_eq_true_eq, Number.lt_iff, Precedes, not_le]

/-- Nothing replaces what is not a number. -/
theorem choose_of_place?_eq_none {x : Float} (hx : Number.place? x = none) (y : Float) :
    which.choose x y = x := by
  refine if_neg fun hprefers => ?_
  obtain ⟨p, q, hp, -, -⟩ := prefersNumber_iff.mp hprefers
  cases hx.symm.trans hp

/-- What is chosen stands in front of both, if it stands against a number. -/
theorem place?_choose (which : Extremum) {x : Float} {p : Place}
    (hx : Number.place? x = some p) (y : Float) :
    ∃ r, Number.place? (which.choose x y) = some r ∧ (r = p ∨ Number.place? y = some r) ∧
      which.Precedes r p ∧ ∀ q, Number.place? y = some q → which.Precedes r q := by
  by_cases hprefers : which.prefersNumber y x = true
  · obtain ⟨p', q, hp, hq, hnot⟩ := prefersNumber_iff.mp hprefers
    cases hx.symm.trans hp
    refine ⟨q, ?_, .inr hq, .of_not hnot, fun q' hq' => ?_⟩
    · rw [choose, if_pos hprefers, hq]
    · cases hq.symm.trans hq'
      exact .refl q
  · refine ⟨p, ?_, .inl rfl, .refl p, fun q hq => ?_⟩
    · rw [choose, if_neg hprefers, hx]
    · exact by_contra fun hnot => hprefers (prefersNumber_iff.mpr ⟨p, q, hx, hq, hnot⟩)

/-! ## The best of a column -/

/-- The place of a value of the column, in front of the places of all values. -/
def IsBestPlace (which : Extremum) (column : List Numeric) (p : Place) : Prop :=
  (∃ v ∈ column, v.place? = some p) ∧
    ∀ v ∈ column, ∀ q, v.place? = some q → which.Precedes p q

/-- What an accumulator makes of a column: the best integer of a column of integers, and as soon
as there is a number, a double in the best place. -/
def IsResult (which : Extremum) (column : List Numeric) : Option Numeric → Prop
  | none => column = []
  | some (.integer best) =>
    ∃ integers, column = integers.map .integer ∧ which.IsBest integers (some best)
  | some (.number x) =>
    (∃ y, .number y ∈ column) ∧ ∃ p, Number.place? x = some p ∧ which.IsBestPlace column p

variable {column column' : List Numeric}

theorem isResult_singleton {v : Numeric} (hv : v.isNaN = false) :
    which.IsResult [v] (some v) := by
  cases v with
  | integer i => exact ⟨[i], rfl, which.isBest_singleton i⟩
  | number x =>
      have hplace : Number.place? x ≠ none := by
        rw [Ne, ← Number.isNaN_iff]
        exact ne_true_of_eq_false hv
      obtain ⟨p, hp⟩ := Option.ne_none_iff_exists'.mp hplace
      refine ⟨⟨x, List.mem_singleton_self _⟩, p, hp, ⟨_, List.mem_singleton_self _, hp⟩, ?_⟩
      intro v hv q hq
      cases List.mem_singleton.mp hv
      cases hp.symm.trans hq
      exact .refl p

theorem isBestPlace_choose {x : Float} {p : Place} (hx : Number.place? x = some p)
    (hp : which.IsBestPlace column p) (v : Numeric) :
    ∃ r, Number.place? (which.choose x v.toFloat) = some r ∧
      which.IsBestPlace (column ++ [v]) r := by
  obtain ⟨⟨w, hw, hplace⟩, hbound⟩ := hp
  obtain ⟨r, hr, horigin, hrp, hrv⟩ := which.place?_choose hx v.toFloat
  refine ⟨r, hr, ?_, fun u hu q hq => ?_⟩
  · rcases horigin with rfl | hv
    · exact ⟨w, List.mem_append_left _ hw, hplace⟩
    · exact ⟨v, List.mem_append_right _ (List.mem_singleton_self v), hv⟩
  · rcases List.mem_append.mp hu with hu | hu
    · exact hrp.trans (hbound u hu q hq)
    · cases List.mem_singleton.mp hu
      exact hrv q hq

theorem isBestPlace_integer {best : Int64} {p : Place}
    (hp : Number.place? (Number.ofInteger best) = some p)
    (hresult : which.IsResult column (some (.integer best))) : which.IsBestPlace column p := by
  obtain ⟨integers, rfl, hmem, hbound⟩ := hresult
  refine ⟨⟨.integer best, List.mem_map_of_mem hmem, hp⟩, fun v hv q hq => ?_⟩
  obtain ⟨i, hi, rfl⟩ := List.mem_map.mp hv
  have hprecedes := hbound i hi
  cases which with
  | least => exact Number.place?_ofInteger_le hp hq hprecedes
  | greatest => exact Number.place?_ofInteger_le hq hp hprecedes

theorem IsResult.step {best : Numeric} (hbest : which.IsResult column (some best))
    (v : Numeric) : which.IsResult (column ++ [v]) (some (which.better best v)) := by
  have hlast : v ∈ column ++ [v] := List.mem_append_right _ (List.mem_singleton_self v)
  cases best with
  | integer m =>
      cases v with
      | integer i =>
          obtain ⟨integers, rfl, hbest⟩ := hbest
          obtain ⟨best, hbetter, hbest'⟩ := hbest.step i
          rw [hbetter]
          exact ⟨integers ++ [i], by rw [List.map_append, List.map_singleton], hbest'⟩
      | number y =>
          obtain ⟨p, hp, -⟩ := Number.place?_ofInteger m
          rw [better_number_right]
          exact ⟨⟨y, hlast⟩, isBestPlace_choose hp (isBestPlace_integer hp hbest) (.number y)⟩
  | number x =>
      obtain ⟨⟨y, hy⟩, p, hp, hbest⟩ := hbest
      rw [better_number_left]
      exact ⟨⟨y, List.mem_append_left _ hy⟩, isBestPlace_choose hp hbest v⟩

theorem IsResult.perm {best : Option Numeric} (hperm : column.Perm column')
    (hbest : which.IsResult column best) : which.IsResult column' best := by
  rcases best with _ | m | x
  · obtain rfl : column = [] := hbest
    exact hperm.nil_eq.symm
  · obtain ⟨integers, rfl, hbest⟩ := hbest
    have himage : Relation.Comp (· = List.map Numeric.integer ·) List.Perm column' integers := by
      rw [List.eq_map_comp_perm]
      exact hperm.symm
    obtain ⟨integers', rfl, hintegers⟩ := himage
    refine ⟨integers', rfl, ?_⟩
    simpa only [IsBest, hintegers.mem_iff] using hbest
  · simpa only [IsResult, IsBestPlace, hperm.mem_iff] using hbest

theorem IsResult.ne_nil {v : Numeric} (hbest : which.IsResult column (some v)) :
    column ≠ [] := by
  cases v with
  | integer m =>
      obtain ⟨integers, rfl, hmem, -⟩ := hbest
      exact List.ne_nil_of_mem (List.mem_map_of_mem hmem)
  | number x =>
      obtain ⟨⟨y, hy⟩, -⟩ := hbest
      exact List.ne_nil_of_mem hy

theorem IsResult.integer_or_number {m : Int64} {x : Float}
    (hinteger : which.IsResult column (some (.integer m))) :
    ¬which.IsResult column (some (.number x)) := by
  rintro ⟨⟨y, hy⟩, -⟩
  obtain ⟨integers, rfl, -⟩ := hinteger
  obtain ⟨i, -, hi⟩ := List.mem_map.mp hy
  cases hi

/-- A column has one result. -/
theorem IsResult.same {best best' : Option Numeric} (hbest : which.IsResult column best)
    (hbest' : which.IsResult column best') :
    SameResult (best.map Numeric.toValue) (best'.map Numeric.toValue) := by
  rcases best with _ | m | x <;> rcases best' with _ | m' | x'
  case none.none => rfl
  case none.some.integer | none.some.number => exact absurd hbest hbest'.ne_nil
  case some.integer.none | some.number.none => exact absurd hbest' hbest.ne_nil
  case some.integer.some.number => exact absurd hbest' hbest.integer_or_number
  case some.number.some.integer => exact absurd hbest hbest'.integer_or_number
  case some.integer.some.integer =>
    obtain ⟨integers, rfl, hmem, hbound⟩ := hbest
    obtain ⟨integers', hcolumn, hmem', hbound'⟩ := hbest'
    cases List.map_injective_iff.mpr (fun _ _ => Numeric.integer.inj) hcolumn
    have hvalue := (hbound m' hmem').antisymm (hbound' m hmem)
    exact congrArg (fun i => some (Value.integer i)) (Int64.toInt_inj.mp hvalue)
  case some.number.some.number =>
    obtain ⟨-, p, hp, ⟨v, hv, hplace⟩, hbound⟩ := hbest
    obtain ⟨-, q, hq, ⟨w, hw, hplace'⟩, hbound'⟩ := hbest'
    obtain rfl : p = q := (hbound w hw q hplace').antisymm (hbound' v hv p hplace)
    exact .inl (Number.beq_iff.mpr ⟨p, hp, hq⟩)

theorem IsResult.not_same {best : Option Numeric} (hbest : which.IsResult column best)
    {x : Float} (hx : Number.place? x = none) :
    ¬SameResult (some (.number x)) (best.map Numeric.toValue) := by
  intro hsame
  rcases best with _ | m | y
  · cases hsame
  · cases hsame
  · obtain ⟨-, p, hp, -⟩ := hbest
    rcases hsame with hbeq | ⟨-, hy⟩
    · obtain ⟨q, hq, -⟩ := Number.beq_iff.mp hbeq
      cases hx.symm.trans hq
    · cases hp.symm.trans (Number.isNaN_iff.mp hy)

/-! ## The run over a column -/

/-- What an accumulator holds behind a column: its result, unless the first value is not a
number. -/
inductive Holds (which : Extremum) (column : List Numeric) : Option Numeric → Prop
  | unordered {x : Float} :
      startsWithNaN column = true → Number.place? x = none → which.Holds column (some (.number x))
  | best {best : Option Numeric} :
      startsWithNaN column = false → which.IsResult column best → which.Holds column best

theorem holds_singleton (v : Numeric) : which.Holds [v] (some v) := by
  cases hv : v.isNaN with
  | false => exact .best hv (isResult_singleton hv)
  | true =>
      cases v with
      | integer i => cases hv
      | number x => exact .unordered hv (Number.isNaN_iff.mp hv)

theorem Holds.step {best : Option Numeric} (hbest : which.Holds column best) (v : Numeric) :
    which.Holds (column ++ [v]) (some (best.elim v (which.better · v))) := by
  cases hbest with
  | @unordered x hstart hx =>
      have hcolumn : column ≠ [] := by
        rintro rfl
        cases hstart
      rw [Option.elim, better_number_left, choose_of_place?_eq_none hx]
      exact .unordered ((startsWithNaN_append hcolumn [v]).trans hstart) hx
  | best hstart hresult =>
      cases best with
      | none =>
          obtain rfl : column = [] := hresult
          exact holds_singleton v
      | some best =>
          exact .best ((startsWithNaN_append hresult.ne_nil [v]).trans hstart)
            (hresult.step v)

/-- Two orders of the same values have the same result exactly if both or neither of them start
with what is not a number. -/
theorem Holds.same_iff {best best' : Option Numeric} (hperm : column.Perm column')
    (hbest : which.Holds column best) (hbest' : which.Holds column' best') :
    SameResult (best.map Numeric.toValue) (best'.map Numeric.toValue) ↔
      startsWithNaN column = startsWithNaN column' := by
  rcases hbest with ⟨hstart, hx⟩ | ⟨hstart, hresult⟩ <;>
    rcases hbest' with ⟨hstart', hx'⟩ | ⟨hstart', hresult'⟩
  · exact iff_of_true (.inr ⟨Number.isNaN_iff.mpr hx, Number.isNaN_iff.mpr hx'⟩)
      (hstart.trans hstart'.symm)
  · exact iff_of_false (hresult'.not_same hx) (by simp [hstart, hstart'])
  · exact iff_of_false (fun hsame => hresult.not_same hx' hsame.symm) (by simp [hstart, hstart'])
  · exact iff_of_true ((hresult.perm hperm).same hresult') (hstart.trans hstart'.symm)

end Extremum

namespace Accumulator

/-- The cells of a column of integers, numbers and nulls. -/
abbrev numericColumn (cells : List (Option Numeric)) : List (Option Value) :=
  cells.map (Option.map Numeric.toValue)

theorem step_extremum_numeric (which : Extremum) (best : Option Numeric) (v : Numeric) :
    (extremum which best).step (some v.toValue) =
      .ok (extremum which (some (best.elim v (which.better · v)))) := by
  rw [step_extremum]
  cases v <;> rfl

/-- Every step over integers, numbers and nulls succeeds. -/
theorem foldlM_numeric (which : Extremum) (cells : List (Option Numeric)) :
    ∃ best, (numericColumn cells).foldlM step (extremum which none) =
        .ok (extremum which best) ∧ which.Holds cells.reduceOption best := by
  induction cells using List.reverseRecOn with
  | nil => exact ⟨none, rfl, .best rfl rfl⟩
  | append_singleton cells cell ih =>
      obtain ⟨best, hrun, hbest⟩ := ih
      have hcolumn : numericColumn (cells ++ [cell]) =
          numericColumn cells ++ [cell.map Numeric.toValue] := List.map_append
      rw [hcolumn, List.foldlM_append, hrun, List.reduceOption_append,
        List.reduceOption_singleton]
      cases cell with
      | none => exact ⟨best, rfl, by simpa using hbest⟩
      | some v =>
          have hlast : [some v.toValue].foldlM step (extremum which best) =
              .ok (extremum which (some (best.elim v (which.better · v)))) :=
            bind_of_ok (step_extremum_numeric which best v) rfl
          exact ⟨_, hlast, hbest.step v⟩

end Accumulator

open Accumulator in
/-- Over integers, numbers and nulls the least and the greatest value can always be computed,
and two orders of the rows give the same one exactly if in both or in neither of them the first
value that is not null is not a number. -/
theorem extremum_same_iff (which : Extremum) {cells cells' : List (Option Numeric)}
    (hperm : cells.Perm cells') :
    ∃ final final', (numericColumn cells).foldlM step (start which.function) = .ok final ∧
      (numericColumn cells').foldlM step (start which.function) = .ok final' ∧
      (SameResult final.result final'.result ↔
        startsWithNaN cells.reduceOption = startsWithNaN cells'.reduceOption) := by
  obtain ⟨best, hrun, hbest⟩ := foldlM_numeric which cells
  obtain ⟨best', hrun', hbest'⟩ := foldlM_numeric which cells'
  rw [start_function]
  exact ⟨_, _, hrun, hrun', hbest.same_iff (hperm.filterMap id) hbest'⟩

/-- One, and what is not a number. -/
def oneAndNaN : List (Option Numeric) :=
  [some (.number (Number.ofInteger 1)), some (.number (0 / 0))]

open Accumulator in
theorem least_of_zero_and_others :
    (some (.integer 0) :: oneAndNaN).Perm (oneAndNaN ++ [some (.integer 0)]) ∧
      ∃ final final',
        (numericColumn (some (.integer 0) :: oneAndNaN)).foldlM step (start .min) = .ok final ∧
          (numericColumn (oneAndNaN ++ [some (.integer 0)])).foldlM step (start .min) =
            .ok final' ∧
          SameResult final.result final'.result := by
  have hperm : (some (.integer 0) :: oneAndNaN).Perm (oneAndNaN ++ [some (.integer 0)]) :=
    (List.perm_append_comm : ([some (Numeric.integer 0)] ++ oneAndNaN).Perm _)
  obtain ⟨final, final', hrun, hrun', hiff⟩ := extremum_same_iff .least hperm
  exact ⟨hperm, final, final', hrun, hrun', hiff.mpr rfl⟩

open Accumulator in
theorem minimum_depends_on_order :
    oneAndNaN.Perm oneAndNaN.reverse ∧
      (numericColumn oneAndNaN).foldlM step (start .min) =
        .ok (extremum .least (some (.number (Number.ofInteger 1)))) ∧
      (numericColumn oneAndNaN.reverse).foldlM step (start .min) =
        .ok (extremum .least (some (.number (0 / 0)))) ∧
      ¬SameResult (some (.number (Number.ofInteger 1))) (some (.number (0 / 0))) := by
  refine ⟨oneAndNaN.reverse_perm.symm, rfl, rfl, ?_⟩
  rintro (hequal | ⟨hone, -⟩)
  · cases hequal
  · cases hone

end PocketSql
