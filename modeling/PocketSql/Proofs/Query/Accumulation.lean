import Mathlib
import PocketSql.Proofs.Number.Words
import PocketSql.Proofs.Outcome
import PocketSql.Proofs.Store.InPlace

/-!
# Accumulation

An accumulator that goes on after a value that it refuses ends as if the value had not been
there.  On integers and nulls, the counts and the two extrema refuse nothing, a sum refuses what
would take it out of the words, and all results are exact.
-/

namespace PocketSql

namespace Accumulator

/-! ## Going on after a failure -/

/-- The step of a value fails. -/
def Refuses (a : Accumulator) (value : Option Value) : Prop :=
  ∃ fault state, intake value a = .error fault state

/-- What a step leaves behind, also one that fails. -/
def next (a : Accumulator) (value : Option Value) : Accumulator :=
  match intake value a with
  | .ok _ state => state
  | .error _ state => state

/-- What the steps of a column of values leave behind. -/
def feed (a : Accumulator) (column : List (Option Value)) : Accumulator :=
  column.foldl next a

/-- The values of a column whose steps succeed. -/
def accepted (a : Accumulator) : List (Option Value) → List (Option Value)
  | [] => []
  | value :: column =>
    match intake value a with
    | .ok _ state => value :: state.accepted column
    | .error _ state => state.accepted column

section Steps

variable {a a' : Accumulator} {value : Option Value}

theorem step_eq_ok : a.step value = .ok a' ↔ intake value a = .ok () a' := by
  rw [intake_eq]
  cases a.step value <;> simp

theorem not_refuses_iff : ¬a.Refuses value ↔ ∃ a', a.step value = .ok a' := by
  rw [Refuses, intake_eq]
  cases a.step value <;> simp

theorem refuses_of_error {fault : Fault} (hstep : a.step value = .error fault) :
    a.Refuses value := by
  rw [Refuses, intake_eq, hstep]
  exact ⟨fault, a, rfl⟩

theorem next_of_ok (hstep : a.step value = .ok a') : a.next value = a' := by
  rw [next, step_eq_ok.mp hstep]

theorem intake_of_refuses (hrefuses : a.Refuses value) :
    ∃ fault, intake value a = .error fault a := by
  obtain ⟨fault, state, hintake⟩ := hrefuses
  rw [intake_eq] at hintake ⊢
  cases hstep : a.step value with
  | ok a' => rw [hstep] at hintake; cases hintake
  | error fault => exact ⟨fault, rfl⟩

theorem next_of_refuses (hrefuses : a.Refuses value) : a.next value = a := by
  obtain ⟨fault, hintake⟩ := intake_of_refuses hrefuses
  rw [next, hintake]

theorem accepted_cons_of_ok (hstep : a.step value = .ok a') (column : List (Option Value)) :
    a.accepted (value :: column) = value :: a'.accepted column := by
  rw [accepted, step_eq_ok.mp hstep]

theorem accepted_cons_of_refuses (hrefuses : a.Refuses value) (column : List (Option Value)) :
    a.accepted (value :: column) = a.accepted column := by
  obtain ⟨fault, hintake⟩ := intake_of_refuses hrefuses
  rw [accepted, hintake]

theorem feed_cons (a : Accumulator) (value : Option Value) (column : List (Option Value)) :
    a.feed (value :: column) = (a.next value).feed column := by
  rfl

theorem feed_append (a : Accumulator) (column column' : List (Option Value)) :
    a.feed (column ++ column') = (a.feed column).feed column' :=
  List.foldl_append

end Steps

/-- The accepted values are all accepted again, and they lead to the state that all values
lead to. -/
theorem foldlM_accepted (a : Accumulator) (column : List (Option Value)) :
    (a.accepted column).foldlM step a = .ok (a.feed column) := by
  induction column generalizing a with
  | nil => rfl
  | cons value column ih =>
      rw [feed_cons]
      by_cases hrefuses : a.Refuses value
      · rw [accepted_cons_of_refuses hrefuses, next_of_refuses hrefuses]
        exact ih a
      · obtain ⟨a', hstep⟩ := not_refuses_iff.mp hrefuses
        rw [accepted_cons_of_ok hstep, next_of_ok hstep, List.foldlM_cons, hstep]
        exact ih a'

theorem feed_of_foldlM {a a' : Accumulator} {column : List (Option Value)}
    (hrun : column.foldlM step a = .ok a') : a.feed column = a' := by
  induction column generalizing a with
  | nil =>
      cases hrun
      rfl
  | cons value column ih =>
      obtain ⟨mid, hstep, hrest⟩ := bind_eq_ok.mp (List.foldlM_cons.symm.trans hrun)
      rw [feed_cons, next_of_ok hstep]
      exact ih hrest

theorem accepted_append (a : Accumulator) (column column' : List (Option Value)) :
    a.accepted (column ++ column') =
      a.accepted column ++ (a.feed column).accepted column' := by
  induction column generalizing a with
  | nil => rfl
  | cons value column ih =>
      rw [List.cons_append, feed_cons]
      by_cases hrefuses : a.Refuses value
      · rw [accepted_cons_of_refuses hrefuses, accepted_cons_of_refuses hrefuses,
          next_of_refuses hrefuses, ih]
      · obtain ⟨a', hstep⟩ := not_refuses_iff.mp hrefuses
        rw [accepted_cons_of_ok hstep, accepted_cons_of_ok hstep, next_of_ok hstep, ih,
          List.cons_append]

/-! ## Counts -/

theorem feed_rows (count : ℕ) (column : List (Option Value)) :
    (rows count).feed column = rows (count + column.length) := by
  induction column generalizing count with
  | nil => rfl
  | cons value column ih =>
      rw [feed_cons, List.length_cons, Nat.add_comm column.length, ← Nat.add_assoc, ← ih]
      cases value <;> rfl

theorem feed_values (count : ℕ) (column : List (Option Value)) :
    (values count).feed column = values (count + column.reduceOption.length) := by
  induction column generalizing count with
  | nil => rfl
  | cons value column ih =>
      cases value with
      | none =>
          rw [feed_cons, List.reduceOption_cons_of_none, ← ih]
          rfl
      | some value =>
          rw [feed_cons, List.reduceOption_cons_of_some, List.length_cons,
            Nat.add_comm column.reduceOption.length, ← Nat.add_assoc, ← ih]
          rfl

/-- The cells of a column of integers and nulls. -/
abbrev integerColumn (cells : List (Option Int64)) : List (Option Value) :=
  cells.map (Option.map Value.integer)

end Accumulator

/-! ## Extrema -/

namespace Extremum

/-- The first element is at least as good a result as the second one. -/
def Precedes {α : Type*} [LE α] : Extremum → α → α → Prop
  | least, a, b => a ≤ b
  | greatest, a, b => b ≤ a

theorem Precedes.refl {α : Type*} [Preorder α] {which : Extremum} (a : α) :
    which.Precedes a a := by
  cases which <;> exact le_refl a

theorem Precedes.trans {α : Type*} [Preorder α] {which : Extremum} {a b c : α}
    (hab : which.Precedes a b) (hbc : which.Precedes b c) : which.Precedes a c := by
  cases which with
  | least => exact le_trans hab hbc
  | greatest => exact le_trans hbc hab

/-- The best of all integers, if there are any. -/
def IsBest (which : Extremum) (integers : List Int64) : Option Int64 → Prop
  | none => integers = []
  | some best => best ∈ integers ∧ ∀ i ∈ integers, which.Precedes best.toInt i.toInt

theorem better_integer (which : Extremum) (current candidate : Int64) :
    ∃ best, which.better (.integer current) (.integer candidate) = .integer best ∧
      (best = current ∨ best = candidate) ∧
      which.Precedes best.toInt current.toInt ∧ which.Precedes best.toInt candidate.toInt := by
  refine ⟨_, rfl, ?_⟩
  by_cases hprefers : which.prefersInteger candidate current = true
  · rw [if_pos hprefers]
    cases which <;> simp [prefersInteger, Precedes] at hprefers ⊢ <;> omega
  · rw [if_neg hprefers]
    cases which <;> simp [prefersInteger, Precedes] at hprefers ⊢ <;> omega

theorem isBest_singleton (which : Extremum) (i : Int64) : which.IsBest [i] (some i) := by
  refine ⟨List.mem_singleton_self i, fun j hj => ?_⟩
  cases List.mem_singleton.mp hj
  exact .refl _

theorem IsBest.step {which : Extremum} {integers : List Int64} {current : Int64}
    (hbest : which.IsBest integers (some current)) (i : Int64) :
    ∃ best, which.better (.integer current) (.integer i) = .integer best ∧
      which.IsBest (integers ++ [i]) (some best) := by
  obtain ⟨hmem, hbound⟩ := hbest
  obtain ⟨best, hbetter, hchoice, hcurrent, hi⟩ := which.better_integer current i
  refine ⟨best, hbetter, ?_, fun j hj => ?_⟩
  · rcases hchoice with rfl | rfl
    · exact List.mem_append_left _ hmem
    · exact List.mem_append_right _ (List.mem_singleton_self _)
  · rcases List.mem_append.mp hj with hj | hj
    · exact hcurrent.trans (hbound j hj)
    · cases List.mem_singleton.mp hj
      exact hi

end Extremum

namespace Accumulator

theorem step_extremum_integer {which : Extremum} {integers : List Int64} {best : Option Int64}
    (hbest : which.IsBest integers best) (cell : Option Int64) :
    ∃ best', (extremum which (best.map .integer)).step (cell.map .integer) =
        .ok (extremum which (best'.map .integer)) ∧
      which.IsBest (integers ++ cell.toList) best' := by
  cases cell with
  | none => exact ⟨best, rfl, by rwa [Option.toList_none, List.append_nil]⟩
  | some i =>
      rw [Option.map_some, step_extremum]
      cases best with
      | none =>
          obtain rfl : integers = [] := hbest
          exact ⟨some i, rfl, which.isBest_singleton i⟩
      | some current =>
          obtain ⟨best', hbetter, hbest'⟩ := hbest.step i
          refine ⟨some best', ?_, hbest'⟩
          rw [Option.map_some, Option.map_some, ← hbetter]
          rfl

theorem feed_extremum (which : Extremum) (cells : List (Option Int64)) :
    ∃ best, (extremum which none).feed (integerColumn cells) =
        extremum which (best.map .integer) ∧ which.IsBest cells.reduceOption best := by
  induction cells using List.reverseRecOn with
  | nil => exact ⟨none, rfl, rfl⟩
  | append_singleton cells cell ih =>
      obtain ⟨best, hfeed, hbest⟩ := ih
      obtain ⟨best', hstep, hbest'⟩ := step_extremum_integer hbest cell
      refine ⟨best', ?_, ?_⟩
      · rw [integerColumn, List.map_append, feed_append, hfeed]
        exact next_of_ok hstep
      · rwa [List.reduceOption_append, List.reduceOption_singleton]

/-! ## Sums -/

/-- What a value adds to a sum of integers. -/
def addend : Option Value → ℤ
  | some (.integer i) => i.toInt
  | _ => 0

/-- The sum of the integers in a column over the unbounded integers. -/
def exactSum (column : List (Option Value)) : ℤ :=
  (column.map addend).sum

/-- The value of a running total, which is zero where there is none yet. -/
def totalValue (total : Option Int64) : ℤ :=
  total.elim 0 Int64.toInt

theorem step_sum_of_hasWord {total : Option Int64} {i : Int64}
    (hword : Integer.HasWord (totalValue total + i.toInt)) :
    ∃ total', (sum (total.map .integer)).step (some (.integer i)) =
        .ok (sum (some (.integer total'))) ∧ total'.toInt = totalValue total + i.toInt := by
  rw [step_sum]
  cases total with
  | none => exact ⟨i, rfl, (zero_add _).symm⟩
  | some t =>
      obtain ⟨total', hadd, hvalue⟩ := Integer.ofInt?_of_hasWord hword
      have hsum : addTo (.integer t) (.integer i) = .ok (.integer total') := by
        rw [addTo, Integer.add?]
        exact congrArg (fun result => (Operator.orOverflow result).map Numeric.integer) hadd
      refine ⟨total', ?_, hvalue⟩
      exact congrArg (Except.map fun total => sum (some total)) hsum

theorem step_sum_of_not_hasWord {total : Option Int64} {i : Int64}
    (hword : ¬Integer.HasWord (totalValue total + i.toInt)) :
    (sum (total.map .integer)).step (some (.integer i)) = .error .integerOverflow := by
  rw [step_sum]
  cases total with
  | none => exact absurd ((zero_add i.toInt).symm ▸ Integer.hasWord_toInt i) hword
  | some t =>
      have hsum : addTo (.integer t) (.integer i) = .error .integerOverflow := by
        rw [addTo, Integer.add?]
        exact congrArg (fun result => (Operator.orOverflow result).map Numeric.integer)
          (Integer.ofInt?_of_not_hasWord hword)
      exact congrArg (Except.map fun total => sum (some total)) hsum

theorem sum_refuses_iff {total cell : Option Int64} :
    (sum (total.map .integer)).Refuses (cell.map .integer) ↔
      ∃ i, cell = some i ∧ ¬Integer.HasWord (totalValue total + i.toInt) := by
  constructor
  · intro hrefuses
    cases cell with
    | none => exact absurd hrefuses (not_refuses_iff.mpr ⟨_, rfl⟩)
    | some i =>
        refine ⟨i, rfl, fun hword => ?_⟩
        obtain ⟨total', hstep, -⟩ := step_sum_of_hasWord hword
        exact not_refuses_iff.mpr ⟨_, hstep⟩ hrefuses
  · rintro ⟨i, rfl, hword⟩
    exact refuses_of_error (step_sum_of_not_hasWord hword)

theorem exactSum_append (column column' : List (Option Value)) :
    exactSum (column ++ column') = exactSum column + exactSum column' := by
  simp only [exactSum, List.map_append, List.sum_append]

/-- A sum holds the exact sum of what it has accepted, and nothing before the first integer. -/
theorem feed_sum (cells : List (Option Int64)) :
    ∃ total, (sum none).feed (integerColumn cells) = sum (total.map .integer) ∧
      totalValue total = exactSum ((sum none).accepted (integerColumn cells)) ∧
      (total = none ↔ cells.reduceOption = []) := by
  induction cells using List.reverseRecOn with
  | nil => exact ⟨none, rfl, rfl, iff_of_true rfl rfl⟩
  | append_singleton cells cell ih =>
      obtain ⟨total, hfeed, hvalue, hnone⟩ := ih
      have hcolumn : integerColumn (cells ++ [cell]) =
          integerColumn cells ++ [cell.map Value.integer] := List.map_append
      simp only [hcolumn, feed_append, accepted_append, exactSum_append, hfeed, ← hvalue,
        List.reduceOption_append, List.reduceOption_singleton]
      cases cell with
      | none => exact ⟨total, rfl, (add_zero _).symm, by simpa using hnone⟩
      | some i =>
          by_cases hword : Integer.HasWord (totalValue total + i.toInt)
          · obtain ⟨total', hstep, hsum⟩ := step_sum_of_hasWord hword
            refine ⟨some total', next_of_ok hstep, ?_, by simp⟩
            rw [Option.map_some, accepted_cons_of_ok hstep]
            exact hsum.trans (congrArg (totalValue total + ·) (add_zero i.toInt).symm)
          · have hrefuses := refuses_of_error (step_sum_of_not_hasWord hword)
            -- the first integer is never refused, for it is the whole sum
            have htotal : total ≠ none := by
              rintro rfl
              exact hword ((zero_add i.toInt).symm ▸ Integer.hasWord_toInt i)
            refine ⟨total, next_of_refuses hrefuses, ?_, by simpa using htotal⟩
            rw [Option.map_some, accepted_cons_of_refuses hrefuses]
            exact (add_zero _).symm

end Accumulator

/-! ## Accumulators over integers -/

namespace Accumulator

theorem result_extremum (which : Extremum) (best : Option Int64) :
    (extremum which (best.map .integer)).result = best.map .integer := by
  cases best <;> rfl

theorem result_sum (total : Option Int64) :
    (sum (total.map .integer)).result = total.map .integer := by
  cases total <;> rfl

theorem start_function (which : Extremum) : start which.function = extremum which none := by
  cases which <;> rfl

/-- Counts and extrema refuse no integer and no null. -/
theorem not_refuses_integer {a : Accumulator}
    (ha : a ∈ [rows 0, start .count, start .min, start .max]) (cells : List (Option Int64))
    (cell : Option Int64) : ¬(a.feed (integerColumn cells)).Refuses (cell.map .integer) := by
  have hextremum (which : Extremum) :
      ¬((extremum which none).feed (integerColumn cells)).Refuses (cell.map .integer) := by
    obtain ⟨best, hfeed, hbest⟩ := feed_extremum which cells
    obtain ⟨best', hstep, -⟩ := step_extremum_integer hbest cell
    rw [hfeed]
    exact not_refuses_iff.mpr ⟨_, hstep⟩
  simp only [List.mem_cons, List.not_mem_nil, or_false] at ha
  rcases ha with rfl | rfl | rfl | rfl
  · rw [feed_rows]
    exact not_refuses_iff.mpr ⟨_, rfl⟩
  · rw [start, feed_values]
    cases cell <;> exact not_refuses_iff.mpr ⟨_, rfl⟩
  · exact hextremum .least
  · exact hextremum .greatest

end Accumulator

open Accumulator in
/-- On any values an accumulator ends as it does on those that it accepts, none of which fails.
On integers and nulls only a sum refuses values, those that would take the exact sum of what it
has accepted out of the words, and the results of all functions are exact. -/
theorem accumulation_exact :
    (∀ (a : Accumulator) (column : List (Option Value)),
      (a.accepted column).foldlM step a = .ok (a.feed column) ∧
      (a.feed (a.accepted column)).result = (a.feed column).result) ∧
    ∀ cells : List (Option Int64),
      (∀ a ∈ [rows 0, start .count, start .min, start .max], ∀ cell : Option Int64,
        ¬(a.feed (integerColumn cells)).Refuses (cell.map .integer)) ∧
      (∀ cell : Option Int64,
        ((start .sum).feed (integerColumn cells)).Refuses (cell.map .integer) ↔
          ∃ i, cell = some i ∧
            ¬Integer.HasWord
              (exactSum ((start .sum).accepted (integerColumn cells)) + i.toInt)) ∧
      ((rows 0).feed (integerColumn cells)).result =
        some (.integer (Int64.ofNat cells.length)) ∧
      ((start .count).feed (integerColumn cells)).result =
        some (.integer (Int64.ofNat cells.reduceOption.length)) ∧
      (∀ which : Extremum, ∃ best : Option Int64,
        ((start which.function).feed (integerColumn cells)).result = best.map .integer ∧
          which.IsBest cells.reduceOption best) ∧
      ∃ total : Option Int64,
        ((start .sum).feed (integerColumn cells)).result = total.map .integer ∧
          (total = none ↔ cells.reduceOption = []) ∧
          totalValue total = exactSum ((start .sum).accepted (integerColumn cells)) := by
  refine ⟨fun a column => ⟨foldlM_accepted a column, ?_⟩, fun cells => ?_⟩
  · rw [feed_of_foldlM (foldlM_accepted a column)]
  · obtain ⟨total, hfeed, hvalue, hnone⟩ := feed_sum cells
    refine ⟨fun a ha cell => not_refuses_integer ha cells cell, fun cell => ?_, ?_, ?_,
      fun which => ?_, total, ?_, hnone, hvalue⟩
    · rw [start, hfeed, sum_refuses_iff, hvalue]
    · rw [feed_rows, List.length_map, Nat.zero_add]
      rfl
    · rw [start, feed_values, Nat.zero_add, List.reduceOption_map, List.length_map]
      rfl
    · obtain ⟨best, hextremum, hbest⟩ := feed_extremum which cells
      exact ⟨best, by rw [start_function, hextremum, result_extremum], hbest⟩
    · rw [start, hfeed, result_sum]

example :
    (Accumulator.start .sum).accepted (Accumulator.integerColumn
      [some 9223372036854775807, some 1, none, some (-1)]) =
        Accumulator.integerColumn [some 9223372036854775807, none, some (-1)] := by
  rfl

end PocketSql
