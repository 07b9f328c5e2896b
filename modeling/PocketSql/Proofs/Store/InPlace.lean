import Mathlib
import PocketSql.Query.Statement

/-!
# Work in place

What a step of work on a state leaves behind, in the successful and in the failing
case.  The equations say for each piece of work on tables and accumulators which state it
ends in; a failure keeps the state that had been reached when it came up.
-/

namespace PocketSql

section Steps

variable {ε ε' σ α β : Type}

theorem work_bind (x : EStateM ε σ α) (f : α → EStateM ε σ β) (s : σ) :
    (x >>= f) s =
      match x s with
      | .ok a s => f a s
      | .error e s => .error e s := by
  rfl

@[simp]
theorem work_pure (a : α) (s : σ) : (pure a : EStateM ε σ α) s = .ok a s := by
  rfl

@[simp]
theorem work_get (s : σ) : (get : EStateM ε σ σ) s = .ok s s := by
  rfl

@[simp]
theorem work_set (s s' : σ) : (set s' : EStateM ε σ PUnit) s = .ok () s' := by
  rfl

@[simp]
theorem work_modify (f : σ → σ) (s : σ) :
    (modify f : EStateM ε σ PUnit) s = .ok () (f s) := by
  rfl

@[simp]
theorem work_liftExcept_ok (a : α) (s : σ) :
    (liftExcept (.ok a : Except ε α) : EStateM ε σ α) s = .ok a s := by
  rfl

@[simp]
theorem work_liftExcept_error (e : ε) (s : σ) :
    (liftExcept (.error e : Except ε α) : EStateM ε σ α) s = .error e s := by
  rfl

theorem workAt_eq (position : Position) (work : EStateM Fault σ α) (s : σ) :
    workAt position work s =
      match work s with
      | .ok a s => .ok a s
      | .error fault s => .error ⟨position, fault⟩ s := by
  rw [workAt, EStateM.adaptExcept]
  cases work s <;> rfl

theorem work_forM_cons (work : α → EStateM ε σ PUnit) (x : α) (xs : List α) (s : σ) :
    forM (x :: xs) work s =
      match work x s with
      | .ok _ s => forM xs work s
      | .error e s => .error e s := by
  rw [List.forM_cons, work_bind]
  cases work x s <;> rfl

/-- A loop of writes that cannot fail is a fold. -/
theorem forM_modify (f : σ → α → σ) (xs : List α) (s : σ) :
    (forM xs fun x => modify (f · x) : EStateM ε σ PUnit) s = .ok () (xs.foldl f s) := by
  induction xs generalizing s with
  | nil => rfl
  | cons x xs ih =>
      rw [work_forM_cons, work_modify]
      exact ih (f s x)

/-- A loop succeeds whose every step succeeds where the invariant holds, keeps the
invariant, and keeps the steps behind it possible. -/
theorem forM_succeeds (work : α → EStateM ε σ PUnit) (invariant : σ → Prop)
    (possible : σ → α → Prop)
    (hstep : ∀ s x, invariant s → possible s x →
      ∃ s', work x s = .ok () s' ∧ invariant s' ∧ ∀ y, possible s y → possible s' y)
    {xs : List α} {s : σ} (hinvariant : invariant s) (hpossible : ∀ x ∈ xs, possible s x) :
    ∃ s', forM xs work s = .ok () s' ∧ invariant s' := by
  induction xs generalizing s with
  | nil => exact ⟨s, rfl, hinvariant⟩
  | cons x xs ih =>
      obtain ⟨s', hwork, hinvariant', hkept⟩ :=
        hstep s x hinvariant (hpossible x List.mem_cons_self)
      obtain ⟨s'', hrest, hinvariant''⟩ := ih hinvariant' fun y hy =>
        hkept y (hpossible y (List.mem_cons_of_mem x hy))
      refine ⟨s'', ?_, hinvariant''⟩
      rw [work_forM_cons, hwork]
      exact hrest

end Steps

/-! ## Work on tables -/

namespace Table

/-- An insertion reads everything it needs before it moves the first counter. -/
theorem insertion_eq (t : Table) (targets : List Nat) (values : List (Option Value)) :
    insertion targets values t =
      match t.newRow targets values with
      | .ok row => .ok () (((t.leftOut targets).foldl advanceAt t).push row)
      | .error fault => .error fault t := by
  rw [insertion]
  cases hrow : t.newRow targets values with
  | error fault =>
      simp only [work_bind, work_get, hrow, work_liftExcept_error]
  | ok row =>
      simp only [work_bind, work_get, hrow, work_liftExcept_ok, forM_modify, work_modify]

/-- A mask that covers all rows removes the marked ones. -/
theorem deletion_eq {t : Table} {mask : List Bool} (hmask : mask.length = t.rows.length) :
    deletion mask t = .ok () (t.deleteSelected mask) := by
  rw [deletion]
  simp only [work_bind, work_get, work_set, hmask, lt_irrefl, if_false, work_pure]

/-- A cell that exists is written. -/
theorem writeCell_eq {t : Table} {row column : Nat} {cells : Row} {cell : Option Value}
    (hrow : t.rows[row]? = some cells) (hcolumn : column < cells.length) :
    writeCell row column cell t =
      .ok () { t with rows := t.rows.set row (cells.set column cell) } := by
  rw [writeCell]
  simp only [work_bind, work_get, hrow, hcolumn, if_true, work_set]

end Table

/-! ## Work on accumulators -/

namespace Accumulator

theorem intake_extremum (which : Extremum) (best : Option Numeric) (value : Value) :
    intake (some value) (extremum which best) =
      match Numeric.ofValue which.function value with
      | .ok candidate =>
        .ok () (extremum which (some (best.elim candidate (which.better · candidate))))
      | .error fault => .error fault (extremum which best) := by
  rw [intake]
  cases hcandidate : Numeric.ofValue which.function value with
  | error fault => simp only [work_bind, work_get, hcandidate, work_liftExcept_error]
  | ok candidate =>
      cases best <;>
        simp only [work_bind, work_get, hcandidate, work_liftExcept_ok, work_set, Option.elim]

theorem intake_sum (total : Option Numeric) (value : Value) :
    intake (some value) (sum total) =
      match (Numeric.ofValue .sum value).bind fun addend =>
        total.elim (.ok addend) (addTo · addend) with
      | .ok total => .ok () (sum (some total))
      | .error fault => .error fault (sum total) := by
  rw [intake]
  cases haddend : Numeric.ofValue .sum value with
  | error fault =>
      simp only [work_bind, work_get, haddend, work_liftExcept_error, Except.bind]
  | ok addend =>
      cases total with
      | none =>
          simp only [work_bind, work_get, haddend, work_liftExcept_ok, work_set, Except.bind,
            Option.elim]
      | some total =>
          cases hsum : addTo total addend <;>
            simp only [work_bind, work_get, haddend, hsum, work_liftExcept_ok,
              work_liftExcept_error, work_set, Except.bind, Option.elim]

theorem step_extremum (which : Extremum) (best : Option Numeric) (value : Value) :
    (extremum which best).step (some value) =
      (Numeric.ofValue which.function value).map fun candidate =>
        extremum which (some (best.elim candidate (which.better · candidate))) := by
  rw [step, intake_extremum]
  cases Numeric.ofValue which.function value <;> rfl

theorem step_sum (total : Option Numeric) (value : Value) :
    (sum total).step (some value) =
      ((Numeric.ofValue .sum value).bind fun addend =>
        total.elim (.ok addend) (addTo · addend)).map fun total => sum (some total) := by
  rw [step, intake_sum]
  cases (Numeric.ofValue .sum value).bind fun addend =>
    total.elim (.ok addend) (addTo · addend) <;> rfl

/-- A value that is not taken leaves the accumulator as it was. -/
theorem intake_eq (a : Accumulator) (value : Option Value) :
    intake value a =
      match a.step value with
      | .ok a => .ok () a
      | .error fault => .error fault a := by
  cases value with
  | none => cases a <;> rfl
  | some value =>
      cases a with
      | rows | values => rfl
      | extremum which best =>
          rw [intake_extremum, step_extremum]
          cases Numeric.ofValue which.function value <;> rfl
      | sum total =>
          rw [intake_sum, step_sum]
          cases (Numeric.ofValue .sum value).bind fun addend =>
            total.elim (.ok addend) (addTo · addend) <;> rfl

end Accumulator

end PocketSql
