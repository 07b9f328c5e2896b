import Mathlib
import PocketSql.Proofs.Store.Effect

/-!
# Insertions

A new row is made column by column: each column takes the value given for it or, where there
is none, what it is filled with, and the counters of the columns that are left out move on.
An insertion that names no columns gives a value for every one of them, so no cell is filled
and no counter moves on.  Cells that the columns may hold are stored as they are.
-/

namespace PocketSql

/-- A value is its own counterpart in its type. -/
theorem Value.cast_dataType (v : Value) : v.cast v.dataType = .ok v := by
  cases v <;> rfl

theorem Column.accept_of_holds {c : Column} {cell : Option Value} (hcell : c.Holds cell) :
    c.accept cell = .ok cell := by
  cases cell with
  | none => exact if_pos hcell
  | some value =>
      have htype : value.dataType = c.type := hcell
      rw [accept, ← htype, value.cast_dataType]
      rfl

/-! ## New rows -/

namespace Table

/-- What a new row has for a column: the value given for it, or else what it is filled with. -/
inductive Offers (targets : List Nat) (values : List (Option Value)) (index : Nat) (c : Column) :
    Option Value → Prop
  | given {value : Option Value} : given? targets values index = some value →
      Offers targets values index c value
  | filled {value : Option Value} : given? targets values index = none → c.fill = .ok value →
      Offers targets values index c value

variable {t : Table} {targets : List Nat} {values : List (Option Value)} {cells row : Row}

theorem mem_zip_of_given? {index : Nat} {value : Option Value}
    (hgiven : given? targets values index = some value) : (index, value) ∈ targets.zip values := by
  rw [given?, List.lookup_eq_some_iff] at hgiven
  obtain ⟨front, back, heq, -⟩ := hgiven
  rw [← List.mem_reverse, heq]
  exact List.mem_append_right _ List.mem_cons_self

/-- The last value counts. -/
theorem given?_concat (hlength : targets.length = values.length) (target : Nat)
    (value : Option Value) (index : Nat) :
    given? (targets ++ [target]) (values ++ [value]) index =
      if index = target then some value else given? targets values index := by
  rw [given?, List.zip_append hlength, List.zip_cons_cons, List.zip_nil_left, List.reverse_append,
    List.reverse_singleton, List.singleton_append, List.lookup_cons, given?]
  split
  · next heq => rw [if_pos (eq_of_beq heq)]
  · next hne => rw [if_neg (ne_of_beq_false hne)]

theorem newCells_eq_ok : t.newCells targets values = .ok cells ↔
    t.columns.length = cells.length ∧
      ∀ (index : Nat) (c : Column), t.columns[index]? = some c →
        ∃ value, Offers targets values index c value ∧ cells[index]? = some value := by
  rw [newCells, mapM_eq_ok_iff_getElem?, List.length_zipIdx]
  refine and_congr_right fun _ => ⟨fun hsteps index c hc => ?_, fun hcells => ?_⟩
  · obtain ⟨value, hstep, hcell⟩ := hsteps index (c, index) (by simp [hc])
    refine ⟨value, ?_, hcell⟩
    cases hgiven : given? targets values index with
    | none =>
        simp only [hgiven] at hstep
        exact .filled hgiven hstep
    | some given =>
        simp only [hgiven] at hstep
        cases hstep
        exact .given hgiven
  · rintro index ⟨c, index'⟩ hmem
    rw [List.getElem?_zipIdx, Option.map_eq_some_iff] at hmem
    obtain ⟨_, hc, heq⟩ := hmem
    rw [Nat.zero_add] at heq
    cases heq
    obtain ⟨value, hoffers, hcell⟩ := hcells index c hc
    refine ⟨value, ?_, hcell⟩
    cases hoffers with
    | given hgiven => simp only [hgiven]
    | filled hnone hfill => simp only [hnone, hfill]

theorem acceptRow_eq_ok (hlength : t.columns.length = cells.length) :
    t.acceptRow cells = .ok row ↔ t.columns.length = row.length ∧
      ∀ (index : Nat) (c : Column) (value : Option Value), t.columns[index]? = some c →
        cells[index]? = some value →
          ∃ cell, c.accept value = .ok cell ∧ row[index]? = some cell := by
  rw [acceptRow, mapM_eq_ok_iff_getElem?, List.length_zip, ← hlength, Nat.min_self]
  refine and_congr_right fun _ => ⟨fun hsteps index c value hc hvalue => ?_, ?_⟩
  · exact hsteps index (c, value) (List.getElem?_zip_eq_some.mpr ⟨hc, hvalue⟩)
  · rintro hcells index ⟨c, value⟩ hmem
    obtain ⟨hc, hvalue⟩ := List.getElem?_zip_eq_some.mp hmem
    exact hcells index c value hc hvalue

theorem newRow_eq_ok : t.newRow targets values = .ok row ↔
    targets.length = values.length ∧ (∀ index ∈ targets, index < t.columns.length) ∧
      t.columns.length = row.length ∧
      ∀ (index : Nat) (c : Column), t.columns[index]? = some c → ∃ value cell,
        Offers targets values index c value ∧ c.accept value = .ok cell ∧
          row[index]? = some cell := by
  have hunfold : t.newRow targets values = .ok row ↔ targets.length = values.length ∧
      (∀ index ∈ targets, index < t.columns.length) ∧
      ∃ cells, t.newCells targets values = .ok cells ∧ t.acceptRow cells = .ok row := by
    rw [newRow]
    split
    · next hlength => simp [hlength]
    · next hlength =>
      have hinside : targets.find? (t.columns.length ≤ ·) = none ↔
          ∀ index ∈ targets, index < t.columns.length := by
        simp
      rw [← hinside]
      split
      · next hoff => simp [hoff]
      · next hnone =>
        rw [bind_eq_ok]
        simp [hnone, not_not.mp hlength]
  rw [hunfold]
  refine and_congr_right fun _ => and_congr_right fun _ => ⟨?_, ?_⟩
  · rintro ⟨cells, hcells, haccept⟩
    obtain ⟨hlength, hoffers⟩ := newCells_eq_ok.mp hcells
    obtain ⟨hwidth, haccepted⟩ := (acceptRow_eq_ok hlength).mp haccept
    refine ⟨hwidth, fun index c hc => ?_⟩
    obtain ⟨value, hoffer, hvalue⟩ := hoffers index c hc
    obtain ⟨cell, haccepted, hcell⟩ := haccepted index c value hc hvalue
    exact ⟨value, cell, hoffer, haccepted, hcell⟩
  · rintro ⟨hwidth, hcells⟩
    have hoffers : ∀ index : Fin t.columns.length, ∃ value,
        Offers targets values index t.columns[index] value ∧
          ∃ cell, t.columns[index].accept value = .ok cell ∧ row[index.val]? = some cell := by
      intro index
      obtain ⟨value, cell, hoffer, haccepted⟩ :=
        hcells index t.columns[index] (List.getElem?_eq_getElem index.isLt)
      exact ⟨value, hoffer, cell, haccepted⟩
    choose value hoffer haccepted using hoffers
    have hlength : t.columns.length = (List.ofFn value).length := by rw [List.length_ofFn]
    refine ⟨List.ofFn value, newCells_eq_ok.mpr ⟨hlength, ?_⟩,
      (acceptRow_eq_ok hlength).mpr ⟨hwidth, ?_⟩⟩
    · intro index c hc
      obtain ⟨hindex, rfl⟩ := List.getElem?_eq_some_iff.mp hc
      exact ⟨_, hoffer ⟨index, hindex⟩, by simp [hindex]⟩
    · intro index c given hc hgiven
      obtain ⟨hindex, rfl⟩ := List.getElem?_eq_some_iff.mp hc
      rw [List.getElem?_ofFn, dif_pos hindex] at hgiven
      cases hgiven
      exact haccepted ⟨index, hindex⟩

end Table

/-! ## Insertions step by step -/

namespace Insert

variable {s : Insert} {t : Table}

theorem work_of_error {fault : Fault}
    (htargets : t.targets (s.columns.map Ident.name) = .error fault) :
    s.work t = .error ⟨s.position, fault⟩ t := by
  rw [work]
  simp only [work_bind, work_get, htargets]
  rfl

/-- What an insertion does that gives as many values as it has targets. -/
theorem work_of_targets {targets : List Nat}
    (htargets : t.targets (s.columns.map Ident.name) = .ok targets)
    (harity : s.values.length = targets.length) :
    s.work t =
      match s.values.mapM (Expr.eval .empty) with
      | .error e => .error e t
      | .ok values =>
        match t.newRow targets values with
        | .error fault => .error ⟨s.position, fault⟩ t
        | .ok row => .ok () (((t.leftOut targets).foldl Table.advanceAt t).push row) := by
  rw [work]
  simp only [work_bind, work_get, htargets, faultAt, Except.mapError, work_liftExcept_ok, harity,
    ne_eq, not_true_eq_false, if_false]
  cases s.values.mapM (Expr.eval .empty) with
  | error e => rfl
  | ok values =>
      simp only [work_liftExcept_ok, workAt_eq, Table.insertion_eq]
      cases t.newRow targets values <;> rfl

end Insert

/-- Nothing keeps an insertion from being carried out whose new row is made. -/
theorem Database.execute_of_inserts {db : Database} {s : Insert} {t t' : Table}
    {targets : List Nat} {row : Row} (hfound : db.table? s.table.name = some t)
    (hinserts : s.Inserts t t' targets row) :
    db.execute (.insert s) = (.ok none, db.set s.table.name t') := by
  obtain ⟨htargets, ⟨values, hvalues, hrow⟩, rfl⟩ := hinserts
  have harity : s.values.length = targets.length := by
    rw [length_of_mapM hvalues, (Table.newRow_eq_ok.mp hrow).1]
  rw [execute_of_onTable (s := .insert s) rfl hfound, Insert.work_of_targets htargets harity,
    hvalues]
  simp only [hrow]

/-! ## Whole rows -/

namespace Table

/-- By induction on the values from the last one, which is the first to be looked up. -/
theorem given?_range (values : List (Option Value)) (index : Nat) :
    given? (List.range values.length) values index = values[index]? := by
  induction values using List.reverseRecOn with
  | nil => rfl
  | append_singleton values last ih =>
      rw [List.length_append, List.length_singleton, List.range_succ,
        given?_concat (by rw [List.length_range]), ih, List.getElem?_append]
      split
      · next heq => simp [heq]
      · next hne =>
        split
        · rfl
        · rw [List.getElem?_eq_none (by omega), List.getElem?_eq_none (by simp; omega)]

theorem newRow_of_holds {t : Table} {row : Row}
    (hrow : List.Forall₂ Column.Holds t.columns row) :
    t.newRow (List.range t.columns.length) row = .ok row := by
  have hlength := hrow.length_eq
  refine newRow_eq_ok.mpr ⟨by rw [List.length_range, hlength], by simp, hlength, ?_⟩
  intro index c hc
  obtain ⟨hindex, rfl⟩ := List.getElem?_eq_some_iff.mp hc
  have hindex' : index < row.length := hlength ▸ hindex
  have hcell : row[index]? = some row[index] := List.getElem?_eq_getElem hindex'
  have hholds := (List.forall₂_iff_get.mp hrow).2 index hindex hindex'
  exact ⟨row[index], row[index], .given (by rw [hlength, given?_range, hcell]),
    Column.accept_of_holds hholds, hcell⟩

end Table

namespace Database

variable {db : Database}

theorem execute_createTable {s : CreateTable} (hnew : db.table? s.table.name = none)
    {columns : List Column} (hcolumns : columnsOf [] s.columns = .ok columns) :
    db.execute (.createTable s) = (.ok none, db.put (Table.empty s.table.name columns)) := by
  have hwork : s.work db = .ok () (db.put (Table.empty s.table.name columns)) := by
    rw [CreateTable.work]
    simp [work_bind, hnew, hcolumns]
  rw [execute, Statement.work, work_bind, hwork]
  rfl

/-- A row of values for all columns is added behind the others. -/
theorem execute_insert {s : Insert} {t : Table} (hfound : db.table? s.table.name = some t)
    (hall : s.columns = []) {row : Row} (hvalues : s.values.mapM (Expr.eval .empty) = .ok row)
    (hrow : List.Forall₂ Column.Holds t.columns row) :
    db.execute (.insert s) = (.ok none, db.set s.table.name (t.push row)) := by
  have htargets : t.targets (s.columns.map Ident.name) = .ok (List.range t.columns.length) := by
    rw [hall]
    rfl
  have hleftOut : t.leftOut (List.range t.columns.length) = [] := by
    simp [Table.leftOut]
  refine execute_of_inserts hfound
    ⟨htargets, ⟨row, hvalues, Table.newRow_of_holds hrow⟩, ?_⟩
  rw [hleftOut]
  rfl

end Database

end PocketSql
