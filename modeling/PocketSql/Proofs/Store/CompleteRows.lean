import Mathlib
import PocketSql.Query.Session
import PocketSql.Proofs.Store.Transaction

/-!
# Complete rows

The weakest invariant of stored tables under which a statement is a transaction: no row is
shorter than the list of columns.  What the cells hold plays no part, nor how the columns
are named.
-/

namespace PocketSql

/-- Every row has a cell for each column. -/
def Table.Complete (t : Table) : Prop :=
  ∀ row ∈ t.rows, t.columns.length ≤ row.length

/-- Every stored row has a cell for each column of its table. -/
def Database.Complete (db : Database) : Prop :=
  db.Stores fun _ t => t.Complete

namespace Table

namespace Complete

variable {t : Table}

theorem insertion (ht : t.Complete) {targets : List Nat} {values : List (Option Value)} {row : Row}
    (hrow : t.newRow targets values = .ok row) :
    (((t.leftOut targets).foldl advanceAt t).push row).Complete := by
  rw [foldl_advanceAt_leftOut]
  intro other hother
  rw [push, List.length_mapIdx]
  rcases List.mem_append.mp hother with hold | hnew
  · exact ht other hold
  · rw [List.mem_singleton.mp hnew]
    exact (forall₂_holds_of_newRow hrow).length_eq.le

theorem writeCell (ht : t.Complete) {d : Change} (hd : d.Fits t) :
    ∃ t', Table.writeCell d.row d.column d.cell t = .ok () t' ∧
      (t'.Complete ∧ t'.columns = t.columns) ∧ ∀ d' : Change, d'.Fits t → d'.Fits t' := by
  obtain ⟨c, hc, -⟩ := hd.column_holds
  have hrow := List.getElem?_eq_getElem hd.row_lt
  have hlength := ht _ (List.mem_of_getElem? hrow)
  have hcolumn := (List.getElem?_eq_some_iff.mp hc).1
  refine ⟨_, writeCell_eq hrow (hcolumn.trans_le hlength), ⟨?_, rfl⟩, ?_⟩
  · intro row hmem
    rcases List.mem_or_eq_of_mem_set hmem with hold | rfl
    · exact ht row hold
    · rwa [List.length_set]
  · intro d' hd'
    exact ⟨by simpa using hd'.row_lt, hd'.column_holds⟩

theorem invariant : Table.Invariant fun _ => Table.Complete where
  creation _ := by
    intro row hrow
    cases hrow
  insertion targets values ht := by
    rw [insertion_eq]
    split
    · next hrow => exact .inr ⟨_, rfl, ht.insertion hrow⟩
    · next fault _ => exact .inl ⟨fault, rfl⟩
  writeCell ht hd := ht.writeCell hd
  withRows ht hrows := fun row hrow => ht row (hrows hrow)

end Complete

end Table

namespace Database

variable {db : Database}

theorem Complete.executeAll (hdb : db.Complete) (statements : List Statement) :
    (db.executeAll statements).2.Complete := by
  induction statements generalizing db with
  | nil => exact hdb
  | cons s rest ih => exact ih (Table.Complete.invariant.execute hdb s)

end Database

end PocketSql
