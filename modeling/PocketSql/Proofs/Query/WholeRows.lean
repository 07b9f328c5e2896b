import Mathlib
import PocketSql.Proofs.Query.Selection
import PocketSql.Proofs.Store.Numbering

/-!
# Whole rows

A star stands for all columns in their order.  Columns have different names, so each of
them is found under its own name, and a star shows every row as it is stored.
-/

namespace PocketSql

namespace Table

variable {t : Table}

/-- In a row of a table a column stands for its own cell. -/
theorem scope_eq_ok (hnames : t.columnNames.Nodup) {row : Row} {index : Nat} {c : Column}
    {cell : Option Value} (hc : t.columns[index]? = some c) (hcell : row[index]? = some cell) :
    t.scope row c.name = .ok cell := by
  simp only [scope, columnIndex?, column?_of_getElem? hnames hc, Option.map_some, hcell]

theorem shows_star (hnames : t.columnNames.Nodup) {row : Row}
    (hlength : row.length = t.columns.length) (position : Position) :
    t.Shows (t.expand (.star position)) row row := by
  rw [expand_star, columnNames, List.map_map]
  apply List.forall₂_iff_get.mpr
  refine ⟨by rw [List.length_map, hlength], fun index hindex hcell => ?_⟩
  rw [List.length_map] at hindex
  have hscope := scope_eq_ok hnames (List.getElem?_eq_getElem hindex)
    (List.getElem?_eq_getElem hcell)
  rw [List.get_eq_getElem, List.get_eq_getElem, List.getElem_map]
  simp only [Function.comp, Expr.eval, hscope, faultAt_eq_ok]

theorem heading_expand_star (position : Position) :
    (t.expand (.star position)).map Expr.heading = t.columnNames := by
  rw [expand_star, List.map_map]
  exact List.map_id t.columnNames

theorem any_hasAggregate_expand_star (position : Position) :
    (t.expand (.star position)).any Expr.hasAggregate = false := by
  rw [expand_star, List.any_map]
  exact List.any_eq_false.mpr fun name _ => by simp [Expr.hasAggregate]

/-- Without any other projection, a star shows the selected rows of a valid table. -/
theorem Valid.project_star (ht : t.Valid) (position : Position) (condition : Option Expr) :
    t.project (t.expand (.star position)) condition =
      (t.matching condition).map fun mask => ⟨t.columnNames, t.selected mask⟩ := by
  rw [project]
  cases hmask : t.matching condition with
  | error e => rfl
  | ok mask =>
      have hrows : (t.selected mask).mapM (fun row =>
          (t.expand (.star position)).mapM (Expr.eval (t.scope row))) =
            .ok (t.selected mask) := by
        apply mapM_eq_ok.mpr
        apply List.forall₂_same.mpr
        intro row hrow
        have hlength := (ht.rows row (mem_rows_of_mem_selected hrow)).length_eq
        exact mapM_eq_ok.mpr (shows_star ht.names hlength.symm position)
      rw [heading_expand_star]
      exact congrArg (· >>= fun rows => pure (⟨t.columnNames, rows⟩ : QueryResult)) hrows

/-- Without a condition all rows are selected. -/
theorem matching_none : t.matching none = .ok (t.rows.map fun _ => true) := by
  rw [matching, selection]
  exact mapM_eq_ok.mpr (List.forall₂_map_right_iff.mpr (List.forall₂_same.mpr fun _ _ => rfl))

end Table

/-- `SELECT *` answers with the column names and the rows that the condition holds on. -/
theorem Select.run_star {db : Database} {name : Ident} {t : Table} (ht : t.Valid)
    (hfound : db.table? name.name = some t) (position star : Position)
    (condition : Option Expr) :
    Select.run ⟨position, [.star star], .ident name, condition⟩ db =
      (t.matching condition).map fun mask => ⟨t.columnNames, t.selected mask⟩ := by
  have hprojections : [Expr.star star].flatMap t.expand = t.expand (.star star) := by
    rw [List.flatMap_singleton]
  rw [Select.run_eq hfound, hprojections, if_neg]
  · exact ht.project_star star condition
  · rw [Table.any_hasAggregate_expand_star]
    exact Bool.false_ne_true

theorem Select.run_star_all {db : Database} {name : Ident} {t : Table} (ht : t.Valid)
    (hfound : db.table? name.name = some t) (position star : Position) :
    Select.run ⟨position, [.star star], .ident name, none⟩ db = .ok ⟨t.columnNames, t.rows⟩ := by
  have hselected : t.selected (t.rows.map fun _ => true) = t.rows := by
    rw [Table.selected_eq, Table.marked_map, List.filter_true]
  rw [Select.run_star ht hfound, Table.matching_none, Except.map, hselected]

end PocketSql
