import Mathlib
import PocketSql.Query.Statement
import PocketSql.Proofs.Store.Invariant

/-!
# Selections

When a query on a stored table succeeds.  The condition has to be decided on every row,
and every projection has to have a value on each row that is selected.  A star stands
for columns, and those have a value on all rows of a valid table.
-/

namespace PocketSql

/-- A query answers with its result and leaves the database. -/
theorem Database.execute_select (db : Database) (s : Select) :
    db.execute (.select s) =
      (((s.run db).mapError (EvalError.caughtAt s.position)).map some, db) := by
  have hwork : Statement.work (.select s) db =
      (liftExcept ((s.run db).map some) : EStateM EvalError Database _) db := rfl
  rw [execute, hwork]
  cases s.run db with
  | error e => rfl
  | ok result => rfl

theorem Database.execute_select_eq_ok {db : Database} {s : Select} {result : QueryResult} :
    (db.execute (.select s)).1 = .ok (some result) ↔ s.run db = .ok result := by
  rw [execute_select, map_eq_ok]
  simp only [mapError_eq_ok, Option.some.injEq, exists_eq_right]

theorem Select.run_eq {db : Database} {name : Ident} {t : Table}
    (ht : db.table? name.name = some t) (position : Position) (projections : List Expr)
    (condition : Option Expr) :
    Select.run ⟨position, projections, .ident name, condition⟩ db =
      if (projections.flatMap t.expand).any Expr.hasAggregate then
        t.aggregate position (projections.flatMap t.expand) condition
      else
        t.project (projections.flatMap t.expand) condition := by
  have hsource : Select.source ⟨position, projections, .ident name, condition⟩ db = .ok t := by
    simp only [Select.source, Database.find, ht]
  rw [Select.run, hsource]
  rfl

namespace Table

variable {t : Table}

theorem expand_star (position : Position) :
    t.expand (.star position) = t.columnNames.map fun name => .ident ⟨position, name⟩ := by
  rfl

theorem expand_of_not_star {e : Expr} (he : ∀ position, e ≠ .star position) :
    t.expand e = [e] := by
  cases e with
  | star position => exact absurd rfl (he position)
  | ident | literal | unary | binary | call => rfl

/-- The rows that a mask marks. -/
def marked (rows : List Row) (mask : List Bool) : List Row :=
  ((rows.zip mask).filter Prod.snd).map Prod.fst

@[simp]
theorem marked_nil (mask : List Bool) : marked [] mask = [] := by
  rfl

theorem marked_true (row : Row) (rows : List Row) (mask : List Bool) :
    marked (row :: rows) (true :: mask) = row :: marked rows mask := by
  rfl

theorem marked_false (row : Row) (rows : List Row) (mask : List Bool) :
    marked (row :: rows) (false :: mask) = marked rows mask := by
  rfl

theorem marked_map (p : Row → Bool) (rows : List Row) :
    marked rows (rows.map p) = rows.filter p := by
  induction rows with
  | nil => rfl
  | cons row rows ih =>
      cases hp : p row with
      | true => rw [List.map_cons, hp, marked_true, ih, List.filter_cons_of_pos hp]
      | false => rw [List.map_cons, hp, marked_false, ih, List.filter_cons_of_neg (by simp [hp])]

theorem selected_eq (mask : List Bool) : t.selected mask = marked t.rows mask := by
  rfl

theorem mem_rows_of_mem_selected {mask : List Bool} {row : Row} (hrow : row ∈ t.selected mask) :
    row ∈ t.rows := by
  obtain ⟨⟨_, marked⟩, hmem, rfl⟩ := List.mem_map.mp hrow
  exact (List.of_mem_zip (List.mem_filter.mp hmem).1).1

/-- The cells are the values of the projections on the row. -/
def Shows (t : Table) (projections : List Expr) (row cells : Row) : Prop :=
  List.Forall₂ (fun e cell => Expr.eval (t.scope row) e = .ok cell) projections cells

theorem Shows.getElem? {projections : List Expr} {row cells : Row}
    (hcells : t.Shows projections row cells) {index : Nat} {e : Expr}
    (he : projections[index]? = some e) :
    ∃ cell, cells[index]? = some cell ∧ e.eval (t.scope row) = .ok cell := by
  obtain ⟨hindex, rfl⟩ := List.getElem?_eq_some_iff.mp he
  have hlt : index < cells.length := hcells.length_eq ▸ hindex
  exact ⟨cells[index], List.getElem?_eq_getElem hlt,
    (List.forall₂_iff_get.mp hcells).2 index hindex hlt⟩

theorem project_eq_ok {projections : List Expr} {condition : Option Expr}
    {result : QueryResult} :
    t.project projections condition = .ok result ↔
      ∃ mask rows, t.matching condition = .ok mask ∧
        List.Forall₂ (t.Shows projections) (t.selected mask) rows ∧
        result = ⟨projections.map Expr.heading, rows⟩ := by
  simp only [project, bind_eq_ok, mapM_eq_ok, pure_eq_ok]
  constructor
  · rintro ⟨mask, hmask, rows, hrows, rfl⟩
    exact ⟨mask, rows, hmask, hrows, rfl⟩
  · rintro ⟨mask, rows, hmask, hrows, rfl⟩
    exact ⟨mask, hmask, rows, hrows, rfl⟩

/-- A column has a value on every row of a valid table. -/
theorem Valid.eval_column (ht : t.Valid) {row : Row} (hrow : row ∈ t.rows) {name : Ident}
    (hname : name.name ∈ t.columnNames) :
    ∃ cell, Expr.eval (t.scope row) (.ident name) = .ok cell := by
  obtain ⟨c, hc, hcname⟩ := List.mem_map.mp hname
  obtain ⟨index, hindex, hget⟩ := List.mem_iff_getElem.mp hc
  have hfound : (t.column? name.name).isSome := by
    rw [column?, List.find?_isSome]
    have hmem := List.getElem?_eq_some_iff.mpr ⟨hindex, hget⟩
    exact ⟨(c, index), List.mem_zipIdx_iff_getElem?.mpr hmem, by simpa using hcname⟩
  obtain ⟨⟨c', index'⟩, hcolumn⟩ := Option.isSome_iff_exists.mp hfound
  have hmem := List.mem_zipIdx_iff_getElem?.mp (List.mem_of_find?_eq_some hcolumn)
  have hlt : index' < row.length := by
    rw [← (ht.rows row hrow).length_eq]
    exact (List.getElem?_eq_some_iff.mp hmem).1
  refine ⟨row[index'], ?_⟩
  have hscope : t.scope row name.name = .ok row[index'] := by
    simp only [scope, columnIndex?, hcolumn, Option.map_some, List.getElem?_eq_getElem hlt]
  rw [Expr.eval, hscope]
  rfl

end Table

end PocketSql
