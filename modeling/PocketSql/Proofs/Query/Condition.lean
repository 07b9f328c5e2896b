import Mathlib
import PocketSql.Proofs.Query.Faults
import PocketSql.Proofs.Query.RowUpdates
import PocketSql.Proofs.Query.WholeRows

/-!
# Conditions

A condition is decided once for every row of a table, before anything is read or written.
The mask that holds the decisions marks the rows on which the condition is true.  Each
statement reads the mask in its own way: a selection keeps the marked rows, a deletion
keeps the others, an update writes at the indices of the marked ones.  All of them mean
the same rows.
-/

namespace PocketSql

/-- Whether a condition is true on a row; it is not where it is null or has no value. -/
def Table.satisfies (t : Table) (c : Expr) (row : Row) : Bool :=
  match c.eval (t.scope row) with
  | .ok (some (.boolean true)) => true
  | _ => false

namespace Table

variable {t : Table} {c : Expr}

theorem satisfies_of_holds {row : Row} {decision : Bool}
    (hholds : Expr.holds (t.scope row) (some c) = .ok decision) :
    decision = t.satisfies c row := by
  rw [satisfies]
  obtain ⟨value, hvalue, hdecision⟩ := bind_eq_ok.mp hholds
  rw [hvalue]
  cases value with
  | none =>
      cases hdecision
      rfl
  | some value =>
      have hboolean := orCastFault_eq_ok.mp (faultAt_eq_ok.mp hdecision)
      cases value with
      | boolean =>
          cases hboolean
          cases decision <;> rfl
      | integer | number | string | timestamp => cases hboolean

/-- A mask marks the rows on which the condition is true. -/
theorem mask_of_matching {mask : List Bool} (hmask : t.matching (some c) = .ok mask) :
    mask = t.rows.map (t.satisfies c) :=
  eq_map_of_mapM hmask fun _ _ => satisfies_of_holds

/-- Where the condition is decided on all rows, it is decided on some of them. -/
theorem matching_of_subset {mask : List Bool} (hmask : t.matching (some c) = .ok mask)
    {rows : List Row} (hrows : ∀ row ∈ rows, row ∈ t.rows) :
    matching { t with rows := rows } (some c) = .ok (rows.map (t.satisfies c)) := by
  have hdecided := exists_mapM_eq_ok.mp ⟨mask, hmask⟩
  obtain ⟨mask', hmask'⟩ :=
    exists_mapM_eq_ok.mpr fun row hrow => hdecided row (hrows row hrow)
  rw [← eq_map_of_mapM hmask' fun _ _ => satisfies_of_holds]
  exact hmask'

/-! ## Three ways to read a mask -/

theorem unmarked_map (p : Row → Bool) (rows : List Row) :
    unmarked rows (rows.map p) = rows.filter (!p ·) := by
  induction rows with
  | nil => rfl
  | cons row rows ih => cases hp : p row <;> simp [unmarked, hp, ih]

/-- Rewriting with cells that do not depend on the row. -/
theorem rewritten_map {assignments : List (Assignment × (Column × Nat))}
    {cells : List (Nat × Option Value)}
    (hcells : ∀ row, t.assignedCells assignments row = .ok cells) (p : Row → Bool)
    (rows : List Row) :
    t.rewritten assignments rows (rows.map p) =
      .ok (rows.map fun row => if p row then writtenRow row cells else row) := by
  induction rows with
  | nil => rfl
  | cons row rows ih =>
      rw [List.map_cons, List.map_cons]
      cases p row with
      | true =>
          rw [rewritten_true, hcells, ih]
          rfl
      | false =>
          rw [rewritten_false, ih]
          rfl

end Table

/-! ## Statements with a condition -/

section Statements

variable {db : Database} {name : Ident} {t : Table} {c : Expr}

/-- A selection of whole rows returns those on which its condition is true. -/
theorem Database.execute_selectStar (hdb : db.Valid) (hfound : db.table? name.name = some t)
    (position star : Position) :
    (db.execute (.select ⟨position, [.star star], .ident name, some c⟩)).1 =
      match t.matching (some c) with
      | .ok _ => .ok (some ⟨t.columnNames, t.rows.filter (t.satisfies c)⟩)
      | .error e => .error e := by
  rw [execute_select, Select.run_star (hdb _ t hfound).2 hfound]
  cases hmask : t.matching (some c) with
  | error e =>
      have he := Table.matching_inBounds (fun _ => (hdb _ t hfound).2.length_row) _ e hmask
      exact congrArg Except.error (EvalError.caughtAt_of_inBounds he position)
  | ok mask =>
      have hrows : t.selected mask = t.rows.filter (t.satisfies c) := by
        rw [Table.mask_of_matching hmask, Table.selected_eq, Table.marked_map]
      rw [← hrows]
      rfl

/-- A deletion keeps the rows on which its condition is not true. -/
theorem Database.execute_delete (hdb : db.Valid) (hfound : db.table? name.name = some t)
    (position : Position) :
    db.execute (.delete ⟨position, name, some c⟩) =
      match t.matching (some c) with
      | .ok _ => (.ok none, db.set name.name { t with rows := t.rows.filter (!t.satisfies c ·) })
      | .error e => (.error e, db) := by
  rw [execute_of_onTable (s := .delete ⟨position, name, some c⟩) rfl hfound, Delete.work]
  simp only [work_bind, work_get]
  cases hmask : t.matching (some c) with
  | error e =>
      have he := Table.matching_inBounds (fun _ => (hdb _ t hfound).2.length_row) _ e hmask
      simp only [work_liftExcept_error, set_self hfound, EvalError.caughtAt_of_inBounds he]
  | ok mask =>
      have hrows : t.deleteSelected mask =
          { t with rows := t.rows.filter (!t.satisfies c ·) } := by
        rw [Table.deleteSelected, Table.mask_of_matching hmask, Table.unmarked_map]
      simp only [work_liftExcept_ok, workAt_eq, Table.deletion_eq (length_of_mapM hmask).symm,
        hrows]

/-- An update of one column to a literal. -/
theorem Update.rows_literal {position literalPosition : Position} {column : Ident}
    {literal : Literal} {target : Column × Nat} {cell : Option Value} {mask : List Bool}
    (htarget : t.findColumn column.name = .ok target)
    (haccept : target.1.accept literal.value = .ok cell)
    (hmask : t.matching (some c) = .ok mask) :
    Update.rows ⟨position, name, [⟨column, .literal literalPosition literal⟩], some c⟩ t =
      .ok (t.rows.map fun row => if t.satisfies c row then row.set target.2 cell else row) := by
  have htargets : [Assignment.mk column (.literal literalPosition literal)].mapM
      (Assignment.target · t) = .ok [target] := by
    simp [Assignment.target, htarget, faultAt, Except.mapError]
  have hcells : ∀ row, t.assignedCells
      [(⟨column, .literal literalPosition literal⟩, target)] row = .ok [(target.2, cell)] := by
    intro row
    have hcell : Assignment.cell ⟨column, .literal literalPosition literal⟩ (t.scope row)
        target.1 = .ok cell := faultAt_eq_ok.mpr haccept
    rw [Table.assignedCells, List.mapM_cons]
    simp only [hcell]
    rfl
  rw [Update.rows, htargets, hmask, Table.mask_of_matching hmask]
  exact Table.rewritten_map hcells (t.satisfies c) t.rows

end Statements

/-- A condition picks the same rows for every statement.  A deletion and a selection fail
together, with the error of the condition on the first row that it is not decided on.
Otherwise the selection returns the rows on which the condition is true, in their order,
the deletion keeps all the others, an update to a literal rewrites those and no others,
and behind the deletion the selection finds no row. -/
theorem condition_picks_same_rows {db : Database} (hdb : db.Reachable) {table : String} {t : Table}
    (hfound : db.table? table = some t) (c : Expr) {selection : Select} {deletion : Delete}
    {position star source position' source' : Position}
    (hselection : selection = ⟨position, [.star star], .ident ⟨source, table⟩, some c⟩)
    (hdeletion : deletion = ⟨position', ⟨source', table⟩, some c⟩) :
    (∀ e, (db.execute (.delete deletion)).1 = .error e ↔
      (db.execute (.select selection)).1 = .error e) ∧
    (∀ e, (db.execute (.select selection)).1 = .error e →
      ∃ front row back, t.rows = front ++ row :: back ∧
        (∀ decided ∈ front, (Expr.holds (t.scope decided) (some c)).isOk) ∧
        Expr.holds (t.scope row) (some c) = .error e) ∧
    ((db.execute (.select selection)).1.isOk →
      (db.execute (.select selection)).1 =
        .ok (some ⟨t.columnNames, t.rows.filter (t.satisfies c)⟩) ∧
      db.execute (.delete deletion) =
        (.ok none, db.set table { t with rows := t.rows.filter (!t.satisfies c ·) }) ∧
      ((db.execute (.delete deletion)).2.execute (.select selection)).1 =
        .ok (some ⟨t.columnNames, []⟩) ∧
      ∀ (update : Update) (column : Ident) (literal : Literal) (target : Column × Nat)
        (cell : Option Value) (position'' source'' literalPosition : Position),
        update = ⟨position'', ⟨source'', table⟩,
          [⟨column, .literal literalPosition literal⟩], some c⟩ →
        t.findColumn column.name = .ok target → target.1.accept literal.value = .ok cell →
        db.execute (.update update) = (.ok none, db.set table { t with
          rows := t.rows.map fun row =>
            if t.satisfies c row then row.set target.2 cell else row })) := by
  subst hselection hdeletion
  have hdelete : db.execute (.delete ⟨position', ⟨source', table⟩, some c⟩) = _ :=
    Database.execute_delete hdb.valid hfound position'
  rw [Database.execute_selectStar hdb.valid hfound, hdelete]
  cases hmask : t.matching (some c) with
  | error e =>
      refine ⟨fun _ => Iff.rfl, ?_, nofun⟩
      rintro _ ⟨⟩
      exact exists_of_mapM_eq_error hmask
  | ok mask =>
      refine ⟨?_, ?_, fun _ => ⟨rfl, rfl, ?_, ?_⟩⟩
      · intro e
        constructor <;>
          · intro herror
            cases herror
      · intro e herror
        cases herror
      · have hdb' : (db.execute (.delete ⟨position', ⟨source', table⟩, some c⟩)).2.Valid :=
          hdb.valid.execute _
        rw [hdelete, hmask] at hdb'
        have hrest : ∀ row ∈ t.rows.filter (!t.satisfies c ·), row ∈ t.rows :=
          fun row hrow => List.mem_of_mem_filter hrow
        have hnone : (t.rows.filter (!t.satisfies c ·)).filter (t.satisfies c) = [] := by
          simp [List.filter_filter]
        have hfound' : (db.set table { t with rows := t.rows.filter (!t.satisfies c ·) }).table?
            table = some { t with rows := t.rows.filter (!t.satisfies c ·) } := by
          rw [Database.table?_set, if_pos rfl]
        rw [Database.execute_selectStar hdb' hfound', Table.matching_of_subset hmask hrest]
        exact congrArg (fun rows : List Row => (.ok (some ⟨t.columnNames, rows⟩) : Outcome)) hnone
      · rintro update column literal target cell position'' source'' literalPosition rfl htarget
          haccept
        rw [Database.execute_update hdb.valid _ hfound,
          Update.rows_literal htarget haccept hmask]

/-- The condition `id = 2`, which is true on the second row of `stock`. -/
def isSecond : Expr :=
  .binary .equal (.ident ⟨⟨4, 28⟩, "id"⟩) (.literal ⟨4, 33⟩ (.integer 2))

def selectSecond : Select :=
  ⟨⟨4, 0⟩, [.star ⟨4, 7⟩], .ident ⟨⟨4, 14⟩, "stock"⟩, some isSecond⟩

def deleteSecond : Delete :=
  ⟨⟨4, 0⟩, ⟨⟨4, 12⟩, "stock"⟩, some isSecond⟩

def unlabelSecond : Update :=
  ⟨⟨4, 0⟩, ⟨⟨4, 7⟩, "stock"⟩, [⟨⟨⟨4, 17⟩, "label"⟩, .literal ⟨4, 25⟩ .null⟩], some isSecond⟩

theorem stock_second_row_picked :
    stock.Reachable ∧ stock.table? "stock" = some stockTable ∧
      (stock.execute (.select selectSecond)).1 =
        .ok (some ⟨["id", "label"], [[some (.integer 2), some (.string "new")]]⟩) ∧
      stock.execute (.delete deleteSecond) =
        (.ok none, stock.set "stock" { stockTable with rows := [[some (.integer 1), none]] }) ∧
      stock.execute (.update unlabelSecond) =
        (.ok none, stock.set "stock"
          { stockTable with rows := [[some (.integer 1), none], [some (.integer 2), none]] }) := by
  have hselection : selectSecond = ⟨⟨4, 0⟩, [.star ⟨4, 7⟩], .ident ⟨⟨4, 14⟩, "stock"⟩,
    some isSecond⟩ := rfl
  have hdeletion : deleteSecond = ⟨⟨4, 0⟩, ⟨⟨4, 12⟩, "stock"⟩, some isSecond⟩ := rfl
  have hupdate : unlabelSecond = ⟨⟨4, 0⟩, ⟨⟨4, 7⟩, "stock"⟩,
    [⟨⟨⟨4, 17⟩, "label"⟩, .literal ⟨4, 25⟩ .null⟩], some isSecond⟩ := rfl
  obtain ⟨-, -, hpicked⟩ :=
    condition_picks_same_rows stock_reachable stock_table isSecond hselection hdeletion
  obtain ⟨hselected, hdeleted, -, hupdated⟩ := hpicked rfl
  exact ⟨stock_reachable, stock_table, hselected, hdeleted,
    hupdated _ _ _ _ none _ _ _ hupdate rfl rfl⟩

end PocketSql
