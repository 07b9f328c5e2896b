import Mathlib
import PocketSql.Proofs.Query.Independence
import PocketSql.Proofs.Query.WholeRows
import PocketSql.Proofs.Store.Insertion

/-!
# Repeated updates

An update that names none of the columns that it assigns computes the same cells from the
table behind it as from the table in front of it, and cells that are written once more are
already there.  An assignment of a column to itself computes the cell that the row holds, as
a stored cell is what its column makes of it.
-/

namespace PocketSql

/-- An assignment of a column to itself. -/
def Assignment.IsIdentity (a : Assignment) : Prop :=
  ∃ position, a.value = .ident ⟨position, a.column.name⟩

/-! ## Cells that are there -/

section Written

variable {row : Row} {cells : List (Nat × Option Value)}

theorem writtenRow_writtenRow (row : Row) (cells : List (Nat × Option Value)) :
    writtenRow (writtenRow row cells) cells = writtenRow row cells := by
  apply List.ext_getElem?
  intro index
  by_cases hindex : index < row.length
  · have hindex' : index < (writtenRow row cells).length := by rwa [length_writtenRow]
    rw [getElem?_writtenRow cells hindex', getElem?_writtenRow cells hindex]
    cases (cells.reverse.find? (·.1 == index)).map Prod.snd <;> rfl
  · have hends := not_lt.mp hindex
    rw [List.getElem?_eq_none (by simpa), List.getElem?_eq_none (by simpa)]

theorem writtenRow_eq_self (hcells : ∀ cell ∈ cells, row[cell.1]? = some cell.2) :
    writtenRow row cells = row := by
  induction cells with
  | nil => rfl
  | cons cell cells ih =>
      obtain ⟨hcell, hothers⟩ := List.forall_mem_cons.mp hcells
      obtain ⟨hindex, hget⟩ := List.getElem?_eq_some_iff.mp hcell
      calc
        writtenRow row (cell :: cells) = writtenRow (row.set cell.1 cell.2) cells := rfl
        _ = writtenRow row cells := by rw [← hget, List.set_getElem_self]
        _ = row := ih hothers

end Written

namespace Table

variable {t : Table} {plan : List (List (Nat × Option Value))}

theorem written_written : (t.written plan).written plan = t.written plan := by
  have hrows : List.zipWith writtenRow (List.zipWith writtenRow t.rows plan) plan =
      List.zipWith writtenRow t.rows plan := by
    apply List.ext_getElem?
    intro index
    simp only [List.getElem?_zipWith]
    cases t.rows[index]? with
    | none => rfl
    | some row =>
        cases plan[index]? with
        | none => rfl
        | some cells => exact congrArg some (writtenRow_writtenRow row cells)
  exact congrArg (fun rows => { t with rows := rows }) hrows

theorem written_eq_self
    (hplan : List.Forall₂ (fun row cells => writtenRow row cells = row) t.rows plan) :
    t.written plan = t := by
  have hrows : List.zipWith writtenRow t.rows plan = t.rows := by
    generalize t.rows = rows at hplan
    induction hplan with
    | nil => rfl
    | cons hrow _ ih => rw [List.zipWith_cons_cons, hrow, ih]
  rw [written, hrows]

/-- A column stands for the cell that a row stores for it, and takes that cell as it is. -/
theorem Valid.stored_cell (ht : t.Valid) {row : Row} (hrow : row ∈ t.rows) {name : String}
    {c : Column} {index : Nat} (hcolumn : t.column? name = some (c, index)) :
    ∃ cell, row[index]? = some cell ∧ t.scope row name = .ok cell ∧ c.accept cell = .ok cell := by
  obtain ⟨hget, rfl⟩ := column?_eq_some hcolumn
  obtain ⟨hindex, hc⟩ := List.getElem?_eq_some_iff.mp hget
  have hfits := ht.rows row hrow
  have hindex' : index < row.length := hfits.length_eq ▸ hindex
  have hholds := (List.forall₂_iff_get.mp hfits).2 index hindex hindex'
  rw [List.get_eq_getElem, hc] at hholds
  have hcell : row[index]? = some row[index] := List.getElem?_eq_getElem hindex'
  exact ⟨row[index], hcell, scope_eq_ok ht.names hget hcell, Column.accept_of_holds hholds⟩

end Table

/-! ## Updates -/

section Updates

variable {s : Update} {t : Table} {row : Row}

theorem Update.after_after (hunnamed : s.assigned.Disjoint s.names) :
    s.after (s.after t) = s.after t := by
  rw [after, plan_after hunnamed, after]
  cases s.plan t with
  | error e => rfl
  | ok plan => exact Table.written_written

variable (ht : t.Valid) (hidentity : ∀ a ∈ s.assignments, a.IsIdentity)

include ht

/-- An identity on a stored row has the cell of its column as its value. -/
theorem Assignment.IsIdentity.eval {a : Assignment} (ha : a.IsIdentity) (hrow : row ∈ t.rows)
    {c : Column} {index : Nat} (hcolumn : t.column? a.column.name = some (c, index)) :
    ∃ cell, row[index]? = some cell ∧ a.value.eval (t.scope row) = .ok cell ∧
      c.accept cell = .ok cell := by
  obtain ⟨position, hvalue⟩ := ha
  obtain ⟨cell, hcell, hscope, haccept⟩ := ht.stored_cell hrow hcolumn
  refine ⟨cell, hcell, ?_, haccept⟩
  rw [hvalue, Expr.eval, hscope]
  rfl

include hidentity

theorem Update.written_of_identities {plan : List (List (Nat × Option Value))}
    (hplan : s.plan t = .ok plan) : t.written plan = t := by
  have hsteps := mapM_eq_ok.mp (plan_eq_ok.mp hplan).2
  refine Table.written_eq_self (List.forall₂_iff_get.mpr ⟨hsteps.length_eq, ?_⟩)
  intro index hindex hindex'
  have hcells := (List.forall₂_iff_get.mp hsteps).2 index hindex hindex'
  apply writtenRow_eq_self
  intro cell hcell
  rcases cellsWhere_eq_ok.mp hcells with ⟨-, hnone⟩ | ⟨-, hcells⟩
  · rw [hnone] at hcell
    cases hcell
  · obtain ⟨a, ha, hwrite⟩ := exists_of_mem_mapM hcells hcell
    obtain ⟨c, value, hcolumn, hvalue, haccept⟩ := Assignment.write_eq_ok.mp hwrite
    obtain ⟨stored, hstored, hvalue', haccept'⟩ :=
      (hidentity a ha).eval ht (List.get_mem _ _) hcolumn
    cases hvalue.symm.trans hvalue'
    cases haccept.symm.trans haccept'
    exact hstored

/-- Nothing but its condition keeps an update of columns to themselves from being carried out. -/
theorem Update.obstructed_iff_of_identities
    (hknown : ∀ a ∈ s.assignments, a.column.name ∈ t.columnNames) :
    s.Obstructed t ↔ ∃ row ∈ t.rows, ∃ e, Expr.holds (t.scope row) s.condition = .error e := by
  constructor
  · intro hobstructed
    have hstored {row : Row} (hrow : row ∈ t.rows) {a : Assignment} (ha : a ∈ s.assignments) :
        ∃ c index cell, t.column? a.column.name = some (c, index) ∧
          a.value.eval (t.scope row) = .ok cell ∧ c.accept cell = .ok cell := by
      obtain ⟨⟨c, index⟩, hcolumn⟩ := (Table.exists_column?_iff ht.names).mpr (hknown a ha)
      obtain ⟨cell, -, hvalue, haccept⟩ := (hidentity a ha).eval ht hrow hcolumn
      exact ⟨c, index, cell, hcolumn, hvalue, haccept⟩
    cases hobstructed with
    | target ha hunknown => exact absurd (hknown _ ha) hunknown
    | condition hrow herror => exact ⟨_, hrow, _, herror⟩
    | value hrow _ ha herror =>
        obtain ⟨_, _, _, -, hvalue, -⟩ := hstored hrow ha
        cases herror.symm.trans hvalue
    | @cell row a c value fault hrow _ ha hc hname hvalue hfault =>
        obtain ⟨d, index, cell, hcolumn, hvalue', haccept⟩ := hstored hrow ha
        obtain ⟨index', hget⟩ := List.mem_iff_getElem?.mp hc
        have hfound := Table.column?_of_getElem? ht.names hget
        rw [hname, hcolumn] at hfound
        cases hfound
        cases hvalue.symm.trans hvalue'
        cases hfault.symm.trans haccept
  · rintro ⟨row, hrow, e, herror⟩
    exact .condition hrow herror

end Updates

/-- Of an update that names none of the columns that it assigns, in its condition or in its
values, a second run does what the first one has done: it has the same outcome and leaves the
database that the first one has left.  An update of columns to themselves changes nothing, and
it fails exactly when its condition fails on a row. -/
theorem repeated_update_changes_nothing {db : Database} (hdb : db.Reachable) (s : Update)
    {t : Table} (hfound : db.table? s.table.name = some t) :
    (s.assigned.Disjoint s.names →
      (db.execute (.update s)).2.execute (.update s) = db.execute (.update s)) ∧
    ((∀ a ∈ s.assignments, a.IsIdentity ∧ a.column.name ∈ t.columnNames) →
      (db.execute (.update s)).2 = db ∧
      ((∃ e, (db.execute (.update s)).1 = .error e) ↔
        ∃ row ∈ t.rows, ∃ e, Expr.holds (t.scope row) s.condition = .error e)) := by
  have ht : t.Valid := (hdb.valid _ t hfound).2
  constructor
  · intro hunnamed
    have hfirst := Database.execute_update_after hdb.valid hfound
    have hvalid := (hdb.execute (.update s)).valid
    rw [hfirst] at hvalid
    have hsecond := Database.execute_update_after (s := s) hvalid (t := s.after t)
      (by rw [Database.table?_set, if_pos rfl])
    rw [hfirst, hsecond, Update.plan_after hunnamed, Update.after_after hunnamed,
      Database.set_set]
  · intro hassignments
    have hidentity : ∀ a ∈ s.assignments, a.IsIdentity := fun a ha => (hassignments a ha).1
    have hobstructed := Update.obstructed_iff_of_identities ht hidentity
      fun a ha => (hassignments a ha).2
    have hplan := s.exists_plan_iff ht.names
    rw [hobstructed] at hplan
    rw [Database.execute_update_plan hdb.valid hfound]
    cases hcase : s.plan t with
    | error e =>
        refine ⟨rfl, fun _ => ?_, fun _ => ⟨_, rfl⟩⟩
        by_contra hdecided
        obtain ⟨plan, hok⟩ := hplan.mpr hdecided
        cases hok.symm.trans hcase
    | ok plan =>
        refine ⟨?_, ?_, fun hundecided => absurd hundecided (hplan.mp ⟨plan, hcase⟩)⟩
        · exact (congrArg (db.set s.table.name)
            (Update.written_of_identities ht hidentity hcase)).trans (Database.set_self hfound)
        · rintro ⟨e, herror⟩
          cases herror

/-- `UPDATE stock SET label = 'item ' || id WHERE id = 2`. -/
def naming : Update :=
  ⟨⟨4, 0⟩, ⟨⟨4, 7⟩, "stock"⟩,
    [⟨⟨⟨4, 17⟩, "label"⟩,
      .binary .concat (.literal ⟨4, 25⟩ (.string "item ")) (.ident ⟨⟨4, 36⟩, "id"⟩)⟩],
    some (.binary .equal (.ident ⟨⟨4, 45⟩, "id"⟩) (.literal ⟨4, 50⟩ (.integer 2)))⟩

/-- `UPDATE stock SET id = id WHERE 6 / (id - 2) = 1`, which divides by zero on the second
row. -/
def keeping : Update :=
  ⟨⟨5, 0⟩, ⟨⟨5, 7⟩, "stock"⟩, [⟨⟨⟨5, 17⟩, "id"⟩, .ident ⟨⟨5, 22⟩, "id"⟩⟩],
    some (.binary .equal (.binary .slash (.literal ⟨5, 31⟩ (.integer 6))
      (.binary .minus (.ident ⟨⟨5, 36⟩, "id"⟩) (.literal ⟨5, 41⟩ (.integer 2))))
      (.literal ⟨5, 46⟩ (.integer 1)))⟩

theorem naming_repeated_and_keeping_fails :
    stock.Reachable ∧ stock.table? naming.table.name = some stockTable ∧
      naming.assigned.Disjoint naming.names ∧
      stock.execute (.update naming) = (.ok none, stock.set "stock" { stockTable with
        rows := [[some (.integer 1), none], [some (.integer 2), some (.string "item 2")]] }) ∧
      (stock.execute (.update naming)).2.execute (.update naming) =
        stock.execute (.update naming) ∧
      stock.table? keeping.table.name = some stockTable ∧
      (∀ a ∈ keeping.assignments, a.IsIdentity ∧ a.column.name ∈ stockTable.columnNames) ∧
      (stock.execute (.update keeping)).2 = stock ∧
      ∃ e, (stock.execute (.update keeping)).1 = .error e := by
  have hunnamed : naming.assigned.Disjoint naming.names := by
    simp [naming, Update.assigned, Update.names, Expr.names]
  have hassignments : ∀ a ∈ keeping.assignments,
      a.IsIdentity ∧ a.column.name ∈ stockTable.columnNames :=
    List.forall_mem_singleton.mpr ⟨⟨_, rfl⟩, List.mem_cons_self⟩
  have hundecided : ∃ row ∈ stockTable.rows, ∃ e,
      Expr.holds (stockTable.scope row) keeping.condition = .error e :=
    ⟨_, List.mem_cons_of_mem _ List.mem_cons_self, ⟨⟨5, 31⟩, .divideByZero⟩, rfl⟩
  obtain ⟨hrepeated, -⟩ := repeated_update_changes_nothing stock_reachable naming stock_table
  obtain ⟨-, hkept⟩ := repeated_update_changes_nothing stock_reachable keeping stock_table
  obtain ⟨hdb, hfails⟩ := hkept hassignments
  exact ⟨stock_reachable, stock_table, hunnamed, rfl, hrepeated hunnamed, stock_table,
    hassignments, hdb, hfails.mpr hundecided⟩

end PocketSql
