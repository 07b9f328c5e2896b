import Mathlib
import PocketSql.Proofs.Query.RoundTrip
import PocketSql.Proofs.Query.WholeRows
import PocketSql.Proofs.Store.Reachable

/-!
# The shape of results

What a star and a result have to do with the schema.  In a reachable database the columns of a
table have different names and its rows are as long as the schema, so looking up the names that a
star stands for gives every row back.  A result has a column for each projection behind the
expansion of stars, and so has each of its rows, on the path of plain queries and on that of
aggregate ones alike.
-/

namespace PocketSql

/-- All rows have as many cells as there are columns. -/
def QueryResult.Rectangular (result : QueryResult) : Prop :=
  ∀ row ∈ result.rows, row.length = result.columns.length

namespace Table

variable {t : Table} {projections : List Expr} {condition : Option Expr} {result : QueryResult}

/-- The number of columns that a projection gives. -/
def width (t : Table) : Expr → Nat
  | .star _ => t.columns.length
  | _ => 1

theorem length_expand (e : Expr) : (t.expand e).length = t.width e := by
  cases e with
  | star position =>
      rw [expand_star, List.length_map, columnNames, List.length_map]
      rfl
  | ident | literal | unary | binary | call => rfl

theorem length_flatMap_expand (t : Table) (projections : List Expr) :
    (projections.flatMap t.expand).length = (projections.map t.width).sum := by
  rw [List.length_flatMap]
  exact congrArg (fun f => (projections.map f).sum) (funext fun e => length_expand e)

/-- A plain result has a column for each projection. -/
theorem shape_of_project (hresult : t.project projections condition = .ok result) :
    result.columns.length = projections.length ∧ result.Rectangular := by
  obtain ⟨mask, -, hresult⟩ := bind_eq_ok.mp hresult
  obtain ⟨rows, hrows, heq⟩ := bind_eq_ok.mp hresult
  cases pure_eq_ok.mp heq
  refine ⟨List.length_map _, fun row hrow => ?_⟩
  obtain ⟨stored, -, hcells⟩ := exists_of_mem_mapM hrows hrow
  calc
    row.length = projections.length := (length_of_mapM hcells).symm
    _ = (projections.map Expr.heading).length := (List.length_map _).symm

theorem length_shellsOf {slots slots' : List Slot} {shells : List Shell}
    (hshells : shellsOf slots projections = .ok (shells, slots')) :
    shells.length = projections.length := by
  induction projections generalizing slots shells with
  | nil =>
      cases hshells
      rfl
  | cons e rest ih =>
      obtain ⟨-, -, hshells⟩ := bind_eq_ok.mp hshells
      split at hshells
      · cases hshells
      · obtain ⟨⟨others, behind⟩, hothers, heq⟩ := bind_eq_ok.mp hshells
        cases pure_eq_ok.mp heq
        exact congrArg (· + 1) (ih hothers)

/-- An aggregate result has a column for each projection too, and at most one row. -/
theorem shape_of_aggregate {position : Position}
    (hresult : t.aggregate position projections condition = .ok result) :
    result.columns.length = projections.length ∧ result.Rectangular := by
  obtain ⟨⟨shells, slots⟩, hshells, hresult⟩ := bind_eq_ok.mp hresult
  obtain ⟨stepped, -, hresult⟩ := bind_eq_ok.mp hresult
  have hcolumns : (shells.map fun _ => "?").length = projections.length :=
    (List.length_map _).trans (length_shellsOf hshells)
  split at hresult
  · cases pure_eq_ok.mp hresult
    exact ⟨hcolumns, List.forall_mem_nil _⟩
  · obtain ⟨cells, hcells, heq⟩ := bind_eq_ok.mp hresult
    cases pure_eq_ok.mp heq
    refine ⟨hcolumns, List.forall_mem_singleton.mpr ?_⟩
    calc
      cells.length = shells.length := (length_of_mapM hcells).symm
      _ = (shells.map fun _ => "?").length := (List.length_map _).symm

end Table

theorem Select.shape_of_run {db : Database} {s : Select} {result : QueryResult}
    (hresult : s.run db = .ok result) : ∃ t, s.source db = .ok t ∧
      result.columns.length = (s.projections.map t.width).sum ∧ result.Rectangular := by
  obtain ⟨t, hsource, hresult⟩ := bind_eq_ok.mp hresult
  refine ⟨t, hsource, ?_⟩
  rw [← t.length_flatMap_expand]
  dsimp only at hresult
  split at hresult
  · exact Table.shape_of_aggregate hresult
  · exact Table.shape_of_project hresult

/-- In a reachable database a star by itself reads a table back: the names of its columns in the
order of the schema, and its rows as they are stored.  The statement may stand anywhere in a text,
and be written out if the name of the table is one that can be.  Whatever a query consists of, a
result has as many columns as its projections give, and as many cells in each of its rows. -/
theorem star_reads_back_and_results_are_rectangular :
    (∀ db : Database, db.Reachable → ∀ (name : String) (t : Table), db.table? name = some t →
      (∀ position star table : Position,
        db.execute (.select ⟨position, [.star star], .ident ⟨table, name⟩, none⟩) =
          (.ok (some ⟨t.columns.map Column.name, t.rows⟩), db)) ∧
      (IsName name.toList → db.query (selectionText name) =
        (.ok ⟨t.columns.map Column.name, t.rows⟩, db))) ∧
    ∀ (db : Database) (s : Select) (result : QueryResult),
      (db.execute (.select s)).1 = .ok (some result) → ∃ t, s.source db = .ok t ∧
        result.columns.length = (s.projections.map t.width).sum ∧
        ∀ row ∈ result.rows, row.length = result.columns.length := by
  constructor
  · intro db hdb name t hfound
    have hvalid := (hdb.valid name t hfound).2
    constructor
    · intro position star table
      rw [Database.execute_select, Select.run_star_all hvalid hfound]
      rfl
    · intro hname
      obtain ⟨position, star, table, hread⟩ := parse_selection hname
      have hrun : Select.run ⟨position, [.star star], .ident ⟨table, name⟩, none⟩ db =
          .ok ⟨t.columnNames, t.rows⟩ := Select.run_star_all hvalid hfound position star
      rw [Database.query, hread]
      simp only [Database.execute_select, hrun]
      rfl
  · intro db s result hresult
    exact Select.shape_of_run (Database.execute_select_eq_ok.mp hresult)

/-- What `select *, -id, * from stock` is read as. -/
def stockTwice : Select :=
  ⟨⟨1, 0⟩, [.star ⟨1, 7⟩, .unary ⟨1, 10⟩ .minus (.ident ⟨⟨1, 11⟩, "id"⟩), .star ⟨1, 15⟩],
    .ident ⟨⟨1, 22⟩, "stock"⟩, none⟩

def stockTwiceResult : QueryResult where
  columns := ["id", "label", "?", "id", "label"]
  rows := [[some (.integer 1), none, some (.integer (-1)), some (.integer 1), none],
    [some (.integer 2), some (.string "new"), some (.integer (-2)), some (.integer 2),
      some (.string "new")]]

set_option maxRecDepth 4000 in
theorem stock_read_back_and_twice :
    stock.Reachable ∧ stock.table? "stock" = some stockTable ∧
      stock.query (selectionText "stock") = (.ok ⟨["id", "label"], stockTable.rows⟩, stock) ∧
      parse "select *, -id, * from stock" = .ok [.select stockTwice] ∧
      (stock.execute (.select stockTwice)).1 = .ok (some stockTwiceResult) ∧
      ∃ t, stockTwice.source stock = .ok t ∧
        stockTwiceResult.columns.length = (stockTwice.projections.map t.width).sum ∧
        ∀ row ∈ stockTwiceResult.rows, row.length = stockTwiceResult.columns.length := by
  have hname : IsName "stock".toList := by
    have hplain : IsPlainWord "stock".toList := by decide +kernel
    exact hplain.isName
  have hread : parse "select *, -id, * from stock" = .ok [.select stockTwice] := by
    cbv
  have hresult : (stock.execute (.select stockTwice)).1 = .ok (some stockTwiceResult) := rfl
  obtain ⟨hstar, hshape⟩ := star_reads_back_and_results_are_rectangular
  obtain ⟨-, hquery⟩ := hstar stock stock_reachable "stock" stockTable stock_table
  exact ⟨stock_reachable, stock_table, hquery hname, hread, hresult,
    hshape stock stockTwice stockTwiceResult hresult⟩

end PocketSql
