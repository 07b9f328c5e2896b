import Mathlib
import PocketSql.Query.Session
import PocketSql.Proofs.Store.Transaction

/-!
# Reachable databases

Whatever statements have been executed on the empty database, the stored tables
fit their schemas, and the next statement that fails leaves every one of them as it
was.  Both follow by induction over the statements from what a single statement does.
-/

namespace PocketSql

/-- What any number of statements, those that fail included, makes of the empty
database. -/
inductive Database.Reachable : Database → Prop
  | empty : Reachable .empty
  | execute {db : Database} (s : Statement) : Reachable db → Reachable (db.execute s).2

theorem Database.Reachable.valid {db : Database} (hdb : db.Reachable) : db.Valid := by
  induction hdb with
  | empty => exact .empty
  | execute s _ ih => exact ih.execute s

theorem Database.Reachable.executeAll {db : Database} (hdb : db.Reachable)
    (statements : List Statement) : (db.executeAll statements).2.Reachable := by
  induction statements generalizing db with
  | nil => exact hdb
  | cons s rest ih => exact ih (hdb.execute s)

/-- The statements behind others find the database that those have left. -/
theorem Database.executeAll_append (db : Database) (front back : List Statement) :
    db.executeAll (front ++ back) =
      ((db.executeAll front).1 ++ ((db.executeAll front).2.executeAll back).1,
        ((db.executeAll front).2.executeAll back).2) := by
  induction front generalizing db with
  | nil => rfl
  | cons s front ih =>
      simp only [List.cons_append, executeAll]
      rw [ih]

/-- Two rows, made by statements that fill a counter and a default. -/
def stockStatements : List Statement :=
  [.createTable ⟨⟨1, 0⟩, ⟨⟨1, 13⟩, "stock"⟩,
      [⟨⟨⟨1, 20⟩, "id"⟩, .integer, false, none, true⟩,
        ⟨⟨⟨1, 49⟩, "label"⟩, .string, true, some (.literal ⟨1, 71⟩ (.string "new")), false⟩]⟩,
    .insert ⟨⟨2, 0⟩, ⟨⟨2, 12⟩, "stock"⟩, [⟨⟨2, 19⟩, "label"⟩], [.literal ⟨2, 34⟩ .null]⟩,
    .insert ⟨⟨3, 0⟩, ⟨⟨3, 12⟩, "stock"⟩, [⟨⟨3, 19⟩, "id"⟩], [.literal ⟨3, 31⟩ (.integer 2)]⟩]

def stock : Database :=
  stockStatements.foldl (fun db s => (db.execute s).2) .empty

def stockTable : Table :=
  { name := "stock"
    columns := [⟨"id", .integer, none, false, true, some 2⟩,
      ⟨"label", .string, some (.string "new"), true, false, some 1⟩]
    rows := [[some (.integer 1), none], [some (.integer 2), some (.string "new")]] }

theorem stock_reachable : stock.Reachable :=
  .execute _ (.execute _ (.execute _ .empty))

theorem stock_table : stock.table? "stock" = some stockTable := by
  rfl

/-! ## The storage invariant -/

/-- A stored table stands under its own name, its columns have different names, and
every row has one cell for each column, which holds a value of the column's type or
an allowed null.  A default has the type of its column, and a counter belongs to a
column of integers and is positive until it is exhausted. -/
theorem stored_table_fits_schema {db : Database} (hdb : db.Reachable) {name : String}
    {t : Table} (hfound : db.table? name = some t) :
    t.name = name ∧
      t.columnNames.Nodup ∧
      (∀ row ∈ t.rows, row.length = t.columns.length ∧
        ∀ (index : Nat) (c : Column) (cell : Option Value),
          t.columns[index]? = some c → row[index]? = some cell →
            (∀ value, cell = some value → value.dataType = c.type) ∧
              (cell = none → c.nullable = true)) ∧
      ∀ c ∈ t.columns,
        (∀ value, c.default = some value → value.dataType = c.type) ∧
          (c.autoIncrement = true →
            c.type = .integer ∧ ∀ number, c.next = some number → 1 ≤ number.toInt) := by
  obtain ⟨hname, ht⟩ := hdb.valid name t hfound
  refine ⟨hname, ht.names, ?_, ?_⟩
  · intro row hrow
    have hfits := ht.rows row hrow
    refine ⟨hfits.length_eq.symm, ?_⟩
    intro index c cell hc hcell
    obtain ⟨hindex, rfl⟩ := List.getElem?_eq_some_iff.mp hc
    obtain ⟨hindex', rfl⟩ := List.getElem?_eq_some_iff.mp hcell
    have hholds := (List.forall₂_iff_get.mp hfits).2 index hindex hindex'
    constructor
    · intro value hvalue
      simpa [Column.Holds, hvalue] using hholds
    · intro hnull
      simpa [Column.Holds, hnull] using hholds
  · intro c hc
    have hvalid := ht.columns c hc
    exact ⟨hvalid.default_type, fun hauto => ⟨hvalid.counter_type hauto, hvalid.counter_pos⟩⟩

theorem stock_fits_schema :
    stock.Reachable ∧ stock.table? "stock" = some stockTable ∧
      (stockTable.name = "stock" ∧ stockTable.columnNames.Nodup ∧
        (∀ row ∈ stockTable.rows, row.length = stockTable.columns.length)) := by
  obtain ⟨hname, hnodup, hrows, -⟩ := stored_table_fits_schema stock_reachable stock_table
  exact ⟨stock_reachable, stock_table, hname, hnodup, fun row hrow => (hrows row hrow).1⟩

/-! ## Atomicity -/

/-- A statement that fails leaves the database as it was: every table with all its
columns, counters and rows. -/
theorem execute_of_error {db : Database} (hdb : db.Reachable) {s : Statement} {e : EvalError}
    (herror : (db.execute s).1 = .error e) : (db.execute s).2 = db :=
  hdb.valid.eq_of_execute_error (Prod.ext herror rfl)

/-- An update whose second row divides by zero when the first has got its value. -/
def failingUpdate : Statement :=
  .update ⟨⟨4, 0⟩, ⟨⟨4, 7⟩, "stock"⟩,
    [⟨⟨⟨4, 17⟩, "id"⟩, .binary .slash (.literal ⟨4, 22⟩ (.integer 6))
      (.binary .minus (.ident ⟨⟨4, 27⟩, "id"⟩) (.literal ⟨4, 32⟩ (.integer 2)))⟩], none⟩

theorem failingUpdate_leaves_stock :
    stock.Reachable ∧ (stock.execute failingUpdate).1 = .error ⟨⟨4, 22⟩, .divideByZero⟩ ∧
      (stock.execute failingUpdate).2 = stock :=
  ⟨stock_reachable, rfl, execute_of_error stock_reachable (s := failingUpdate) rfl⟩

end PocketSql
