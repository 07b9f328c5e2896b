import Mathlib
import PocketSql.Proofs.Query.Selection
import PocketSql.Proofs.Store.Transaction

/-!
# Effects of statements

All that a statement can do to a valid database.  It fails and leaves the database, it
answers a query and leaves the database, or it stores one table under its name: a new
one, one with a new row, or one whose rows are others and whose columns are the same.
What holds of every run is proved by cases of these effects.
-/

namespace PocketSql

/-- The table behind an insertion: the counters of the columns that are left out have
moved on, and the new row is the last one. -/
structure Insert.Inserts (s : Insert) (t t' : Table) (targets : List Nat) (row : Row) : Prop where
  targets_eq : t.targets (s.columns.map Ident.name) = .ok targets
  row_eq : ∃ values, s.values.mapM (Expr.eval .empty) = .ok values ∧
    t.newRow targets values = .ok row
  table_eq : t' = ((t.leftOut targets).foldl Table.advanceAt t).push row

/-- The outcome of a statement on a database, and the database behind it. -/
inductive Database.Effect (db : Database) : Statement → Outcome → Database → Prop
  | failure {s : Statement} {e : EvalError} : Effect db s (.error e) db
  | answer {s : Select} {result : QueryResult} : s.run db = .ok result →
      Effect db (.select s) (.ok (some result)) db
  | creation {s : CreateTable} {columns : List Column} : db.table? s.table.name = none →
      columnsOf [] s.columns = .ok columns →
      Effect db (.createTable s) (.ok none) (db.put (Table.empty s.table.name columns))
  | insertion {s : Insert} {t t' : Table} {targets : List Nat} {row : Row} :
      db.table? s.table.name = some t → s.Inserts t t' targets row →
      Effect db (.insert s) (.ok none) (db.set s.table.name t')
  | update {s : Update} {t t' : Table} : db.table? s.table.name = some t →
      t'.columns = t.columns → Effect db (.update s) (.ok none) (db.set s.table.name t')
  | deletion {s : Delete} {t t' : Table} : db.table? s.table.name = some t →
      t'.columns = t.columns → Effect db (.delete s) (.ok none) (db.set s.table.name t')

section Works

variable {db : Database}

/-- A statement that answers nothing ends where its work does. -/
theorem Database.execute_of_work {s : Statement} {work : EStateM EvalError Database Unit}
    {after : Database → Prop} (hs : s.work = work >>= fun _ => pure none)
    (hwork : AllOrNothing work db after) :
    (∃ e, db.execute s = (.error e, db)) ∨ ∃ db', db.execute s = (.ok none, db') ∧ after db' := by
  rcases hwork with ⟨e, herror⟩ | ⟨_, db', hok, hafter⟩
  · exact .inl ⟨e.caughtAt s.position, by rw [execute, hs, work_bind, herror]⟩
  · exact .inr ⟨db', by rw [execute, hs, work_bind, hok]; rfl, hafter⟩

/-- A statement that works on a table leaves the table that its work ends with. -/
theorem Database.execute_of_onTable {s : Statement} {name : Ident}
    {work : EStateM EvalError Table Unit} {t : Table}
    (hs : s.work = Database.onTable name work >>= fun _ => pure none)
    (hfound : db.table? name.name = some t) :
    db.execute s =
      match work t with
      | .ok _ t' => (.ok none, db.set name.name t')
      | .error e t' => (.error (e.caughtAt s.position), db.set name.name t') := by
  rw [execute, hs, work_bind, onTable, find, hfound]
  cases hwork : work t <;> simp only [hwork, work_pure]

theorem CreateTable.creates (s : CreateTable) :
    AllOrNothing s.work db fun db' => ∃ columns, db.table? s.table.name = none ∧
      columnsOf [] s.columns = .ok columns ∧ db' = db.put (Table.empty s.table.name columns) := by
  refine .get (.guard fun hfree => .read fun columns hcolumns => ?_)
  exact .succeed (work_modify _ _) ⟨columns, by simpa using hfree, hcolumns, rfl⟩

theorem Insert.inserts (s : Insert) (t : Table) :
    AllOrNothing s.work t fun t' => ∃ targets row, s.Inserts t t' targets row := by
  refine .get (.read fun targets htargets => .guard fun _ => .read fun values hvalues =>
    .workAt ?_)
  have hinsertion := Table.insertion_eq t targets values
  cases hrow : t.newRow targets values with
  | error fault =>
      rw [hrow] at hinsertion
      exact .fail hinsertion
  | ok row =>
      rw [hrow] at hinsertion
      exact .succeed hinsertion
        ⟨targets, row, faultAt_eq_ok.mp htargets, ⟨values, hvalues, hrow⟩, rfl⟩

/-- Every statement on a valid database has one of the effects. -/
theorem Database.Valid.effect (hdb : db.Valid) (s : Statement) :
    db.Effect s (db.execute s).1 (db.execute s).2 := by
  cases s with
  | createTable s =>
      rcases db.execute_of_work (s := .createTable s) rfl s.creates with
        ⟨e, heq⟩ | ⟨_, heq, columns, hfree, hcolumns, rfl⟩
      · rw [heq]
        exact .failure
      · rw [heq]
        exact .creation hfree hcolumns
  | select s =>
      rw [db.execute_select]
      cases hrun : s.run db with
      | error e => exact .failure
      | ok result => exact .answer hrun
  | insert s =>
      have hwork : AllOrNothing (onTable s.table s.work) db _ := .onTable fun t _ => s.inserts t
      rcases db.execute_of_work (s := .insert s) rfl hwork with
        ⟨e, heq⟩ | ⟨_, heq, t, t', hfound, ⟨targets, row, hinserts⟩, rfl⟩
      · rw [heq]
        exact .failure
      · rw [heq]
        exact .insertion hfound hinserts
  | update s =>
      have hwork : AllOrNothing (onTable s.table s.work) db _ := .onTable fun t ht =>
        Table.StandsUnder.invariant.update s (hdb s.table.name t ht)
      rcases db.execute_of_work (s := .update s) rfl hwork with
        ⟨e, heq⟩ | ⟨_, heq, t, t', hfound, ⟨_, hcolumns⟩, rfl⟩
      · rw [heq]
        exact .failure
      · rw [heq]
        exact .update hfound hcolumns
  | delete s =>
      have hwork : AllOrNothing (onTable s.table s.work) db _ := .onTable fun t ht =>
        Table.StandsUnder.invariant.delete s (hdb s.table.name t ht)
      rcases db.execute_of_work (s := .delete s) rfl hwork with
        ⟨e, heq⟩ | ⟨_, heq, t, t', hfound, ⟨_, hcolumns⟩, rfl⟩
      · rw [heq]
        exact .failure
      · rw [heq]
        exact .deletion hfound hcolumns

end Works

end PocketSql
