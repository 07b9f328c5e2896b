import Mathlib
import PocketSql.Proofs.Store.Numbering

/-!
# Footprints of statements

A statement sees one table of the database and writes to no other one.  Seen from that
table, it is a step from what stands under the name, if anything does, to an outcome and
to what stands there afterwards.  Statements on different tables therefore commute.  A
step never takes a table away, and of a table that exists only the rows and the counters
of its columns change.
-/

namespace PocketSql

/-- The name of the table that a statement is about.  A query from an expression that is
not a name has none. -/
def Statement.tableName? : Statement → Option String
  | .createTable s => some s.table.name
  | .select s =>
    match s.table with
    | .ident name => some name.name
    | _ => none
  | .insert s => some s.table.name
  | .update s => some s.table.name
  | .delete s => some s.table.name

/-- What is declared of a column: all of it but the counter. -/
def Column.declared (c : Column) : Column :=
  { c with next := none }

/-- Stores a table under a name, if there is one to store. -/
def Database.write (db : Database) (name : String) : Option Table → Database
  | some t => db.set name t
  | none => db

/-- On every database, the statement is one and the same step on the table of the name. -/
def Statement.ActsOn (s : Statement) (name : String) : Prop :=
  ∃ step : Option Table → Outcome × Option Table, ∀ db : Database,
    db.execute s = ((step (db.table? name)).1, db.write name (step (db.table? name)).2)

/-! ## Writing under a name -/

namespace Database

variable (db : Database) (name : String) (written : Option Table)

@[simp]
theorem table?_write_self : (db.write name written).table? name = written.or (db.table? name) := by
  cases written with
  | none => rfl
  | some t => simp [write, table?_set]

theorem table?_write_of_ne {other : String} (hother : other ≠ name) :
    (db.write name written).table? other = db.table? other := by
  cases written with
  | none => rfl
  | some t => simp [write, table?_set, hother.symm]

theorem write_comm {other : String} (hother : other ≠ name) (others : Option Table) :
    (db.write name written).write other others = (db.write other others).write name written := by
  apply ext_table?
  intro asked
  by_cases hname : asked = name
  · subst hname
    rw [table?_write_of_ne _ _ _ hother.symm, table?_write_self, table?_write_self,
      table?_write_of_ne _ _ _ hother.symm]
  · by_cases hasked : asked = other
    · subst hasked
      rw [table?_write_self, table?_write_of_ne _ _ _ hname, table?_write_of_ne _ _ _ hname,
        table?_write_self]
    · rw [table?_write_of_ne _ _ _ hasked, table?_write_of_ne _ _ _ hname,
        table?_write_of_ne _ _ _ hname, table?_write_of_ne _ _ _ hasked]

end Database

/-! ## Statements as steps on one table -/

/-- A creation on what stands under its name. -/
def CreateTable.step (s : CreateTable) (found : Option Table) : Outcome × Option Table :=
  if found.isSome then (.error ⟨s.table.position, .duplicateTable s.table.name⟩, none)
  else
    match columnsOf [] s.columns with
    | .error e => (.error (e.caughtAt s.position), none)
    | .ok columns => (.ok none, some (Table.empty s.table.name columns))

/-- A query on what stands under the name of its table. -/
def Select.step (s : Select) (name : Ident) : Option Table → Outcome × Option Table
  | none => (.error ⟨name.position, .unknownTable name.name⟩, none)
  | some t =>
    let projections := s.projections.flatMap t.expand
    let result := if projections.any Expr.hasAggregate
      then t.aggregate s.position projections s.condition
      else t.project projections s.condition
    ((result.mapError (EvalError.caughtAt s.position)).map some, none)

/-- The work of the statement at a position, on what stands under the name of a table. -/
def Ident.step (name : Ident) (position : Position) (work : EStateM EvalError Table Unit) :
    Option Table → Outcome × Option Table
  | none => (.error ⟨name.position, .unknownTable name.name⟩, none)
  | some t =>
    match work t with
    | .ok _ t' => (.ok none, some t')
    | .error e t' => (.error (e.caughtAt position), some t')

namespace Statement

theorem actsOn_createTable (s : CreateTable) : (createTable s).ActsOn s.table.name := by
  refine ⟨s.step, fun db => ?_⟩
  have hwork : (createTable s).work db = (s.work >>= fun _ => pure none) db := rfl
  rw [Database.execute, hwork, work_bind, CreateTable.work, work_bind, work_get]
  simp only [CreateTable.step]
  by_cases htaken : (db.table? s.table.name).isSome
  · simp only [htaken, if_true]
    rfl
  · simp only [htaken]
    cases columnsOf [] s.columns <;> rfl

theorem actsOn_select {s : Select} {name : Ident} (hs : s.table = .ident name) :
    (select s).ActsOn name.name := by
  refine ⟨s.step name, fun db => ?_⟩
  obtain ⟨position, projections, _, condition⟩ := s
  subst hs
  rw [Database.execute_select]
  cases hfound : db.table? name.name with
  | none =>
      have hsource : Select.source ⟨position, projections, .ident name, condition⟩ db =
          .error ⟨name.position, .unknownTable name.name⟩ := by
        simp only [Select.source, Database.find, hfound]
      rw [Select.run, hsource]
      rfl
  | some t =>
      rw [Select.run_eq hfound]
      rfl

theorem actsOn_of_onTable {s : Statement} {name : Ident} {work : EStateM EvalError Table Unit}
    (hs : s.work = Database.onTable name work >>= fun _ => pure none) : s.ActsOn name.name := by
  refine ⟨name.step s.position work, fun db => ?_⟩
  cases hfound : db.table? name.name with
  | none => rw [Database.execute, hs, work_bind, Database.onTable, Database.find, hfound]; rfl
  | some t =>
      rw [Database.execute_of_onTable hs hfound]
      simp only [Ident.step]
      cases work t <;> rfl

theorem actsOn_tableName {s : Statement} {name : String} (hs : s.tableName? = some name) :
    s.ActsOn name := by
  cases s with
  | createTable s =>
      cases hs
      exact actsOn_createTable s
  | select s =>
      rw [tableName?] at hs
      split at hs
      · next found htable =>
        cases hs
        exact actsOn_select htable
      · cases hs
  | insert s | update s | delete s =>
      cases hs
      exact actsOn_of_onTable rfl

namespace ActsOn

variable {s s' : Statement} {name other : String} {db db' : Database}

theorem outcome_eq (hs : s.ActsOn name) (hagree : db.table? name = db'.table? name) :
    (db.execute s).1 = (db'.execute s).1 := by
  obtain ⟨step, hstep⟩ := hs
  rw [hstep, hstep, hagree]

theorem table?_eq (hs : s.ActsOn name) (hagree : db.table? name = db'.table? name) :
    (db.execute s).2.table? name = (db'.execute s).2.table? name := by
  obtain ⟨step, hstep⟩ := hs
  rw [hstep, hstep, Database.table?_write_self, Database.table?_write_self, hagree]

theorem table?_of_ne (hs : s.ActsOn name) (hother : other ≠ name) :
    (db.execute s).2.table? other = db.table? other := by
  obtain ⟨step, hstep⟩ := hs
  rw [hstep]
  exact db.table?_write_of_ne name _ hother

/-- A statement on another table in front changes no outcome. -/
theorem outcome_behind (hs : s.ActsOn name) (hs' : s'.ActsOn other) (hother : other ≠ name) :
    ((db.execute s').2.execute s).1 = (db.execute s).1 :=
  hs.outcome_eq (hs'.table?_of_ne hother.symm)

theorem comm (hs : s.ActsOn name) (hs' : s'.ActsOn other) (hother : other ≠ name) :
    ((db.execute s).2.execute s').2 = ((db.execute s').2.execute s).2 := by
  have hkept : (db.execute s).2.table? other = db.table? other := hs.table?_of_ne hother
  have hkept' : (db.execute s').2.table? name = db.table? name := hs'.table?_of_ne hother.symm
  obtain ⟨step, hstep⟩ := hs
  obtain ⟨step', hstep'⟩ := hs'
  calc
    ((db.execute s).2.execute s').2 =
        (db.write name (step (db.table? name)).2).write other (step' (db.table? other)).2 := by
      rw [hstep', hkept, hstep]
    _ = (db.write other (step' (db.table? other)).2).write name (step (db.table? name)).2 :=
      db.write_comm name _ hother _
    _ = ((db.execute s').2.execute s).2 := by
      rw [hstep (db.execute s').2, hkept', hstep']

end ActsOn

end Statement

/-! ## What is declared stays -/

theorem Column.declared_behind (s : Statement) (outcome : Outcome) (table : String) (c : Column) :
    (c.behind s outcome table).declared = c.declared := by
  rw [behind]
  split
  · rw [moveOn]
    split <;> rfl
  · rfl

/-- Along any run a table stays, with everything that is declared of its columns. -/
theorem Database.Reachable.declared_executeAll {db : Database} (hdb : db.Reachable)
    (statements : List Statement) {name : String} {t : Table} (hfound : db.table? name = some t) :
    ∃ t', (db.executeAll statements).2.table? name = some t' ∧
      t'.columns.map Column.declared = t.columns.map Column.declared := by
  induction statements generalizing db t with
  | nil => exact ⟨t, hfound, rfl⟩
  | cons s rest ih =>
      obtain ⟨u, hu, hcolumns⟩ := (hdb.valid.effect s).columns_eq hdb.valid hfound
      obtain ⟨t', ht', hrest⟩ := ih (hdb.execute s) hu
      refine ⟨t', ht', ?_⟩
      calc
        t'.columns.map Column.declared = u.columns.map Column.declared := hrest
        _ = t.columns.map Column.declared := by
          rw [hcolumns, List.map_map]
          exact List.map_congr_left fun c _ => Column.declared_behind s _ name c

/-! ## The footprint -/

/-- A statement sees nothing of the database but the table that it names, and changes
nothing but that table.  No statement takes a table away or changes what is declared of a
column.  Two statements on different tables do the same in either order. -/
theorem statement_keeps_to_its_table {db db' : Database} (hdb : db.Reachable)
    {s : Statement} {name : String} (hs : s.tableName? = some name)
    (hagree : db.table? name = db'.table? name) :
    ((db.execute s).1 = (db'.execute s).1 ∧
      (db.execute s).2.table? name = (db'.execute s).2.table? name) ∧
    (∀ other, other ≠ name → (db.execute s).2.table? other = db.table? other ∧
      (db'.execute s).2.table? other = db'.table? other) ∧
    (∀ (statements : List Statement) (table : String) (t : Table), db.table? table = some t →
      ∃ t', (db.executeAll statements).2.table? table = some t' ∧
        t'.columns.map Column.declared = t.columns.map Column.declared) ∧
    ∀ (s' : Statement) (other : String), s'.tableName? = some other → other ≠ name →
      ((db.execute s').2.execute s).1 = (db.execute s).1 ∧
        ((db.execute s).2.execute s').1 = (db.execute s').1 ∧
        ((db.execute s).2.execute s').2 = ((db.execute s').2.execute s).2 := by
  have hacts := Statement.actsOn_tableName hs
  refine ⟨⟨hacts.outcome_eq hagree, hacts.table?_eq hagree⟩, ?_, ?_, ?_⟩
  · intro other hother
    exact ⟨hacts.table?_of_ne hother, hacts.table?_of_ne hother⟩
  · intro statements table t hfound
    exact hdb.declared_executeAll statements hfound
  · intro s' other hs' hother
    have hacts' := Statement.actsOn_tableName hs'
    exact ⟨hacts.outcome_behind hacts' hother, hacts'.outcome_behind hacts hother.symm,
      hacts.comm hacts' hother⟩

/-- A second table beside `stock`. -/
def createShelf : Statement :=
  .createTable ⟨⟨7, 0⟩, ⟨⟨7, 13⟩, "shelf"⟩, [⟨⟨⟨7, 20⟩, "row"⟩, .integer, false, none, true⟩]⟩

/-- One more row of `stock`, which takes the next number. -/
def restocking : Statement :=
  .insert ⟨⟨8, 0⟩, ⟨⟨8, 12⟩, "stock"⟩, [⟨⟨8, 19⟩, "label"⟩], [.literal ⟨8, 34⟩ (.string "late")]⟩

theorem restocking_commutes_with_createShelf :
    stock.Reachable ∧ restocking.tableName? = some "stock" ∧
      stock.table? "stock" = (stock.execute createShelf).2.table? "stock" ∧
      createShelf.tableName? = some "shelf" ∧ "shelf" ≠ "stock" ∧
      (stock.execute restocking).1.isOk ∧ (stock.execute createShelf).1.isOk ∧
      ((stock.execute createShelf).2.execute restocking).1 = (stock.execute restocking).1 ∧
      ((stock.execute restocking).2.execute createShelf).2 =
        ((stock.execute createShelf).2.execute restocking).2 := by
  have hagree : stock.table? "stock" = (stock.execute createShelf).2.table? "stock" := rfl
  have hother : "shelf" ≠ "stock" := by decide
  obtain ⟨-, -, -, hcomm⟩ :=
    statement_keeps_to_its_table stock_reachable (s := restocking) rfl hagree
  obtain ⟨houtcome, -, hfinal⟩ := hcomm createShelf "shelf" rfl hother
  exact ⟨stock_reachable, rfl, hagree, rfl, hother, rfl, rfl, houtcome, hfinal⟩

end PocketSql
