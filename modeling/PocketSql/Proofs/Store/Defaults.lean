import Mathlib
import PocketSql.Proofs.Store.Footprint
import PocketSql.Proofs.Store.Placement

/-!
# Columns left out and their defaults

A column that has no counter holds its default in the rows that leave it out.  An insertion
may as well give the expression of the default for the column: it has the value that it had
when the table was created, and a value that has been converted to the type of the column is
converted to itself.
-/

namespace PocketSql

/-- The column is one that the definition makes, at whatever number its counter is. -/
structure ColumnDefinition.Declares (d : ColumnDefinition) (c : Column) : Prop where
  name_eq : c.name = d.name.name
  type_eq : c.type = d.type
  default_eq : d.defaultValue = .ok c.default
  autoIncrement_eq : c.autoIncrement = d.autoIncrement

/-- The expression of the default, which is a null where there is none. -/
def ColumnDefinition.defaultExpr (d : ColumnDefinition) : Expr :=
  d.default.getD (.literal d.name.position .null)

/-- The insertion with one more column, for which it gives the expression of its default. -/
def Insert.withDefault (s : Insert) (d : ColumnDefinition) (place : Position → Position) :
    Insert :=
  { s with
    columns := s.columns ++ [d.name.move place]
    values := s.values ++ [d.defaultExpr.move place] }

/-! ## Definitions and their columns -/

namespace ColumnDefinition

variable {d : ColumnDefinition} {c c' : Column}

theorem exists_declares {definitions : List ColumnDefinition} {seen : List String}
    {columns : List Column} (hcolumns : columnsOf seen definitions = .ok columns)
    (hd : d ∈ definitions) : ∃ c ∈ columns, d.Declares c := by
  obtain ⟨index, hindex⟩ := List.mem_iff_getElem?.mp hd
  obtain ⟨c, hc, hcolumn⟩ := getElem?_of_mapM (columnsOf_eq_ok.mp hcolumns).1 hindex
  obtain ⟨default, hdefault, -, rfl⟩ := column_eq_ok.mp hcolumn
  exact ⟨_, List.mem_of_getElem? hc, rfl, rfl, hdefault, rfl⟩

namespace Declares

theorem of_declared (hd : d.Declares c) (hsame : c'.declared = c.declared) : d.Declares c' where
  name_eq := (congrArg Column.name hsame).trans hd.name_eq
  type_eq := (congrArg Column.type hsame).trans hd.type_eq
  default_eq := by
    have hdefault : c'.declared.default = c.declared.default := by rw [hsame]
    exact hd.default_eq.trans (congrArg Except.ok hdefault.symm)
  autoIncrement_eq := (congrArg Column.autoIncrement hsame).trans hd.autoIncrement_eq

/-- The column takes the value of the expression as it takes the default. -/
theorem accept_defaultExpr (hd : d.Declares c) :
    ∃ value, d.defaultExpr.eval .empty = .ok value ∧ c.accept value = c.accept c.default := by
  have hdefault := hd.default_eq
  rw [ColumnDefinition.defaultValue] at hdefault
  rw [defaultExpr]
  cases hcase : d.default with
  | none =>
      rw [hcase] at hdefault
      exact ⟨none, rfl, by rw [← Except.ok.inj hdefault]⟩
  | some e =>
      simp only [hcase] at hdefault
      obtain ⟨value, hvalue, hrest⟩ := bind_eq_ok.mp hdefault
      refine ⟨value, hvalue, ?_⟩
      cases value with
      | none => rw [← Except.ok.inj hrest]
      | some v =>
          obtain ⟨w, hcast, hw⟩ := bind_eq_ok.mp hrest
          have hcast := orCastFault_eq_ok.mp (faultAt_eq_ok.mp hcast)
          have hholds : c.Holds (some w) := (Value.dataType_of_cast hcast).trans hd.type_eq.symm
          rw [← Except.ok.inj hw, Column.accept_of_holds hholds, Column.accept, hd.type_eq, hcast]
          rfl

end Declares

end ColumnDefinition

/-! ## One more target -/

namespace Table

variable {t : Table} {targets : List Nat} {values : List (Option Value)} {c : Column} {index : Nat}
  {value : Option Value}

/-- A name behind the others is looked up behind them. -/
theorem distinctIndices_concat {name : String} (hfound : t.column? name = some (c, index))
    {names : List String} (hname : name ∉ names) {seen : List Nat} (hseen : index ∉ seen) :
    t.distinctIndices seen (names ++ [name]) =
      (t.distinctIndices seen names).map (· ++ [index]) := by
  induction names generalizing seen with
  | nil =>
      have hcolumn := findColumn_eq_ok.mpr hfound
      simp only [List.nil_append, distinctIndices, hcolumn, bind, Except.bind, if_neg hseen]
      rfl
  | cons first names ih =>
      obtain ⟨hfirst, hothers⟩ := not_or.mp (mt List.mem_cons.mpr hname)
      rw [List.cons_append, distinctIndices, distinctIndices]
      cases hcolumn : t.findColumn first with
      | error fault => rfl
      | ok found =>
          obtain ⟨c', index'⟩ := found
          have hdifferent : index ≠ index' := by
            rintro rfl
            obtain ⟨hget, rfl⟩ := column?_eq_some hfound
            obtain ⟨hget', rfl⟩ := column?_eq_some (findColumn_eq_ok.mp hcolumn)
            cases hget.symm.trans hget'
            exact hfirst rfl
          simp only [bind, Except.bind]
          by_cases hmem : index' ∈ seen
          · rw [if_pos hmem, if_pos hmem]
            rfl
          · have hseen' := List.not_mem_cons_of_ne_of_not_mem hdifferent hseen
            rw [if_neg hmem, if_neg hmem, ih hothers hseen']
            cases t.distinctIndices (index' :: seen) names <;> rfl

section Concat

variable (hlength : targets.length = values.length) (hc : t.columns[index]? = some c)
  (hauto : c.autoIncrement = false) (hindex : index ∉ targets)

include hc hauto

theorem leftOut_concat :
    (t.leftOut (targets ++ [index])).foldl advanceAt t = (t.leftOut targets).foldl advanceAt t := by
  have hcolumns : (t.columns.mapIdx fun place c =>
      if place ∈ targets ++ [index] then c else c.moveOn) =
      t.columns.mapIdx fun place c => if place ∈ targets then c else c.moveOn := by
    refine List.mapIdx_eq_mapIdx_iff.mpr fun place hplace => ?_
    by_cases hsame : place = index
    · subst hsame
      obtain ⟨_, rfl⟩ := List.getElem?_eq_some_iff.mp hc
      have hstays : t.columns[place].moveOn = t.columns[place] := by
        rw [Column.moveOn, if_neg (Bool.eq_false_iff.mp hauto)]
      rw [hstays, ite_self, ite_self]
    · simp [hsame]
  rw [foldl_advanceAt_leftOut, foldl_advanceAt_leftOut, hcolumns]

include hindex

theorem getElem?_newCells {cells : Row} (hcells : t.newCells targets values = .ok cells) :
    cells[index]? = some c.default := by
  obtain ⟨value, hoffers, hcell⟩ := (newCells_eq_ok.mp hcells).2 index c hc
  cases hoffers with
  | given hgiven => exact absurd (List.of_mem_zip (mem_zip_of_given? hgiven)).1 hindex
  | filled _ hfill =>
      rw [Column.fill, if_neg (Bool.eq_false_iff.mp hauto)] at hfill
      rw [hcell, Except.ok.inj hfill]

include hlength

theorem newCells_concat :
    t.newCells (targets ++ [index]) (values ++ [value]) =
      (t.newCells targets values).map (·.set index value) := by
  -- To fill the column never fails, so the first fault is the same with the value given.
  refine mapM_set ?_ ?_
  · rintro ⟨_, _⟩ hplace
    rw [List.getElem?_zipIdx, hc, Option.map_some, Nat.zero_add] at hplace
    cases hplace
    dsimp only
    rw [given?_concat hlength, if_pos rfl, given?_eq_none hindex]
    exact ⟨rfl, c.default, Column.fill_eq_ok.mpr (.default hauto)⟩
  · rintro place ⟨_, _⟩ hplace hother
    rw [List.getElem?_zipIdx, Nat.zero_add] at hplace
    obtain ⟨_, _, heq⟩ := Option.map_eq_some_iff.mp hplace
    cases heq
    dsimp only
    rw [given?_concat hlength, if_neg hother]

end Concat

/-- A cell that its column takes alike makes no difference to the row. -/
theorem acceptRow_set {cells : Row} {cell : Option Value} (hc : t.columns[index]? = some c)
    (hcell : cells[index]? = some cell) (hsame : c.accept value = c.accept cell) :
    t.acceptRow (cells.set index value) = t.acceptRow cells := by
  rw [acceptRow, acceptRow]
  generalize t.columns = columns at hc
  induction columns generalizing cells index with
  | nil => cases hc
  | cons first columns ih =>
      cases cells with
      | nil => cases hcell
      | cons head cells =>
          cases index with
          | zero =>
              cases hc
              cases hcell
              simp only [List.set_cons_zero, List.zip_cons_cons, List.mapM_cons, hsame]
          | succ index =>
              have hrest := @ih index cells hcell hc
              rw [List.set_cons_succ, List.zip_cons_cons, List.zip_cons_cons, List.mapM_cons,
                List.mapM_cons, hrest]

theorem newRow_concat (hlength : targets.length = values.length)
    (hc : t.columns[index]? = some c) (hauto : c.autoIncrement = false) (hindex : index ∉ targets)
    (hsame : c.accept value = c.accept c.default) :
    t.newRow (targets ++ [index]) (values ++ [value]) = t.newRow targets values := by
  have hinside : ¬t.columns.length ≤ index := not_le.mpr (List.getElem?_eq_some_iff.mp hc).1
  have hoff : (targets ++ [index]).find? (t.columns.length ≤ ·) =
      targets.find? (t.columns.length ≤ ·) := by
    simp [List.find?_append, hinside]
  have hlength' : (targets ++ [index]).length = (values ++ [value]).length := by simp [hlength]
  rw [newRow, newRow, hoff, newCells_concat hlength hc hauto hindex, if_neg (not_not.mpr hlength),
    if_neg (not_not.mpr hlength')]
  cases targets.find? (t.columns.length ≤ ·) with
  | some other => rfl
  | none =>
      cases hcells : t.newCells targets values with
      | error fault => rfl
      | ok cells =>
          exact acceptRow_set hc (getElem?_newCells hc hauto hindex hcells) hsame

end Table

/-! ## Insertions -/

/-- The last expression is evaluated behind the others. -/
theorem mapM_eval_concat {es : List Expr} {e : Expr} {value : Option Value}
    (heval : e.eval .empty = .ok value) :
    (es ++ [e]).mapM (Expr.eval .empty) =
      (es.mapM (Expr.eval .empty)).map (· ++ [value]) := by
  rw [List.mapM_append, List.mapM_cons, heval, List.mapM_nil]
  cases es.mapM (Expr.eval .empty) <;> rfl

theorem Insert.work_withDefault {s : Insert} {t : Table} (ht : t.Valid) {d : ColumnDefinition}
    {c : Column} (hc : c ∈ t.columns) (hd : d.Declares c) (hauto : d.autoIncrement = false)
    (hsome : s.columns ≠ []) (hlength : s.columns.length = s.values.length)
    (hleftOut : d.name.name ∉ s.columns.map Ident.name) (place : Position → Position) :
    (s.withDefault d place).work t = s.work t := by
  obtain ⟨index, hindex⟩ := List.mem_iff_getElem?.mp hc
  have hfound : t.column? d.name.name = some (c, index) :=
    hd.name_eq ▸ Table.column?_of_getElem? ht.names hindex
  obtain ⟨value, heval, haccept⟩ := hd.accept_defaultExpr
  have hmoved : (d.defaultExpr.move place).eval .empty = .ok value := by
    rw [Expr.eval_move place .empty d.defaultExpr, heval]
    rfl
  have hnames : s.columns.map Ident.name ≠ [] := by simpa using hsome
  have htargets : t.targets ((s.withDefault d place).columns.map Ident.name) =
      (t.targets (s.columns.map Ident.name)).map (· ++ [index]) := by
    rw [withDefault, List.map_append, List.map_singleton, Table.targets, Table.targets,
      if_neg hnames, if_neg (List.append_ne_nil_of_left_ne_nil hnames _)]
    exact Table.distinctIndices_concat hfound hleftOut List.not_mem_nil
  have hvalues : (s.withDefault d place).values.mapM (Expr.eval .empty) =
      (s.values.mapM (Expr.eval .empty)).map (· ++ [value]) := mapM_eval_concat hmoved
  cases hcase : t.targets (s.columns.map Ident.name) with
  | error fault =>
      rw [hcase] at htargets
      rw [work_of_error htargets, work_of_error hcase]
      rfl
  | ok targets =>
      rw [hcase] at htargets
      have hcount : s.values.length = targets.length := by
        rw [Table.targets, if_neg hnames] at hcase
        simpa [hlength] using congrArg List.length (Table.distinctIndices_eq_ok.mp hcase).1
      have hcount' : (s.withDefault d place).values.length = (targets ++ [index]).length := by
        simp [withDefault, hcount]
      have hunnamed : index ∉ targets := by
        rw [Table.mem_targets ht.names hcase hindex, hd.name_eq]
        exact not_or.mpr ⟨hnames, hleftOut⟩
      have hstays : c.autoIncrement = false := hd.autoIncrement_eq.trans hauto
      rw [work_of_targets htargets hcount', work_of_targets hcase hcount, hvalues]
      cases hevals : s.values.mapM (Expr.eval .empty) with
      | error e => rfl
      | ok values =>
          have hrow : t.newRow (targets ++ [index]) (values ++ [value]) = t.newRow targets values :=
            Table.newRow_concat (hcount.symm.trans (length_of_mapM hevals)) hindex hstays hunnamed
              haccept
          simp only [Except.map, hrow, Table.leftOut_concat hindex hstays]
          rfl

/-- Behind the creation of a table, whatever is executed, there is a column for each of its
definitions. -/
theorem Database.Reachable.exists_column_later {db : Database} (hdb : db.Reachable)
    {creation : CreateTable} (hcreated : (db.execute (.createTable creation)).1.isOk)
    (later : List Statement) {d : ColumnDefinition} (hd : d ∈ creation.columns) :
    ∃ t, ((db.execute (.createTable creation)).2.executeAll later).2.table? creation.table.name =
      some t ∧ ∃ c ∈ t.columns, d.Declares c := by
  have heffect := hdb.valid.effect (.createTable creation)
  have hreachable := hdb.execute (.createTable creation)
  generalize (db.execute (.createTable creation)).1 = outcome,
    (db.execute (.createTable creation)).2 = db' at hcreated heffect hreachable ⊢
  cases heffect with
  | failure => cases hcreated
  | @creation _ columns _ hcolumns =>
      have hname : (Table.empty creation.table.name columns).name = creation.table.name := rfl
      have hnew : (db.put (Table.empty creation.table.name columns)).table? creation.table.name =
          some (Table.empty creation.table.name columns) := by
        rw [put, table?_set, if_pos hname]
      obtain ⟨c, hc, hdeclares⟩ := ColumnDefinition.exists_declares hcolumns hd
      obtain ⟨t, ht, hsame⟩ := hreachable.declared_executeAll later hnew
      have hmem : c.declared ∈ t.columns.map Column.declared := hsame ▸ List.mem_map_of_mem hc
      obtain ⟨c', hc', hdeclared⟩ := List.mem_map.mp hmem
      exact ⟨t, ht, c', hc', hdeclares.of_declared hdeclared⟩

/-- Of a column without a counter that a table was created with, an insertion that leaves it out
does what it does when it gives the expression of the default for it: it has the same outcome,
with the same error if it fails, and leaves the same database. -/
theorem leaving_out_is_writing_default {db : Database} (hdb : db.Reachable)
    {creation : CreateTable} (hcreated : (db.execute (.createTable creation)).1.isOk)
    (later : List Statement) {d : ColumnDefinition} (hd : d ∈ creation.columns)
    (hauto : d.autoIncrement = false) {s : Insert} (htable : s.table.name = creation.table.name)
    (hsome : s.columns ≠ []) (hlength : s.columns.length = s.values.length)
    (hleftOut : d.name.name ∉ s.columns.map Ident.name) (place : Position → Position) :
    ((db.execute (.createTable creation)).2.executeAll later).2.execute
        (.insert (s.withDefault d place)) =
      ((db.execute (.createTable creation)).2.executeAll later).2.execute (.insert s) := by
  obtain ⟨t, ht, c, hc, hdeclares⟩ := hdb.exists_column_later hcreated later hd
  rw [← htable] at ht
  have hvalid := (((hdb.execute (.createTable creation)).executeAll later).valid _ t ht).2
  rw [Database.execute_of_onTable (s := .insert (s.withDefault d place)) rfl ht,
    Database.execute_of_onTable (s := .insert s) rfl ht,
    Insert.work_withDefault hvalid hc hdeclares hauto hsome hlength hleftOut place]
  rfl

/-- The column `note STRING DEFAULT 1 + 2`. -/
def noteDefinition : ColumnDefinition :=
  ⟨⟨⟨1, 33⟩, "note"⟩, .string, true, some (.binary .plus (.literal ⟨1, 53⟩ (.integer 1))
    (.literal ⟨1, 57⟩ (.integer 2))), false⟩

/-- `CREATE TABLE shelf (row INTEGER, note STRING DEFAULT 1 + 2)`. -/
def shelving : CreateTable :=
  ⟨⟨1, 0⟩, ⟨⟨1, 13⟩, "shelf"⟩, [⟨⟨⟨1, 20⟩, "row"⟩, .integer, true, none, false⟩, noteDefinition]⟩

/-- `INSERT INTO shelf (row) VALUES (7)`. -/
def shelved : Insert :=
  ⟨⟨2, 0⟩, ⟨⟨2, 12⟩, "shelf"⟩, [⟨⟨2, 19⟩, "row"⟩], [.literal ⟨2, 32⟩ (.integer 7)]⟩

theorem shelved_with_note :
    (Database.empty.execute (.createTable shelving)).1.isOk ∧ noteDefinition ∈ shelving.columns ∧
      shelved.columns ≠ [] ∧ noteDefinition.name.name ∉ shelved.columns.map Ident.name ∧
      ((Database.empty.execute (.createTable shelving)).2.executeAll [.insert shelved]).2.execute
          (.insert (shelved.withDefault noteDefinition id)) =
        ((Database.empty.execute (.createTable shelving)).2.executeAll [.insert shelved]).2.execute
          (.insert shelved) ∧
      (((Database.empty.execute (.createTable shelving)).2.executeAll [.insert shelved]).2.execute
          (.insert shelved)).2.table? "shelf" = some
        { name := "shelf"
          columns := [⟨"row", .integer, none, true, false, some 1⟩,
            ⟨"note", .string, some (.string "3"), true, false, some 1⟩]
          rows := [[some (.integer 7), some (.string "3")],
            [some (.integer 7), some (.string "3")]] } := by
  have hnote : noteDefinition ∈ shelving.columns := List.mem_cons_of_mem _ List.mem_cons_self
  have hleftOut : noteDefinition.name.name ∉ shelved.columns.map Ident.name := by decide
  exact ⟨rfl, hnote, List.cons_ne_nil _ _, hleftOut,
    leaving_out_is_writing_default .empty rfl [.insert shelved] hnote rfl rfl
      (List.cons_ne_nil _ _) rfl hleftOut id, rfl⟩

end PocketSql
