import Mathlib
import PocketSql.Query.Session
import PocketSql.Proofs.Query.Literal
import PocketSql.Proofs.Query.WholeRows
import PocketSql.Proofs.Store.Insertion

/-!
# Round trips

A table is created, filled row by row and shown, all of it by texts.  What is shown are the
rows that the texts were written for.  On the way a cell becomes a literal, one or two tokens,
an expression, the value of the expression, and a cell of the stored table; each of these
steps has its own lemma, and here they are put together for the three statements.
-/

namespace PocketSql

open Parse (outcome)
open TokenStream

/-- The keyword that stands for a type in the definition of a column. -/
def DataType.keyword : DataType → Kind
  | boolean => .kwBoolean
  | integer => .kwInteger
  | number => .kwNumber
  | string => .kwVarchar
  | timestamp => .kwTimestamp

theorem DataType.ofKeyword?_keyword (type : DataType) : ofKeyword? type.keyword = some type := by
  cases type <;> rfl

theorem DataType.keyword_mem_keywords (type : DataType) : type.keyword ∈ Kind.keywords := by
  cases type <;> decide

/-- One column or more, each of which may be null, with different plain words as names. -/
structure Schema where
  columns : List (String × DataType)
  columns_ne_nil : columns ≠ []
  plain : ∀ c ∈ columns, IsPlainWord c.1.toList
  distinct : (columns.map Prod.fst).Nodup

namespace Schema

variable (schema : Schema)

def names : List String :=
  schema.columns.map Prod.fst

/-- The table of the schema that has these rows. -/
def table (name : String) (rows : List Row) : Table :=
  { name, columns := schema.columns.map fun c => Column.plain c.1 c.2, rows }

/-- Every cell is null, or it has a value of its column's type, for which there is a
literal. -/
def Fits (row : Row) : Prop :=
  List.Forall₂ (fun c cell => ∀ value ∈ cell, value.dataType = c.2 ∧ value.HasLiteral)
    schema.columns row

end Schema

/-! ## Texts of statements -/

def columnText (c : String × DataType) : String :=
  c.1 ++ " " ++ c.2.keyword.text

def Schema.creationText (schema : Schema) (table : String) : String :=
  "CREATE TABLE " ++ table ++ " (" ++ ", ".intercalate (schema.columns.map columnText) ++ ")"

def insertionText (table : String) (row : Row) : String :=
  "INSERT INTO " ++ table ++ " VALUES (" ++ ", ".intercalate (row.map cellText) ++ ")"

def selectionText (table : String) : String :=
  "SELECT * FROM " ++ table

example : insertionText "t"
      [some (.integer (-5)), some (.string "it's"), some (.boolean true), none] =
    "INSERT INTO t VALUES (-5, 'it''s', TRUE, NULL)" := by
  decide +kernel

/-- The characters of a text whose list of items ends it. -/
theorem toList_listText {α : Type} (front table middle : String) (item : α → String)
    (items : List α) :
    (front ++ table ++ middle ++ ", ".intercalate (items.map item) ++ ")").toList =
      front.toList ++ (table.toList ++ (middle.toList ++
        ([',', ' '].intercalate (items.map fun x => (item x).toList) ++ [')']))) := by
  simp only [String.toList_append, String.toList_intercalate, List.map_map, List.append_assoc]
  rfl

theorem spells_columnText {c : String × DataType} (hname : IsName c.1.toList) :
    Spells [(.identifier, c.1), (c.2.keyword, "")] (columnText c).toList := by
  have htext : (columnText c).toList = c.1.toList ++ ' ' :: c.2.keyword.text.toList := by
    rw [columnText, String.toList_append, String.toList_append, List.append_assoc]
    rfl
  rw [htext]
  exact (standsApart_name hname).spells.blank
    (standsApart_keyword c.2.keyword_mem_keywords).spells

section Texts

variable {table : String} (htable : IsName table.toList)

include htable

theorem written_creation {columns : List (Kind × String)} {spelling : List Char}
    (hcolumns : Spells columns spelling) :
    Written (creationTokens table columns)
      ("CREATE TABLE ".toList ++ (table.toList ++ (" (".toList ++ (spelling ++ [')'])))) := by
  have hname := hcolumns.enclosed.word (standsApart_name htable)
  exact (hname.keyword .kwTable (by decide)).keyword .kwCreate (by decide)

theorem written_insertion {values : List (Kind × String)} {spelling : List Char}
    (hvalues : Spells values spelling) :
    Written (insertionTokens table values)
      ("INSERT INTO ".toList ++ (table.toList ++ (" VALUES (".toList ++ (spelling ++ [')'])))) := by
  have hclause := hvalues.enclosed.keyword .kwValues (by decide)
  have hname := hclause.word (standsApart_name htable)
  exact (hname.keyword .kwInto (by decide)).keyword .kwInsert (by decide)

theorem written_selection :
    Written (selectionTokens table) ("SELECT * FROM ".toList ++ table.toList) := by
  have hname := (standsApart_name htable).spells [] [] setOff_nil written_nil
  simp only [List.append_nil] at hname
  have hstar := (hname.keyword .kwFrom (by decide)).blank.punctuation .star (by decide)
  exact hstar.keyword .kwSelect (by decide)

/-! ## Reading the texts -/

theorem parse_creation (schema : Schema) :
    ∃ position position' definitions,
      List.Forall₂ (fun c => DefinesPlainly c.1 c.2) schema.columns definitions ∧
      parse (schema.creationText table) =
        .ok [.createTable ⟨position, ⟨position', table⟩, definitions⟩] := by
  have hwritten := written_creation htable
    (spells_list fun c hc => spells_columnText (schema.plain c hc).isName)
  have htext : (schema.creationText table).toList = _ :=
    toList_listText "CREATE TABLE " table " (" columnText schema.columns
  rw [← htext] at hwritten
  exact statements_of_creation
    (consumes_list schema.columns_ne_nil fun c _ => consumes_column c.2.ofKeyword?_keyword)
    (hwritten .start)

theorem parse_insertion {row : Row} (hne : row ≠ [])
    (hrow : ∀ cell ∈ row, ∀ value ∈ cell, value.HasLiteral) :
    ∃ position position' es,
      List.Forall₂ (fun cell (e : Expr) => ∀ scope, e.eval scope = .ok cell) row es ∧
      parse (insertionText table row) = .ok [.insert ⟨position, ⟨position', table⟩, [], es⟩] := by
  have hcells : ∀ cell ∈ row, ReadsAs (cellText cell).toList cell := fun cell hcell =>
    readsAs_cellText (hrow cell hcell)
  choose! tokens hspells hconsumes using hcells
  have hwritten := written_insertion htable (spells_list hspells)
  have htext : (insertionText table row).toList = _ :=
    toList_listText "INSERT INTO " table " VALUES (" cellText row
  rw [← htext] at hwritten
  exact statements_of_insertion (consumes_list hne fun cell hcell =>
    (hconsumes cell hcell).mono (by decide)) (hwritten .start)

theorem parse_selection :
    ∃ position star name, parse (selectionText table) =
      .ok [.select ⟨position, [.star star], .ident ⟨name, table⟩, none⟩] := by
  have hwritten := written_selection htable
  rw [← String.toList_append] at hwritten
  exact statements_of_selection (hwritten .start)

end Texts

/-! ## Running the texts -/

namespace Schema

variable (schema : Schema) {table : String} {rows : List Row}

theorem columnsOf_eq {columns : List (String × DataType)} {definitions : List ColumnDefinition}
    (hdefinitions : List.Forall₂ (fun c => DefinesPlainly c.1 c.2) columns definitions)
    (hdistinct : (columns.map Prod.fst).Nodup) :
    columnsOf [] definitions = .ok (columns.map fun c => Column.plain c.1 c.2) := by
  have hnames : columns.map Prod.fst = definitions.map (·.name.name) := by
    rw [← List.forall₂_eq_eq_eq, List.forall₂_map_left_iff, List.forall₂_map_right_iff]
    exact hdefinitions.imp fun c d ⟨_, hd⟩ => by rw [hd]
  refine columnsOf_eq_ok.mpr ⟨mapM_eq_ok.mpr ?_, hnames ▸ hdistinct, List.disjoint_nil_left _⟩
  rw [List.forall₂_map_right_iff]
  exact hdefinitions.flip.imp fun d c ⟨_, hd⟩ => by
    rw [hd]
    rfl

theorem holds_of_fits {row : Row} (hrow : schema.Fits row) :
    List.Forall₂ Column.Holds (schema.table table rows).columns row := by
  rw [Schema.table, List.forall₂_map_left_iff]
  refine hrow.imp fun c cell hcell => ?_
  cases cell with
  | none => rfl
  | some value => exact (hcell value rfl).1

theorem hasLiteral_of_fits {row : Row} (hrow : schema.Fits row) :
    ∀ cell ∈ row, ∀ value ∈ cell, value.HasLiteral := by
  intro cell hcell value hvalue
  obtain ⟨index, hindex, rfl⟩ := List.mem_iff_getElem.mp hcell
  have hfits := (List.forall₂_iff_get.mp hrow).2 index (hrow.length_eq ▸ hindex) hindex
  exact (hfits value hvalue).2

theorem ne_nil_of_fits {row : Row} (hrow : schema.Fits row) : row ≠ [] := by
  rintro rfl
  exact schema.columns_ne_nil (List.forall₂_nil_right_iff.mp hrow)

theorem columnNames_table : (schema.table table rows).columnNames = schema.names := by
  rw [Table.columnNames, Schema.table, List.map_map]
  rfl

theorem valid_table (hrows : ∀ row ∈ rows, schema.Fits row) :
    (schema.table table rows).Valid where
  names := by
    rw [columnNames_table]
    exact schema.distinct
  columns := by
    intro c hc
    obtain ⟨⟨name, type⟩, -, rfl⟩ := List.mem_map.mp hc
    let d : ColumnDefinition := ⟨⟨.start, name⟩, type, true, none, false⟩
    have hcolumn : d.column = .ok (Column.plain name type) := rfl
    exact (ColumnDefinition.valid_of_column hcolumn).1
  rows := fun row hrow => schema.holds_of_fits (hrows row hrow)

end Schema

namespace Database

/-- Runs texts one after the other, whatever each of them answers. -/
def runBatches (db : Database) :
    List String → List (Except SessionError (List (Option QueryResult))) × Database
  | [] => ([], db)
  | text :: rest =>
    let (answer, db) := db.runBatch text
    let (answers, db) := db.runBatches rest
    (answer :: answers, db)

section Runs

variable {db : Database} {table : String} (htable : IsName table.toList) (schema : Schema)

theorem runBatch_of_statement {text : String} {s : Statement} {result : Option QueryResult}
    {db' : Database} (hparse : parse text = .ok [s]) (hs : db.execute s = (.ok result, db')) :
    db.runBatch text = (.ok [result], db') := by
  simp only [runBatch, hparse, executeUntilError, hs]

include htable

theorem runBatch_creation (hnew : db.table? table = none) :
    db.runBatch (schema.creationText table) =
      (.ok [none], db.set table (schema.table table [])) := by
  obtain ⟨position, position', definitions, hdefinitions, hparse⟩ := parse_creation htable schema
  have hcolumns : columnsOf [] definitions = .ok _ :=
    Schema.columnsOf_eq hdefinitions schema.distinct
  exact runBatch_of_statement hparse (execute_createTable hnew hcolumns)

/-- A row is added as it is. -/
theorem runBatch_insertion {rows : List Row}
    (hfound : db.table? table = some (schema.table table rows)) {row : Row}
    (hrow : schema.Fits row) :
    db.runBatch (insertionText table row) =
      (.ok [none], db.set table (schema.table table (rows ++ [row]))) := by
  obtain ⟨position, position', es, hes, hparse⟩ :=
    parse_insertion htable (schema.ne_nil_of_fits hrow) (schema.hasLiteral_of_fits hrow)
  have hvalues : es.mapM (Expr.eval .empty) = .ok row :=
    mapM_eq_ok.mpr (hes.flip.imp fun e cell he => he .empty)
  exact runBatch_of_statement hparse
    (execute_insert hfound rfl hvalues (schema.holds_of_fits hrow))

/-- By induction on the rows, with those that are stored already generalised. -/
theorem runBatches_insertions {stored rows : List Row}
    (hfound : db.table? table = some (schema.table table stored))
    (hrows : ∀ row ∈ rows, schema.Fits row) :
    db.runBatches (rows.map (insertionText table)) =
      (List.replicate rows.length (.ok [none]),
        db.set table (schema.table table (stored ++ rows))) := by
  induction rows generalizing db stored with
  | nil => simp [runBatches, set_self hfound]
  | cons row rows ih =>
      obtain ⟨hrow, hothers⟩ := List.forall_mem_cons.mp hrows
      have hbehind : (db.set table (schema.table table (stored ++ [row]))).table? table =
          some (schema.table table (stored ++ [row])) := by
        rw [table?_set, if_pos rfl]
      simp only [List.map_cons, runBatches, runBatch_insertion htable schema hfound hrow,
        ih hbehind hothers, set_set, List.append_assoc, List.singleton_append, List.length_cons,
        List.replicate_succ]

theorem query_selection {rows : List Row}
    (hfound : db.table? table = some (schema.table table rows))
    (hrows : ∀ row ∈ rows, schema.Fits row) :
    db.query (selectionText table) = (.ok ⟨schema.names, rows⟩, db) := by
  obtain ⟨position, star, name, hparse⟩ := parse_selection htable
  have hrun : Select.run ⟨position, [.star star], .ident ⟨name, table⟩, none⟩ db =
      .ok ⟨(schema.table table rows).columnNames, rows⟩ :=
    Select.run_star_all (schema.valid_table hrows) hfound position star
  rw [schema.columnNames_table] at hrun
  rw [query, hparse]
  simp only [execute_select, hrun]
  rfl

end Runs

end Database

/-- Literals survive: the texts that create a table and insert rows of literals into it all
succeed, and they leave the other tables as they are.  A query for the table shows the names
of its columns and exactly these rows, in their order, and changes nothing. -/
theorem inserted_literals_survive {table : String} (htable : IsPlainWord table.toList)
    {db : Database} (hnew : db.table? table = none) (schema : Schema) {rows : List Row}
    (hrows : ∀ row ∈ rows, schema.Fits row) :
    db.runBatches (schema.creationText table :: rows.map (insertionText table)) =
        (List.replicate (rows.length + 1) (.ok [none]), db.set table (schema.table table rows)) ∧
      (db.set table (schema.table table rows)).query (selectionText table) =
        (.ok ⟨schema.names, rows⟩, db.set table (schema.table table rows)) := by
  have hstored (rows : List Row) :
      (db.set table (schema.table table rows)).table? table = some (schema.table table rows) := by
    rw [Database.table?_set, if_pos rfl]
  constructor
  · have hinsertions :=
      Database.runBatches_insertions htable.isName schema (hstored []) hrows
    rw [Database.runBatches, Database.runBatch_creation htable.isName schema hnew]
    simp only [hinsertions, Database.set_set, List.nil_append, List.replicate_succ]
  · exact Database.query_selection htable.isName schema (hstored rows) hrows

section Example

/-- An integer, a text and a mark in every row. -/
def ledger : Schema where
  columns := [("id_1", .integer), ("note", .string), ("paid", .boolean)]
  columns_ne_nil := by simp
  plain := by
    have hid : IsPlainWord "id_1".toList := by decide +kernel
    have hnote : IsPlainWord "note".toList := by decide +kernel
    have hpaid : IsPlainWord "paid".toList := by decide +kernel
    simp only [List.forall_mem_cons]
    exact ⟨hid, hnote, hpaid, by simp⟩
  distinct := by decide

/-- The least integer that can be written, a text with quotes and a line break, and a row
of nulls. -/
def ledgerRows : List Row :=
  [[some (.integer (-9223372036854775807)), some (.string "it's\n''"), some (.boolean true)],
    [none, none, none]]

theorem ledger_survives :
    Database.empty.table? "t" = none ∧ (∀ row ∈ ledgerRows, ledger.Fits row) ∧
      ∃ filled,
        Database.empty.runBatches
            (ledger.creationText "t" :: ledgerRows.map (insertionText "t")) =
          ([.ok [none], .ok [none], .ok [none]], filled) ∧
        filled.query (selectionText "t") =
          (.ok ⟨["id_1", "note", "paid"], ledgerRows⟩, filled) := by
  have htable : IsPlainWord "t".toList := by decide +kernel
  have hnew : Database.empty.table? "t" = none := rfl
  have hinteger : (-9223372036854775807 : Int64) ≠ Int64.minValue := by decide
  have hstring : ¬['\r', '\n'] <:+: "it's\n''".toList := by decide +kernel
  have hrows : ∀ row ∈ ledgerRows, ledger.Fits row := by
    simp only [ledgerRows, List.forall_mem_cons]
    refine ⟨.cons ?_ (.cons ?_ (.cons ?_ .nil)), .cons ?_ (.cons ?_ (.cons ?_ .nil)), by simp⟩
    · rintro _ ⟨⟩
      exact ⟨rfl, hinteger⟩
    · rintro _ ⟨⟩
      exact ⟨rfl, hstring⟩
    · rintro _ ⟨⟩
      exact ⟨rfl, trivial⟩
    all_goals rintro _ ⟨⟩
  obtain ⟨hrun, hquery⟩ := inserted_literals_survive htable hnew ledger hrows
  exact ⟨hnew, hrows, _, hrun, hquery⟩

end Example

end PocketSql
