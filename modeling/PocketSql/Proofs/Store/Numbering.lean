import Mathlib
import PocketSql.Proofs.Store.Insertion
import PocketSql.Proofs.Store.Reachable

/-!
# Numbering of rows

A column with a counter numbers the rows that leave it out.  The insertion reads the
number before it writes anything and moves the counter on behind its last check, once
for each column that it leaves out.  So the counter of a column is one more than the
number of insertions that it has filled a cell for, in a run of any statements.
-/

namespace PocketSql

/-- Whether a statement inserts into a table and names columns of which the given one
is none. -/
def Statement.leavesOut (table column : String) : Statement → Bool
  | .insert s => s.table.name = table ∧ s.columns ≠ [] ∧ column ∉ s.columns.map Ident.name
  | _ => false

/-- The cell of a column in the last row. -/
def Table.lastCell? (t : Table) (column : String) : Option (Option Value) := do
  let row ← t.rows.getLast?
  row[← t.columnIndex? column]?

/-- What a run stores in a column of a table where an insertion leaves the column out:
the cell behind each such insertion that succeeds. -/
def Database.filledCells (db : Database) (table column : String) :
    List Statement → List (Option (Option Value))
  | [] => []
  | s :: rest =>
    let (outcome, db) := db.execute s
    let cells := db.filledCells table column rest
    if s.leavesOut table column ∧ outcome.isOk then
      (db.table? table).bind (·.lastCell? column) :: cells
    else cells

/-- The greatest number that a counter hands out. -/
def Column.lastNumber : Nat := 2 ^ 63 - 1

/-! ## Counters -/

namespace Column

variable {c : Column}

/-- The counter of a column that has numbered `count` rows. -/
def HasNumbered (c : Column) (count : Nat) : Prop :=
  c.next = Integer.ofInt? (count + 1)

theorem HasNumbered.advance {count : Nat} (hc : c.HasNumbered count) :
    c.advance.HasNumbered (count + 1) := by
  rw [HasNumbered] at hc
  rw [HasNumbered, Column.advance, hc, Integer.ofInt?, Integer.ofInt?]
  split
  · next hrange =>
    rw [Option.bind_some, Integer.add?, Int64.toInt_ofInt_of_le (by omega) (by omega)]
    have hone : (1 : Int64).toInt = 1 := rfl
    rw [hone, Integer.ofInt?]
    push_cast
    rfl
  · next hrange => rw [Option.bind_none, if_neg (by push_cast; omega)]

/-- What a counter fills a cell with, until the greatest number has been handed out. -/
theorem HasNumbered.fill {count : Nat} (hc : c.HasNumbered count) (hauto : c.autoIncrement = true) :
    c.fill = if count < lastNumber then .ok (some (.integer (Int64.ofNat (count + 1))))
      else .error .integerOverflow := by
  rw [HasNumbered, Integer.ofInt?] at hc
  rw [Column.fill, if_pos hauto, hc]
  by_cases hcount : count < lastNumber
  · have hrange : -9223372036854775808 ≤ (count : Int) + 1 ∧
        (count : Int) + 1 ≤ 9223372036854775807 := by
      rw [lastNumber] at hcount
      omega
    rw [if_pos hcount, if_pos hrange]
    rfl
  · have hrange : ¬(-9223372036854775808 ≤ (count : Int) + 1 ∧
        (count : Int) + 1 ≤ 9223372036854775807) := by
      rw [lastNumber] at hcount
      omega
    rw [if_neg hcount, if_neg hrange]

@[simp]
theorem autoIncrement_moveOn : c.moveOn.autoIncrement = c.autoIncrement := by
  rw [moveOn]
  split <;> rfl

theorem moveOn_of_autoIncrement (hauto : c.autoIncrement = true) : c.moveOn = c.advance := by
  rw [moveOn, if_pos hauto]

/-- A new column has numbered nothing. -/
theorem hasNumbered_of_columnsOf {definitions : List ColumnDefinition} {seen : List String}
    {columns : List Column} (hcolumns : columnsOf seen definitions = .ok columns)
    (hc : c ∈ columns) : c.HasNumbered 0 := by
  obtain ⟨d, -, hd⟩ := exists_of_mem_mapM (columnsOf_eq_ok.mp hcolumns).1 hc
  obtain ⟨_, _, _, rfl⟩ := ColumnDefinition.column_eq_ok.mp hd
  rfl

/-- A number stays the number that it is where the column takes it. -/
theorem accept_number (htype : c.type = .integer) (number : Int64) :
    c.accept (some (.integer number)) = .ok (some (.integer number)) := by
  rw [accept, htype]
  rfl

end Column

/-! ## Insertions and the columns they leave out -/

namespace Table

variable {t : Table}

/-- The targets of an insertion are the columns that it names, or all if it names none. -/
theorem mem_targets (hnames : t.columnNames.Nodup) {names : List String} {targets : List Nat}
    (htargets : t.targets names = .ok targets) {index : Nat} {c : Column}
    (hc : t.columns[index]? = some c) : index ∈ targets ↔ names = [] ∨ c.name ∈ names := by
  rw [Table.targets] at htargets
  split at htargets
  · next hempty =>
    cases htargets
    simpa [hempty] using (List.getElem?_eq_some_iff.mp hc).1
  · next hnonempty =>
    rw [mem_distinctIndices htargets]
    constructor
    · rintro ⟨name, hname, c', hfound⟩
      obtain ⟨hget, rfl⟩ := column?_eq_some hfound
      rw [hc] at hget
      cases hget
      exact .inr hname
    · rintro (hempty | hname)
      · exact absurd hempty hnonempty
      · exact ⟨c.name, hname, c, column?_of_getElem? hnames hc⟩

end Table

namespace Insert.Inserts

variable {s : Insert} {t t' : Table} {targets : List Nat} {row : Row}

/-- Behind an insertion, the counters of the columns that it leaves out have moved on. -/
theorem getElem?_columns (hinserts : s.Inserts t t' targets row) (index : Nat) :
    t'.columns[index]? =
      if index ∈ targets then t.columns[index]? else t.columns[index]?.map Column.moveOn := by
  rw [hinserts.table_eq, Table.push, Table.foldl_advanceAt_leftOut, List.getElem?_mapIdx]
  split
  · rw [Option.map_id_fun']
    rfl
  · rfl

theorem getLast?_rows (hinserts : s.Inserts t t' targets row) : t'.rows.getLast? = some row := by
  rw [hinserts.table_eq, Table.push, List.getLast?_concat]

/-- A column that is left out is filled. -/
theorem getElem?_row (hinserts : s.Inserts t t' targets row) {index : Nat} {c : Column}
    (hc : t.columns[index]? = some c) (hindex : index ∉ targets) :
    ∃ value cell, c.fill = .ok value ∧ c.accept value = .ok cell ∧ row[index]? = some cell := by
  obtain ⟨values, _, hrow⟩ := hinserts.row_eq
  obtain ⟨-, -, -, hcells⟩ := Table.newRow_eq_ok.mp hrow
  obtain ⟨value, cell, hoffers, haccept, hcell⟩ := hcells index c hc
  cases hoffers with
  | given hgiven => exact absurd (List.of_mem_zip (Table.mem_zip_of_given? hgiven)).1 hindex
  | filled _ hfill => exact ⟨value, cell, hfill, haccept, hcell⟩

end Insert.Inserts

/-! ## Steps -/

section Steps

variable {db db' : Database} {s : Statement} {outcome : Outcome} {table : String} {t : Table}

/-- A column as a statement leaves it: the counter moves on if a cell was filled. -/
def Column.behind (s : Statement) (outcome : Outcome) (table : String) (c : Column) : Column :=
  if s.leavesOut table c.name ∧ outcome.isOk then c.moveOn else c

@[simp]
theorem Column.name_behind (c : Column) : (c.behind s outcome table).name = c.name := by
  rw [Column.behind]
  split
  · exact c.name_moveOn
  · rfl

/-- A statement that fills no cell of a table leaves its counters. -/
theorem Column.map_behind_eq_self (hs : ∀ column, ¬(s.leavesOut table column ∧ outcome.isOk))
    (columns : List Column) : columns.map (Column.behind s outcome table) = columns :=
  calc
    columns.map (Column.behind s outcome table) = columns.map id :=
      List.map_congr_left fun c _ => if_neg (hs c.name)
    _ = columns := List.map_id columns

theorem Insert.Inserts.columns_eq {s : Insert} {t' : Table} {targets : List Nat} {row : Row}
    (hinserts : s.Inserts t t' targets row) (hnames : t.columnNames.Nodup) :
    t'.columns = t.columns.map (Column.behind (.insert s) (.ok none) s.table.name) := by
  apply List.ext_getElem?
  intro index
  rw [hinserts.getElem?_columns, List.getElem?_map]
  cases hc : t.columns[index]? with
  | none => simp
  | some c =>
      have htarget := Table.mem_targets hnames hinserts.targets_eq hc
      have hbehind : (Statement.insert s).leavesOut s.table.name c.name = true ↔
          index ∉ targets := by
        rw [htarget]
        simp [Statement.leavesOut]
      by_cases hmem : index ∈ targets
      · simp [Column.behind, hbehind, hmem]
      · simp [Column.behind, hbehind, hmem, Except.isOk, Except.toBool]

/-- What a statement makes of the columns of a table. -/
theorem Database.Effect.columns_eq (hdb : db.Valid) (heffect : db.Effect s outcome db')
    (ht : db.table? table = some t) :
    ∃ t', db'.table? table = some t' ∧
      t'.columns = t.columns.map (Column.behind s outcome table) := by
  have unchanged (hs : ∀ column, ¬(s.leavesOut table column ∧ outcome.isOk)) :
      t.columns = t.columns.map (Column.behind s outcome table) :=
    (Column.map_behind_eq_self hs t.columns).symm
  cases heffect with
  | failure => exact ⟨t, ht, unchanged fun _ ⟨_, hok⟩ => by cases hok⟩
  | answer => exact ⟨t, ht, unchanged fun _ ⟨hs, _⟩ => by cases hs⟩
  | @creation s columns hfree hcolumns =>
      refine ⟨t, ?_, unchanged fun _ ⟨hs, _⟩ => by cases hs⟩
      have hother : s.table.name ≠ table := by
        rintro rfl
        rw [ht] at hfree
        cases hfree
      exact (db.table?_set s.table.name _ table).trans (if_neg hother) |>.trans ht
  | @insertion s u u' targets row hfound hinserts =>
      rw [table?_set]
      by_cases hname : s.table.name = table
      · subst hname
        cases hfound.symm.trans ht
        rw [if_pos rfl]
        exact ⟨u', rfl, hinserts.columns_eq (hdb _ _ ht).2.names⟩
      · rw [if_neg hname]
        refine ⟨t, ht, unchanged fun _ ⟨hs, _⟩ => ?_⟩
        simp [Statement.leavesOut, hname] at hs
  | @update s u u' hfound hcolumns | @deletion s u u' hfound hcolumns =>
      rw [table?_set]
      by_cases hname : s.table.name = table
      · subst hname
        cases hfound.symm.trans ht
        rw [if_pos rfl]
        exact ⟨u', rfl, hcolumns.trans (unchanged fun _ ⟨hs, _⟩ => by cases hs)⟩
      · rw [if_neg hname]
        exact ⟨t, ht, unchanged fun _ ⟨hs, _⟩ => by cases hs⟩

/-- An insertion that fills a cell finds its table. -/
theorem Database.Effect.inserts_of_leavesOut {column : String}
    (heffect : db.Effect s outcome db') (hs : s.leavesOut table column) (hok : outcome.isOk) :
    ∃ insertion t t' targets row, s = .insert insertion ∧ db.table? table = some t ∧
      db'.table? table = some t' ∧ insertion.Inserts t t' targets row := by
  cases heffect with
  | failure => cases hok
  | answer | creation | update | deletion => cases hs
  | @insertion insertion t t' targets row hfound hinserts =>
      have hname : insertion.table.name = table := by
        simp only [Statement.leavesOut, decide_eq_true_eq] at hs
        exact hs.1
      subst hname
      refine ⟨insertion, t, t', targets, row, rfl, hfound, ?_, hinserts⟩
      rw [table?_set, if_pos rfl]

/-- The cell that an insertion fills is the number that the counter was at. -/
theorem Database.Effect.lastCell?_eq (hdb : db.Valid) (heffect : db.Effect s outcome db')
    (ht : db.table? table = some t) {c : Column} (hc : c ∈ t.columns)
    (hauto : c.autoIncrement = true) (hs : s.leavesOut table c.name) (hok : outcome.isOk) :
    ∃ number, c.next = some number ∧
      (db'.table? table).bind (·.lastCell? c.name) = some (some (.integer number)) := by
  obtain ⟨insertion, u, t', targets, row, rfl, hfound, hfound', hinserts⟩ :=
    heffect.inserts_of_leavesOut hs hok
  cases hfound.symm.trans ht
  have hvalid := (hdb _ _ ht).2
  obtain ⟨index, hindex, rfl⟩ := List.mem_iff_getElem.mp hc
  have hget := List.getElem?_eq_getElem hindex
  have hnotTarget : index ∉ targets := by
    rw [Table.mem_targets hvalid.names hinserts.targets_eq hget]
    simp only [Statement.leavesOut, decide_eq_true_eq] at hs
    simpa using hs.2
  obtain ⟨value, cell, hfill, haccept, hcell⟩ := hinserts.getElem?_row hget hnotTarget
  rw [Column.fill, if_pos hauto] at hfill
  split at hfill
  · next number hnext =>
    cases hfill
    have htype := (hvalid.columns _ hc).counter_type hauto
    rw [Column.accept_number htype] at haccept
    cases haccept
    have hnames : t'.columnNames = t.columnNames := by
      simp [Table.columnNames, hinserts.columns_eq hvalid.names]
    have hcolumn : t'.columns[index]? = some t.columns[index].moveOn := by
      rw [hinserts.getElem?_columns, if_neg hnotTarget, hget, Option.map_some]
    have hfoundColumn := Table.column?_of_getElem? (hnames ▸ hvalid.names) hcolumn
    rw [Column.name_moveOn] at hfoundColumn
    refine ⟨number, hnext, ?_⟩
    simp [hfound', Table.lastCell?, hinserts.getLast?_rows, Table.columnIndex?, hfoundColumn, hcell]
  · cases hfill

/-- A table that is created begins to count. -/
theorem Database.Effect.hasNumbered_of_new {t' : Table} (heffect : db.Effect s outcome db')
    (hnone : db.table? table = none) (ht' : db'.table? table = some t') :
    ∀ c ∈ t'.columns, c.HasNumbered 0 := by
  cases heffect with
  | failure | answer =>
      rw [hnone] at ht'
      cases ht'
  | @creation s columns hfree hcolumns =>
      rw [Database.put, table?_set] at ht'
      split at ht'
      · cases ht'
        exact fun c hc => Column.hasNumbered_of_columnsOf hcolumns hc
      · rw [hnone] at ht'
        cases ht'
  | @insertion s u u' _ _ hfound | @update s u u' hfound | @deletion s u u' hfound =>
      rw [table?_set] at ht'
      split at ht'
      · next hname =>
        subst hname
        rw [hnone] at hfound
        cases hfound
      · rw [hnone] at ht'
        cases ht'

end Steps

/-! ## Runs -/

section Runs

variable {table column : String}

theorem Database.filledCells_append (db : Database) (front back : List Statement) :
    db.filledCells table column (front ++ back) =
      db.filledCells table column front ++
        (db.executeAll front).2.filledCells table column back := by
  induction front generalizing db with
  | nil => rfl
  | cons s front ih =>
      simp only [List.cons_append, filledCells, executeAll, ih]
      split <;> rfl

theorem Database.filledCells_singleton (db : Database) (s : Statement) :
    db.filledCells table column [s] =
      if s.leavesOut table column ∧ (db.execute s).1.isOk then
        [((db.execute s).2.table? table).bind (·.lastCell? column)]
      else [] := by
  rfl

/-- The numbers that a counter hands out first. -/
def numbers (count : Nat) : List (Option (Option Value)) :=
  (List.range count).map fun k => some (some (.integer (Int64.ofNat (k + 1))))

theorem numbers_succ (count : Nat) :
    numbers (count + 1) = numbers count ++ [some (some (.integer (Int64.ofNat (count + 1))))] := by
  simp [numbers, List.range_succ]

/-- The counter of a column has handed out the numbers that stand in the cells. -/
structure Column.Counts (c : Column) (cells : List (Option (Option Value))) : Prop where
  cells_eq : cells = numbers cells.length
  le_last : cells.length ≤ Column.lastNumber
  counter : c.HasNumbered cells.length

theorem Column.Counts.nil {c : Column} (hc : c.HasNumbered 0) : c.Counts [] where
  cells_eq := rfl
  le_last := Nat.zero_le _
  counter := hc

theorem Column.Counts.advance {c : Column} {cells : List (Option (Option Value))} {number : Int64}
    (hc : c.Counts cells) (hnext : c.next = some number) :
    c.advance.Counts (cells ++ [some (some (.integer number))]) := by
  have hnumber : cells.length + 1 ≤ lastNumber ∧ number = Int64.ofNat (cells.length + 1) := by
    have hcounter := hc.counter
    rw [HasNumbered, hnext, Integer.ofInt?] at hcounter
    split at hcounter
    · next hrange =>
      cases hcounter
      exact ⟨by rw [lastNumber]; omega, rfl⟩
    · cases hcounter
  have hlength : (cells ++ [some (some (Value.integer number))]).length = cells.length + 1 := by
    simp
  refine ⟨?_, hlength ▸ hnumber.1, hlength ▸ hc.counter.advance⟩
  rw [hlength, numbers_succ, ← hc.cells_eq, hnumber.2]

/-- The invariant of a run: before a table is created no cell of it is filled, and from
then on the counter of a column has handed out what stands in the filled cells. -/
theorem Database.counts_executeAll (statements : List Statement) :
    ((Database.empty.executeAll statements).2.table? table = none →
        Database.empty.filledCells table column statements = []) ∧
      ∀ t c, (Database.empty.executeAll statements).2.table? table = some t → c ∈ t.columns →
        c.name = column → c.autoIncrement = true →
          c.Counts (Database.empty.filledCells table column statements) := by
  induction statements using List.reverseRecOn with
  | nil =>
      refine ⟨fun _ => rfl, fun t c hfound => ?_⟩
      simp [executeAll, Database.empty, table?] at hfound
  | append_singleton front s ih =>
      obtain ⟨ihnone, ihsome⟩ := ih
      have hvalid := (Reachable.empty.executeAll front).valid
      rw [filledCells_append, filledCells_singleton, executeAll_append]
      generalize Database.empty.filledCells table column front = cells at ihnone ihsome ⊢
      generalize (Database.empty.executeAll front).2 = db at hvalid ihnone ihsome ⊢
      have heffect := hvalid.effect s
      simp only [executeAll]
      generalize (db.execute s).1 = outcome at heffect ⊢
      generalize (db.execute s).2 = db' at heffect ⊢
      cases hfound : db.table? table with
      | none =>
          have hnotFilled : ¬(s.leavesOut table column ∧ outcome.isOk) := by
            rintro ⟨hs, hok⟩
            obtain ⟨_, _, _, _, _, _, hfound', _⟩ := heffect.inserts_of_leavesOut hs hok
            rw [hfound] at hfound'
            cases hfound'
          rw [if_neg hnotFilled, ihnone hfound]
          refine ⟨fun _ => rfl, fun t' c ht' hc _ _ => ?_⟩
          exact .nil (heffect.hasNumbered_of_new hfound ht' c hc)
      | some t =>
          obtain ⟨t', hfound', hcolumns⟩ := heffect.columns_eq hvalid hfound
          rw [hfound']
          refine ⟨fun hnone => absurd hnone (Option.some_ne_none _), ?_⟩
          rintro _ c' ⟨⟩ hc' hname hauto
          rw [hcolumns] at hc'
          obtain ⟨c, hc, rfl⟩ := List.mem_map.mp hc'
          rw [Column.name_behind] at hname
          subst hname
          by_cases hfilled : s.leavesOut table c.name ∧ outcome.isOk
          · have hbehind : c.behind s outcome table = c.moveOn := if_pos hfilled
            rw [hbehind, Column.autoIncrement_moveOn] at hauto
            obtain ⟨number, hnext, hcell⟩ :=
              heffect.lastCell?_eq hvalid hfound hc hauto hfilled.1 hfilled.2
            rw [hfound'] at hcell
            rw [hbehind, Column.moveOn_of_autoIncrement hauto, if_pos hfilled, hcell]
            exact (ihsome t c hfound hc rfl hauto).advance hnext
          · have hbehind : c.behind s outcome table = c := if_neg hfilled
            rw [hbehind] at hauto ⊢
            rw [if_neg hfilled, List.append_nil]
            exact ihsome t c hfound hc rfl hauto

end Runs

/-! ## The numbering -/

/-- Let `n` insertions of a run from the empty database have filled a counted column.
They have stored the numbers from one to `n`, each the one after the last.  The counter
hands out `n + 1` next, or overflows once the greatest number has been handed out; then
every insertion that leaves the column out fails and changes nothing.  A statement that
fills no cell of the column leaves it as it is, with its counter. -/
theorem counter_numbers_rows {statements : List Statement} {db : Database} {table : String}
    {t : Table} {c : Column} (hdb : (Database.empty.executeAll statements).2 = db)
    (hfound : db.table? table = some t) (hc : c ∈ t.columns) (hauto : c.autoIncrement = true) :
    ∃ n, Database.empty.filledCells table c.name statements =
        ((List.range n).map fun k => some (some (.integer (Int64.ofNat (k + 1))))) ∧
      n ≤ Column.lastNumber ∧
      c.fill = (if n < Column.lastNumber then .ok (some (.integer (Int64.ofNat (n + 1))))
        else .error .integerOverflow) ∧
      (n = Column.lastNumber → ∀ s : Statement, s.leavesOut table c.name →
        ∃ e, db.execute s = (.error e, db)) ∧
      ∀ s : Statement, ¬(s.leavesOut table c.name ∧ (db.execute s).1.isOk) →
        ∃ t', (db.execute s).2.table? table = some t' ∧ c ∈ t'.columns := by
  have hvalid : db.Valid := hdb ▸ (Database.Reachable.empty.executeAll statements).valid
  have hcounts := (Database.counts_executeAll statements).2 t c (hdb ▸ hfound) hc rfl hauto
  have hfill := hcounts.counter.fill hauto
  refine ⟨_, hcounts.cells_eq, hcounts.le_last, hfill, ?_, ?_⟩
  · intro hlast s hs
    rw [hlast, if_neg (lt_irrefl _)] at hfill
    cases hexecute : (db.execute s).1 with
    | error e => exact ⟨e, Prod.ext hexecute (hvalid.eq_of_execute_error (Prod.ext hexecute rfl))⟩
    | ok result =>
        have hok : (db.execute s).1.isOk = true := by
          rw [hexecute]
          rfl
        obtain ⟨number, hnext, -⟩ :=
          (hvalid.effect s).lastCell?_eq hvalid hfound hc hauto hs hok
        rw [Column.fill, if_pos hauto, hnext] at hfill
        cases hfill
  · intro s hs
    obtain ⟨t', hfound', hcolumns⟩ := (hvalid.effect s).columns_eq hvalid hfound
    refine ⟨t', hfound', ?_⟩
    rw [hcolumns]
    exact List.mem_map.mpr ⟨c, hc, if_neg hs⟩

/-- After the two rows of `stockStatements`, an update fails, all rows are deleted and
one more row is numbered. -/
def restockStatements : List Statement :=
  stockStatements ++ [failingUpdate,
    .delete ⟨⟨5, 0⟩, ⟨⟨5, 12⟩, "stock"⟩, none⟩,
    .insert ⟨⟨6, 0⟩, ⟨⟨6, 12⟩, "stock"⟩, [⟨⟨6, 19⟩, "label"⟩], [.literal ⟨6, 34⟩ (.string "last")]⟩]

/-- The numbered column behind them. -/
def restockedColumn : Column :=
  ⟨"id", .integer, none, false, true, some 3⟩

def restockedTable : Table :=
  { name := "stock"
    columns := [restockedColumn, ⟨"label", .string, some (.string "new"), true, false, some 1⟩]
    rows := [[some (.integer 2), some (.string "last")]] }

theorem restocked_column_numbers_rows :
    (Database.empty.executeAll restockStatements).2.table? "stock" = some restockedTable ∧
      restockedColumn ∈ restockedTable.columns ∧ restockedColumn.autoIncrement = true ∧
      ∃ n, Database.empty.filledCells "stock" "id" restockStatements =
          ((List.range n).map fun k => some (some (.integer (Int64.ofNat (k + 1))))) ∧ n = 2 := by
  have hfound : (Database.empty.executeAll restockStatements).2.table? "stock" =
      some restockedTable := rfl
  have hc : restockedColumn ∈ restockedTable.columns := List.mem_cons_self
  obtain ⟨n, hcells, -⟩ := counter_numbers_rows rfl hfound hc rfl
  refine ⟨hfound, hc, rfl, n, hcells, ?_⟩
  have hlength := congrArg List.length hcells
  rw [List.length_map, List.length_range] at hlength
  exact hlength.symm

end PocketSql
