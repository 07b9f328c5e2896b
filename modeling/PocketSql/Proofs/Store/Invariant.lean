import Mathlib
import PocketSql.Proofs.Outcome
import PocketSql.Proofs.Store.InPlace

/-!
# Valid storage

The invariant of the store.  A table stands under its own name, its columns have
different names, every row has one cell for each column, and every cell and every
default fits its column.  Each way of writing to a table, and the creation of one,
is shown to keep it.
-/

namespace PocketSql

/-- What a cell of a column may hold: a value of the column's type, or null if the
column allows it. -/
def Column.Holds (c : Column) : Option Value → Prop
  | some value => value.dataType = c.type
  | none => c.nullable = true

structure Column.Valid (c : Column) : Prop where
  default_type : ∀ value, c.default = some value → value.dataType = c.type
  counter_type : c.autoIncrement = true → c.type = .integer
  /-- A counter that is not exhausted is positive. -/
  counter_pos : ∀ number, c.next = some number → 1 ≤ number.toInt

structure Table.Valid (t : Table) : Prop where
  names : t.columnNames.Nodup
  columns : ∀ c ∈ t.columns, c.Valid
  rows : ∀ row ∈ t.rows, List.Forall₂ Column.Holds t.columns row

/-- A valid table of the given name. -/
def Table.StandsUnder (name : String) (t : Table) : Prop :=
  t.name = name ∧ t.Valid

def Database.Valid (db : Database) : Prop :=
  ∀ name t, db.table? name = some t → t.StandsUnder name

/-! ## Values and columns -/

theorem Value.dataType_of_cast {v w : Value} {type : DataType}
    (hcast : v.cast type = .ok w) : w.dataType = type := by
  cases type <;>
    · obtain ⟨_, _, rfl⟩ := map_eq_ok.mp hcast
      rfl

namespace Column

variable {c : Column}

theorem holds_of_accept {value cell : Option Value} (haccept : c.accept value = .ok cell) :
    c.Holds cell := by
  cases value with
  | some value =>
      obtain ⟨_, hcast, rfl⟩ := map_eq_ok.mp haccept
      exact Value.dataType_of_cast (orCastFault_eq_ok.mp hcast)
  | none =>
      simp only [accept] at haccept
      split at haccept
      · next hnullable =>
        cases haccept
        exact hnullable
      · contradiction

@[simp]
theorem name_moveOn : c.moveOn.name = c.name := by
  rw [moveOn]
  split <;> rfl

@[simp]
theorem holds_moveOn {cell : Option Value} : c.moveOn.Holds cell ↔ c.Holds cell := by
  rw [moveOn]
  split
  · cases cell <;> rfl
  · rfl

theorem one_le_of_add_one {n m : Int64} (hn : 1 ≤ n.toInt) (hadd : Integer.add? n 1 = some m) :
    1 ≤ m.toInt := by
  rw [Integer.add?, Integer.ofInt?] at hadd
  split at hadd
  · next hrange =>
    cases hadd
    rw [Int64.toInt_ofInt_of_le (by omega) (by omega)]
    have hone : (1 : Int64).toInt = 1 := rfl
    omega
  · contradiction

theorem Valid.advance (hc : c.Valid) : c.advance.Valid where
  default_type := hc.default_type
  counter_type := hc.counter_type
  counter_pos := by
    intro number hnext
    obtain ⟨previous, hprevious, hadd⟩ := Option.bind_eq_some_iff.mp hnext
    exact one_le_of_add_one (hc.counter_pos previous hprevious) hadd

theorem Valid.moveOn (hc : c.Valid) : c.moveOn.Valid := by
  rw [Column.moveOn]
  split
  · exact hc.advance
  · exact hc

end Column

/-! ## Writing to a table -/

namespace Table

variable {t : Table}

theorem Valid.empty {name : String} {columns : List Column}
    (hnames : (columns.map Column.name).Nodup) (hcolumns : ∀ c ∈ columns, c.Valid) :
    (Table.empty name columns).Valid where
  names := hnames
  columns := hcolumns
  rows := by
    intro row hrow
    cases hrow

theorem Valid.length_row (ht : t.Valid) {row : Row} (hrow : row ∈ t.rows) :
    row.length = t.columns.length :=
  (ht.rows row hrow).length_eq.symm

/-- A table keeps its invariant when its rows are replaced by rows that fit. -/
theorem Valid.withRows (ht : t.Valid) {rows : List Row}
    (hrows : ∀ row ∈ rows, List.Forall₂ Column.Holds t.columns row) :
    ({ t with rows := rows } : Table).Valid where
  names := ht.names
  columns := ht.columns
  rows := hrows

theorem length_newCells {targets : List Nat} {values : List (Option Value)} {cells : Row}
    (hcells : t.newCells targets values = .ok cells) : t.columns.length = cells.length := by
  have hlength := length_of_mapM hcells
  rwa [List.length_zipIdx] at hlength

/-- Every row that is accepted fits the columns. -/
theorem forall₂_holds_of_acceptRow {cells row : Row} (hlength : t.columns.length = cells.length)
    (haccept : t.acceptRow cells = .ok row) : List.Forall₂ Column.Holds t.columns row := by
  have hsteps := mapM_eq_ok.mp haccept
  have hrow := hsteps.length_eq
  rw [List.length_zip, ← hlength, Nat.min_self] at hrow
  apply List.forall₂_iff_get.mpr
  refine ⟨hrow, ?_⟩
  intro index hcolumn hcell
  have hzip : index < (t.columns.zip cells).length := by
    rw [List.length_zip, ← hlength, Nat.min_self]
    exact hcolumn
  have hstep := (List.forall₂_iff_get.mp hsteps).2 index hzip hcell
  simp only [List.get_eq_getElem, List.getElem_zip] at hstep ⊢
  exact Column.holds_of_accept hstep

theorem forall₂_holds_of_newRow {targets : List Nat} {values : List (Option Value)} {row : Row}
    (hrow : t.newRow targets values = .ok row) :
    List.Forall₂ Column.Holds t.columns row := by
  rw [newRow] at hrow
  split at hrow
  · contradiction
  · split at hrow
    · contradiction
    · obtain ⟨cells, hcells, haccept⟩ := bind_eq_ok.mp hrow
      exact forall₂_holds_of_acceptRow (length_newCells hcells) haccept

theorem Valid.push (ht : t.Valid) {row : Row}
    (hrow : List.Forall₂ Column.Holds t.columns row) : (t.push row).Valid := by
  apply ht.withRows
  intro other hother
  rcases List.mem_append.mp hother with hold | hnew
  · exact ht.rows other hold
  · rw [List.mem_singleton.mp hnew]
    exact hrow

theorem foldl_advanceAt (t : Table) (indices : List Nat) :
    indices.foldl advanceAt t =
      { t with columns := indices.foldl (fun columns index =>
          columns.modify index Column.moveOn) t.columns } := by
  induction indices generalizing t with
  | nil => rfl
  | cons index indices ih => exact ih (t.advanceAt index)

/-- Each counter is moved on once for each time that its column occurs. -/
theorem getElem?_columns_foldl_advanceAt {indices : List Nat} (hindices : indices.Nodup)
    (index : Nat) :
    (indices.foldl Table.advanceAt t).columns[index]? =
      if index ∈ indices then t.columns[index]?.map Column.moveOn else t.columns[index]? := by
  induction indices generalizing t with
  | nil => simp
  | cons first indices ih =>
      obtain ⟨hfirst, hrest⟩ := List.nodup_cons.mp hindices
      rw [List.foldl_cons, ih hrest, advanceAt, List.getElem?_modify]
      by_cases hsame : first = index
      · subst hsame
        simp [hfirst]
      · simp [hsame, Ne.symm hsame]

/-- The counters of the columns that are left out move on. -/
theorem foldl_advanceAt_leftOut (t : Table) (targets : List Nat) :
    (t.leftOut targets).foldl advanceAt t =
      { t with columns := t.columns.mapIdx fun index c =>
          if index ∈ targets then c else c.moveOn } := by
  have hcolumns : ((t.leftOut targets).foldl advanceAt t).columns =
      t.columns.mapIdx fun index c => if index ∈ targets then c else c.moveOn := by
    apply List.ext_getElem?
    intro index
    have hnodup : (t.leftOut targets).Nodup := List.nodup_range.filter _
    rw [getElem?_columns_foldl_advanceAt hnodup, List.getElem?_mapIdx, leftOut]
    by_cases hindex : index < t.columns.length
    · by_cases hmem : index ∈ targets
      · simp [hmem, List.getElem?_eq_getElem hindex]
      · simp [hmem, hindex]
    · simp [hindex]
  rw [← hcolumns, foldl_advanceAt]

/-- Cells fit their columns whether or not counters have moved on. -/
theorem forall₂_holds_leftOut (columns : List Column) (targets : List Nat) (row : Row) :
    List.Forall₂ Column.Holds
        (columns.mapIdx fun index c => if index ∈ targets then c else c.moveOn) row ↔
      List.Forall₂ Column.Holds columns row := by
  have hholds (index : Nat) (c : Column) (cell : Option Value) :
      (if index ∈ targets then c else c.moveOn).Holds cell ↔ c.Holds cell := by
    split
    · rfl
    · exact c.holds_moveOn
  simp only [List.forall₂_iff_get, List.length_mapIdx, List.get_eq_getElem, List.getElem_mapIdx,
    hholds]

/-- Moving the counters on of the columns that are left out changes nothing but the counters. -/
theorem Valid.advanceLeftOut (ht : t.Valid) (targets : List Nat) :
    ((t.leftOut targets).foldl Table.advanceAt t).Valid := by
  rw [foldl_advanceAt_leftOut]
  refine ⟨?_, fun c hc => ?_, fun row hrow => ?_⟩
  · have hnames : (t.columns.mapIdx fun index c =>
        if index ∈ targets then c else c.moveOn).map Column.name = t.columnNames := by
      apply List.ext_getElem?
      intro index
      rw [List.getElem?_map, List.getElem?_mapIdx, columnNames, List.getElem?_map, Option.map_map]
      refine congrArg (t.columns[index]?.map ·) (funext fun c => ?_)
      by_cases hmem : index ∈ targets <;> simp [hmem]
    rw [columnNames, hnames]
    exact ht.names
  · obtain ⟨index, hindex, rfl⟩ := List.mem_mapIdx.mp hc
    have hvalid := ht.columns t.columns[index] (List.getElem_mem hindex)
    split
    · exact hvalid
    · exact hvalid.moveOn
  · exact (forall₂_holds_leftOut t.columns targets row).mpr (ht.rows row hrow)

/-- An insertion into a valid table ends in a valid table or changes nothing. -/
theorem Valid.insertion (ht : t.Valid) (targets : List Nat) (values : List (Option Value)) :
    (∃ fault, Table.insertion targets values t = .error fault t) ∨
      ∃ t', Table.insertion targets values t = .ok () t' ∧ t'.Valid ∧ t'.name = t.name := by
  rw [insertion_eq]
  cases hrow : t.newRow targets values with
  | error fault => exact .inl ⟨fault, rfl⟩
  | ok row =>
      have hvalid := ht.advanceLeftOut targets
      have hfits := forall₂_holds_of_newRow hrow
      rw [← forall₂_holds_leftOut t.columns targets] at hfits
      rw [foldl_advanceAt_leftOut] at hvalid ⊢
      exact .inr ⟨_, rfl, hvalid.push hfits, rfl⟩

theorem unmarked_sublist (rows : List Row) (mask : List Bool) :
    (unmarked rows mask).Sublist rows := by
  fun_induction unmarked rows mask with
  | case1 row rows mask ih => exact ih.cons row
  | case2 row rows marked mask _ ih => exact ih.cons_cons row
  | case3 => exact .refl _

end Table

/-! ## Writing cells -/

/-- A change of a cell that exists to something that its column may hold. -/
structure Change.Fits (d : Change) (t : Table) : Prop where
  row_lt : d.row < t.rows.length
  column_holds : ∃ c, t.columns[d.column]? = some c ∧ c.Holds d.cell

theorem forall₂_set {α β : Type} {R : α → β → Prop} {as : List α} {bs : List β}
    (hrel : List.Forall₂ R as bs) {index : Nat} {a : α} {b : β}
    (ha : as[index]? = some a) (hab : R a b) : List.Forall₂ R as (bs.set index b) := by
  induction hrel generalizing index with
  | nil => exact .nil
  | cons hhead htail ih =>
      cases index with
      | zero =>
          cases ha
          exact .cons hab htail
      | succ index => exact .cons hhead (ih ha)

namespace Table

variable {t : Table}

/-- A change that fits is written, and leaves those behind it fitting. -/
theorem Valid.writeCell (ht : t.Valid) {d : Change} (hd : d.Fits t) :
    ∃ t', Table.writeCell d.row d.column d.cell t = .ok () t' ∧
      (t'.Valid ∧ t'.name = t.name ∧ t'.columns = t.columns) ∧
      ∀ d' : Change, d'.Fits t → d'.Fits t' := by
  obtain ⟨c, hc, hholds⟩ := hd.column_holds
  obtain ⟨cells, hrow⟩ : ∃ cells, t.rows[d.row]? = some cells :=
    ⟨_, List.getElem?_eq_getElem hd.row_lt⟩
  have hfits := ht.rows cells (List.mem_of_getElem? hrow)
  have hcolumn : d.column < cells.length := by
    rw [← hfits.length_eq]
    exact (List.getElem?_eq_some_iff.mp hc).1
  refine ⟨_, writeCell_eq hrow hcolumn, ⟨?_, rfl, rfl⟩, ?_⟩
  · apply ht.withRows
    intro row hmem
    rcases List.mem_or_eq_of_mem_set hmem with hold | rfl
    · exact ht.rows row hold
    · exact forall₂_set hfits hc hholds
  · intro d' hd'
    exact ⟨by simpa using hd'.row_lt, hd'.column_holds⟩

end Table

/-! ## Columns by name -/

namespace Table

variable {t : Table}

theorem column?_eq_some {name : String} {c : Column} {index : Nat}
    (hfound : t.column? name = some (c, index)) :
    t.columns[index]? = some c ∧ c.name = name :=
  ⟨List.mem_zipIdx_iff_getElem?.mp (List.mem_of_find?_eq_some hfound),
    by simpa using List.find?_some hfound⟩

/-- A column is found under its name. -/
theorem column?_of_getElem? (hnames : t.columnNames.Nodup) {index : Nat} {c : Column}
    (hc : t.columns[index]? = some c) : t.column? c.name = some (c, index) := by
  have hmem : (c, index) ∈ t.columns.zipIdx := List.mem_zipIdx_iff_getElem?.mpr hc
  have hsome : (t.column? c.name).isSome := by
    rw [column?, List.find?_isSome]
    exact ⟨_, hmem, by simp⟩
  obtain ⟨⟨other, index'⟩, hother⟩ := Option.isSome_iff_exists.mp hsome
  obtain ⟨hget, hname⟩ := column?_eq_some hother
  have hlt : index' < t.columnNames.length := by
    rw [columnNames, List.length_map]
    exact (List.getElem?_eq_some_iff.mp hget).1
  have hsame : t.columnNames[index']? = t.columnNames[index]? := by
    simp [columnNames, hget, hc, hname]
  cases (List.getElem?_inj hlt hnames).mp hsame
  rw [hc] at hget
  cases hget
  exact hother

theorem exists_column?_iff (hnames : t.columnNames.Nodup) {name : String} :
    (∃ found, t.column? name = some found) ↔ name ∈ t.columnNames := by
  constructor
  · rintro ⟨⟨c, index⟩, hfound⟩
    obtain ⟨hget, rfl⟩ := column?_eq_some hfound
    exact List.mem_map_of_mem (List.mem_of_getElem? hget)
  · intro hname
    obtain ⟨c, hc, rfl⟩ := List.mem_map.mp hname
    obtain ⟨index, hget⟩ := List.mem_iff_getElem?.mp hc
    exact ⟨_, column?_of_getElem? hnames hget⟩

theorem columnIndex?_inj {name name' : String} {index : Nat}
    (hname : t.columnIndex? name = some index) (hname' : t.columnIndex? name' = some index) :
    name = name' := by
  obtain ⟨⟨c, _⟩, hc, rfl⟩ := Option.map_eq_some_iff.mp hname
  obtain ⟨⟨c', _⟩, hc', heq⟩ := Option.map_eq_some_iff.mp hname'
  obtain ⟨hget, rfl⟩ := column?_eq_some hc
  obtain ⟨hget', rfl⟩ := column?_eq_some hc'
  cases heq
  rw [Option.some.inj (hget.symm.trans hget')]

theorem findColumn_eq_ok {name : String} {found : Column × Nat} :
    t.findColumn name = .ok found ↔ t.column? name = some found := by
  rw [findColumn]
  cases t.column? name with
  | none => simp
  | some other => simp

theorem column_of_findColumn {name : String} {c : Column} {index : Nat}
    (hfound : t.findColumn name = .ok (c, index)) : t.columns[index]? = some c :=
  (column?_eq_some (findColumn_eq_ok.mp hfound)).1

/-- The indices are those of the columns of the names, in order, and they are different. -/
theorem distinctIndices_eq_ok {seen indices : List Nat} {names : List String} :
    t.distinctIndices seen names = .ok indices ↔
      names.map t.columnIndex? = indices.map some ∧ indices.Nodup ∧ seen.Disjoint indices := by
  induction names generalizing seen indices with
  | nil =>
      rw [distinctIndices, List.map_nil, Except.ok.injEq]
      constructor
      · rintro rfl
        exact ⟨rfl, List.nodup_nil, List.disjoint_nil_right _⟩
      · rintro ⟨hnil, -⟩
        exact (List.map_eq_nil_iff.mp hnil.symm).symm
  | cons name names ih =>
      rw [distinctIndices, bind_eq_ok]
      constructor
      · rintro ⟨⟨c, first⟩, hfound, hrest⟩
        dsimp only at hrest
        split at hrest
        · cases hrest
        · next hseen =>
          obtain ⟨others, hothers, heq⟩ := bind_eq_ok.mp hrest
          cases heq
          obtain ⟨hmap, hnodup, hdisjoint⟩ := ih.mp hothers
          obtain ⟨hfirst, hdisjoint⟩ := List.disjoint_cons_left.mp hdisjoint
          refine ⟨?_, List.nodup_cons.mpr ⟨hfirst, hnodup⟩,
            List.disjoint_cons_right.mpr ⟨hseen, hdisjoint⟩⟩
          rw [List.map_cons, List.map_cons, hmap, columnIndex?, findColumn_eq_ok.mp hfound]
          rfl
      · rintro ⟨hmap, hnodup, hdisjoint⟩
        cases indices with
        | nil => cases hmap
        | cons first indices =>
            obtain ⟨hfirst, hothers⟩ := List.cons.inj hmap
            obtain ⟨⟨c, _⟩, hfound, rfl⟩ := Option.map_eq_some_iff.mp hfirst
            obtain ⟨hnew, hnodup⟩ := List.nodup_cons.mp hnodup
            obtain ⟨hseen, hdisjoint⟩ := List.disjoint_cons_right.mp hdisjoint
            refine ⟨_, findColumn_eq_ok.mpr hfound, ?_⟩
            dsimp only
            rw [if_neg hseen, ih.mpr ⟨hothers, hnodup,
              List.disjoint_cons_left.mpr ⟨hnew, hdisjoint⟩⟩]
            rfl

theorem mem_distinctIndices {seen indices : List Nat} {names : List String}
    (hindices : t.distinctIndices seen names = .ok indices) (index : Nat) :
    index ∈ indices ↔ ∃ name ∈ names, ∃ c, t.column? name = some (c, index) := by
  obtain ⟨hmap, -⟩ := distinctIndices_eq_ok.mp hindices
  calc
    index ∈ indices ↔ some index ∈ indices.map some := by simp
    _ ↔ some index ∈ names.map t.columnIndex? := by rw [hmap]
    _ ↔ ∃ name ∈ names, ∃ c, t.column? name = some (c, index) := by simp [columnIndex?]

end Table

end PocketSql
