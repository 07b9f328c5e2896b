import Mathlib
import PocketSql.Proofs.Query.Relocation
import PocketSql.Proofs.Store.Numbering

/-!
# Where an insertion puts its values

An insertion stores one row, in which every column that it names holds the value beside its
name, and every other column its next number or its default.  Whether there is such a row,
and which one it is, depends on which name goes with which value and not on their order.
-/

namespace PocketSql

/-- The columns that an insertion gives values for: those that it names, or all of them if it
names none. -/
def Insert.named (s : Insert) (t : Table) : List String :=
  if s.columns = [] then t.columnNames else s.columns.map Ident.name

/-- What a column holds in a row that gives no value for it: its next number if it numbers the
rows, or else its default. -/
inductive Column.Supplies (c : Column) : Option Value → Prop
  | number {number : Int64} : c.autoIncrement = true → c.next = some number →
      Supplies c (some (.integer number))
  | default : c.autoIncrement = false → Supplies c c.default

/-- The row holds the values of the insertion: under every column that it names the value
beside the name, converted to the column, and under every other one what the column supplies. -/
structure Insert.Places (s : Insert) (t : Table) (row : Row) : Prop where
  known : s.named t ⊆ t.columnNames
  distinct : (s.named t).Nodup
  arity : s.values.length = (s.named t).length
  width : t.columns.length = row.length
  given : ∀ (index : Nat) (c : Column) (e : Expr), t.columns[index]? = some c →
    (c.name, e) ∈ (s.named t).zip s.values → ∃ value cell, e.eval .empty = .ok value ∧
      c.accept value = .ok cell ∧ row[index]? = some cell
  supplied : ∀ (index : Nat) (c : Column), t.columns[index]? = some c →
    c.name ∉ s.named t → ∃ cell, c.Supplies cell ∧ c.Holds cell ∧ row[index]? = some cell

/-- The expression without regard to where it stands. -/
def Expr.unplaced (e : Expr) : Expr :=
  e.move fun _ => .start

/-- The names of an insertion, each with the value beside it. -/
def Insert.pairs (s : Insert) : List (String × Expr) :=
  (s.columns.map Ident.name).zip (s.values.map Expr.unplaced)

/-- An insertion of the same values under the same names, in another order. -/
structure Insert.Reorders (s' s : Insert) : Prop where
  table : s'.table.name = s.table.name
  columns : s'.columns.length = s.columns.length
  values : s'.values.length = s.values.length
  pairs : s'.pairs.Perm s.pairs

/-- The table with one more row at the end, in which the counters of the columns that are left
out have moved on. -/
def Insert.behind (s : Insert) (t : Table) (row : Row) : Table :=
  { t with
    columns := t.columns.map fun c => if c.name ∈ s.named t then c else c.moveOn
    rows := t.rows ++ [row] }

/-! ## Columns that are left out -/

namespace Column

variable {c : Column} {value cell : Option Value}

theorem fill_eq_ok : c.fill = .ok value ↔ c.Supplies value := by
  rw [fill]
  constructor
  · intro hfill
    split at hfill
    · next hauto =>
      split at hfill
      · next number hnext =>
        cases hfill
        exact .number hauto hnext
      · cases hfill
    · next hauto =>
      cases hfill
      exact .default (Bool.eq_false_iff.mpr hauto)
  · intro hsupplies
    cases hsupplies with
    | number hauto hnext => simp only [hauto, hnext, if_true]
    | default hauto => simp [hauto]

/-- What a column supplies is stored as it is, unless it is a null that the column does not
allow. -/
theorem Valid.accept_supplied (hc : c.Valid) (hsupplies : c.Supplies value) :
    c.accept value = .ok cell ↔ c.Holds value ∧ cell = value := by
  constructor
  · intro haccept
    have hholds : c.Holds value := by
      cases value with
      | none =>
          rw [accept] at haccept
          split at haccept
          · assumption
          · cases haccept
      | some v =>
          generalize hv : some v = value at hsupplies
          cases hsupplies with
          | number hauto hnext => exact (hc.counter_type hauto).symm
          | default => exact hv ▸ hc.default_type v hv.symm
    exact ⟨hholds, Except.ok.inj (haccept.symm.trans (accept_of_holds hholds))⟩
  · rintro ⟨hholds, rfl⟩
    exact accept_of_holds hholds

end Column

/-- Where an expression stands decides where it fails and not whether it does. -/
theorem Expr.eval_eq_ok_of_unplaced {e e' : Expr} (halike : e.unplaced = e'.unplaced)
    {scope : Scope} {value : Option Value} :
    e.eval scope = .ok value ↔ e'.eval scope = .ok value := by
  have heval (e : Expr) : e.unplaced.eval scope = .ok value ↔ e.eval scope = .ok value := by
    rw [unplaced, Expr.eval_move (fun _ => .start) scope e]
    cases e.eval scope <;> simp [relocated]
  rw [← heval e, halike, heval e']

/-! ## Names, indices and values -/

namespace Table

variable {t : Table} {names : List String} {targets : List Nat}

theorem map_columnIndex?_columnNames (hnames : t.columnNames.Nodup) :
    t.columnNames.map t.columnIndex? = (List.range t.columns.length).map some := by
  apply List.ext_getElem?
  intro index
  rw [List.getElem?_map, columnNames, List.getElem?_map, List.getElem?_map]
  by_cases hindex : index < t.columns.length
  · have hc := List.getElem?_eq_getElem hindex
    simp [hindex, columnIndex?, column?_of_getElem? hnames hc]
  · simp [hindex]

theorem nodup_iff_of_map_columnIndex? (hmap : names.map t.columnIndex? = targets.map some) :
    targets.Nodup ↔ names.Nodup := by
  rw [← List.nodup_map_iff (Option.some_injective Nat), ← hmap]
  refine ⟨List.Nodup.of_map _, fun hnodup => hnodup.map_on fun name hname name' _ hsame => ?_⟩
  obtain ⟨index, _, hindex⟩ := List.mem_map.mp (hmap ▸ List.mem_map_of_mem hname)
  exact columnIndex?_inj hindex.symm (hsame ▸ hindex.symm)

/-- A name and the index of its column stand at the same place. -/
theorem getElem?_targets_iff (hnames : t.columnNames.Nodup)
    (hmap : names.map t.columnIndex? = targets.map some) {index : Nat} {c : Column}
    (hc : t.columns[index]? = some c) (place : Nat) :
    targets[place]? = some index ↔ names[place]? = some c.name := by
  have hplace : (names[place]?).map t.columnIndex? = (targets[place]?).map some := by
    rw [← List.getElem?_map, ← List.getElem?_map, hmap]
  have hindex : t.columnIndex? c.name = some index := by
    rw [columnIndex?, column?_of_getElem? hnames hc]
    rfl
  constructor
  · intro htarget
    rw [htarget] at hplace
    obtain ⟨name, hname, hfound⟩ := Option.map_eq_some_iff.mp hplace
    rw [hname, columnIndex?_inj hfound hindex]
  · intro hname
    rw [hname, Option.map_some, hindex] at hplace
    obtain ⟨target, htarget, heq⟩ := Option.map_eq_some_iff.mp hplace.symm
    rw [htarget, heq]

theorem mem_targets_iff (hnames : t.columnNames.Nodup)
    (hmap : names.map t.columnIndex? = targets.map some) {index : Nat} {c : Column}
    (hc : t.columns[index]? = some c) : index ∈ targets ↔ c.name ∈ names := by
  simp only [List.mem_iff_getElem?, getElem?_targets_iff hnames hmap hc]

theorem given?_eq_some (hnodup : targets.Nodup) {values : List (Option Value)} {place index : Nat}
    {value : Option Value} (htarget : targets[place]? = some index)
    (hvalue : values[place]? = some value) : given? targets values index = some value := by
  have hmem : (index, value) ∈ targets.zip values :=
    List.mem_of_getElem? (List.getElem?_zip_eq_some.mpr ⟨htarget, hvalue⟩)
  cases hgiven : given? targets values index with
  | none =>
      rw [given?, List.lookup_eq_none_iff] at hgiven
      simpa using hgiven _ (List.mem_reverse.mpr hmem)
  | some other =>
      obtain ⟨place', hplace'⟩ := List.mem_iff_getElem?.mp (mem_zip_of_given? hgiven)
      obtain ⟨htarget', hvalue'⟩ := List.getElem?_zip_eq_some.mp hplace'
      have hlt := (List.getElem?_eq_some_iff.mp htarget).1
      have hsame := (List.getElem?_inj hlt hnodup).mp (htarget.trans htarget'.symm)
      rw [hsame, hvalue'] at hvalue
      exact hvalue

theorem given?_eq_none {values : List (Option Value)} {index : Nat} (hindex : index ∉ targets) :
    given? targets values index = none := by
  by_contra hgiven
  obtain ⟨value, hvalue⟩ := Option.ne_none_iff_exists'.mp hgiven
  exact hindex (List.of_mem_zip (mem_zip_of_given? hvalue)).1

end Table

/-! ## Rows of an insertion -/

namespace Insert

variable {s s' : Insert} {t t' : Table} {targets : List Nat} {row : Row}

theorem targets_eq_ok (hnames : t.columnNames.Nodup) :
    t.targets (s.columns.map Ident.name) = .ok targets ↔
      (s.named t).map t.columnIndex? = targets.map some ∧ (s.named t).Nodup := by
  rw [Table.targets, named]
  split
  · next hnone =>
    rw [if_pos (List.map_eq_nil_iff.mp hnone), Table.map_columnIndex?_columnNames hnames,
      Except.ok.injEq, (List.map_injective_iff.mpr (Option.some_injective Nat)).eq_iff]
    exact ⟨fun heq => ⟨heq, hnames⟩, And.left⟩
  · next hsome =>
    rw [if_neg fun hnone => hsome (List.map_eq_nil_iff.mpr hnone), Table.distinctIndices_eq_ok]
    refine and_congr_right fun hmap => ?_
    rw [Table.nodup_iff_of_map_columnIndex? hmap]
    exact and_iff_left (List.disjoint_nil_left _)

theorem push_foldl_advanceAt (hnames : t.columnNames.Nodup)
    (hmap : (s.named t).map t.columnIndex? = targets.map some) :
    ((t.leftOut targets).foldl Table.advanceAt t).push row = s.behind t row := by
  have hcolumns : (t.columns.mapIdx fun index c => if index ∈ targets then c else c.moveOn) =
      t.columns.map fun c => if c.name ∈ s.named t then c else c.moveOn := by
    apply List.ext_getElem?
    intro index
    rw [List.getElem?_mapIdx, List.getElem?_map]
    cases hc : t.columns[index]? with
    | none => rfl
    | some c => simp only [Option.map_some, Table.mem_targets_iff hnames hmap hc]
  rw [Table.foldl_advanceAt_leftOut, hcolumns]
  rfl

/-- The new row of an insertion that succeeds holds its values. -/
theorem Inserts.places (ht : t.Valid) (hinserts : s.Inserts t t' targets row) :
    s.Places t row ∧ t' = s.behind t row := by
  obtain ⟨htargets, ⟨values, hvalues, hrow⟩, rfl⟩ := hinserts
  obtain ⟨hmap, hnodup⟩ := (targets_eq_ok ht.names).mp htargets
  obtain ⟨harity, -, hwidth, hcells⟩ := Table.newRow_eq_ok.mp hrow
  have hlength : (s.named t).length = targets.length := by
    simpa using congrArg List.length hmap
  refine ⟨⟨?_, hnodup, ?_, hwidth, ?_, ?_⟩, push_foldl_advanceAt ht.names hmap⟩
  · intro name hname
    obtain ⟨index, -, hindex⟩ := List.mem_map.mp (hmap ▸ List.mem_map_of_mem hname)
    obtain ⟨found, hfound, -⟩ := Option.map_eq_some_iff.mp hindex.symm
    exact (Table.exists_column?_iff ht.names).mp ⟨found, hfound⟩
  · rw [length_of_mapM hvalues, ← harity, hlength]
  · intro index c e hc hmem
    -- The name stands at the place of its target, and the expression at that of its value.
    obtain ⟨place, hplace⟩ := List.mem_iff_getElem?.mp hmem
    obtain ⟨hname, he⟩ := List.getElem?_zip_eq_some.mp hplace
    obtain ⟨value, hvalue, heval⟩ := getElem?_of_mapM hvalues he
    have hgiven : Table.given? targets values index = some value :=
      Table.given?_eq_some ((Table.nodup_iff_of_map_columnIndex? hmap).mpr hnodup)
        ((Table.getElem?_targets_iff ht.names hmap hc place).mpr hname) hvalue
    obtain ⟨offered, cell, hoffers, haccept, hcell⟩ := hcells index c hc
    cases hoffers with
    | given hoffered =>
        cases hoffered.symm.trans hgiven
        exact ⟨value, cell, heval, haccept, hcell⟩
    | filled hnone => cases hnone.symm.trans hgiven
  · intro index c hc hunnamed
    have hnone : Table.given? targets values index = none :=
      Table.given?_eq_none fun hmem =>
        hunnamed ((Table.mem_targets_iff ht.names hmap hc).mp hmem)
    obtain ⟨offered, cell, hoffers, haccept, hcell⟩ := hcells index c hc
    cases hoffers with
    | given hoffered => cases hoffered.symm.trans hnone
    | filled _ hfill =>
        have hsupplies := Column.fill_eq_ok.mp hfill
        have hvalid := ht.columns c (List.mem_of_getElem? hc)
        obtain ⟨hholds, rfl⟩ := (hvalid.accept_supplied hsupplies).mp haccept
        exact ⟨_, hsupplies, hholds, hcell⟩

namespace Places

theorem exists_targets (hnames : t.columnNames.Nodup) (hplaces : s.Places t row) :
    ∃ targets : List Nat, (s.named t).map t.columnIndex? = targets.map some := by
  have hfound : (s.named t).map t.columnIndex? ∈ Set.range (List.map some) := by
    rw [Set.range_list_map]
    intro found hfound
    obtain ⟨name, hname, rfl⟩ := List.mem_map.mp hfound
    obtain ⟨⟨c, index⟩, hcolumn⟩ := (Table.exists_column?_iff hnames).mpr (hplaces.known hname)
    exact ⟨index, by rw [Table.columnIndex?, hcolumn, Option.map_some]⟩
  obtain ⟨targets, hmap⟩ := hfound
  exact ⟨targets, hmap.symm⟩

/-- A column that is named is given a value. -/
theorem of_named (hplaces : s.Places t row) {index : Nat} {c : Column}
    (hc : t.columns[index]? = some c) {place : Nat} (hname : (s.named t)[place]? = some c.name) :
    ∃ e value cell, s.values[place]? = some e ∧ e.eval .empty = .ok value ∧
      c.accept value = .ok cell ∧ row[index]? = some cell := by
  have hplace : place < s.values.length :=
    hplaces.arity ▸ (List.getElem?_eq_some_iff.mp hname).1
  have he : s.values[place]? = some s.values[place] := List.getElem?_eq_getElem hplace
  obtain ⟨value, cell, hcell⟩ := hplaces.given index c s.values[place] hc
    (List.mem_of_getElem? (List.getElem?_zip_eq_some.mpr ⟨hname, he⟩))
  exact ⟨_, value, cell, he, hcell⟩

theorem exists_values (hplaces : s.Places t row) :
    ∃ values, s.values.mapM (Expr.eval .empty) = .ok values := by
  rw [exists_mapM_eq_ok]
  intro e he
  obtain ⟨place, hplace, rfl⟩ := List.mem_iff_getElem.mp he
  have hnamed : place < (s.named t).length := hplaces.arity ▸ hplace
  obtain ⟨c, hc, hname⟩ := List.mem_map.mp (hplaces.known (List.getElem_mem hnamed))
  obtain ⟨index, hindex⟩ := List.mem_iff_getElem?.mp hc
  obtain ⟨e, value, -, he, heval, -⟩ := hplaces.of_named hindex
    (hname ▸ List.getElem?_eq_getElem hnamed)
  rw [List.getElem?_eq_getElem hplace] at he
  cases he
  exact ⟨value, heval⟩

/-- A row that holds the values of an insertion is the row that the insertion adds. -/
theorem inserts (ht : t.Valid) (hplaces : s.Places t row) :
    ∃ targets, s.Inserts t (s.behind t row) targets row := by
  obtain ⟨targets, hmap⟩ := hplaces.exists_targets ht.names
  obtain ⟨values, hvalues⟩ := hplaces.exists_values
  refine ⟨targets, (targets_eq_ok ht.names).mpr ⟨hmap, hplaces.distinct⟩,
    ⟨values, hvalues, Table.newRow_eq_ok.mpr ⟨?_, ?_, hplaces.width, ?_⟩⟩,
    (push_foldl_advanceAt ht.names hmap).symm⟩
  · have hlength : (s.named t).length = targets.length := by
      simpa using congrArg List.length hmap
    rw [← hlength, ← hplaces.arity, length_of_mapM hvalues]
  · intro index hindex
    obtain ⟨name, -, hname⟩ := List.mem_map.mp (hmap ▸ List.mem_map_of_mem hindex)
    obtain ⟨⟨c, _⟩, hfound, rfl⟩ := Option.map_eq_some_iff.mp hname
    exact (List.getElem?_eq_some_iff.mp (Table.column?_eq_some hfound).1).1
  · intro index c hc
    by_cases hname : c.name ∈ s.named t
    · obtain ⟨place, hplace⟩ := List.mem_iff_getElem?.mp hname
      obtain ⟨e, value, cell, he, heval, haccept, hcell⟩ := hplaces.of_named hc hplace
      obtain ⟨value', hvalue, heval'⟩ := getElem?_of_mapM hvalues he
      cases heval.symm.trans heval'
      have hnodup := (Table.nodup_iff_of_map_columnIndex? hmap).mpr hplaces.distinct
      have htarget := (Table.getElem?_targets_iff ht.names hmap hc place).mpr hplace
      exact ⟨value, cell, .given (Table.given?_eq_some hnodup htarget hvalue), haccept, hcell⟩
    · obtain ⟨cell, hsupplies, hholds, hcell⟩ := hplaces.supplied index c hc hname
      have htarget := mt (Table.mem_targets_iff ht.names hmap hc).mp hname
      exact ⟨cell, cell, .filled (Table.given?_eq_none htarget) (Column.fill_eq_ok.mpr hsupplies),
        Column.accept_of_holds hholds, hcell⟩

end Places

theorem pairs_eq (hsome : s.columns ≠ []) :
    s.pairs = ((s.named t).zip s.values).map (Prod.map id Expr.unplaced) := by
  rw [pairs, named, if_neg hsome, List.zip_map_right]

namespace Reorders

variable (hs : s'.Reorders s)

include hs

theorem symm : s.Reorders s' :=
  ⟨hs.table.symm, hs.columns.symm, hs.values.symm, hs.pairs.symm⟩

theorem columns_ne_nil (hsome : s.columns ≠ []) : s'.columns ≠ [] := by
  rwa [← List.length_pos_iff, hs.columns, List.length_pos_iff]

theorem named_perm (hsome : s.columns ≠ []) (hplaces : s.Places t row) :
    s'.values.length = (s'.named t).length ∧ (s'.named t).Perm (s.named t) := by
  have hnamed : s.named t = s.columns.map Ident.name := if_neg hsome
  have hnamed' : s'.named t = s'.columns.map Ident.name := if_neg (hs.columns_ne_nil hsome)
  have harity : s'.values.length = (s'.named t).length := by
    rw [hs.values, hplaces.arity, hnamed, hnamed', List.length_map, List.length_map, hs.columns]
  have hfirst := hs.pairs.map Prod.fst
  rw [pairs_eq (t := t) hsome, pairs_eq (t := t) (hs.columns_ne_nil hsome), List.map_map,
    List.map_map] at hfirst
  refine ⟨harity, ?_⟩
  calc
    s'.named t = ((s'.named t).zip s'.values).map Prod.fst := (List.map_fst_zip harity.ge).symm
    List.Perm _ (((s.named t).zip s.values).map Prod.fst) := hfirst
    _ = s.named t := List.map_fst_zip hplaces.arity.ge

/-- Which name goes with which value is all that a row depends on. -/
theorem places (hsome : s.columns ≠ []) (hplaces : s.Places t row) :
    s'.Places t row ∧ s'.behind t row = s.behind t row := by
  obtain ⟨harity, hnames⟩ := hs.named_perm hsome hplaces
  refine ⟨⟨?_, ?_, harity, hplaces.width, ?_, ?_⟩, ?_⟩
  · exact fun name hname => hplaces.known (hnames.mem_iff.mp hname)
  · exact hnames.nodup_iff.mpr hplaces.distinct
  · intro index c e hc hmem
    have hpair : (c.name, e.unplaced) ∈ s.pairs := by
      rw [← hs.pairs.mem_iff, pairs_eq (t := t) (hs.columns_ne_nil hsome)]
      exact List.mem_map_of_mem (f := Prod.map id Expr.unplaced) hmem
    rw [pairs_eq (t := t) hsome] at hpair
    obtain ⟨⟨_, e'⟩, hmem', heq⟩ := List.mem_map.mp hpair
    obtain ⟨rfl, halike⟩ := Prod.mk.inj heq
    obtain ⟨value, cell, heval, hcell⟩ := hplaces.given index c e' hc hmem'
    exact ⟨value, cell, (Expr.eval_eq_ok_of_unplaced halike).mp heval, hcell⟩
  · exact fun index c hc hunnamed =>
      hplaces.supplied index c hc fun hname => hunnamed (hnames.mem_iff.mpr hname)
  · simp only [behind, hnames.mem_iff]

end Reorders

/-- Columns that have the same targets take the same values. -/
theorem work_withColumns {columns : List Ident}
    (htargets : t.targets (columns.map Ident.name) = t.targets (s.columns.map Ident.name)) :
    ({ s with columns := columns } : Insert).work t = s.work t := by
  simp only [work, work_bind, work_get, htargets]

end Insert

/-! ## Databases -/

namespace Database

variable {db : Database} {s : Insert} {t : Table}

theorem execute_of_places (ht : t.Valid) (hfound : db.table? s.table.name = some t) {row : Row}
    (hplaces : s.Places t row) :
    db.execute (.insert s) = (.ok none, db.set s.table.name (s.behind t row)) := by
  obtain ⟨targets, hinserts⟩ := hplaces.inserts ht
  exact execute_of_inserts hfound hinserts

/-- An insertion adds the row that holds its values, or there is none and it fails. -/
theorem execute_insert_cases (hdb : db.Valid) (hfound : db.table? s.table.name = some t) :
    (∃ row, s.Places t row ∧
      db.execute (.insert s) = (.ok none, db.set s.table.name (s.behind t row))) ∨
    (¬∃ row, s.Places t row) ∧ ∃ e, db.execute (.insert s) = (.error e, db) := by
  have ht : t.Valid := (hdb _ t hfound).2
  by_cases hplaces : ∃ row, s.Places t row
  · obtain ⟨row, hrow⟩ := hplaces
    exact .inl ⟨row, hrow, execute_of_places ht hfound hrow⟩
  · refine .inr ⟨hplaces, ?_⟩
    have heffect := hdb.effect (.insert s)
    rcases hexecute : db.execute (.insert s) with ⟨outcome, db'⟩
    rw [hexecute] at heffect
    cases heffect with
    | failure => exact ⟨_, rfl⟩
    | insertion hfound' hinserts =>
        cases hfound'.symm.trans hfound
        exact absurd ⟨_, (hinserts.places ht).1⟩ hplaces

/-- Insertions of which one reorders the other end alike. -/
theorem execute_of_reorders {s' : Insert} (hdb : db.Valid)
    (hfound : db.table? s.table.name = some t) (hs : s'.Reorders s) (hsome : s.columns ≠ []) :
    (db.execute (.insert s')).1.isOk = (db.execute (.insert s)).1.isOk ∧
      (db.execute (.insert s')).2 = (db.execute (.insert s)).2 := by
  have ht : t.Valid := (hdb _ t hfound).2
  have hfound' : db.table? s'.table.name = some t := hs.table ▸ hfound
  rcases execute_insert_cases hdb hfound with ⟨row, hplaces, hexecute⟩ | ⟨hnone, e, hexecute⟩
  · obtain ⟨hplaces', hbehind⟩ := hs.places hsome hplaces
    rw [hexecute, execute_of_places ht hfound' hplaces', hbehind, hs.table]
    exact ⟨rfl, rfl⟩
  · rcases execute_insert_cases hdb hfound' with ⟨row, hplaces, -⟩ | ⟨-, e', hexecute'⟩
    · exact absurd ⟨row, (hs.symm.places (hs.columns_ne_nil hsome) hplaces).1⟩ hnone
    · rw [hexecute, hexecute']
      exact ⟨rfl, rfl⟩

/-- To name no columns is to name all of them in the order of the table. -/
theorem execute_of_allColumns (ht : t.Valid) (hfound : db.table? s.table.name = some t)
    {columns : List Ident} (hall : s.columns = [])
    (hcolumns : columns.map Ident.name = t.columnNames) :
    db.execute (.insert { s with columns := columns }) = db.execute (.insert s) := by
  have hnamed : ({ s with columns := columns } : Insert).named t = s.named t := by
    rw [Insert.named, Insert.named, if_pos hall, hcolumns, ite_self]
  have htargets : t.targets (columns.map Ident.name) = t.targets (s.columns.map Ident.name) := by
    have hrange : t.targets (s.columns.map Ident.name) = .ok (List.range t.columns.length) := by
      rw [hall]
      rfl
    rw [hrange]
    apply (Insert.targets_eq_ok (s := { s with columns := columns }) ht.names).mpr
    rw [hnamed]
    exact (Insert.targets_eq_ok ht.names).mp hrange
  rw [execute_of_onTable (s := .insert { s with columns := columns }) rfl hfound,
    execute_of_onTable (s := .insert s) rfl hfound, Insert.work_withColumns htargets]
  rfl

end Database

/-- An insertion into a stored table succeeds exactly when there is a row that holds its
values, and then it adds this row behind the rows that are there, which stay.  It is nothing
to it in which order it names its columns, as long as their values follow them, and naming
none is naming all of them in order. -/
theorem insertion_places_values {db : Database} (hdb : db.Reachable) (s : Insert) {t : Table}
    (hfound : db.table? s.table.name = some t) :
    ((db.execute (.insert s)).1.isOk ↔ ∃ row, s.Places t row) ∧
      (∀ row, s.Places t row →
        db.execute (.insert s) = (.ok none, db.set s.table.name (s.behind t row))) ∧
      (∀ s' : Insert, s'.Reorders s → s.columns ≠ [] →
        (db.execute (.insert s')).1.isOk = (db.execute (.insert s)).1.isOk ∧
          (db.execute (.insert s')).2 = (db.execute (.insert s)).2) ∧
      ∀ columns : List Ident, s.columns = [] → columns.map Ident.name = t.columnNames →
        db.execute (.insert { s with columns := columns }) = db.execute (.insert s) := by
  have ht : t.Valid := (hdb.valid _ t hfound).2
  refine ⟨?_, fun row => Database.execute_of_places ht hfound,
    fun s' => Database.execute_of_reorders hdb.valid hfound,
    fun columns => Database.execute_of_allColumns ht hfound⟩
  rcases Database.execute_insert_cases hdb.valid hfound with
    ⟨row, hplaces, hexecute⟩ | ⟨hnone, e, hexecute⟩
  · rw [hexecute]
    exact ⟨fun _ => ⟨row, hplaces⟩, fun _ => rfl⟩
  · rw [hexecute]
    exact ⟨fun hok => (Bool.false_ne_true hok).elim, fun hplaces => absurd hplaces hnone⟩

/-- `INSERT INTO stock (label) VALUES (5)`. -/
def labelling : Insert :=
  ⟨⟨4, 0⟩, ⟨⟨4, 12⟩, "stock"⟩, [⟨⟨4, 19⟩, "label"⟩], [.literal ⟨4, 34⟩ (.integer 5)]⟩

/-- `INSERT INTO stock (label, id) VALUES (5, '7')`. -/
def placing : Insert :=
  ⟨⟨5, 0⟩, ⟨⟨5, 12⟩, "stock"⟩, [⟨⟨5, 19⟩, "label"⟩, ⟨⟨5, 26⟩, "id"⟩],
    [.literal ⟨5, 38⟩ (.integer 5), .literal ⟨5, 41⟩ (.string "7")]⟩

/-- `INSERT INTO stock (id, label) VALUES ('7', 5)`. -/
def placingReordered : Insert :=
  ⟨⟨6, 0⟩, ⟨⟨6, 12⟩, "stock"⟩, [⟨⟨6, 19⟩, "id"⟩, ⟨⟨6, 23⟩, "label"⟩],
    [.literal ⟨6, 38⟩ (.string "7"), .literal ⟨6, 43⟩ (.integer 5)]⟩

theorem labelling_placed_and_placing_reordered :
    stock.Reachable ∧ stock.table? labelling.table.name = some stockTable ∧
      labelling.Places stockTable [some (.integer 2), some (.string "5")] ∧
      stock.execute (.insert labelling) = (.ok none, stock.set "stock"
        { name := "stock"
          columns := [⟨"id", .integer, none, false, true, some 3⟩,
            ⟨"label", .string, some (.string "new"), true, false, some 1⟩]
          rows := stockTable.rows ++ [[some (.integer 2), some (.string "5")]] }) ∧
      placingReordered.Reorders placing ∧ (stock.execute (.insert placing)).1.isOk ∧
      (stock.execute (.insert placingReordered)).2 = (stock.execute (.insert placing)).2 ∧
      stock.execute (.insert placingReordered) =
        stock.execute (.insert { placingReordered with columns := [] }) := by
  have hplaces : labelling.Places stockTable [some (.integer 2), some (.string "5")] := by
    refine ⟨by decide, by decide, rfl, rfl, ?_, ?_⟩
    · intro index c e hc hmem
      obtain ⟨hname, rfl⟩ := Prod.mk.inj (List.mem_singleton.mp hmem)
      match index with
      | 0 =>
          cases hc
          exact absurd hname (by decide)
      | 1 =>
          cases hc
          exact ⟨some (.integer 5), some (.string "5"), rfl, rfl, rfl⟩
    · intro index c hc hunnamed
      match index with
      | 0 =>
          cases hc
          exact ⟨some (.integer 2), .number rfl rfl, rfl, rfl⟩
      | 1 =>
          cases hc
          exact absurd (List.mem_singleton_self _) hunnamed
  have hreorders : placingReordered.Reorders placing :=
    ⟨rfl, rfl, rfl, .swap _ _ _⟩
  obtain ⟨-, hplaced, -, -⟩ := insertion_places_values stock_reachable labelling stock_table
  obtain ⟨-, -, hreordered, -⟩ := insertion_places_values stock_reachable placing stock_table
  obtain ⟨-, -, -, hall⟩ := insertion_places_values stock_reachable
    { placingReordered with columns := [] } stock_table
  exact ⟨stock_reachable, stock_table, hplaces, hplaced _ hplaces, hreorders, rfl,
    (hreordered _ hreorders (List.cons_ne_nil _ _)).2, hall placingReordered.columns rfl rfl⟩

end PocketSql
