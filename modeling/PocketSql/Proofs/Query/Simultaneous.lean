import Mathlib
import PocketSql.Proofs.Query.RowUpdates
import PocketSql.Proofs.Store.Numbering
import PocketSql.Proofs.Store.Reachable

/-!
# Simultaneous assignments

An update writes one cell after the other, but every cell is computed before the first
write.  So an update is planned on the table as it was: for each row the cells that will be
written into it, none where the condition is not true.  The rows behind the update are the
old ones with the planned cells in them, each column with the cell of the last assignment to
it.
-/

namespace PocketSql

/-- The cell that an assignment writes into a row, with the index of its column. -/
def Assignment.write (a : Assignment) (t : Table) (row : Row) :
    Except EvalError (Nat × Option Value) := do
  let target ← a.target t
  (a.cell (t.scope row) target.1).map (target.2, ·)

/-- The cells that an update writes into a row. -/
def Update.cells (s : Update) (t : Table) (row : Row) :
    Except EvalError (List (Nat × Option Value)) :=
  s.assignments.mapM (Assignment.write · t row)

/-- The cells that an update writes into each row, if a mask marks it. -/
def Update.marked (s : Update) (t : Table) (rows : List Row) (mask : List Bool) :
    Except EvalError (List (List (Nat × Option Value))) :=
  (rows.zip mask).mapM fun (row, marked) => if marked then s.cells t row else .ok []

/-- The cells that an update writes into each row of a table, none where its condition is
not true. -/
def Update.plan (s : Update) (t : Table) :
    Except EvalError (List (List (Nat × Option Value))) := do
  let _ ← s.assignments.mapM (Assignment.target · t)
  let mask ← t.matching s.condition
  s.marked t t.rows mask

/-- A table with cells written into each of its rows. -/
def Table.written (t : Table) (plan : List (List (Nat × Option Value))) : Table :=
  { t with rows := List.zipWith writtenRow t.rows plan }

/-! ## Plans -/

section Plans

variable {s : Update} {t : Table}

/-- With known targets, the cells of a row are those of the assignments to them. -/
theorem mapM_write {assignments : List Assignment} {targets : List (Column × Nat)}
    (htargets : assignments.mapM (Assignment.target · t) = .ok targets) (row : Row) :
    assignments.mapM (Assignment.write · t row) =
      t.assignedCells (assignments.zip targets) row := by
  have hsteps := mapM_eq_ok.mp htargets
  clear htargets
  induction hsteps with
  | nil => rfl
  | @cons a target assignments targets ha _ ih =>
      have hwrite : a.write t row = (a.cell (t.scope row) target.1).map (target.2, ·) := by
        rw [Assignment.write, ha]
        rfl
      rw [List.mapM_cons, ih, hwrite, List.zip_cons_cons, Table.assignedCells,
        Table.assignedCells, List.mapM_cons]

theorem Update.marked_true (row : Row) (rows : List Row) (mask : List Bool) :
    s.marked t (row :: rows) (true :: mask) = (do
      let cells ← s.cells t row
      let others ← s.marked t rows mask
      return cells :: others) := by
  rw [marked, List.zip_cons_cons, List.mapM_cons]
  rfl

theorem Update.marked_false (row : Row) (rows : List Row) (mask : List Bool) :
    s.marked t (row :: rows) (false :: mask) = (do
      let others ← s.marked t rows mask
      return [] :: others) := by
  rw [marked, List.zip_cons_cons, List.mapM_cons]
  rfl

theorem rewritten_eq_map {assignments : List (Assignment × (Column × Nat))}
    (hcells : ∀ row, t.assignedCells assignments row = s.cells t row) (rows : List Row)
    (mask : List Bool) :
    t.rewritten assignments rows mask =
      (s.marked t rows mask).map (List.zipWith writtenRow rows) := by
  induction rows generalizing mask with
  | nil => rfl
  | cons row rows ih =>
      cases mask with
      | nil => rfl
      | cons marked mask =>
          cases marked with
          | true =>
              rw [Table.rewritten_true, Update.marked_true, hcells, ih]
              cases s.cells t row with
              | error e => rfl
              | ok cells => cases s.marked t rows mask <;> rfl
          | false =>
              rw [Table.rewritten_false, Update.marked_false, ih]
              cases s.marked t rows mask <;> rfl

/-- The rows behind an update are the old ones with the planned cells in them. -/
theorem Update.rows_eq_plan (s : Update) (t : Table) :
    s.rows t = (s.plan t).map (List.zipWith writtenRow t.rows) := by
  rw [rows, plan]
  cases htargets : s.assignments.mapM (Assignment.target · t) with
  | error e => rfl
  | ok targets =>
      cases t.matching s.condition with
      | error e => rfl
      | ok mask =>
          exact rewritten_eq_map (fun row => (mapM_write htargets row).symm) t.rows mask

/-- The cells that an update writes into a row, if its condition is true on it. -/
def Update.cellsWhere (s : Update) (t : Table) (row : Row) :
    Except EvalError (List (Nat × Option Value)) := do
  if ← Expr.holds (t.scope row) s.condition then s.cells t row else .ok []

theorem Update.cellsWhere_eq_ok {row : Row} {cells : List (Nat × Option Value)} :
    s.cellsWhere t row = .ok cells ↔
      (Expr.holds (t.scope row) s.condition = .ok false ∧ cells = []) ∨
        (Expr.holds (t.scope row) s.condition = .ok true ∧ s.cells t row = .ok cells) := by
  rw [cellsWhere, bind_eq_ok, Bool.exists_bool]
  simp [eq_comm]

/-- Conditions that are decided on all rows first may as well be decided row by row. -/
theorem Update.exists_marked_eq_ok (rows : List Row) {plan : List (List (Nat × Option Value))} :
    (∃ mask, (rows.mapM fun row => Expr.holds (t.scope row) s.condition) = .ok mask ∧
      s.marked t rows mask = .ok plan) ↔ rows.mapM (s.cellsWhere t) = .ok plan := by
  induction rows generalizing plan with
  | nil =>
      constructor
      · rintro ⟨mask, -, hmarked⟩
        exact hmarked
      · intro hplan
        exact ⟨[], rfl, hplan⟩
  | cons row rows ih =>
      simp only [List.mapM_cons, bind_eq_ok]
      constructor
      · rintro ⟨_, ⟨decision, hdecision, mask, hmask, ⟨⟩⟩, hmarked⟩
        cases decision with
        | true =>
            rw [marked_true, bind_eq_ok] at hmarked
            obtain ⟨cells, hcells, hrest⟩ := hmarked
            obtain ⟨others, hothers, heq⟩ := bind_eq_ok.mp hrest
            exact ⟨cells, cellsWhere_eq_ok.mpr (.inr ⟨hdecision, hcells⟩), others,
              ih.mp ⟨mask, hmask, hothers⟩, heq⟩
        | false =>
            rw [marked_false, bind_eq_ok] at hmarked
            obtain ⟨others, hothers, heq⟩ := hmarked
            exact ⟨[], cellsWhere_eq_ok.mpr (.inl ⟨hdecision, rfl⟩), others,
              ih.mp ⟨mask, hmask, hothers⟩, heq⟩
      · rintro ⟨cells, hcells, others, hothers, heq⟩
        obtain ⟨mask, hmask, hmarked⟩ := ih.mpr hothers
        rcases cellsWhere_eq_ok.mp hcells with ⟨hfalse, rfl⟩ | ⟨htrue, hcells⟩
        · refine ⟨false :: mask, ⟨false, hfalse, mask, hmask, rfl⟩, ?_⟩
          rw [marked_false, bind_eq_ok]
          exact ⟨others, hmarked, heq⟩
        · refine ⟨true :: mask, ⟨true, htrue, mask, hmask, rfl⟩, ?_⟩
          rw [marked_true, bind_eq_ok]
          exact ⟨cells, hcells, bind_eq_ok.mpr ⟨others, hmarked, heq⟩⟩

theorem Update.plan_eq_ok {plan : List (List (Nat × Option Value))} :
    s.plan t = .ok plan ↔
      (∃ targets, s.assignments.mapM (Assignment.target · t) = .ok targets) ∧
        t.rows.mapM (s.cellsWhere t) = .ok plan := by
  rw [← exists_marked_eq_ok, Update.plan]
  simp only [bind_eq_ok]
  constructor
  · rintro ⟨targets, htargets, hmarked⟩
    exact ⟨⟨targets, htargets⟩, hmarked⟩
  · rintro ⟨⟨targets, htargets⟩, hmarked⟩
    exact ⟨targets, htargets, hmarked⟩

end Plans

/-! ## Single cells -/

section Cells

variable {t : Table} {row : Row}

theorem Assignment.target_eq_ok {a : Assignment} {target : Column × Nat} :
    a.target t = .ok target ↔ t.column? a.column.name = some target := by
  rw [Assignment.target, faultAt_eq_ok, Table.findColumn_eq_ok]

/-- An assignment writes its value, converted to the column of its name. -/
theorem Assignment.write_eq_ok {a : Assignment} {cell : Nat × Option Value} :
    a.write t row = .ok cell ↔ ∃ c value, t.column? a.column.name = some (c, cell.1) ∧
      a.value.eval (t.scope row) = .ok value ∧ c.accept value = .ok cell.2 := by
  rw [write, bind_eq_ok]
  simp only [target_eq_ok, map_eq_ok, Assignment.cell, bind_eq_ok, faultAt_eq_ok]
  constructor
  · rintro ⟨⟨c, index⟩, hcolumn, accepted, ⟨value, hvalue, haccept⟩, rfl⟩
    exact ⟨c, value, hcolumn, hvalue, haccept⟩
  · rintro ⟨c, value, hcolumn, hvalue, haccept⟩
    exact ⟨(c, cell.1), hcolumn, cell.2, ⟨value, hvalue, haccept⟩, rfl⟩

/-- A column of a row holds the last of the cells written into it. -/
theorem getElem?_writtenRow (cells : List (Nat × Option Value)) {index : Nat}
    (hindex : index < row.length) :
    (writtenRow row cells)[index]? =
      ((cells.reverse.find? (·.1 == index)).map Prod.snd).or row[index]? := by
  induction cells generalizing row with
  | nil => rfl
  | cons cell cells ih =>
      have hset : index < (row.set cell.1 cell.2).length := by rwa [List.length_set]
      have hrest : writtenRow row (cell :: cells) = writtenRow (row.set cell.1 cell.2) cells := rfl
      rw [hrest, ih hset, List.reverse_cons, List.find?_append]
      cases cells.reverse.find? (·.1 == index) with
      | some last => rfl
      | none =>
          by_cases hcell : cell.1 = index
          · subst hcell
            simp [List.getElem?_set_self hindex]
          · simp [hcell, List.getElem?_set_ne hcell]

/-- Two lists that go together find what they look for together. -/
theorem rel_find {α β : Type} {R : α → β → Prop} {xs : List α} {ys : List β}
    (hrel : List.Forall₂ R xs ys) {p : α → Bool} {q : β → Bool}
    (hsame : ∀ x y, R x y → p x = q y) : Option.Rel R (xs.find? p) (ys.find? q) := by
  induction hrel with
  | nil => exact .none
  | @cons x y xs ys hxy _ ih =>
      rw [List.find?_cons, List.find?_cons, hsame x y hxy]
      cases q y with
      | true => exact .some hxy
      | false => exact ih

end Cells

/-! ## Updates -/

/-- The last of the assignments to a column. -/
def Update.lastTo? (s : Update) (column : String) : Option Assignment :=
  s.assignments.reverse.find? (·.column.name == column)

/-- What an update makes of a row.  Where its condition is not true, the row stays.  Where it
is, an assigned column holds the value of the last assignment to it on the row as it was,
converted to the column, and every other cell stays. -/
structure Update.Maps (s : Update) (t : Table) (row row' : Row) : Prop where
  unmatched : Expr.holds (t.scope row) s.condition ≠ .ok true → row' = row
  length_eq : row'.length = row.length
  assigned : Expr.holds (t.scope row) s.condition = .ok true →
    ∀ (index : Nat) (c : Column) (a : Assignment), t.columns[index]? = some c →
      s.lastTo? c.name = some a →
        ∃ value cell, a.value.eval (t.scope row) = .ok value ∧ c.accept value = .ok cell ∧
          row'[index]? = some cell
  kept : ∀ (index : Nat) (c : Column), t.columns[index]? = some c →
    s.lastTo? c.name = none → row'[index]? = row[index]?

/-- What keeps an update from being carried out on a table. -/
inductive Update.Obstructed (s : Update) (t : Table) : Prop
  | target {a : Assignment} : a ∈ s.assignments → a.column.name ∉ t.columnNames →
      Obstructed s t
  | condition {row : Row} {e : EvalError} : row ∈ t.rows →
      Expr.holds (t.scope row) s.condition = .error e → Obstructed s t
  | value {row : Row} {a : Assignment} {e : EvalError} : row ∈ t.rows →
      Expr.holds (t.scope row) s.condition = .ok true → a ∈ s.assignments →
      a.value.eval (t.scope row) = .error e → Obstructed s t
  | cell {row : Row} {a : Assignment} {c : Column} {value : Option Value} {fault : Fault} :
      row ∈ t.rows → Expr.holds (t.scope row) s.condition = .ok true → a ∈ s.assignments →
      c ∈ t.columns → c.name = a.column.name → a.value.eval (t.scope row) = .ok value →
      c.accept value = .error fault → Obstructed s t

section Updates

variable {s : Update} {t : Table} {row : Row} {cells : List (Nat × Option Value)}

/-- On an update, the database gets the table with the planned cells. -/
theorem Database.execute_update_plan {db : Database} (hdb : db.Valid)
    (hfound : db.table? s.table.name = some t) :
    db.execute (.update s) =
      match s.plan t with
      | .ok plan => (.ok none, db.set s.table.name (t.written plan))
      | .error e => (.error (e.caughtAt s.position), db) := by
  rw [execute_update hdb s hfound, s.rows_eq_plan]
  cases s.plan t <;> rfl

/-- Among the cells of a row, those of a column belong to the assignments to it. -/
theorem Update.rel_lastTo (hnames : t.columnNames.Nodup) (hcells : s.cells t row = .ok cells)
    {index : Nat} {c : Column} (hc : t.columns[index]? = some c) :
    Option.Rel (fun a cell => Assignment.write a t row = .ok cell) (s.lastTo? c.name)
      (cells.reverse.find? (·.1 == index)) := by
  refine rel_find (List.rel_reverse (mapM_eq_ok.mp hcells)) fun a cell hwrite => ?_
  obtain ⟨d, -, hd, -⟩ := Assignment.write_eq_ok.mp hwrite
  obtain ⟨hget, hname⟩ := Table.column?_eq_some hd
  rw [Bool.eq_iff_iff, beq_iff_eq, beq_iff_eq, ← hname]
  constructor
  · intro hsame
    have hfound := Table.column?_of_getElem? hnames hc
    rw [← hsame, hname, hd] at hfound
    exact congrArg Prod.snd (Option.some.inj hfound)
  · rintro rfl
    rw [Option.some.inj (hget.symm.trans hc)]

/-- The planned cells make of a row what the update has to. -/
theorem Update.maps_of_cellsWhere (ht : t.Valid) (hrow : row ∈ t.rows)
    (hcells : s.cellsWhere t row = .ok cells) : s.Maps t row (writtenRow row cells) := by
  rcases cellsWhere_eq_ok.mp hcells with ⟨hfalse, rfl⟩ | ⟨htrue, hcells⟩
  · refine ⟨fun _ => rfl, rfl, fun htrue => ?_, fun _ _ _ _ => rfl⟩
    rw [hfalse] at htrue
    cases htrue
  · have hlt {index : Nat} {c : Column} (hc : t.columns[index]? = some c) :
        index < row.length := by
      rw [← (ht.rows row hrow).length_eq]
      exact (List.getElem?_eq_some_iff.mp hc).1
    refine ⟨fun hother => absurd htrue hother, length_writtenRow row cells, ?_, ?_⟩
    · intro _ index c a hc hlast
      have hrel := rel_lastTo ht.names hcells hc
      rw [hlast] at hrel
      generalize hfound : cells.reverse.find? (·.1 == index) = found at hrel
      obtain @⟨_, cell, hwrite⟩ := hrel
      obtain ⟨d, value, hd, hvalue, haccept⟩ := Assignment.write_eq_ok.mp hwrite
      have hindex : cell.1 = index := by simpa using List.find?_some hfound
      have hget := (Table.column?_eq_some hd).1
      rw [hindex, hc] at hget
      cases hget
      refine ⟨value, cell.2, hvalue, haccept, ?_⟩
      rw [getElem?_writtenRow cells (hlt hc), hfound]
      rfl
    · intro index c hc hlast
      have hrel := rel_lastTo ht.names hcells hc
      rw [hlast] at hrel
      generalize hfound : cells.reverse.find? (·.1 == index) = found at hrel
      cases hrel
      rw [getElem?_writtenRow cells (hlt hc), hfound]
      rfl

/-- Rows that are written side by side with their plan. -/
theorem forall₂_zipWith {α β : Type} {R : α → β → Prop} {S : α → α → Prop} {f : α → β → α}
    {xs : List α} {ys : List β} (hrel : List.Forall₂ R xs ys)
    (hstep : ∀ x ∈ xs, ∀ y, R x y → S x (f x y)) : List.Forall₂ S xs (List.zipWith f xs ys) := by
  induction hrel with
  | nil => exact .nil
  | cons hxy _ ih =>
      obtain ⟨hfirst, hothers⟩ := List.forall_mem_cons.mp hstep
      exact .cons (hfirst _ hxy) (ih hothers)

/-- A plan can be made exactly when nothing stands in its way. -/
theorem Update.exists_plan_iff (hnames : t.columnNames.Nodup) :
    (∃ plan, s.plan t = .ok plan) ↔ ¬s.Obstructed t := by
  simp only [plan_eq_ok, exists_and_left, exists_mapM_eq_ok, Assignment.target_eq_ok,
    Table.exists_column?_iff hnames]
  constructor
  · rintro ⟨hknown, hdecided⟩ hobstructed
    have hwritten {row : Row} (hrow : row ∈ t.rows)
        (htrue : Expr.holds (t.scope row) s.condition = .ok true) {a : Assignment}
        (ha : a ∈ s.assignments) : ∃ cell, a.write t row = .ok cell := by
      obtain ⟨cells, hcells⟩ := hdecided row hrow
      rcases cellsWhere_eq_ok.mp hcells with ⟨hfalse, -⟩ | ⟨-, hcells⟩
      · rw [htrue] at hfalse
        cases hfalse
      · exact exists_mapM_eq_ok.mp ⟨cells, hcells⟩ a ha
    cases hobstructed with
    | target ha hunknown => exact hunknown (hknown _ ha)
    | condition hrow herror =>
        obtain ⟨cells, hcells⟩ := hdecided _ hrow
        rw [cellsWhere, bind_of_error herror] at hcells
        cases hcells
    | value hrow htrue ha herror =>
        obtain ⟨cell, hwrite⟩ := hwritten hrow htrue ha
        obtain ⟨d, value, -, hvalue, -⟩ := Assignment.write_eq_ok.mp hwrite
        cases herror.symm.trans hvalue
    | @cell row a c value fault hrow htrue ha hc hname hvalue hfault =>
        obtain ⟨cell, hwrite⟩ := hwritten hrow htrue ha
        obtain ⟨d, value', hd, hvalue', haccept⟩ := Assignment.write_eq_ok.mp hwrite
        cases hvalue.symm.trans hvalue'
        obtain ⟨index, hget⟩ := List.mem_iff_getElem?.mp hc
        have hfound := Table.column?_of_getElem? hnames hget
        rw [hname, hd] at hfound
        cases hfound
        cases hfault.symm.trans haccept
  · intro hclear
    have hknown : ∀ a ∈ s.assignments, a.column.name ∈ t.columnNames := by
      intro a ha
      by_contra hunknown
      exact hclear (.target ha hunknown)
    refine ⟨hknown, fun row hrow => ?_⟩
    cases hdecision : Expr.holds (t.scope row) s.condition with
    | error e => exact absurd (.condition hrow hdecision) hclear
    | ok decision =>
        cases decision with
        | false => exact ⟨[], cellsWhere_eq_ok.mpr (.inl ⟨hdecision, rfl⟩)⟩
        | true =>
            have hwrites : ∀ a ∈ s.assignments, ∃ cell, a.write t row = .ok cell := by
              intro a ha
              obtain ⟨⟨c, index⟩, hfound⟩ := (Table.exists_column?_iff hnames).mpr (hknown a ha)
              obtain ⟨hget, hname⟩ := Table.column?_eq_some hfound
              cases hvalue : a.value.eval (t.scope row) with
              | error e => exact absurd (.value hrow hdecision ha hvalue) hclear
              | ok value =>
                  cases haccept : c.accept value with
                  | error fault =>
                      exact absurd (.cell hrow hdecision ha (List.mem_of_getElem? hget) hname
                        hvalue haccept) hclear
                  | ok cell =>
                      exact ⟨(index, cell), Assignment.write_eq_ok.mpr
                        ⟨c, value, hfound, hvalue, haccept⟩⟩
            obtain ⟨cells, hcells⟩ := exists_mapM_eq_ok.mpr hwrites
            exact ⟨cells, cellsWhere_eq_ok.mpr (.inr ⟨hdecision, hcells⟩)⟩

end Updates

/-- An update that succeeds makes of every row what its condition and its assignments say of
the row as it was: no row comes or goes or moves, and nothing else in the database changes.
It fails exactly when a target is no column, the condition is not decided on a row, or on a
row where it is true a value cannot be computed or does not fit its column. -/
theorem update_maps_rows {db : Database} (hdb : db.Reachable) (s : Update) {t : Table}
    (hfound : db.table? s.table.name = some t) :
    ((db.execute (.update s)).1.isOk → ∃ rows,
      db.execute (.update s) = (.ok none, db.set s.table.name { t with rows := rows }) ∧
        List.Forall₂ (s.Maps t) t.rows rows) ∧
    ((∃ e, (db.execute (.update s)).1 = .error e) ↔ s.Obstructed t) := by
  have ht : t.Valid := (hdb.valid _ t hfound).2
  have hplan := s.exists_plan_iff ht.names
  rw [Database.execute_update_plan hdb.valid hfound]
  cases hcase : s.plan t with
  | error e =>
      have hobstructed : s.Obstructed t := by
        by_contra hclear
        obtain ⟨plan, hok⟩ := hplan.mpr hclear
        cases hok.symm.trans hcase
      exact ⟨nofun, fun _ => hobstructed, fun _ => ⟨_, rfl⟩⟩
  | ok plan =>
      refine ⟨fun _ => ⟨_, rfl, ?_⟩, ?_, fun hobstructed => ?_⟩
      · exact forall₂_zipWith (mapM_eq_ok.mp (Update.plan_eq_ok.mp hcase).2)
          fun row hrow cells => Update.maps_of_cellsWhere ht hrow
      · rintro ⟨e, herror⟩
        cases herror
      · exact absurd hobstructed (hplan.mp ⟨plan, hcase⟩)

/-- `UPDATE stock SET id = id + 10, label = 'moved', id = id + 1 WHERE id = 2`. -/
def renumbering : Update :=
  ⟨⟨4, 0⟩, ⟨⟨4, 7⟩, "stock"⟩,
    [⟨⟨⟨4, 17⟩, "id"⟩, .binary .plus (.ident ⟨⟨4, 22⟩, "id"⟩) (.literal ⟨4, 27⟩ (.integer 10))⟩,
      ⟨⟨⟨4, 31⟩, "label"⟩, .literal ⟨4, 39⟩ (.string "moved")⟩,
      ⟨⟨⟨4, 48⟩, "id"⟩, .binary .plus (.ident ⟨⟨4, 53⟩, "id"⟩) (.literal ⟨4, 58⟩ (.integer 1))⟩],
    some (.binary .equal (.ident ⟨⟨4, 66⟩, "id"⟩) (.literal ⟨4, 71⟩ (.integer 2)))⟩

/-- Of the two assignments to the number the second one counts, and it sees the old number. -/
theorem stock_renumbered :
    stock.Reachable ∧ stock.table? renumbering.table.name = some stockTable ∧
      (stock.execute (.update renumbering)).1.isOk ∧
      ∃ row row', stock.execute (.update renumbering) =
          (.ok none, stock.set "stock" { stockTable with rows := [row, row'] }) ∧
        row = [some (.integer 1), none] ∧ row'[0]? = some (some (.integer 3)) ∧
        row'[1]? = some (some (.string "moved")) := by
  obtain ⟨rows, hexecute, hrows⟩ :=
    (update_maps_rows stock_reachable renumbering stock_table).1 rfl
  obtain _ | @⟨_, row, _, _, hfirst, _ | @⟨_, row', _, _, hsecond, ⟨⟩⟩⟩ := hrows
  have hother : Expr.holds (stockTable.scope [some (.integer 1), none]) renumbering.condition =
    .ok false := rfl
  refine ⟨stock_reachable, stock_table, rfl, row, row', hexecute, ?_, ?_, ?_⟩
  · apply hfirst.unmatched
    rw [hother]
    nofun
  · obtain ⟨value, cell, hvalue, haccept, hcell⟩ := hsecond.assigned rfl 0 _ _ rfl rfl
    cases hvalue
    cases haccept
    exact hcell
  · obtain ⟨value, cell, hvalue, haccept, hcell⟩ := hsecond.assigned rfl 1 _ _ rfl rfl
    cases hvalue
    cases haccept
    exact hcell

end PocketSql
