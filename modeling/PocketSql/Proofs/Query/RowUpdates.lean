import Mathlib
import PocketSql.Proofs.Store.Effect

/-!
# Updates row by row

An update computes all cells first and then writes them one after the other, each at the
index of its row and of its column.  On a valid table no write fails, and all of them
together put behind every marked row the row that its own cells make of it.
-/

namespace PocketSql

/-- The cell that an assignment computes for its column. -/
def Assignment.cell (a : Assignment) (scope : Scope) (column : Column) :
    Except EvalError (Option Value) := do
  let value ← a.value.eval scope
  faultAt a.value.position (column.accept value)

/-- What assignments write into a row, computed from the row before the first write: the
indices of the columns with their cells. -/
def Table.assignedCells (t : Table) (assignments : List (Assignment × (Column × Nat)))
    (row : Row) : Except EvalError (List (Nat × Option Value)) :=
  assignments.mapM fun (a, target) => (a.cell (t.scope row) target.1).map (target.2, ·)

/-- A row in which cells have been written, one after the other. -/
def writtenRow (row : Row) (cells : List (Nat × Option Value)) : Row :=
  cells.foldl (fun row cell => row.set cell.1 cell.2) row

/-- The rows of a table behind assignments to those that a mask marks. -/
def Table.rewritten (t : Table) (assignments : List (Assignment × (Column × Nat)))
    (rows : List Row) (mask : List Bool) : Except EvalError (List Row) :=
  (rows.zip mask).mapM fun (row, marked) =>
    if marked then (t.assignedCells assignments row).map (writtenRow row) else .ok row

@[simp]
theorem length_writtenRow (row : Row) (cells : List (Nat × Option Value)) :
    (writtenRow row cells).length = row.length := by
  induction cells generalizing row with
  | nil => rfl
  | cons cell cells ih =>
      calc
        (writtenRow row (cell :: cells)).length = (row.set cell.1 cell.2).length := ih _
        _ = row.length := List.length_set

namespace Table

variable {t : Table} {assignments : List (Assignment × (Column × Nat))} {row : Row}

theorem change_eq (a : Assignment) (scope : Scope) (target : Column × Nat) (index : Nat) :
    a.change scope target index =
      (a.cell scope target.1).map fun cell => ⟨index, target.2, cell⟩ := by
  rw [Assignment.change, Assignment.cell]
  cases a.value.eval scope with
  | error e => rfl
  | ok value =>
      simp only [bind, Except.bind]
      cases faultAt a.value.position (target.1.accept value) <;> rfl

/-- The changes of a row are its cells, at the index of the row. -/
theorem mapM_change (row : Row) (index : Nat) :
    (assignments.mapM fun (a, target) => a.change (t.scope row) target index) =
      (t.assignedCells assignments row).map (List.map fun cell => ⟨index, cell.1, cell.2⟩) := by
  rw [assignedCells, ← mapM_map]
  congr 1
  funext ⟨a, target⟩
  simp only [change_eq]
  cases a.cell (t.scope row) target.1 <;> rfl

theorem lt_of_mem_assignedCells {cells : List (Nat × Option Value)}
    (hcells : t.assignedCells assignments row = .ok cells) {bound : Nat}
    (hbound : ∀ p ∈ assignments, p.2.2 < bound) : ∀ cell ∈ cells, cell.1 < bound := by
  intro cell hcell
  obtain ⟨⟨a, target⟩, hmem, hstep⟩ := exists_of_mem_mapM hcells hcell
  obtain ⟨accepted, -, rfl⟩ := map_eq_ok.mp hstep
  exact hbound _ hmem

/-! ## Writing -/

/-- Writes changes one after the other. -/
def writeAll (position : Position) (changes : List Change) : EStateM EvalError Table Unit :=
  forM changes fun d => PocketSql.workAt position (writeCell d.row d.column d.cell)

theorem writeAll_append (position : Position) (front back : List Change) {t t' : Table}
    (hfront : writeAll position front t = .ok () t') :
    writeAll position (front ++ back) t = writeAll position back t' := by
  induction front generalizing t with
  | nil =>
      cases hfront
      rfl
  | cons d front ih =>
      rw [writeAll, work_forM_cons] at hfront
      rw [writeAll, List.cons_append, work_forM_cons]
      cases hd : PocketSql.workAt position (writeCell d.row d.column d.cell) t with
      | error e u =>
          rw [hd] at hfront
          cases hfront
      | ok _ u =>
          rw [hd] at hfront
          exact ih hfront

/-- The cells of one row are written into that row. -/
theorem writeAll_row (position : Position) {index : Nat} {cells : List (Nat × Option Value)}
    {t : Table} (hrow : t.rows[index]? = some row) (hcells : ∀ cell ∈ cells, cell.1 < row.length) :
    writeAll position (cells.map fun cell => ⟨index, cell.1, cell.2⟩) t =
      .ok () { t with rows := t.rows.set index (writtenRow row cells) } := by
  induction cells generalizing t row with
  | nil =>
      obtain ⟨hindex, rfl⟩ := List.getElem?_eq_some_iff.mp hrow
      rw [writtenRow, List.foldl_nil, List.set_getElem_self]
      rfl
  | cons cell cells ih =>
      obtain ⟨hcell, hrest⟩ := List.forall_mem_cons.mp hcells
      have hindex : index < t.rows.length := (List.getElem?_eq_some_iff.mp hrow).1
      have hwritten : (t.rows.set index (row.set cell.1 cell.2))[index]? =
          some (row.set cell.1 cell.2) := by
        rw [List.getElem?_set_self hindex]
      rw [List.map_cons, writeAll, work_forM_cons, workAt_eq, writeCell_eq hrow hcell]
      have hbehind := ih (t := { t with rows := t.rows.set index (row.set cell.1 cell.2) })
        hwritten (by simpa using hrest)
      rw [List.set_set] at hbehind
      exact hbehind

/-! ## All rows -/

/-- The changes of the rows that a mask marks, when the first row has the index `start`. -/
def changesFrom (t : Table) (assignments : List (Assignment × (Column × Nat))) (start : Nat)
    (rows : List Row) (mask : List Bool) : Except EvalError (List (List Change)) :=
  ((((rows.zipIdx start).zip mask).filter Prod.snd).map Prod.fst).mapM fun (row, index) =>
    assignments.mapM fun (assignment, target) => assignment.change (t.scope row) target index

theorem changes_eq (mask : List Bool) :
    t.changes assignments mask =
      (t.changesFrom assignments 0 t.rows mask).map List.flatten := by
  have hchanges : t.changes assignments mask = (do
      let changes ← t.changesFrom assignments 0 t.rows mask
      return changes.flatten) := rfl
  rw [hchanges]
  cases t.changesFrom assignments 0 t.rows mask <;> rfl

theorem changesFrom_true (start : Nat) (rows : List Row) (mask : List Bool) :
    t.changesFrom assignments start (row :: rows) (true :: mask) = (do
      let cells ← t.assignedCells assignments row
      let others ← t.changesFrom assignments (start + 1) rows mask
      return (cells.map fun cell => ⟨start, cell.1, cell.2⟩) :: others) := by
  have hfirst : t.changesFrom assignments start (row :: rows) (true :: mask) = (do
      let first ← assignments.mapM fun (a, target) => a.change (t.scope row) target start
      let others ← t.changesFrom assignments (start + 1) rows mask
      return first :: others) := by
    rw [changesFrom, List.zipIdx_cons, List.zip_cons_cons, List.filter_cons_of_pos rfl,
      List.map_cons, List.mapM_cons]
    rfl
  rw [hfirst, mapM_change]
  cases t.assignedCells assignments row <;> rfl

theorem changesFrom_false (start : Nat) (rows : List Row) (mask : List Bool) :
    t.changesFrom assignments start (row :: rows) (false :: mask) =
      t.changesFrom assignments (start + 1) rows mask := by
  rfl

theorem rewritten_true (rows : List Row) (mask : List Bool) :
    t.rewritten assignments (row :: rows) (true :: mask) = (do
      let cells ← t.assignedCells assignments row
      let others ← t.rewritten assignments rows mask
      return writtenRow row cells :: others) := by
  have hfirst : t.rewritten assignments (row :: rows) (true :: mask) = (do
      let first ← (t.assignedCells assignments row).map (writtenRow row)
      let others ← t.rewritten assignments rows mask
      return first :: others) := by
    rw [rewritten, List.zip_cons_cons, List.mapM_cons]
    rfl
  rw [hfirst]
  cases t.assignedCells assignments row <;> rfl

theorem rewritten_false (rows : List Row) (mask : List Bool) :
    t.rewritten assignments (row :: rows) (false :: mask) = (do
      let others ← t.rewritten assignments rows mask
      return row :: others) := by
  rw [rewritten, List.zip_cons_cons, List.mapM_cons]
  rfl

/-- Either the changes of the marked rows fail as the rewritten rows do, or writing them
behind the rows that are done leaves the rewritten rows. -/
theorem writeAll_changesFrom (position : Position) {width : Nat}
    (hwidth : ∀ p ∈ assignments, p.2.2 < width) {rows : List Row}
    (hrows : ∀ row ∈ rows, row.length = width) {mask : List Bool}
    (hmask : mask.length = rows.length) (done : List Row) :
    (∃ e, t.changesFrom assignments done.length rows mask = .error e ∧
      t.rewritten assignments rows mask = .error e) ∨
    ∃ changes rows', t.changesFrom assignments done.length rows mask = .ok changes ∧
      t.rewritten assignments rows mask = .ok rows' ∧
      writeAll position changes.flatten { t with rows := done ++ rows } =
        .ok () { t with rows := done ++ rows' } := by
  induction rows generalizing mask done with
  | nil =>
      obtain rfl := List.length_eq_zero_iff.mp hmask
      exact .inr ⟨[], [], rfl, rfl, rfl⟩
  | cons row rows ih =>
      obtain ⟨hrow, hothers⟩ := List.forall_mem_cons.mp hrows
      cases mask with
      | nil => cases hmask
      | cons marked mask =>
          have hlength : mask.length = rows.length := by simpa using hmask
          cases marked with
          | false =>
              have hbehind := ih hothers hlength (done ++ [row])
              rw [List.length_append, List.length_singleton] at hbehind
              rw [changesFrom_false, rewritten_false]
              rcases hbehind with ⟨e, hchanges, hrewritten⟩ |
                ⟨changes, rows', hchanges, hrewritten, hwritten⟩
              · exact .inl ⟨e, hchanges, by rw [hrewritten]; rfl⟩
              · refine .inr ⟨changes, row :: rows', hchanges, by rw [hrewritten]; rfl, ?_⟩
                simpa only [List.append_assoc, List.singleton_append] using hwritten
          | true =>
              rw [changesFrom_true, rewritten_true]
              cases hcells : t.assignedCells assignments row with
              | error e => exact .inl ⟨e, rfl, rfl⟩
              | ok cells =>
                  have hbehind := ih hothers hlength (done ++ [writtenRow row cells])
                  rw [List.length_append, List.length_singleton] at hbehind
                  rcases hbehind with ⟨e, hchanges, hrewritten⟩ |
                    ⟨changes, rows', hchanges, hrewritten, hwritten⟩
                  · exact .inl ⟨e, by rw [hchanges]; rfl, by rw [hrewritten]; rfl⟩
                  · refine .inr ⟨_, _, by rw [hchanges]; rfl, by rw [hrewritten]; rfl, ?_⟩
                    have hget : (done ++ row :: rows)[done.length]? = some row := by simp
                    have hfirst := writeAll_row position
                      (t := { t with rows := done ++ row :: rows }) hget
                      fun cell hcell => hrow ▸ lt_of_mem_assignedCells hcells hwidth cell hcell
                    rw [List.flatten_cons, writeAll_append position _ _ hfirst]
                    simpa [List.set_append] using hwritten

end Table

/-- The rows that an update puts in place of those of the table. -/
def Update.rows (s : Update) (t : Table) : Except EvalError (List Row) := do
  let targets ← s.assignments.mapM (Assignment.target · t)
  let mask ← t.matching s.condition
  t.rewritten (s.assignments.zip targets) t.rows mask

/-- An update of a valid table replaces all rows at once, or fails and leaves them. -/
theorem Update.work_eq (s : Update) {t : Table} (ht : t.Valid) :
    s.work t =
      match s.rows t with
      | .ok rows => .ok () { t with rows := rows }
      | .error e => .error e t := by
  rw [Update.work, Update.rows]
  simp only [work_bind, work_get]
  cases htargets : s.assignments.mapM (Assignment.target · t) with
  | error e => rfl
  | ok targets =>
      cases hmask : t.matching s.condition with
      | error e => rfl
      | ok mask =>
          have hwidth : ∀ p ∈ s.assignments.zip targets, p.2.2 < t.columns.length := by
            intro p hp
            exact (List.getElem?_eq_some_iff.mp (Table.column_of_targets htargets p hp)).1
          have hlength : ∀ row ∈ t.rows, row.length = t.columns.length :=
            fun _ => ht.length_row
          simp only [work_liftExcept_ok, Table.changes_eq]
          have hmasked := (length_of_mapM hmask).symm
          rcases Table.writeAll_changesFrom s.position hwidth hlength hmasked [] with
            ⟨e, hchanges, hrewritten⟩ | ⟨changes, rows, hchanges, hrewritten, hwritten⟩
          · rw [List.length_nil] at hchanges
            rw [hchanges]
            simp only [bind, Except.bind, hrewritten]
            rfl
          · rw [List.length_nil] at hchanges
            rw [hchanges]
            simp only [bind, Except.bind, hrewritten]
            exact hwritten

/-- An update on a database changes the rows of its table and nothing else. -/
theorem Database.execute_update {db : Database} (hdb : db.Valid) (s : Update) {t : Table}
    (hfound : db.table? s.table.name = some t) :
    db.execute (.update s) =
      match s.rows t with
      | .ok rows => (.ok none, db.set s.table.name { t with rows := rows })
      | .error e => (.error (e.caughtAt s.position), db) := by
  rw [execute_of_onTable (s := .update s) rfl hfound, s.work_eq (hdb _ t hfound).2]
  cases s.rows t with
  | error e => simp only [set_self hfound, Statement.position]
  | ok rows => rfl

end PocketSql
