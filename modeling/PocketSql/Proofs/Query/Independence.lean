import Mathlib
import PocketSql.Proofs.Query.Simultaneous

/-!
# Independent updates

An expression sees a row through the columns that it names, so writing other cells changes
neither its value nor its error.  An update that assigns none of the columns that another one
names leaves the plan of the other one as it was.  If the two assign different columns, it
does not matter either whose cells are written first.
-/

namespace PocketSql

mutual

/-- The names that occur in an expression where a column can stand, also in the arguments
of calls. -/
def Expr.names : Expr → List String
  | .ident name => [name.name]
  | .literal _ _ => []
  | .star _ => []
  | .unary _ _ operand => operand.names
  | .binary _ lhs rhs => lhs.names ++ rhs.names
  | .call _ arguments => Expr.allNames arguments

def Expr.allNames : List Expr → List String
  | [] => []
  | first :: rest => first.names ++ Expr.allNames rest

end

namespace Update

/-- The columns that an update assigns. -/
def assigned (s : Update) : List String :=
  s.assignments.map (·.column.name)

/-- The names in the condition and in the right-hand sides of an update. -/
def names (s : Update) : List String :=
  (s.condition.toList ++ s.assignments.map Assignment.value).flatMap Expr.names

/-- Neither update assigns a column that the other one names or assigns. -/
structure Independent (s s' : Update) : Prop where
  unnamed : s.assigned.Disjoint s'.names
  unnamed' : s'.assigned.Disjoint s.names
  unassigned : s.assigned.Disjoint s'.assigned

end Update

/-! ## What an expression sees -/

theorem Expr.eval_congr {scope scope' : Scope} {e : Expr}
    (hagree : ∀ name ∈ e.names, scope name = scope' name) : e.eval scope = e.eval scope' := by
  fun_induction Expr.eval scope e with
  | case1 name => rw [eval, hagree name.name (List.mem_singleton_self _)]
  | case2 | case3 | case4 => rfl
  | case5 position op operand ih => rw [eval, ih hagree]
  | case6 op lhs rhs ihl ihr =>
      have hleft := ihl fun name hname => hagree name (List.mem_append_left _ hname)
      have hright := ihr fun name hname => hagree name (List.mem_append_right _ hname)
      rw [eval, hleft, hright]

theorem Expr.holds_congr {scope scope' : Scope} {condition : Option Expr}
    (hagree : ∀ e ∈ condition, ∀ name ∈ e.names, scope name = scope' name) :
    Expr.holds scope condition = Expr.holds scope' condition := by
  cases condition with
  | none => rfl
  | some e => rw [holds, holds, eval_congr (hagree e rfl)]

section Frame

variable {s s' : Update} {t : Table} {row row' : Row} {cells : List (Nat × Option Value)}

/-- A row in which other columns have been written looks the same under a name. -/
theorem getElem?_writtenRow_of_ne {index : Nat} (hcells : ∀ cell ∈ cells, cell.1 ≠ index) :
    (writtenRow row cells)[index]? = row[index]? := by
  induction cells generalizing row with
  | nil => rfl
  | cons cell cells ih =>
      obtain ⟨hcell, hothers⟩ := List.forall_mem_cons.mp hcells
      calc
        (writtenRow row (cell :: cells))[index]? = (row.set cell.1 cell.2)[index]? := ih hothers
        _ = row[index]? := List.getElem?_set_ne hcell

theorem Table.scope_writtenRow {name : String}
    (hcells : ∀ cell ∈ cells, t.columnIndex? name ≠ some cell.1) :
    t.scope (writtenRow row cells) name = t.scope row name := by
  rw [scope, scope]
  cases hindex : t.columnIndex? name with
  | none => rfl
  | some index =>
      have hkept : (writtenRow row cells)[index]? = row[index]? :=
        getElem?_writtenRow_of_ne fun cell hcell heq =>
          hcells cell hcell (hindex.trans (congrArg some heq.symm))
      simp only [hkept, length_writtenRow]

/-- An update writes into columns that it assigns. -/
theorem Update.column_of_cellsWhere (hcells : s.cellsWhere t row = .ok cells)
    {cell : Nat × Option Value} (hcell : cell ∈ cells) :
    ∃ name ∈ s.assigned, t.columnIndex? name = some cell.1 := by
  rcases cellsWhere_eq_ok.mp hcells with ⟨-, rfl⟩ | ⟨-, hcells⟩
  · cases hcell
  · obtain ⟨a, ha, hwrite⟩ := exists_of_mem_mapM hcells hcell
    obtain ⟨c, value, hc, -, -⟩ := Assignment.write_eq_ok.mp hwrite
    refine ⟨a.column.name, List.mem_map_of_mem ha, ?_⟩
    rw [Table.columnIndex?, hc]
    rfl

theorem Update.cells_congr (hagree : ∀ name ∈ s.names, t.scope row name = t.scope row' name) :
    s.cells t row = s.cells t row' := by
  refine mapM_congr (List.forall₂_same.mpr fun a ha => ?_)
  have hvalue : a.value.eval (t.scope row) = a.value.eval (t.scope row') := by
    refine Expr.eval_congr fun name hname => hagree name ?_
    exact List.mem_flatMap.mpr
      ⟨a.value, List.mem_append_right _ (List.mem_map_of_mem ha), hname⟩
  simp only [Assignment.write, Assignment.cell, hvalue]

theorem Update.decision_congr (hagree : ∀ name ∈ s.names, t.scope row name = t.scope row' name) :
    Expr.holds (t.scope row) s.condition = Expr.holds (t.scope row') s.condition := by
  refine Expr.holds_congr fun e he name hname => hagree name ?_
  exact List.mem_flatMap.mpr ⟨e, List.mem_append_left _ (Option.mem_toList.mpr he), hname⟩

/-- Rows that look the same to an update are planned alike. -/
theorem Update.marked_congr {rows rows' : List Row}
    (hrows : List.Forall₂ (fun row row' => ∀ name ∈ s.names, t.scope row name = t.scope row' name)
      rows rows') (mask : List Bool) : s.marked t rows mask = s.marked t rows' mask := by
  induction hrows generalizing mask with
  | nil => rfl
  | cons hrow _ ih =>
      cases mask with
      | nil => rfl
      | cons marked mask =>
          cases marked with
          | true => rw [marked_true, marked_true, cells_congr hrow, ih]
          | false => rw [marked_false, marked_false, ih]

theorem Update.plan_congr {rows : List Row}
    (hrows : List.Forall₂ (fun row row' => ∀ name ∈ s.names, t.scope row name = t.scope row' name)
      t.rows rows) : s.plan { t with rows := rows } = s.plan t := by
  have hmask : Table.matching { t with rows := rows } s.condition = t.matching s.condition := by
    refine (mapM_congr (hrows.imp fun row row' hagree => ?_)).symm
    exact decision_congr hagree
  have hplan : s.plan { t with rows := rows } = (do
      let _ ← s.assignments.mapM (Assignment.target · t)
      let mask ← Table.matching { t with rows := rows } s.condition
      s.marked t rows mask) := rfl
  rw [hplan, hmask, plan]
  simp only [marked_congr hrows]

/-- What an update that assigns other columns writes is not seen. -/
theorem Update.plan_written {plan : List (List (Nat × Option Value))}
    (hplan : s.plan t = .ok plan) (hunnamed : s.assigned.Disjoint s'.names) :
    s'.plan (t.written plan) = s'.plan t := by
  refine plan_congr (forall₂_zipWith (mapM_eq_ok.mp (plan_eq_ok.mp hplan).2) ?_)
  intro row _ cells hcells name hname
  refine (Table.scope_writtenRow fun cell hcell hsame => ?_).symm
  obtain ⟨column, hcolumn, hindex⟩ := column_of_cellsWhere hcells hcell
  rw [Table.columnIndex?_inj hsame hindex] at hname
  exact hunnamed hcolumn hname

end Frame

/-! ## The order of writes -/

section Order

variable {row : Row} {cells cells' : List (Nat × Option Value)}

theorem writtenRow_set {index : Nat} (hcells : ∀ cell ∈ cells, cell.1 ≠ index)
    (value : Option Value) :
    writtenRow (row.set index value) cells = (writtenRow row cells).set index value := by
  induction cells generalizing row with
  | nil => rfl
  | cons cell cells ih =>
      obtain ⟨hcell, hothers⟩ := List.forall_mem_cons.mp hcells
      calc
        writtenRow (row.set index value) (cell :: cells) =
            writtenRow ((row.set cell.1 cell.2).set index value) cells := by
          rw [List.set_comm _ _ hcell]
          rfl
        _ = (writtenRow (row.set cell.1 cell.2) cells).set index value := ih hothers

/-- Cells of different columns can be written in either order. -/
theorem writtenRow_comm (hcells : ∀ cell ∈ cells, ∀ cell' ∈ cells', cell.1 ≠ cell'.1) :
    writtenRow (writtenRow row cells) cells' = writtenRow (writtenRow row cells') cells := by
  induction cells generalizing row with
  | nil => rfl
  | cons cell cells ih =>
      obtain ⟨hcell, hothers⟩ := List.forall_mem_cons.mp hcells
      calc
        writtenRow (writtenRow row (cell :: cells)) cells' =
            writtenRow (writtenRow (row.set cell.1 cell.2) cells') cells := ih hothers
        _ = writtenRow (writtenRow row cells') (cell :: cells) := by
          rw [writtenRow_set fun cell' hcell' => (hcell cell' hcell').symm]
          rfl

theorem zipWith_writtenRow_comm (rows : List Row) {plan plan' : List (List (Nat × Option Value))}
    (hplans : ∀ cells ∈ plan, ∀ cells' ∈ plan', ∀ cell ∈ cells, ∀ cell' ∈ cells',
      cell.1 ≠ cell'.1) :
    List.zipWith writtenRow (List.zipWith writtenRow rows plan) plan' =
      List.zipWith writtenRow (List.zipWith writtenRow rows plan') plan := by
  apply List.ext_getElem?
  intro index
  simp only [List.getElem?_zipWith]
  cases hrow : rows[index]? with
  | none => rfl
  | some row =>
      cases hcells : plan[index]? with
      | none => cases plan'[index]? <;> rfl
      | some cells =>
          cases hcells' : plan'[index]? with
          | none => rfl
          | some cells' =>
              exact congrArg some (writtenRow_comm (hplans _ (List.mem_of_getElem? hcells) _
                (List.mem_of_getElem? hcells')))

end Order

/-! ## Two updates -/

/-- The table behind an update. -/
def Update.after (s : Update) (t : Table) : Table :=
  match s.plan t with
  | .ok plan => t.written plan
  | .error _ => t

section Updates

variable {s s' : Update} {t : Table} {db : Database}

theorem Database.execute_update_after (hdb : db.Valid)
    (hfound : db.table? s.table.name = some t) :
    db.execute (.update s) =
      (((s.plan t).mapError (EvalError.caughtAt s.position)).map fun _ => none,
        db.set s.table.name (s.after t)) := by
  rw [execute_update_plan hdb hfound, Update.after]
  cases s.plan t with
  | error e => exact congrArg (_, ·) (set_self hfound).symm
  | ok plan => rfl

theorem Update.plan_after (hunnamed : s.assigned.Disjoint s'.names) :
    s'.plan (s.after t) = s'.plan t := by
  rw [after]
  cases hplan : s.plan t with
  | error e => rfl
  | ok plan => exact plan_written hplan hunnamed

/-- The cells of two updates that assign different columns do not meet. -/
theorem Update.plans_apart {plan plan' : List (List (Nat × Option Value))}
    (hplan : s.plan t = .ok plan) (hplan' : s'.plan t = .ok plan')
    (hunassigned : s.assigned.Disjoint s'.assigned) :
    ∀ cells ∈ plan, ∀ cells' ∈ plan', ∀ cell ∈ cells, ∀ cell' ∈ cells', cell.1 ≠ cell'.1 := by
  intro cells hcells cells' hcells' cell hcell cell' hcell' hsame
  obtain ⟨row, -, hrow⟩ := exists_of_mem_mapM (plan_eq_ok.mp hplan).2 hcells
  obtain ⟨row', -, hrow'⟩ := exists_of_mem_mapM (plan_eq_ok.mp hplan').2 hcells'
  obtain ⟨column, hcolumn, hindex⟩ := column_of_cellsWhere hrow hcell
  obtain ⟨column', hcolumn', hindex'⟩ := column_of_cellsWhere hrow' hcell'
  rw [hsame] at hindex
  rw [Table.columnIndex?_inj hindex hindex'] at hcolumn
  exact hunassigned hcolumn hcolumn'

theorem Update.Independent.after_comm (h : s.Independent s') :
    s'.after (s.after t) = s.after (s'.after t) := by
  have hplan : s'.plan (s.after t) = s'.plan t := plan_after h.unnamed
  have hplan' : s.plan (s'.after t) = s.plan t := plan_after h.unnamed'
  rw [after, hplan, after.eq_1 s (s'.after t), hplan', after, after]
  cases hs : s.plan t with
  | error e => rfl
  | ok plan =>
      cases hs' : s'.plan t with
      | error e => rfl
      | ok plan' =>
          exact congrArg (fun rows => { t with rows := rows })
            (zipWith_writtenRow_comm t.rows (plans_apart hs hs' h.unassigned))

end Updates

/-- Two updates of a table of which neither assigns a column that the other one names or
assigns do the same in either order: each has the outcome that it has on its own, and the
database behind both is the same. -/
theorem independent_updates_commute {db : Database} (hdb : db.Reachable) {s s' : Update}
    {t : Table} (hfound : db.table? s.table.name = some t)
    (htable : s'.table.name = s.table.name) (hindependent : s.Independent s') :
    ((db.execute (.update s)).2.execute (.update s')).1 = (db.execute (.update s')).1 ∧
      ((db.execute (.update s')).2.execute (.update s)).1 = (db.execute (.update s)).1 ∧
      ((db.execute (.update s)).2.execute (.update s')).2 =
        ((db.execute (.update s')).2.execute (.update s)).2 := by
  have hfound' : db.table? s'.table.name = some t := by rw [htable, hfound]
  have hfirst := Database.execute_update_after hdb.valid hfound
  have hsecond := Database.execute_update_after hdb.valid hfound'
  have hvalid := (hdb.execute (.update s)).valid
  have hvalid' := (hdb.execute (.update s')).valid
  rw [hfirst] at hvalid
  rw [hsecond] at hvalid'
  have hbehind := Database.execute_update_after (s := s') hvalid
    (t := s.after t) (by rw [htable, Database.table?_set, if_pos rfl])
  have hbehind' := Database.execute_update_after (s := s) hvalid'
    (t := s'.after t) (by rw [htable, Database.table?_set, if_pos rfl])
  rw [hfirst, hsecond, hbehind, hbehind', Update.plan_after hindependent.unnamed,
    Update.plan_after hindependent.unnamed', htable, Database.set_set, Database.set_set,
    hindependent.after_comm]
  exact ⟨rfl, rfl, rfl⟩

/-- `UPDATE stock SET label = 'a ' || label WHERE label = 'new'`. -/
def relabelling : Update :=
  ⟨⟨4, 0⟩, ⟨⟨4, 7⟩, "stock"⟩,
    [⟨⟨⟨4, 17⟩, "label"⟩,
      .binary .concat (.literal ⟨4, 25⟩ (.string "a ")) (.ident ⟨⟨4, 33⟩, "label"⟩)⟩],
    some (.binary .equal (.ident ⟨⟨4, 45⟩, "label"⟩) (.literal ⟨4, 53⟩ (.string "new")))⟩

/-- `UPDATE stock SET id = 6 / (id - 2)`, which divides by zero on the second row. -/
def dividing : Update :=
  ⟨⟨5, 0⟩, ⟨⟨5, 7⟩, "stock"⟩,
    [⟨⟨⟨5, 17⟩, "id"⟩, .binary .slash (.literal ⟨5, 22⟩ (.integer 6))
      (.binary .minus (.ident ⟨⟨5, 27⟩, "id"⟩) (.literal ⟨5, 32⟩ (.integer 2)))⟩], none⟩

theorem relabelling_commutes_with_dividing :
    stock.Reachable ∧ stock.table? relabelling.table.name = some stockTable ∧
      dividing.table.name = relabelling.table.name ∧ relabelling.Independent dividing ∧
      (stock.execute (.update relabelling)).1.isOk ∧
      ((stock.execute (.update relabelling)).2.execute (.update dividing)).1 =
        .error ⟨⟨5, 22⟩, .divideByZero⟩ ∧
      ((stock.execute (.update relabelling)).2.execute (.update dividing)).2 =
        ((stock.execute (.update dividing)).2.execute (.update relabelling)).2 := by
  have hindependent : relabelling.Independent dividing := by
    constructor <;> simp [relabelling, dividing, Update.assigned, Update.names, Expr.names]
  have htable : dividing.table.name = relabelling.table.name := rfl
  obtain ⟨houtcome, -, hfinal⟩ :=
    independent_updates_commute stock_reachable stock_table htable hindependent
  exact ⟨stock_reachable, stock_table, htable, hindependent, rfl, houtcome.trans rfl, hfinal⟩

end PocketSql
