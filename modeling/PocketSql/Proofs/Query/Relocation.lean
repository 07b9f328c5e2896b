import Mathlib
import PocketSql.Proofs.Query.Slots
import PocketSql.Proofs.Syntax.Relocation

/-!
# Statements in other places

What a statement does does not depend on where it stands: moved elsewhere it gives the
same answers, the same faults at the positions moved alike, and the same database.  No
position gets into the database.
-/

namespace PocketSql

section Rules

variable {place : Position → Position} {α β : Type} {f : α → α} {g : β → β}

/-- The outcome with its result or the position of its error moved. -/
def relocated (place : Position → Position) (f : α → α) : Except EvalError α → Except EvalError α
  | .ok a => .ok (f a)
  | .error e => .error (e.move place)

/-- The second computation succeeds with the moved result of the first one, or fails with
its moved error. -/
def Relocates (place : Position → Position) (f : α → α) (x x' : Except EvalError α) : Prop :=
  x' = relocated place f x

theorem Relocates.ok (a : α) : Relocates place f (.ok a) (.ok (f a)) :=
  rfl

theorem Relocates.error (e : EvalError) : Relocates place f (.error e) (.error (e.move place)) :=
  rfl

theorem Relocates.bind {x x' : Except EvalError α} {k k' : α → Except EvalError β}
    (hx : Relocates place f x x')
    (hk : ∀ a, x = .ok a → Relocates place g (k a) (k' (f a))) :
    Relocates place g (x >>= k) (x' >>= k') := by
  cases x with
  | error e =>
      obtain rfl := hx
      rfl
  | ok a =>
      obtain rfl := hx
      exact hk a rfl

theorem Relocates.faultAt (position : Position) (x : Except Fault α) :
    Relocates place id (faultAt position x) (PocketSql.faultAt (place position) x) := by
  cases x <;> rfl

theorem Relocates.map {x x' : Except EvalError α} {h : α → β} (hx : Relocates place f x x')
    (hh : ∀ a, h (f a) = g (h a)) : Relocates place g (x.map h) (x'.map h) := by
  cases x with
  | error e =>
      obtain rfl := hx
      rfl
  | ok a =>
      obtain rfl := hx
      exact congrArg Except.ok (hh a)

theorem Relocates.mapM {γ : Type} {move : γ → γ} {k k' : γ → Except EvalError α} {xs : List γ}
    (hk : ∀ x ∈ xs, Relocates place f (k x) (k' (move x))) :
    Relocates place (List.map f) (xs.mapM k) ((xs.map move).mapM k') := by
  induction xs with
  | nil => rfl
  | cons x xs ih =>
      obtain ⟨hx, hxs⟩ := List.forall_mem_cons.mp hk
      rw [List.map_cons, List.mapM_cons, List.mapM_cons]
      refine hx.bind fun a _ => ?_
      exact (ih hxs).bind fun as _ => rfl

/-- Results without positions are the same. -/
theorem Relocates.mapM_id {γ : Type} {move : γ → γ} {k k' : γ → Except EvalError α} {xs : List γ}
    (hk : ∀ x ∈ xs, Relocates place id (k x) (k' (move x))) :
    Relocates place id (xs.mapM k) ((xs.map move).mapM k') := by
  have hmapM := Relocates.mapM hk
  rwa [List.map_id_fun] at hmapM

theorem Relocates.mapM_same {γ : Type} {k k' : γ → Except EvalError α} {xs : List γ}
    (hk : ∀ x ∈ xs, Relocates place id (k x) (k' x)) :
    Relocates place id (xs.mapM k) (xs.mapM k') := by
  have hmapM : Relocates place id (xs.mapM k) ((xs.map id).mapM k') := Relocates.mapM_id hk
  rwa [List.map_id] at hmapM

end Rules

/-! ## Expressions -/

section Expressions

variable (place : Position → Position)

theorem Expr.eval_move (scope : Scope) :
    (e : Expr) → Relocates place id (e.eval scope) ((e.move place).eval scope)
  | .ident name => .faultAt name.position _
  | .literal _ value => .ok value.value
  | .star position => .error ⟨position, .misplacedStar⟩
  | .call function _ => .error ⟨function.position, .scalarFunction function.name⟩
  | .unary position op operand =>
      (operand.eval_move scope).bind fun value _ => .faultAt position _
  | .binary op lhs rhs => by
      rw [Expr.move, Expr.eval, Expr.eval, Expr.position_move]
      refine (lhs.eval_move scope).bind fun left _ => ?_
      refine (rhs.eval_move scope).bind fun right _ => ?_
      exact .faultAt lhs.position _

theorem Expr.holds_move (scope : Scope) (condition : Option Expr) :
    Relocates place id (Expr.holds scope condition)
      (Expr.holds scope (condition.map (Expr.move place))) := by
  cases condition with
  | none => rfl
  | some condition =>
      refine (condition.eval_move place scope).bind fun value _ => ?_
      cases value with
      | none => rfl
      | some value =>
          rw [id, Expr.position_move]
          exact .faultAt condition.position _

mutual

theorem Expr.hasAggregate_move : (e : Expr) → (e.move place).hasAggregate = e.hasAggregate
  | .ident _ | .literal _ _ | .star _ => rfl
  | .unary _ _ operand => operand.hasAggregate_move
  | .binary _ lhs rhs => by
      rw [Expr.move, Expr.hasAggregate, Expr.hasAggregate, lhs.hasAggregate_move,
        rhs.hasAggregate_move]
  | .call function arguments => by
      rw [Expr.move, Expr.hasAggregate, Expr.hasAggregate, Expr.anyHasAggregate_move arguments]
      rfl

theorem Expr.anyHasAggregate_move :
    (es : List Expr) → Expr.anyHasAggregate (Expr.moveAll place es) = Expr.anyHasAggregate es
  | [] => rfl
  | e :: es => by
      rw [Expr.moveAll, Expr.anyHasAggregate, Expr.anyHasAggregate, e.hasAggregate_move,
        Expr.anyHasAggregate_move es]

end

mutual

theorem Expr.checkAggregate_move (inside : Bool) :
    (e : Expr) → Relocates place id (e.checkAggregate inside) ((e.move place).checkAggregate inside)
  | .literal _ _ | .star _ => rfl
  | .ident name => by
      rw [Expr.move, Expr.checkAggregate, Expr.checkAggregate]
      split <;> rfl
  | .unary _ _ operand => operand.checkAggregate_move inside
  | .binary _ lhs rhs =>
      (lhs.checkAggregate_move inside).bind fun _ _ => rhs.checkAggregate_move inside
  | .call function arguments => by
      rw [Expr.move, Expr.checkAggregate, Expr.checkAggregate]
      have hname : (function.move place).name = function.name := rfl
      rw [hname]
      split
      · split
        · exact .error _
        · exact Expr.checkAllAggregate_move true arguments
      · exact Expr.checkAllAggregate_move inside arguments

theorem Expr.checkAllAggregate_move (inside : Bool) :
    (es : List Expr) → Relocates place id (Expr.checkAllAggregate inside es)
      (Expr.checkAllAggregate inside (Expr.moveAll place es))
  | [] => rfl
  | e :: es => (e.checkAggregate_move inside).bind fun _ _ => Expr.checkAllAggregate_move inside es

end

end Expressions

/-! ## Aggregate projections -/

section Aggregates

variable (place : Position → Position)

def Slot.move (s : Slot) : Slot :=
  { s with argument := s.argument.map (Expr.move place) }

def Shell.move : Shell → Shell
  | slot index => .slot index
  | unary position op operand => .unary (place position) op operand.move
  | binary position op lhs rhs => .binary (place position) op lhs.move rhs.move
  | leaf e => .leaf (e.move place)

theorem Slot.ofCall_move (function : Ident) (arguments : List Expr) :
    Slot.ofCall (function.move place) (arguments.map (Expr.move place)) =
      (Slot.ofCall function arguments).map (Slot.move place) := by
  have hname : (function.move place).name = function.name := rfl
  rw [Slot.ofCall, Slot.ofCall, hname]
  cases AggregateFunction.ofName? function.name with
  | none => rfl
  | some known =>
      rcases arguments with _ | ⟨argument, _ | ⟨second, rest⟩⟩
      · cases known <;> rfl
      · cases known <;> cases argument <;> rfl
      · cases known <;> simp [Except.map]

/-- Slots and shell of a moved expression, by its structure. -/
theorem Shell.ofExpr_move (slots : List Slot) : (e : Expr) →
    ofExpr (slots.map (Slot.move place)) (e.move place) =
      Prod.map (relocated place (Shell.move place)) (List.map (Slot.move place)) (ofExpr slots e)
  | .ident _ | .literal _ _ | .star _ => rfl
  | .call function arguments => by
      rw [Expr.move_call, ofExpr, ofExpr, Slot.ofCall_move]
      cases Slot.ofCall function arguments with
      | error fault => rfl
      | ok new => simp [faultAt, Except.mapError, Except.map, relocated, Shell.move]
  | .unary position op e => by
      rw [Expr.move, ofExpr, ofExpr, ofExpr_move slots e]
      generalize ofExpr slots e = result
      obtain ⟨error | shell, slots⟩ := result <;> rfl
  | .binary op lhs rhs => by
      rw [Expr.move, ofExpr, ofExpr, Expr.position_move, ofExpr_move slots lhs]
      generalize ofExpr slots lhs = result
      obtain ⟨error | left, slots⟩ := result
      · rfl
      simp only [Prod.map_apply, relocated, ofExpr_move slots rhs]
      generalize ofExpr slots rhs = result
      obtain ⟨error | right, slots⟩ := result <;> rfl

theorem shellsOf_move (slots : List Slot) (es : List Expr) :
    Relocates place (Prod.map (List.map (Shell.move place)) (List.map (Slot.move place)))
      (shellsOf slots es)
      (shellsOf (slots.map (Slot.move place)) (es.map (Expr.move place))) := by
  induction es generalizing slots with
  | nil => rfl
  | cons e es ih =>
      rw [List.map_cons, shellsOf, shellsOf, Shell.ofExpr_move]
      refine (e.checkAggregate_move place false).bind fun _ _ => ?_
      generalize Shell.ofExpr slots e = result
      obtain ⟨error | shell, slots⟩ := result
      · rfl
      · exact (ih slots).bind fun _ _ => rfl

/-- The slots that a shell numbers have to be there. -/
theorem Shell.eval_move {slots : List Slot} {results : List (Option Value)}
    (hresults : slots.length = results.length) {e : Expr} {shell : Shell}
    (h : Encloses slots e shell) :
    Relocates place id (shell.eval results) ((shell.move place).eval results) := by
  induction h with
  | slot hindex _ =>
      have hlt := hresults ▸ (List.getElem?_eq_some_iff.mp hindex).1
      rw [Shell.move, Shell.eval, List.getElem?_eq_getElem hlt]
      rfl
  | @unary position op _ shell _ ih => exact ih.bind fun operand _ => .faultAt position _
  | @binary op lhs rhs left right _ _ ihl ihr =>
      exact ihl.bind fun left _ => ihr.bind fun right _ => .faultAt lhs.position _
  | leaf e => exact e.eval_move place .empty

theorem Slot.step_move (position : Position) (scope : Scope) (s : Slot) :
    Relocates place (Slot.move place) (s.step position scope)
      ((s.move place).step (place position) scope) := by
  obtain ⟨argument, accumulator⟩ := s
  cases argument with
  | none => exact (Relocates.faultAt position (accumulator.step none)).bind fun _ _ => rfl
  | some argument =>
      refine (argument.eval_move place scope).bind fun value _ => ?_
      simp only [Slot.move, Option.map_some, Option.elim_some, Expr.position_move]
      exact (Relocates.faultAt argument.position (accumulator.step value)).bind fun _ _ => rfl

/-- By induction on the rows. -/
theorem Table.accumulate_move (t : Table) (position : Position) (condition : Option Expr)
    (slots : List Slot) (rows : List Row) :
    Relocates place (List.map (Slot.move place)) (t.accumulate position condition slots rows)
      (t.accumulate (place position) (condition.map (Expr.move place))
        (slots.map (Slot.move place)) rows) := by
  induction rows generalizing slots with
  | nil => rfl
  | cons row rows ih =>
      rw [accumulate, accumulate]
      refine (Expr.holds_move place (t.scope row) condition).bind fun holds _ => ?_
      cases holds with
      | false => exact ih slots
      | true =>
          refine (Relocates.mapM fun s _ => s.step_move place position (t.scope row)).bind
            fun slots _ => ?_
          exact ih slots

end Aggregates

/-! ## Queries -/

section Queries

variable (place : Position → Position)

theorem Expr.heading_move (e : Expr) : (e.move place).heading = e.heading := by
  cases e <;> rfl

theorem Table.expand_move (t : Table) (e : Expr) :
    t.expand (e.move place) = (t.expand e).map (Expr.move place) := by
  cases e with
  | star position =>
      simp [Expr.move, expand, Ident.move]
  | ident | literal | unary | binary | call => rfl

theorem Table.flatMap_expand_move (t : Table) (es : List Expr) :
    (es.map (Expr.move place)).flatMap t.expand =
      (es.flatMap t.expand).map (Expr.move place) := by
  simp only [List.flatMap_map, List.map_flatMap, expand_move]

theorem Table.matching_move (t : Table) (condition : Option Expr) :
    Relocates place id (t.matching condition)
      (t.matching (condition.map (Expr.move place))) :=
  Relocates.mapM_same fun row _ => Expr.holds_move place (t.scope row) condition

theorem Table.project_move (t : Table) (projections : List Expr) (condition : Option Expr) :
    Relocates place id (t.project projections condition)
      (t.project (projections.map (Expr.move place)) (condition.map (Expr.move place))) := by
  refine (t.matching_move place condition).bind fun mask _ => ?_
  refine (Relocates.mapM_same fun row _ =>
    Relocates.mapM_id fun e _ => e.eval_move place (t.scope row)).bind fun rows _ => ?_
  have hheadings : (projections.map (Expr.move place)).map Expr.heading =
      projections.map Expr.heading := by
    rw [List.map_map]
    exact List.map_congr_left fun e _ => e.heading_move place
  rw [hheadings]
  rfl

theorem Table.aggregate_move (t : Table) (position : Position) (projections : List Expr)
    (condition : Option Expr) :
    Relocates place id (t.aggregate position projections condition)
      (t.aggregate (place position) (projections.map (Expr.move place))
        (condition.map (Expr.move place))) := by
  refine (shellsOf_move place [] projections).bind fun (shells, slots) hshells => ?_
  refine (t.accumulate_move place position condition slots t.rows).bind fun slots' hslots => ?_
  have hcolumns : (shells.map (Shell.move place)).map (fun _ => "?") = shells.map fun _ => "?" := by
    rw [List.map_map]
    rfl
  have hresults : (slots'.map (Slot.move place)).map (fun s => s.accumulator.result) =
      slots'.map fun s => s.accumulator.result := by
    rw [List.map_map]
    rfl
  have hlength : slots.length = (slots'.map fun s => s.accumulator.result).length := by
    rw [List.length_map]
    exact length_of_accumulate hslots
  dsimp only [Prod.map]
  rw [hcolumns, hresults]
  split
  · rfl
  · refine (Relocates.mapM_id fun shell hshell => ?_).bind fun row _ => rfl
    obtain ⟨-, hencloses⟩ := encloses_of_shellsOf hshells
    obtain ⟨index, hindex, rfl⟩ := List.mem_iff_getElem.mp hshell
    have hencloses' := (List.forall₂_iff_get.mp hencloses).2 index
      (hencloses.length_eq ▸ hindex) hindex
    exact Shell.eval_move place hlength hencloses'

theorem Select.source_move (s : Select) (db : Database) :
    Relocates place id (s.source db) ((s.move place).source db) := by
  obtain ⟨position, projections, table, condition⟩ := s
  cases table with
  | ident name =>
      have hfind : Relocates place id (db.find name) (db.find (name.move place)) := by
        unfold Database.find Ident.move
        cases db.table? name.name <;> rfl
      exact hfind
  | literal | star | unary | call => rfl
  | binary op lhs rhs =>
      have herror := congrArg (fun p => (⟨p, .tableSubexpression⟩ : EvalError))
        (Expr.position_move place lhs)
      exact congrArg Except.error herror

theorem Select.run_move (s : Select) (db : Database) :
    Relocates place id (s.run db) ((s.move place).run db) := by
  refine (s.source_move place db).bind fun t _ => ?_
  rw [id, move, t.flatMap_expand_move]
  have hany : ((s.projections.flatMap t.expand).map (Expr.move place)).any Expr.hasAggregate =
      (s.projections.flatMap t.expand).any Expr.hasAggregate := by
    rw [List.any_map]
    exact congrArg _ (funext fun e => e.hasAggregate_move place)
  dsimp only
  rw [hany]
  split
  · exact t.aggregate_move place s.position _ s.condition
  · exact t.project_move place _ s.condition

end Queries

/-! ## Work in place -/

section Work

variable {place : Position → Position} {σ α β : Type}

/-- The second work does what the first one does, and fails with the moved error. -/
def WorkRelocates (place : Position → Position) (w w' : EStateM EvalError σ α) : Prop :=
  ∀ s, w' s = match w s with
    | .ok a s => .ok a s
    | .error e s => .error (e.move place) s

theorem WorkRelocates.refl_of_ok {w : EStateM EvalError σ α} (hw : ∀ s, ∃ a s', w s = .ok a s') :
    WorkRelocates place w w := by
  intro s
  obtain ⟨a, s', heq⟩ := hw s
  rw [heq]

theorem WorkRelocates.bind {w w' : EStateM EvalError σ α} {k k' : α → EStateM EvalError σ β}
    (hw : WorkRelocates place w w') (hk : ∀ a, WorkRelocates place (k a) (k' a)) :
    WorkRelocates place (w >>= k) (w' >>= k') := by
  intro s
  rw [work_bind, work_bind, hw s]
  cases w s with
  | error e s => rfl
  | ok a s => exact hk a s

theorem WorkRelocates.get : WorkRelocates place (get : EStateM EvalError σ σ) get :=
  .refl_of_ok fun s => ⟨s, s, rfl⟩

theorem WorkRelocates.lift {x x' : Except EvalError α} (hx : Relocates place id x x') :
    WorkRelocates place (liftExcept x : EStateM EvalError σ α) (liftExcept x') := by
  intro s
  cases x with
  | error e =>
      obtain rfl := hx
      rfl
  | ok a =>
      obtain rfl := hx
      rfl

theorem WorkRelocates.throw (position : Position) (fault : Fault) :
    WorkRelocates place (throw ⟨position, fault⟩ : EStateM EvalError σ α)
      (throw ⟨place position, fault⟩) :=
  fun _ => rfl

theorem WorkRelocates.workAt (position : Position) (w : EStateM Fault σ α) :
    WorkRelocates place (workAt position w) (PocketSql.workAt (place position) w) := by
  intro s
  rw [workAt_eq, workAt_eq]
  cases w s <;> rfl

theorem WorkRelocates.forM {xs : List α} {k k' : α → EStateM EvalError σ PUnit}
    (hk : ∀ x, WorkRelocates place (k x) (k' x)) :
    WorkRelocates place (forM xs k) (forM xs k') := by
  induction xs with
  | nil => exact .refl_of_ok fun s => ⟨_, s, rfl⟩
  | cons x xs ih =>
      rw [List.forM_cons, List.forM_cons]
      exact (hk x).bind fun _ => ih

end Work

section Statements

variable (place : Position → Position)

theorem ColumnDefinition.defaultValue_move (d : ColumnDefinition) :
    Relocates place id d.defaultValue (d.move place).defaultValue := by
  obtain ⟨name, type, nullable, default, autoIncrement⟩ := d
  cases default with
  | none => rfl
  | some e =>
      refine (e.eval_move place .empty).bind fun value _ => ?_
      cases value with
      | none => rfl
      | some value =>
          simp only [id, move, Expr.position_move]
          exact (Relocates.faultAt e.position _).bind fun _ _ => rfl

theorem ColumnDefinition.column_move (d : ColumnDefinition) :
    Relocates place id d.column (d.move place).column := by
  refine (d.defaultValue_move place).bind fun default _ => ?_
  have hmark : (d.move place).autoIncrement = d.autoIncrement := rfl
  simp only [hmark]
  split
  · exact .faultAt d.name.position _
  · rfl

theorem columnsOf_move (seen : List String) (definitions : List ColumnDefinition) :
    Relocates place id (columnsOf seen definitions)
      (columnsOf seen (definitions.map (ColumnDefinition.move place))) := by
  induction definitions generalizing seen with
  | nil => rfl
  | cons d rest ih =>
      rw [List.map_cons, columnsOf, columnsOf]
      have hname : (d.move place).name.name = d.name.name := rfl
      rw [hname]
      split
      · rfl
      · refine (d.column_move place).bind fun c _ => ?_
        exact (ih _).bind fun others _ => rfl

theorem CreateTable.work_move (s : CreateTable) :
    WorkRelocates place s.work (s.move place).work := by
  refine WorkRelocates.get.bind fun db => ?_
  have hname : (s.move place).table.name = s.table.name := rfl
  rw [hname]
  split
  · exact .throw s.table.position _
  · refine (WorkRelocates.lift (columnsOf_move place [] s.columns)).bind fun columns => ?_
    exact .refl_of_ok fun db => ⟨_, _, rfl⟩

theorem Database.onTable_move {α : Type} {name : Ident} {w w' : EStateM EvalError Table α}
    (hw : WorkRelocates place w w') :
    WorkRelocates place (onTable name w) (onTable (name.move place) w') := by
  intro db
  unfold onTable Database.find
  have hname : (name.move place).name = name.name := rfl
  rw [hname]
  cases db.table? name.name with
  | none => rfl
  | some t =>
      simp only [hw t]
      cases w t <;> rfl

theorem Insert.work_move (s : Insert) : WorkRelocates place s.work (s.move place).work := by
  refine WorkRelocates.get.bind fun t => ?_
  have hnames : (s.move place).columns.map Ident.name = s.columns.map Ident.name := by
    rw [move, List.map_map]
    rfl
  rw [hnames]
  refine (WorkRelocates.lift (.faultAt s.position _)).bind fun targets => ?_
  have hvalues : (s.move place).values.length = s.values.length := List.length_map _
  rw [hvalues]
  split
  · exact .throw s.position _
  · refine (WorkRelocates.lift (Relocates.mapM_id fun e _ => e.eval_move place .empty)).bind
      fun values => ?_
    exact .workAt s.position _

theorem Assignment.change_move (a : Assignment) (scope : Scope) (target : Column × Nat)
    (row : Nat) : Relocates place id (a.change scope target row)
      ((a.move place).change scope target row) := by
  refine (a.value.eval_move place scope).bind fun value _ => ?_
  simp only [id, move, Expr.position_move]
  exact (Relocates.faultAt a.value.position _).bind fun _ _ => rfl

theorem Table.changes_move (t : Table) (assignments : List Assignment)
    (targets : List (Column × Nat)) (mask : List Bool) :
    Relocates place id (t.changes (assignments.zip targets) mask)
      (t.changes ((assignments.map (Assignment.move place)).zip targets) mask) := by
  rw [List.zip_map_left]
  refine (Relocates.mapM_same fun (row, index) _ => ?_).bind fun _ _ => rfl
  exact .mapM_id fun (a, target) _ => a.change_move place (t.scope row) target index

theorem Update.work_move (s : Update) : WorkRelocates place s.work (s.move place).work := by
  refine WorkRelocates.get.bind fun t => ?_
  refine (WorkRelocates.lift (Relocates.mapM_id fun a _ => ?_)).bind fun targets => ?_
  · exact .faultAt a.column.position _
  refine (WorkRelocates.lift (t.matching_move place s.condition)).bind fun mask => ?_
  refine (WorkRelocates.lift (t.changes_move place s.assignments targets mask)).bind
    fun changes => ?_
  exact .forM fun d => .workAt s.position _

theorem Delete.work_move (s : Delete) : WorkRelocates place s.work (s.move place).work := by
  obtain ⟨position, table, condition⟩ := s
  refine WorkRelocates.get.bind fun t => ?_
  cases condition with
  | none => exact .refl_of_ok fun t => ⟨_, _, rfl⟩
  | some condition =>
      refine (WorkRelocates.lift (t.matching_move place (some condition))).bind fun mask => ?_
      exact .workAt position _

theorem Statement.work_move (s : Statement) : WorkRelocates place s.work (s.move place).work := by
  cases s with
  | createTable s =>
      exact (s.work_move place).bind fun _ => .refl_of_ok fun s => ⟨none, s, rfl⟩
  | select s =>
      exact WorkRelocates.get.bind fun db =>
        .lift ((s.run_move place db).map fun _ => rfl)
  | insert s =>
      exact (Database.onTable_move place (s.work_move place)).bind fun _ =>
        .refl_of_ok fun s => ⟨none, s, rfl⟩
  | update s =>
      exact (Database.onTable_move place (s.work_move place)).bind fun _ =>
        .refl_of_ok fun s => ⟨none, s, rfl⟩
  | delete s =>
      exact (Database.onTable_move place (s.work_move place)).bind fun _ =>
        .refl_of_ok fun s => ⟨none, s, rfl⟩

theorem Statement.position_move (s : Statement) : (s.move place).position = place s.position := by
  cases s <;> rfl

theorem EvalError.caughtAt_move (position : Position) (e : EvalError) :
    caughtAt (place position) (e.move place) = (caughtAt position e).move place := by
  obtain ⟨_, fault⟩ := e
  cases fault with
  | misuse fault => cases fault <;> rfl
  | _ => rfl

/-- A moved statement does the same, with the position of its error moved. -/
theorem Database.execute_move (db : Database) (s : Statement) :
    db.execute (s.move place) =
      ((db.execute s).1.mapError (Located.move place), (db.execute s).2) := by
  rw [execute, execute, s.work_move place db, s.position_move place]
  cases s.work db with
  | ok result db' => rfl
  | error e db' => exact congrArg (Except.error ·, db') (EvalError.caughtAt_move place s.position e)

theorem Database.executeAll_move (db : Database) (statements : List Statement) :
    db.executeAll (statements.map (Statement.move place)) =
      ((db.executeAll statements).1.map (Except.mapError (Located.move place)),
        (db.executeAll statements).2) := by
  induction statements generalizing db with
  | nil => rfl
  | cons s rest ih =>
      simp only [List.map_cons, executeAll, execute_move, ih]

end Statements

end PocketSql
