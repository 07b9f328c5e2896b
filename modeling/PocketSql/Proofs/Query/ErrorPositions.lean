import Mathlib
import PocketSql.Proofs.Query.Relocation
import PocketSql.Proofs.Store.Reachable
import PocketSql.Proofs.Syntax.Walk

/-!
# Where errors stand

Execution looks at no position: a statement whose nodes are moved does the same and moves its
error along.  A statement that a move leaves alone therefore keeps its error too, so the error
stands where the move changes nothing.  The move that changes a single position shows that every
error stands at a node of its statement.
-/

namespace PocketSql

/-- Moves one position and leaves all others. -/
def awayFrom (position : Position) : Position → Position :=
  fun p => if p = position then ⟨p.line + 1, p.column⟩ else p

theorem awayFrom_self_ne (position : Position) : awayFrom position position ≠ position := by
  intro heq
  rw [awayFrom, if_pos rfl] at heq
  exact Nat.succ_ne_self position.line (congrArg Position.line heq)

theorem awayFrom_of_ne {position p : Position} (hp : p ≠ position) : awayFrom position p = p :=
  if_neg hp

/-! ## Statements whose nodes stay -/

section Fixed

variable {place : Position → Position}

/-- All nodes stay where they are. -/
def Fixes (place : Position → Position) (ns : List Node) : Prop :=
  ∀ n ∈ ns, place n.position = n.position

theorem Fixes.append {ns ms : List Node} :
    Fixes place (ns ++ ms) ↔ Fixes place ns ∧ Fixes place ms :=
  List.forall_mem_append

theorem Fixes.cons {n : Node} {ns : List Node} :
    Fixes place (n :: ns) ↔ place n.position = n.position ∧ Fixes place ns :=
  List.forall_mem_cons

theorem Fixes.flatMap {α : Type} {f : α → List Node} {xs : List α} :
    Fixes place (xs.flatMap f) ↔ ∀ x ∈ xs, Fixes place (f x) :=
  List.forall_mem_flatMap

theorem map_eq_self {α : Type} {f : α → α} {xs : List α} (hf : ∀ x ∈ xs, f x = x) :
    xs.map f = xs :=
  (List.map_congr_left hf).trans (List.map_id' xs)

theorem Ident.move_eq_self {name : Ident} (hname : place name.position = name.position) :
    name.move place = name := by
  rw [move, hname]

open Outline (all_node flatMap_all_outlines)

mutual

theorem Expr.move_eq_self : (e : Expr) → Fixes place e.outline.all → e.move place = e
  | .ident name, hfixes =>
      congrArg Expr.ident (Ident.move_eq_self (Fixes.cons.mp hfixes).1)
  | .literal position value, hfixes =>
      congrArg (Expr.literal · value) (Fixes.cons.mp hfixes).1
  | .star position, hfixes => congrArg Expr.star (Fixes.cons.mp hfixes).1
  | .unary position op operand, hfixes => by
      rw [outline, all_node, List.flatMap_singleton, Fixes.cons] at hfixes
      exact congrArg₂ (Expr.unary · op) hfixes.1 (operand.move_eq_self hfixes.2)
  | .binary op lhs rhs, hfixes => by
      rw [outline, all_node, List.flatMap_cons, List.flatMap_singleton, Fixes.cons,
        Fixes.append] at hfixes
      exact congrArg₂ (Expr.binary op) (lhs.move_eq_self hfixes.2.1) (rhs.move_eq_self hfixes.2.2)
  | .call function arguments, hfixes => by
      rw [outline, all_node, List.flatMap_cons, Fixes.cons, Fixes.append] at hfixes
      exact congrArg₂ Expr.call (Ident.move_eq_self hfixes.1)
        (Expr.moveAll_eq_self arguments hfixes.2.2)

theorem Expr.moveAll_eq_self : (es : List Expr) → Fixes place ((outlines es).flatMap Outline.all) →
    Expr.moveAll place es = es
  | [], _ => rfl
  | e :: es, hfixes => by
      rw [outlines, List.flatMap_cons, Fixes.append] at hfixes
      exact congrArg₂ List.cons (e.move_eq_self hfixes.1) (Expr.moveAll_eq_self es hfixes.2)

end

theorem map_move_eq_self {es : List Expr} (hes : Fixes place (es.flatMap fun e => e.outline.all)) :
    es.map (Expr.move place) = es :=
  map_eq_self fun e he => e.move_eq_self (Fixes.flatMap.mp hes e he)

theorem option_move_eq_self {value : Option Expr}
    (hvalue : Fixes place (value.toList.flatMap fun e => e.outline.all)) :
    value.map (Expr.move place) = value := by
  cases value with
  | none => rfl
  | some e =>
      rw [Option.toList_some, List.flatMap_singleton] at hvalue
      exact congrArg some (e.move_eq_self hvalue)

theorem ColumnDefinition.move_eq_self {d : ColumnDefinition} (hd : Fixes place d.outline.all) :
    d.move place = d := by
  rw [outline, all_node, List.flatMap_map, Fixes.cons] at hd
  rw [move, Ident.move_eq_self hd.1, option_move_eq_self hd.2]

theorem Assignment.move_eq_self {a : Assignment}
    (ha : Fixes place (a.outlines.flatMap Outline.all)) : a.move place = a := by
  rw [outlines, List.flatMap_cons, List.flatMap_singleton, Fixes.append] at ha
  exact congrArg₂ Assignment.mk (Ident.move_eq_self (Fixes.cons.mp ha.1).1)
    (a.value.move_eq_self ha.2)

/-- A statement stays where it is if its nodes do. -/
theorem Statement.move_eq_self {s : Statement} (hs : Fixes place s.outline.all) :
    s.move place = s := by
  rw [outline, all_node, Fixes.cons] at hs
  obtain ⟨hposition, hs⟩ := hs
  cases s with
  | createTable s =>
      rw [children, List.flatMap_cons, List.flatMap_map, Fixes.append, Fixes.flatMap] at hs
      have htable := Ident.move_eq_self (Fixes.cons.mp hs.1).1
      have hcolumns := map_eq_self fun d hd => ColumnDefinition.move_eq_self (hs.2 d hd)
      rw [move, CreateTable.move, show place s.position = s.position from hposition, htable,
        hcolumns]
  | select s =>
      rw [children, flatMap_all_outlines, List.flatMap_append, List.flatMap_cons, Fixes.append,
        Fixes.append] at hs
      rw [move, Select.move, show place s.position = s.position from hposition,
        map_move_eq_self hs.1, s.table.move_eq_self hs.2.1, option_move_eq_self hs.2.2]
  | insert s =>
      rw [children, List.flatMap_append, List.flatMap_cons, List.flatMap_map,
        flatMap_all_outlines, Fixes.append, Fixes.append, Fixes.flatMap] at hs
      have htable := Ident.move_eq_self (Fixes.cons.mp hs.1.1).1
      have hcolumns := map_eq_self fun c hc => Ident.move_eq_self (Fixes.cons.mp (hs.1.2 c hc)).1
      rw [move, Insert.move, show place s.position = s.position from hposition, htable, hcolumns,
        map_move_eq_self hs.2]
  | update s =>
      rw [children, List.flatMap_append, List.flatMap_cons, List.flatMap_assoc,
        flatMap_all_outlines, Fixes.append, Fixes.append, Fixes.flatMap] at hs
      have htable := Ident.move_eq_self (Fixes.cons.mp hs.1.1).1
      have hassignments := map_eq_self fun a ha => Assignment.move_eq_self (hs.1.2 a ha)
      rw [move, Update.move, show place s.position = s.position from hposition, htable,
        hassignments, option_move_eq_self hs.2]
  | delete s =>
      rw [children, List.flatMap_cons, flatMap_all_outlines, Fixes.append] at hs
      rw [move, Delete.move, show place s.position = s.position from hposition,
        Ident.move_eq_self (Fixes.cons.mp hs.1).1, option_move_eq_self hs.2]

end Fixed

/-! ## Errors -/

/-- An error that did not stand at a node would stand elsewhere behind a move of its position,
which changes nothing of the statement. -/
theorem Database.exists_node_of_error {db : Database} {s : Statement} {e : EvalError}
    (herror : (db.execute s).1 = .error e) : ∃ n ∈ s.outline.all, n.position = e.position := by
  by_contra hnone
  have hfixes : Fixes (awayFrom e.position) s.outline.all := fun n hn =>
    awayFrom_of_ne fun heq => hnone ⟨n, hn, heq⟩
  have hmove := congrArg Prod.fst (db.execute_move (awayFrom e.position) s)
  rw [Statement.move_eq_self hfixes, herror] at hmove
  exact awayFrom_self_ne e.position (congrArg Located.position (Except.error.inj hmove)).symm

theorem faultAt_eq_error {α : Type} {position : Position} {x : Except Fault α} {e : EvalError} :
    faultAt position x = .error e ↔ e.position = position ∧ x = .error e.value := by
  obtain ⟨position', fault⟩ := e
  cases x <;> simp [faultAt, Except.mapError, eq_comm, and_comm]

theorem Expr.eval_binary {scope : Scope} {lhs rhs : Expr} {left right : Option Value}
    (hleft : lhs.eval scope = .ok left) (hright : rhs.eval scope = .ok right) (op : Kind) :
    (Expr.binary op lhs rhs).eval scope = faultAt lhs.position (Operator.binary op left right) := by
  rw [eval, hleft, hright]
  rfl

namespace Shell

theorem eval_binary {results : List (Option Value)} {first second : Shell}
    {left right : Option Value} (hleft : first.eval results = .ok left)
    (hright : second.eval results = .ok right) (position : Position) (op : Kind) :
    (binary position op first second).eval results =
      faultAt position (Operator.binary op left right) := by
  rw [eval, hleft, hright]
  rfl

/-- The shell of a binary expression stands where its left operand does. -/
theorem ofExpr_binary {slots slots' : List Slot} {op : Kind} {lhs rhs : Expr} {shell : Shell}
    (hshell : ofExpr slots (.binary op lhs rhs) = (.ok shell, slots')) :
    ∃ first second between, ofExpr slots lhs = (.ok first, between) ∧
      ofExpr between rhs = (.ok second, slots') ∧
      shell = .binary lhs.position op first second := by
  rw [ofExpr] at hshell
  split at hshell
  · cases hshell
  · next first between hfirst =>
    split at hshell
    · cases hshell
    · next second behind hsecond =>
      cases hshell
      exact ⟨first, second, between, hfirst, hsecond, rfl⟩

end Shell

/-- Whatever a statement is and wherever it is executed, its error stands at one of the nodes
that a walk enters.  When a binary operator fails on the values of its operands, the error stands
at the left operand, and so it does when the operands are the shells of aggregate projections. -/
theorem errors_stand_at_nodes :
    (∀ (db : Database) (s : Statement) (e : EvalError), (db.execute s).1 = .error e →
      ∃ n ∈ s.outline.entered (fun _ => false), n.position = e.position) ∧
    (∀ (scope : Scope) (op : Kind) (lhs rhs : Expr) (left right : Option Value) (e : EvalError),
      lhs.eval scope = .ok left → rhs.eval scope = .ok right →
        ((Expr.binary op lhs rhs).eval scope = .error e ↔
          e.position = lhs.position ∧ Operator.binary op left right = .error e.value)) ∧
    ∀ (slots slots' : List Slot) (op : Kind) (lhs rhs : Expr) (shell : Shell),
      Shell.ofExpr slots (.binary op lhs rhs) = (.ok shell, slots') →
        ∃ first second between, Shell.ofExpr slots lhs = (.ok first, between) ∧
          Shell.ofExpr between rhs = (.ok second, slots') ∧
          ∀ (results : List (Option Value)) (left right : Option Value) (e : EvalError),
            first.eval results = .ok left → second.eval results = .ok right →
              (shell.eval results = .error e ↔
                e.position = lhs.position ∧ Operator.binary op left right = .error e.value) := by
  refine ⟨fun db s e herror => ?_, fun scope op lhs rhs left right e hleft hright => ?_, ?_⟩
  · rw [Outline.entered_eq_all]
    exact Database.exists_node_of_error herror
  · rw [Expr.eval_binary hleft hright]
    exact faultAt_eq_error
  · intro slots slots' op lhs rhs shell hshell
    obtain ⟨first, second, between, hfirst, hsecond, rfl⟩ := Shell.ofExpr_binary hshell
    refine ⟨first, second, between, hfirst, hsecond, fun results left right e hleft hright => ?_⟩
    rw [Shell.eval_binary hleft hright]
    exact faultAt_eq_error

/-- What `select *, count(id) from stock` is read as. -/
def starAndCount : Statement :=
  .select ⟨⟨1, 0⟩, [.star ⟨1, 7⟩, .call ⟨⟨1, 10⟩, "count"⟩ [.ident ⟨⟨1, 16⟩, "id"⟩]],
    .ident ⟨⟨1, 25⟩, "stock"⟩, none⟩

/-- The projection of `select sum(id)/0 from stock`. -/
def ratio : Expr :=
  .binary .slash (.call ⟨⟨1, 7⟩, "sum"⟩ [.ident ⟨⟨1, 11⟩, "id"⟩]) (.literal ⟨1, 15⟩ (.integer 0))

set_option maxRecDepth 4000 in
/-- A column that a star stands for is reported at the star, and a division at its dividend. -/
theorem star_and_quotient_blamed :
    (parse "select *, count(id) from stock" = .ok [starAndCount] ∧ stock.Reachable ∧
      (stock.execute starAndCount).1 = .error ⟨⟨1, 7⟩, .ungroupedColumn "id"⟩ ∧
      ∃ n ∈ starAndCount.outline.entered (fun _ => false), n.position = ⟨1, 7⟩) ∧
    (Expr.binary .slash (.literal ⟨1, 7⟩ (.integer 6)) (.literal ⟨1, 9⟩ (.integer 0))).eval
      .empty = .error ⟨⟨1, 7⟩, .divideByZero⟩ ∧
    ∃ shell slots, Shell.ofExpr [] ratio = (.ok shell, slots) ∧
      shell.eval [some (.integer 9)] = .error ⟨⟨1, 7⟩, .divideByZero⟩ := by
  obtain ⟨hnodes, hexpressions, hshells⟩ := errors_stand_at_nodes
  have hread : parse "select *, count(id) from stock" = .ok [starAndCount] := by
    cbv
  have herror : (stock.execute starAndCount).1 = .error ⟨⟨1, 7⟩, .ungroupedColumn "id"⟩ := rfl
  have hratio : Shell.ofExpr [] ratio = (.ok (.binary ⟨1, 7⟩ .slash (.slot 0)
      (.leaf (.literal ⟨1, 15⟩ (.integer 0)))),
        [⟨some (.ident ⟨⟨1, 11⟩, "id"⟩), .start .sum⟩]) := rfl
  obtain ⟨first, second, between, hfirst, hsecond, hfails⟩ := hshells _ _ _ _ _ _ hratio
  cases hfirst
  cases hsecond
  refine ⟨⟨hread, stock_reachable, herror, hnodes stock _ _ herror⟩, ?_, _, _, hratio, ?_⟩
  · exact (hexpressions .empty .slash _ _ _ _ ⟨⟨1, 7⟩, .divideByZero⟩ rfl rfl).mpr ⟨rfl, rfl⟩
  · exact (hfails [some (.integer 9)] _ _ ⟨⟨1, 7⟩, .divideByZero⟩ rfl rfl).mpr ⟨rfl, rfl⟩

end PocketSql
