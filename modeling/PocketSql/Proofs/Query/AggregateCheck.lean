import Mathlib
import PocketSql.Proofs.Outcome
import PocketSql.Query.Validation

/-!
# The check of aggregate projections

A projection is in order when no aggregate call stands in the arguments of another one and every
column does stand in those of one.  The check goes down the expression and stops at the first
part that breaks this.  It is also a walk over the nodes, whose visitor counts the calls that it
is in and holds on to the first error; the two agree because the count is back where it was
behind every part that is in order.
-/

namespace PocketSql

/-! ## Parts and what they stand in -/

/-- A part of an expression, with the expressions that it stands in, the innermost first. -/
structure Occurrence where
  around : List Expr
  expr : Expr

namespace Occurrence

/-- The part stands in the arguments of an aggregate call. -/
def inCall (o : Occurrence) : Bool :=
  o.around.any Expr.isAggregateCall

/-- What is wrong with a part where it stands. -/
inductive Breaks : Occurrence → EvalError → Prop
  | nested {around : List Expr} {function : Ident} {arguments : List Expr} :
      isAggregate function.name = true → inCall ⟨around, .call function arguments⟩ = true →
      Breaks ⟨around, .call function arguments⟩ ⟨function.position, .nestedAggregate⟩
  | ungrouped {around : List Expr} {name : Ident} :
      inCall ⟨around, .ident name⟩ = false →
      Breaks ⟨around, .ident name⟩ ⟨name.position, .ungroupedColumn name.name⟩

/-- The error of a part, if something is wrong with it. -/
def error? : Occurrence → Option EvalError
  | ⟨around, .ident name⟩ =>
    if around.any Expr.isAggregateCall then none
    else some ⟨name.position, .ungroupedColumn name.name⟩
  | ⟨around, .call function _⟩ =>
    if isAggregate function.name && around.any Expr.isAggregateCall then
      some ⟨function.position, .nestedAggregate⟩
    else none
  | _ => none

theorem error?_eq_some {o : Occurrence} {error : EvalError} :
    o.error? = some error ↔ o.Breaks error := by
  constructor
  · obtain ⟨around, e⟩ := o
    cases e with
    | ident name =>
        intro herror
        rw [error?, Option.ite_none_left_eq_some, Bool.not_eq_true] at herror
        obtain ⟨hout, herror⟩ := herror
        cases herror
        exact .ungrouped hout
    | call function arguments =>
        intro herror
        rw [error?, Option.ite_none_right_eq_some, Bool.and_eq_true] at herror
        obtain ⟨⟨hname, hin⟩, herror⟩ := herror
        cases herror
        exact .nested hname hin
    | literal | star | unary | binary => exact nofun
  · rintro (⟨hname, hin⟩ | hout)
    · rw [inCall] at hin
      rw [error?, hname, hin]
      rfl
    · rw [inCall] at hout
      rw [error?, hout]
      rfl

theorem error?_eq_none {o : Occurrence} :
    o.error? = none ↔ ∀ error, ¬o.Breaks error := by
  simp only [Option.eq_none_iff_forall_ne_some, ne_eq, error?_eq_some]

theorem unbroken_iff {o : Occurrence} : (∀ error, ¬o.Breaks error) ↔
    (o.expr.isAggregateCall = true → o.inCall = false) ∧
      ∀ name, o.expr = .ident name → o.inCall = true := by
  obtain ⟨around, e⟩ := o
  constructor
  · intro hunbroken
    constructor
    · intro hcall
      cases e with
      | call function arguments =>
          rw [← Bool.not_eq_true]
          exact fun hin => hunbroken _ (.nested hcall hin)
      | ident | literal | star | unary | binary => cases hcall
    · rintro name rfl
      rw [← Bool.not_eq_false]
      exact fun hout => hunbroken _ (.ungrouped hout)
  · rintro ⟨hcalls, hnames⟩ error (⟨hname, hin⟩ | hout)
    · exact Bool.false_ne_true ((hcalls hname).symm.trans hin)
    · exact Bool.false_ne_true (hout.symm.trans (hnames _ rfl))

end Occurrence

mutual

/-- All parts of an expression in the order of a walk. -/
def Expr.occurrences (around : List Expr) : Expr → List Occurrence
  | .unary position op operand =>
    ⟨around, .unary position op operand⟩ ::
      operand.occurrences (.unary position op operand :: around)
  | .binary op lhs rhs =>
    ⟨around, .binary op lhs rhs⟩ :: (lhs.occurrences (.binary op lhs rhs :: around) ++
      rhs.occurrences (.binary op lhs rhs :: around))
  | .call function arguments =>
    ⟨around, .call function arguments⟩ ::
      Expr.allOccurrences (.call function arguments :: around) arguments
  | .ident name => [⟨around, .ident name⟩]
  | .literal position value => [⟨around, .literal position value⟩]
  | .star position => [⟨around, .star position⟩]

def Expr.allOccurrences (around : List Expr) : List Expr → List Occurrence
  | [] => []
  | first :: rest => first.occurrences around ++ Expr.allOccurrences around rest

end

/-- A node that is an expression. -/
def Node.isExpr : Node → Bool
  | expr _ => true
  | _ => false

/-- A part as a node at its depth. -/
def Occurrence.node (o : Occurrence) : Nat × Node :=
  (o.around.length, .expr o.expr)

mutual

/-- The parts are the expressions among the nodes of the outline, in the same order, each as
deep as there are expressions around it. -/
theorem Expr.map_node_occurrences : (e : Expr) → (around : List Expr) →
    (e.occurrences around).map Occurrence.node =
      (e.outline.preorder around.length).filter fun (_, node) => node.isExpr
  | .ident _, _ | .literal _ _, _ | .star _, _ => rfl
  | .unary position op operand, around => by
      have hoperand := operand.map_node_occurrences (.unary position op operand :: around)
      rw [occurrences, List.map_cons, hoperand, outline, Outline.preorder]
      simp [Outline.preorderAll, Occurrence.node, Node.isExpr]
  | .binary op lhs rhs, around => by
      have hleft := lhs.map_node_occurrences (.binary op lhs rhs :: around)
      have hright := rhs.map_node_occurrences (.binary op lhs rhs :: around)
      rw [occurrences, List.map_cons, List.map_append, hleft, hright, outline, Outline.preorder]
      simp [Outline.preorderAll, Occurrence.node, Node.isExpr]
  | .call function arguments, around => by
      have harguments := Expr.map_node_allOccurrences arguments (.call function arguments :: around)
      rw [occurrences, List.map_cons, harguments, outline, Outline.preorder]
      simp [Outline.preorderAll, Outline.preorder, Outline.leaf, Occurrence.node, Node.isExpr]

theorem Expr.map_node_allOccurrences : (es : List Expr) → (around : List Expr) →
    (Expr.allOccurrences around es).map Occurrence.node =
      (Outline.preorderAll around.length (Expr.outlines es)).filter fun (_, node) => node.isExpr
  | [], _ => rfl
  | e :: es, around => by
      rw [allOccurrences, List.map_append, e.map_node_occurrences around,
        Expr.map_node_allOccurrences es around, outlines, Outline.preorderAll, List.filter_append]

end

/-! ## The first error -/

theorem checked_or (first second : Option EvalError) :
    checked (first.or second) = checked first >>= fun _ => checked second := by
  cases first <;> rfl

theorem checked_eq_error {first : Option EvalError} {error : EvalError} :
    checked first = .error error ↔ first = some error := by
  cases first <;> simp [checked]

theorem checked_eq_ok {first : Option EvalError} : checked first = .ok () ↔ first = none := by
  cases first <;> simp [checked]

mutual

/-- The check gives the error of the first part that has one.  By induction on the expression:
it is inside exactly when one of the expressions around it is an aggregate call. -/
theorem Expr.checkAggregate_eq : (e : Expr) → (around : List Expr) →
    e.checkAggregate (around.any isAggregateCall) =
      checked ((e.occurrences around).findSome? Occurrence.error?)
  | .literal _ _, _ | .star _, _ => rfl
  | .ident name, around => by
      rw [checkAggregate, occurrences, List.findSome?_singleton, Occurrence.error?]
      split <;> rfl
  | .unary position op operand, around => by
      have hoperand := operand.checkAggregate_eq (.unary position op operand :: around)
      rw [checkAggregate, occurrences, List.findSome?_cons]
      exact hoperand
  | .binary op lhs rhs, around => by
      have hleft := lhs.checkAggregate_eq (.binary op lhs rhs :: around)
      have hright := rhs.checkAggregate_eq (.binary op lhs rhs :: around)
      rw [checkAggregate, occurrences, List.findSome?_cons]
      simp only [Occurrence.error?]
      rw [List.findSome?_append, checked_or, ← hleft, ← hright]
      rfl
  | .call function arguments, around => by
      have harguments := Expr.checkAllAggregate_eq arguments (.call function arguments :: around)
      rw [List.any_cons, isAggregateCall] at harguments
      rw [checkAggregate, occurrences, List.findSome?_cons]
      simp only [Occurrence.error?]
      cases hname : isAggregate function.name with
      | false =>
          rw [hname, Bool.false_or] at harguments
          exact harguments
      | true =>
          rw [hname, Bool.true_or] at harguments
          cases around.any isAggregateCall with
          | false => exact harguments
          | true => rfl

theorem Expr.checkAllAggregate_eq : (es : List Expr) → (around : List Expr) →
    Expr.checkAllAggregate (around.any isAggregateCall) es =
      checked ((Expr.allOccurrences around es).findSome? Occurrence.error?)
  | [], _ => rfl
  | e :: es, around => by
      rw [checkAllAggregate, allOccurrences, List.findSome?_append, checked_or,
        e.checkAggregate_eq around, Expr.checkAllAggregate_eq es around]

end

mutual

theorem Expr.hasAggregate_eq : (e : Expr) → (around : List Expr) →
    e.hasAggregate = (e.occurrences around).any fun o => o.expr.isAggregateCall
  | .ident _, _ | .literal _ _, _ | .star _, _ => rfl
  | .unary position op operand, around => by
      rw [hasAggregate, occurrences, List.any_cons,
        operand.hasAggregate_eq (.unary position op operand :: around)]
      rfl
  | .binary op lhs rhs, around => by
      rw [hasAggregate, occurrences, List.any_cons, List.any_append,
        lhs.hasAggregate_eq (.binary op lhs rhs :: around),
        rhs.hasAggregate_eq (.binary op lhs rhs :: around)]
      rfl
  | .call function arguments, around => by
      rw [hasAggregate, occurrences, List.any_cons,
        Expr.anyHasAggregate_eq arguments (.call function arguments :: around)]
      rfl

theorem Expr.anyHasAggregate_eq : (es : List Expr) → (around : List Expr) →
    Expr.anyHasAggregate es =
      (Expr.allOccurrences around es).any fun o => o.expr.isAggregateCall
  | [], _ => rfl
  | e :: es, around => by
      rw [anyHasAggregate, allOccurrences, List.any_append, e.hasAggregate_eq around,
        Expr.anyHasAggregate_eq es around]

end

/-! ## The visitors -/

namespace Validation

/-- What a walk that was in `depth` calls is like behind a part with the given outcome. -/
def Follows (depth : Nat) (outcome : Except EvalError Unit) (s : Validation) : Prop :=
  match outcome with
  | .ok () => s = ⟨depth, none⟩
  | .error error => s.error = some error

theorem walk_of_error {s : Validation} (hs : s.error.isSome) (o : Outline) :
    o.walk validator s = s := by
  obtain ⟨root, children⟩ := o
  have henter : validator.enter root s = (false, s) := if_pos hs
  have hnone : s.error.isNone = false := by
    rw [Option.isNone_eq_false_iff]
    exact hs
  rw [Outline.walk, henter]
  cases root with
  | expr e =>
      cases e with
      | call function arguments =>
          simp only [validator, hnone, Bool.and_false, Bool.false_eq_true, if_false]
      | ident | literal | star | unary | binary => rfl
  | statement | column | name => rfl

theorem walkAll_of_error {s : Validation} (hs : s.error.isSome) (os : List Outline) :
    Outline.walkAll validator os s = s := by
  induction os with
  | nil => rfl
  | cons o os ih => rw [Outline.walkAll, walk_of_error hs, ih]

/-- The outcomes of two parts in a row. -/
theorem Follows.walkAll {depth : Nat} {first second : Except EvalError Unit} {s : Validation}
    {os : List Outline} (hs : Follows depth first s)
    (hos : Follows depth second (Outline.walkAll validator os ⟨depth, none⟩)) :
    Follows depth (first >>= fun _ => second) (Outline.walkAll validator os s) := by
  cases first with
  | ok => exact (show s = ⟨depth, none⟩ from hs) ▸ hos
  | error error =>
      have herror : s.error = some error := hs
      rw [walkAll_of_error (herror ▸ rfl)]
      exact herror

/-- Leaving an aggregate call that was entered from outside of all others. -/
theorem Follows.leave {function : Ident} {arguments : List Expr} {outcome : Except EvalError Unit}
    {s : Validation} (hname : isAggregate function.name = true) (hs : Follows 1 outcome s) :
    Follows 0 outcome (validator.leave (.expr (.call function arguments)) s) := by
  cases outcome with
  | ok =>
      cases (show s = ⟨1, none⟩ from hs)
      simp only [validator, hname]
      rfl
  | error error =>
      have herror : s.error = some error := hs
      simp only [validator, herror, Option.isNone_some, Bool.and_false, Bool.false_eq_true,
        if_false]
      exact herror

end Validation

mutual

/-- By induction on the expression: a walk counts an aggregate call while it is in it and comes
back to its count behind every part that is in order. -/
theorem Expr.follows_walk : (e : Expr) → (depth : Nat) →
    Validation.Follows depth (e.checkAggregate (decide (0 < depth)))
      (e.outline.walk validator ⟨depth, none⟩)
  | .literal _ _, _ | .star _, _ => rfl
  | .ident name, 0 => rfl
  | .ident name, depth + 1 => rfl
  | .unary position op operand, depth => operand.follows_walk depth
  | .binary op lhs rhs, depth => by
      have hleft := lhs.follows_walk depth
      have hright := rhs.follows_walk depth
      exact hleft.walkAll hright
  | .call function arguments, depth => by
      rw [checkAggregate, outline, Outline.walk]
      cases hname : isAggregate function.name with
      | false =>
          have harguments := Expr.follows_walkAll arguments depth
          simp only [validator, hname, Option.isSome_none, Bool.false_eq_true, if_false,
            Bool.false_and]
          exact harguments
      | true =>
          cases depth with
          | zero =>
              have harguments := Expr.follows_walkAll arguments 1
              have henter : validator.enter (.expr (.call function arguments)) ⟨0, none⟩ =
                  (true, ⟨1, none⟩) := by
                simp only [validator, hname, Option.isSome_none, Bool.false_eq_true, if_false,
                  if_true, lt_irrefl, Nat.zero_add]
              rw [henter]
              exact Validation.Follows.leave hname harguments
          | succ depth =>
              simp only [validator, hname, Option.isSome_none, Bool.false_eq_true, if_false,
                if_true, Nat.succ_pos, decide_true, Option.isNone_some, Bool.and_false]
              rfl

theorem Expr.follows_walkAll : (es : List Expr) → (depth : Nat) →
    Validation.Follows depth (Expr.checkAllAggregate (decide (0 < depth)) es)
      (Outline.walkAll validator (Expr.outlines es) ⟨depth, none⟩)
  | [], _ => rfl
  | e :: es, depth => (e.follows_walk depth).walkAll (Expr.follows_walkAll es depth)

end

theorem Expr.validate_eq (e : Expr) : e.validate = e.checkAggregate false := by
  have hwalk := e.follows_walk 0
  rw [validate]
  cases hcheck : e.checkAggregate false with
  | ok =>
      rw [show decide (0 < 0) = false from rfl, hcheck] at hwalk
      rw [show e.outline.walk validator ⟨0, none⟩ = ⟨0, none⟩ from hwalk]
      rfl
  | error error =>
      rw [show decide (0 < 0) = false from rfl, hcheck] at hwalk
      exact checked_eq_error.mpr hwalk

theorem Outline.walk_finder_true (o : Outline) : o.walk finder true = true := by
  obtain ⟨root, children⟩ := o
  rfl

mutual

theorem Expr.walk_finder : (e : Expr) → (found : Bool) →
    e.outline.walk finder found = (found || e.hasAggregate)
  | _, true => Outline.walk_finder_true _
  | .ident _, false | .literal _ _, false | .star _, false => rfl
  | .unary position op operand, false => operand.walk_finder false
  | .binary op lhs rhs, false => by
      change rhs.outline.walk finder (lhs.outline.walk finder false) =
        (lhs.hasAggregate || rhs.hasAggregate)
      rw [lhs.walk_finder, Bool.false_or, rhs.walk_finder]
  | .call function arguments, false => by
      have henter : finder.enter (.expr (.call function arguments)) false =
          (!isAggregate function.name, isAggregate function.name) := rfl
      rw [outline, Outline.walk, henter, hasAggregate, Bool.false_or]
      cases isAggregate function.name with
      | false => exact Expr.walkAll_finder arguments false
      | true => rfl

theorem Expr.walkAll_finder : (es : List Expr) → (found : Bool) →
    Outline.walkAll finder (Expr.outlines es) found = (found || Expr.anyHasAggregate es)
  | [], found => (Bool.or_false found).symm
  | e :: es, found => by
      rw [outlines, Outline.walkAll, e.walk_finder, Expr.walkAll_finder es, anyHasAggregate,
        Bool.or_assoc]

end

/-- The check of a projection succeeds exactly when no aggregate call stands in the arguments of
another one and every column stands in those of one.  Otherwise it gives the error of the first
part that breaks this, in the order of a walk over the nodes.  The search for aggregate calls
finds them wherever they stand.  Both are what their visitors come to. -/
theorem aggregate_check_exact (e : Expr) :
    (e.checkAggregate false = .ok () ↔
      (∀ o ∈ e.occurrences [], o.expr.isAggregateCall = true → o.inCall = false) ∧
        ∀ o ∈ e.occurrences [], ∀ name, o.expr = .ident name → o.inCall = true) ∧
    (∀ error, e.checkAggregate false = .error error ↔
      FirstError Occurrence.Breaks (e.occurrences []) error) ∧
    (e.hasAggregate = true ↔ ∃ o ∈ e.occurrences [], o.expr.isAggregateCall = true) ∧
    (e.occurrences []).map Occurrence.node = e.outline.nodes.filter (fun (_, node) => node.isExpr) ∧
    e.validate = e.checkAggregate false ∧
    e.outline.walk finder false = e.hasAggregate := by
  have hcheck : e.checkAggregate false = checked ((e.occurrences []).findSome? Occurrence.error?) :=
    e.checkAggregate_eq []
  refine ⟨?_, fun error => ?_, ?_, e.map_node_occurrences [], e.validate_eq, ?_⟩
  · rw [hcheck, checked_eq_ok, List.findSome?_eq_none_iff, ← forall₂_and]
    exact forall₂_congr fun o _ => Occurrence.error?_eq_none.trans Occurrence.unbroken_iff
  · simp only [hcheck, checked_eq_error, List.findSome?_eq_some_iff, Occurrence.error?_eq_some,
      Occurrence.error?_eq_none, FirstError]
  · rw [e.hasAggregate_eq [], List.any_eq_true]
  · rw [e.walk_finder, Bool.false_or]

end PocketSql
