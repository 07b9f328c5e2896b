import Mathlib
import PocketSql.Proofs.Query.Slots
import PocketSql.Proofs.Syntax.Nesting

/-!
# Faults of expressions

Which faults the evaluation of an expression can meet.  Operators apply to all values
whose operator has a precedence, and an expression that has been read has no other binary
operators.  A name finds its cell in a row that is as long as the columns, and a shell its
slot among those that were made for it.  So nothing that is evaluated is a misuse.
-/

namespace PocketSql

/-! ## Failing computations -/

section Rules

variable {ε ε' α β γ : Type} {P : ε → Prop}

/-- If the computation fails, the property holds of its error. -/
def FailsOnly (P : ε → Prop) (x : Except ε α) : Prop :=
  ∀ e, x = .error e → P e

namespace FailsOnly

theorem ok (a : α) : FailsOnly P (.ok a : Except ε α) :=
  nofun

theorem error {e : ε} (he : P e) : FailsOnly P (.error e : Except ε α) := by
  rintro _ ⟨⟩
  exact he

theorem bind {x : Except ε α} {k : α → Except ε β} (hx : FailsOnly P x)
    (hk : ∀ a, x = .ok a → FailsOnly P (k a)) : FailsOnly P (x >>= k) := by
  cases x with
  | error e => exact error (hx e rfl)
  | ok a => exact hk a rfl

theorem map {x : Except ε α} (hx : FailsOnly P x) (f : α → β) : FailsOnly P (x.map f) := by
  cases x with
  | error e => exact error (hx e rfl)
  | ok a => exact ok (f a)

theorem mapError {Q : ε' → Prop} {x : Except ε α} {f : ε → ε'} (hx : FailsOnly P x)
    (hf : ∀ e, P e → Q (f e)) : FailsOnly Q (x.mapError f) := by
  cases x with
  | error e => exact error (hf e (hx e rfl))
  | ok a => exact ok a

theorem mono {Q : ε → Prop} {x : Except ε α} (hx : FailsOnly P x) (hPQ : ∀ e, P e → Q e) :
    FailsOnly Q x :=
  fun e he => hPQ e (hx e he)

theorem mapM {k : α → Except ε β} {xs : List α} (hk : ∀ x ∈ xs, FailsOnly P (k x)) :
    FailsOnly P (xs.mapM k) := by
  induction xs with
  | nil => exact ok []
  | cons x xs ih =>
      obtain ⟨hx, hxs⟩ := List.forall_mem_cons.mp hk
      rw [List.mapM_cons]
      exact hx.bind fun _ _ => (ih hxs).bind fun _ _ => ok _

end FailsOnly

end Rules

/-- A fault that the text of a statement can bring about. -/
def Fault.Ordinary : Fault → Prop
  | misuse _ => False
  | _ => True

def Located.Ordinary (e : EvalError) : Prop :=
  e.value.Ordinary

theorem FailsOnly.faultAt {α : Type} {x : Except Fault α} (hx : FailsOnly Fault.Ordinary x)
    (position : Position) : FailsOnly Located.Ordinary (faultAt position x) :=
  hx.mapError fun _ => id

/-- A fault of an operator that meets its operands. -/
def Fault.OfOperator : Fault → Prop
  | cast _ | invalidUnary _ _ | invalidComparison _ _ _ | invalidArithmetic _ _ _ => True
  | nullOperand _ | divideByZero | integerOverflow => True
  | _ => False

theorem Fault.OfOperator.ordinary {fault : Fault} (hfault : fault.OfOperator) :
    fault.Ordinary := by
  cases fault <;> trivial

theorem FailsOnly.ordinary {α : Type} {x : Except Fault α} (hx : FailsOnly Fault.OfOperator x) :
    FailsOnly Fault.Ordinary x :=
  hx.mono fun _ => Fault.OfOperator.ordinary

theorem FailsOnly.cast {α : Type} (x : Except CastFault α) :
    FailsOnly Fault.OfOperator (orCastFault x) :=
  FailsOnly.mapError (fun _ _ => trivial) fun _ _ => trivial

/-- A fault that is no reach beyond the end of something. -/
def Fault.InBounds : Fault → Prop
  | misuse (.outOfBounds _ _) => False
  | _ => True

def Located.InBounds (e : EvalError) : Prop :=
  e.value.InBounds

theorem Fault.Ordinary.inBounds {fault : Fault} (hfault : fault.Ordinary) : fault.InBounds := by
  cases fault with
  | misuse => exact hfault.elim
  | _ => trivial

theorem FailsOnly.inBoundsAt {α : Type} {x : Except Fault α} (hx : FailsOnly Fault.InBounds x)
    (position : Position) : FailsOnly Located.InBounds (PocketSql.faultAt position x) :=
  hx.mapError fun _ => id

/-- Only a reach beyond an end is put where it is caught. -/
theorem EvalError.caughtAt_of_inBounds {e : EvalError} (he : Located.InBounds e)
    (position : Position) : caughtAt position e = e := by
  rw [caughtAt]
  split
  · next hvalue =>
    rw [Located.InBounds, hvalue] at he
    exact he.elim
  · rfl

/-! ## Operators -/

namespace Operator

variable {op : Kind}

theorem order?_fails (op : Kind) (a b : Value) :
    FailsOnly Fault.OfOperator (order? op a b) := by
  cases a <;> cases b <;> first
    | exact .ok _
    | exact (FailsOnly.cast _).bind fun _ _ => .ok _
    | exact .error trivial

theorem exists_holds? (hop : op.isComparison = true) (order : Option Ordering) :
    ∃ result, holds? op order = some result := by
  cases op <;> first
    | exact ⟨_, rfl⟩
    | cases hop

theorem comparison_fails (hop : op.isComparison = true) (a b : Option Value) :
    FailsOnly Fault.OfOperator (comparison op a b) := by
  cases a with
  | none => exact .ok false
  | some a =>
      cases b with
      | none => exact .ok false
      | some b =>
          refine (order?_fails op a b).bind fun order _ => ?_
          obtain ⟨result, hresult⟩ := exists_holds? hop order
          rw [hresult]
          exact .ok result

theorem orOverflow_fails (value : Option Int64) :
    FailsOnly Fault.OfOperator (orOverflow value) := by
  cases value with
  | none => exact .error trivial
  | some value => exact .ok value

theorem integerArithmetic_fails (hop : op.isArithmetic = true) (a b : Int64) :
    FailsOnly Fault.OfOperator (integerArithmetic op a b) := by
  cases op with
  | plus | minus | star => exact orOverflow_fails _
  | slash =>
      rw [integerArithmetic]
      split
      · exact .error trivial
      · exact orOverflow_fails _
  | _ => cases hop

theorem numberArithmetic_fails (hop : op.isArithmetic = true) (a b : Float) :
    FailsOnly Fault.OfOperator (numberArithmetic op a b) := by
  cases op with
  | plus | minus | star => exact .ok _
  | slash =>
      rw [numberArithmetic]
      split
      · exact .error trivial
      · exact .ok _
  | _ => cases hop

theorem arithmeticOf_fails (hop : op.isArithmetic = true) (a b : Value) :
    FailsOnly Fault.OfOperator (arithmeticOf op a b) := by
  cases a <;> cases b <;> first
    | exact (integerArithmetic_fails hop _ _).map _
    | exact (numberArithmetic_fails hop _ _).map _
    | exact (FailsOnly.cast _).bind fun _ _ => (integerArithmetic_fails hop _ _).map _
    | exact (FailsOnly.cast _).bind fun _ _ => (numberArithmetic_fails hop _ _).map _
    | exact .error trivial

theorem arithmetic_fails (hop : op.isArithmetic = true) (a b : Option Value) :
    FailsOnly Fault.OfOperator (arithmetic op a b) := by
  cases a with
  | none => exact .ok none
  | some a =>
      cases b with
      | none => exact .ok none
      | some b => exact (arithmeticOf_fails hop a b).map some

theorem concatenation_fails (a b : Option Value) :
    FailsOnly Fault.OfOperator (concatenation a b) := by
  cases a with
  | none => exact .ok none
  | some a =>
      cases b with
      | none => exact .ok none
      | some b =>
          exact (FailsOnly.cast _).bind fun _ _ => (FailsOnly.cast _).bind fun _ _ => .ok _

theorem logical_fails (hop : op = .kwAnd ∨ op = .kwOr) (a b : Option Value) :
    FailsOnly Fault.OfOperator (logical op a b) := by
  cases a with
  | none => exact .error trivial
  | some a =>
      cases b with
      | none => exact .error trivial
      | some b =>
          refine (FailsOnly.cast _).bind fun _ _ => (FailsOnly.cast _).bind fun _ _ => ?_
          rcases hop with rfl | rfl <;> exact .ok _

/-- Every kind with a precedence is one of the operators that are told apart. -/
theorem binary_fails (hop : op.precedence ≠ 0) (a b : Option Value) :
    FailsOnly Fault.OfOperator (binary op a b) := by
  rw [binary]
  split_ifs with hlogical hconcat hcomparison harithmetic
  · exact (logical_fails hlogical a b).map _
  · exact concatenation_fails a b
  · exact (comparison_fails hcomparison a b).map _
  · exact arithmetic_fails harithmetic a b
  · cases op <;> simp_all [Kind.precedence, Kind.isComparison, Kind.isArithmetic]

/-- A kind that is no operator misuses the operators, but reaches beyond nothing. -/
theorem binary_inBounds (op : Kind) (a b : Option Value) :
    FailsOnly Fault.InBounds (binary op a b) := by
  by_cases hop : op.precedence = 0
  · have hmisuse : binary op a b = .error (.misuse (.notBinary op)) := by
      cases op <;> first
        | rfl
        | cases hop
    rw [hmisuse]
    exact .error trivial
  · exact (binary_fails hop a b).mono fun _ hfault => hfault.ordinary.inBounds

theorem unary_fails (op : Kind) (value : Option Value) :
    FailsOnly Fault.OfOperator (unary op value) := by
  cases value with
  | none => exact .ok none
  | some value =>
      simp only [unary]
      split <;> first
        | exact .ok _
        | exact (orOverflow_fails _).map _
        | exact .error trivial

end Operator

/-! ## Expressions -/

/-- Every binary operator of the expression is one that can be applied. -/
inductive Expr.Applicable : Expr → Prop
  | ident (name : Ident) : Applicable (.ident name)
  | literal (position : Position) (value : Literal) : Applicable (.literal position value)
  | star (position : Position) : Applicable (.star position)
  | unary {position : Position} {op : Kind} {e : Expr} : Applicable e →
      Applicable (.unary position op e)
  | binary {op : Kind} {lhs rhs : Expr} : op.precedence ≠ 0 → Applicable lhs →
      Applicable rhs → Applicable (.binary op lhs rhs)
  | call {function : Ident} {arguments : List Expr} : (∀ e ∈ arguments, Applicable e) →
      Applicable (.call function arguments)

/-- What is read has no other operators, by induction on the derivation. -/
theorem ReadAt.applicable {depth level : Nat} {ts : List Token} {e : Expr}
    (hts : ReadAt depth level ts e) : e.Applicable := by
  induction hts with
  | literal => exact .literal _ _
  | name => exact .ident _
  | star => exact .star _
  | emptyCall => exact .call nofun
  | group _ _ _ _ ih => exact ih
  | sign _ _ _ ih => exact .unary ih
  | call _ _ _ _ _ ih =>
      refine .call ?_
      rintro _ he
      obtain ⟨item, hitem, rfl⟩ := List.mem_map.mp he
      exact ih item hitem
  | fold _ hop _ _ _ ihl ihr =>
      obtain ⟨hlevel, hprecedence⟩ := mem_operatorsAt.mp hop
      exact .binary (by omega) ihl ihr
  | tighter _ _ ih => exact ih

/-- A scope in which no name is a misuse. -/
def Scope.Ordinary (scope : Scope) : Prop :=
  ∀ name, FailsOnly Fault.Ordinary (scope name)

theorem Scope.empty_ordinary : Scope.empty.Ordinary := by
  intro name
  rw [empty]
  exact .error trivial

/-- A name is looked up in a row that has a cell for each column. -/
theorem Table.scope_ordinary {t : Table} {row : Row} (hrow : row.length = t.columns.length) :
    (t.scope row).Ordinary := by
  intro name
  rw [scope, columnIndex?]
  cases hcolumn : t.column? name with
  | none => exact .error trivial
  | some found =>
      obtain ⟨c, index⟩ := found
      have hlt : index < row.length :=
        hrow ▸ (List.getElem?_eq_some_iff.mp (column?_eq_some hcolumn).1).1
      simp only [Option.map_some, List.getElem?_eq_getElem hlt]
      exact .ok _

section Expressions

variable {scope : Scope}

theorem Expr.Applicable.eval_ordinary {e : Expr} (he : e.Applicable) (hscope : scope.Ordinary) :
    FailsOnly Located.Ordinary (e.eval scope) := by
  induction he with
  | ident name => exact (hscope name.name).faultAt name.position
  | literal _ value => exact .ok value.value
  | star position => exact .error trivial
  | @unary position op _ _ ih =>
      exact ih.bind fun value _ => (Operator.unary_fails op value).ordinary.faultAt position
  | @binary _ lhs _ hop _ _ ihl ihr =>
      exact ihl.bind fun left _ => ihr.bind fun right _ =>
        (Operator.binary_fails hop left right).ordinary.faultAt lhs.position
  | call => exact .error trivial

theorem Expr.holds_ordinary {condition : Option Expr} (hcondition : ∀ e ∈ condition, e.Applicable)
    (hscope : scope.Ordinary) : FailsOnly Located.Ordinary (Expr.holds scope condition) := by
  cases condition with
  | none => exact .ok true
  | some condition =>
      refine ((hcondition condition rfl).eval_ordinary hscope).bind fun value _ => ?_
      cases value with
      | none => exact .ok false
      | some value => exact (FailsOnly.cast _).ordinary.faultAt condition.position

end Expressions

/-- In a scope whose names reach beyond nothing, no part of an expression does. -/
theorem Expr.eval_inBounds {scope : Scope} (hscope : ∀ name, FailsOnly Fault.InBounds (scope name)) :
    (e : Expr) → FailsOnly Located.InBounds (e.eval scope)
  | ident name => (hscope name.name).inBoundsAt name.position
  | literal _ value => .ok value.value
  | star _ | call _ _ => .error trivial
  | unary position op operand =>
      (eval_inBounds hscope operand).bind fun value _ =>
        ((Operator.unary_fails op value).ordinary.mono fun _ => Fault.Ordinary.inBounds).inBoundsAt
          position
  | binary op lhs rhs =>
      (eval_inBounds hscope lhs).bind fun left _ => (eval_inBounds hscope rhs).bind fun right _ =>
        (Operator.binary_inBounds op left right).inBoundsAt lhs.position

theorem Expr.holds_inBounds {scope : Scope}
    (hscope : ∀ name, FailsOnly Fault.InBounds (scope name)) (condition : Option Expr) :
    FailsOnly Located.InBounds (Expr.holds scope condition) := by
  cases condition with
  | none => exact .ok true
  | some condition =>
      refine (condition.eval_inBounds hscope).bind fun value _ => ?_
      cases value with
      | none => exact .ok false
      | some value =>
          exact ((FailsOnly.cast _).ordinary.mono fun _ => Fault.Ordinary.inBounds).inBoundsAt
            condition.position

/-- On rows with a cell for each column a condition reaches beyond none. -/
theorem Table.matching_inBounds {t : Table}
    (hrows : ∀ row ∈ t.rows, row.length = t.columns.length) (condition : Option Expr) :
    FailsOnly Located.InBounds (t.matching condition) := by
  refine FailsOnly.mapM fun row hrow => Expr.holds_inBounds (fun name => ?_) condition
  exact (scope_ordinary (hrows row hrow) name).mono fun _ => Fault.Ordinary.inBounds

/-! ## Aggregates -/

mutual

theorem Expr.checkAggregate_ordinary (inside : Bool) :
    (e : Expr) → FailsOnly Located.Ordinary (e.checkAggregate inside)
  | .literal _ _ | .star _ => .ok ()
  | .ident name => by
      rw [Expr.checkAggregate]
      split
      · exact .ok ()
      · exact .error trivial
  | .unary _ _ operand => operand.checkAggregate_ordinary inside
  | .binary _ lhs rhs =>
      (lhs.checkAggregate_ordinary inside).bind fun _ _ => rhs.checkAggregate_ordinary inside
  | .call function arguments => by
      rw [Expr.checkAggregate]
      split
      · split
        · exact .error trivial
        · exact Expr.checkAllAggregate_ordinary true arguments
      · exact Expr.checkAllAggregate_ordinary inside arguments

theorem Expr.checkAllAggregate_ordinary (inside : Bool) :
    (es : List Expr) → FailsOnly Located.Ordinary (Expr.checkAllAggregate inside es)
  | [] => .ok ()
  | e :: es => (e.checkAggregate_ordinary inside).bind fun _ _ =>
      Expr.checkAllAggregate_ordinary inside es

end

/-- The argument of a slot is one that can be evaluated. -/
def Slot.Applicable (s : Slot) : Prop :=
  ∀ e ∈ s.argument, e.Applicable

theorem Slot.ofCall_ordinary (function : Ident) (arguments : List Expr) :
    FailsOnly Fault.Ordinary (Slot.ofCall function arguments) := by
  unfold Slot.ofCall
  split
  · exact .error trivial
  · split <;> first
      | exact .ok _
      | exact .error trivial

theorem Slot.applicable_of_ofCall {function : Ident} {arguments : List Expr} {s : Slot}
    (hcall : Slot.ofCall function arguments = .ok s) (harguments : ∀ e ∈ arguments, e.Applicable) :
    s.Applicable := by
  unfold Slot.ofCall at hcall
  split at hcall
  · cases hcall
  · split at hcall
    · cases hcall
      exact nofun
    · cases hcall
      rintro _ ⟨⟩
      exact harguments _ List.mem_cons_self
    · cases hcall

/-- The slots of an expression have its arguments. -/
theorem Shell.ofExpr_ordinary {e : Expr} (he : e.Applicable) {slots : List Slot}
    (hslots : ∀ s ∈ slots, s.Applicable) :
    FailsOnly Located.Ordinary (ofExpr slots e).1 ∧ ∀ s ∈ (ofExpr slots e).2, s.Applicable := by
  induction he generalizing slots with
  | ident | literal | star => exact ⟨.ok _, hslots⟩
  | @call function arguments harguments _ =>
      rw [ofExpr]
      cases hcall : Slot.ofCall function arguments with
      | error fault =>
          exact ⟨.error (Slot.ofCall_ordinary function arguments fault hcall), hslots⟩
      | ok new =>
          refine ⟨.ok _, List.forall_mem_append.mpr ⟨hslots, ?_⟩⟩
          exact List.forall_mem_singleton.mpr (Slot.applicable_of_ofCall hcall harguments)
  | @unary position op e _ ih =>
      obtain ⟨hresult, hslots'⟩ := ih hslots
      rw [ofExpr]
      generalize ofExpr slots e = result at hresult hslots' ⊢
      obtain ⟨error | shell, slots'⟩ := result
      · exact ⟨.error (hresult error rfl), hslots'⟩
      · exact ⟨.ok _, hslots'⟩
  | @binary op lhs rhs _ _ _ ihl ihr =>
      obtain ⟨hleft, hslots'⟩ := ihl hslots
      rw [ofExpr]
      generalize ofExpr slots lhs = result at hleft hslots' ⊢
      obtain ⟨error | left, slots'⟩ := result
      · exact ⟨.error (hleft error rfl), hslots'⟩
      obtain ⟨hright, hslots''⟩ := ihr hslots'
      dsimp only
      generalize ofExpr slots' rhs = result at hright hslots'' ⊢
      obtain ⟨error | right, slots''⟩ := result
      · exact ⟨.error (hright error rfl), hslots''⟩
      · exact ⟨.ok _, hslots''⟩

theorem shellsOf_ordinary {es : List Expr} (hes : ∀ e ∈ es, e.Applicable) {slots : List Slot}
    (hslots : ∀ s ∈ slots, s.Applicable) :
    FailsOnly Located.Ordinary (shellsOf slots es) ∧
      ∀ shells slots', shellsOf slots es = .ok (shells, slots') → ∀ s ∈ slots', s.Applicable := by
  induction es generalizing slots with
  | nil =>
      refine ⟨.ok _, ?_⟩
      rintro _ _ ⟨⟩
      exact hslots
  | cons e es ih =>
      obtain ⟨he, hes⟩ := List.forall_mem_cons.mp hes
      obtain ⟨hresult, hslots'⟩ := Shell.ofExpr_ordinary he hslots
      rw [shellsOf]
      generalize Shell.ofExpr slots e = result at hresult hslots' ⊢
      obtain ⟨error | shell, slots'⟩ := result
      · refine ⟨(e.checkAggregate_ordinary false).bind fun _ _ => .error (hresult error rfl), ?_⟩
        intro shells last h
        obtain ⟨_, _, h⟩ := bind_eq_ok.mp h
        cases h
      · obtain ⟨hrest, hlast⟩ := ih hes hslots'
        refine ⟨(e.checkAggregate_ordinary false).bind fun _ _ => hrest.bind fun _ _ => .ok _, ?_⟩
        intro shells last h
        obtain ⟨_, _, h⟩ := bind_eq_ok.mp h
        obtain ⟨⟨others, _⟩, hothers, heq⟩ := bind_eq_ok.mp h
        cases heq
        exact hlast others _ hothers

/-- A shell that is evaluated on as many results as there are slots finds its own. -/
theorem Shell.eval_ordinary {slots : List Slot} {results : List (Option Value)}
    (hresults : slots.length = results.length) {e : Expr} {shell : Shell}
    (hencloses : Encloses slots e shell) (he : e.Applicable) :
    FailsOnly Located.Ordinary (shell.eval results) := by
  induction hencloses with
  | slot hindex _ =>
      have hlt := hresults ▸ (List.getElem?_eq_some_iff.mp hindex).1
      rw [Shell.eval, List.getElem?_eq_getElem hlt]
      exact .ok _
  | @unary position op _ _ _ ih =>
      cases he with
      | unary he =>
          exact (ih he).bind fun value _ =>
            (Operator.unary_fails op value).ordinary.faultAt position
  | @binary _ lhs _ _ _ _ _ ihl ihr =>
      cases he with
      | binary hop hlhs hrhs =>
          exact (ihl hlhs).bind fun left _ => (ihr hrhs).bind fun right _ =>
            (Operator.binary_fails hop left right).ordinary.faultAt lhs.position
  | leaf e => exact he.eval_ordinary Scope.empty_ordinary

theorem Numeric.ofValue_ordinary (function : AggregateFunction) (value : Value) :
    FailsOnly Fault.Ordinary (Numeric.ofValue function value) := by
  cases value <;> first
    | exact .ok _
    | exact .error trivial

theorem Accumulator.addTo_ordinary (total addend : Numeric) :
    FailsOnly Fault.Ordinary (addTo total addend) := by
  cases total <;> cases addend <;> first
    | exact .ok _
    | exact (Operator.orOverflow_fails _).ordinary.map _

theorem Accumulator.step_ordinary (accumulator : Accumulator) (value : Option Value) :
    FailsOnly Fault.Ordinary (accumulator.step value) := by
  cases value with
  | none => cases accumulator <;> exact .ok _
  | some value =>
      cases accumulator with
      | rows | values => exact .ok _
      | extremum which best =>
          rw [step_extremum]
          exact (Numeric.ofValue_ordinary _ value).map _
      | sum total =>
          rw [step_sum]
          refine ((Numeric.ofValue_ordinary _ value).bind fun addend _ => ?_).map _
          cases total with
          | none => exact .ok _
          | some total => exact addTo_ordinary total addend

section Slots

variable {scope : Scope} {position : Position} {s s' : Slot}

theorem Slot.step_ordinary (hs : s.Applicable) (hscope : scope.Ordinary) :
    FailsOnly Located.Ordinary (s.step position scope) := by
  obtain ⟨argument, accumulator⟩ := s
  cases argument with
  | none =>
      exact ((accumulator.step_ordinary none).faultAt position).bind fun _ _ => .ok _
  | some argument =>
      refine ((hs argument rfl).eval_ordinary hscope).bind fun value _ => ?_
      exact ((accumulator.step_ordinary value).faultAt argument.position).bind fun _ _ => .ok _

/-- A step leaves the argument. -/
theorem Slot.applicable_of_step (hs : s.Applicable) (hstep : s.step position scope = .ok s') :
    s'.Applicable := by
  obtain ⟨argument, accumulator⟩ := s
  cases argument <;>
    · obtain ⟨_, _, hrest⟩ := bind_eq_ok.mp hstep
      obtain ⟨_, _, heq⟩ := bind_eq_ok.mp hrest
      cases heq
      exact hs

end Slots

/-- By induction on the rows, over slots that keep their arguments. -/
theorem Table.accumulate_ordinary {t : Table} {position : Position} {condition : Option Expr}
    (hcondition : ∀ e ∈ condition, e.Applicable) {slots : List Slot}
    (hslots : ∀ s ∈ slots, s.Applicable) {rows : List Row}
    (hrows : ∀ row ∈ rows, row.length = t.columns.length) :
    FailsOnly Located.Ordinary (t.accumulate position condition slots rows) := by
  induction rows generalizing slots with
  | nil => exact .ok slots
  | cons row rows ih =>
      obtain ⟨hrow, hrows⟩ := List.forall_mem_cons.mp hrows
      have hscope := scope_ordinary hrow
      rw [accumulate]
      refine (Expr.holds_ordinary hcondition hscope).bind fun holds _ => ?_
      cases holds with
      | false => exact ih hslots hrows
      | true =>
          refine (FailsOnly.mapM fun s hs => Slot.step_ordinary (hslots s hs) hscope).bind ?_
          intro slots' hslots'
          refine ih (fun s' hs' => ?_) hrows
          obtain ⟨s, hs, hstep⟩ := exists_of_mem_mapM hslots' hs'
          exact Slot.applicable_of_step (hslots s hs) hstep

end PocketSql
