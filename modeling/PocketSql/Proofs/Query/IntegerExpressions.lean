import Mathlib
import PocketSql.Proofs.Number.Words
import PocketSql.Proofs.Outcome
import PocketSql.Query.Expression

/-!
# Integer expressions

Expressions of integer literals, signs and the four operations have a value over the unbounded
integers.  Evaluation gives that value as long as every operation has a result with a word, and
otherwise it stops at the first operation that has none.
-/

namespace PocketSql

/-! ## Exact values -/

/-- The result of an operation on unbounded integers.  Nothing is divided by zero. -/
def exactResult? (op : Kind) (a b : Int) : Option Int :=
  match op with
  | .plus => some (a + b)
  | .minus => some (a - b)
  | .star => some (a * b)
  | .slash => if b = 0 then none else some (a.tdiv b)
  | _ => none

theorem exactResult?_eq_none {op : Kind} (hop : op.isArithmetic = true) {a b : Int}
    (hnone : exactResult? op a b = none) : op = .slash ∧ b = 0 := by
  cases op with
  | plus | minus | star => cases hnone
  | slash =>
      rw [exactResult?, ite_eq_left_iff] at hnone
      exact ⟨rfl, by_contra fun hb => Option.some_ne_none _ (hnone hb)⟩
  | _ => cases hop

namespace Expr

/-- Built from integer literals, signs and the four operations. -/
inductive IsInteger : Expr → Prop
  | literal {position : Position} {value : Int64} : IsInteger (.literal position (.integer value))
  | sign {position : Position} {op : Kind} {operand : Expr} :
      op = .plus ∨ op = .minus → IsInteger operand → IsInteger (.unary position op operand)
  | operation {op : Kind} {lhs rhs : Expr} :
      op.isArithmetic = true → IsInteger lhs → IsInteger rhs → IsInteger (.binary op lhs rhs)

/-- The value over the unbounded integers, if no divisor is zero. -/
def exactValue? : Expr → Option Int
  | .literal _ (.integer value) => some value.toInt
  | .unary _ .plus operand => operand.exactValue?
  | .unary _ .minus operand => operand.exactValue?.map (- ·)
  | .binary op lhs rhs => do exactResult? op (← lhs.exactValue?) (← rhs.exactValue?)
  | _ => none

/-- The signs and operations of an expression in the order of their evaluation. -/
def operations : Expr → List Expr
  | .unary position op operand => operand.operations ++ [.unary position op operand]
  | .binary op lhs rhs => lhs.operations ++ rhs.operations ++ [.binary op lhs rhs]
  | _ => []

/-- The first operand of the first operation in the text.  A sign stands for itself. -/
def leftmost : Expr → Expr
  | .binary _ lhs _ => lhs.leftmost
  | e => e

/-- The expression has an exact value, and that value has a word. -/
def Fits (e : Expr) : Prop :=
  ∃ z, e.exactValue? = some z ∧ Integer.HasWord z

/-- Why an operation has no word for a result: it divides by zero, or its exact result is too
great or too small. -/
inductive Violates : Expr → EvalError → Prop
  | division {lhs rhs : Expr} : rhs.exactValue? = some 0 →
      Violates (.binary .slash lhs rhs)
        ⟨(binary .slash lhs rhs).leftmost.position, .divideByZero⟩
  | overflow {e : Expr} {z : Int} : e.exactValue? = some z → ¬Integer.HasWord z →
      Violates e ⟨e.leftmost.position, .integerOverflow⟩

theorem position_leftmost : (e : Expr) → e.leftmost.position = e.position
  | .binary _ lhs _ => lhs.position_leftmost
  | .ident _ | .literal _ _ | .star _ | .unary _ _ _ | .call _ _ => rfl

theorem Fits.not_violates {e : Expr} (he : e.Fits) (error : EvalError) : ¬e.Violates error := by
  obtain ⟨z, hz, hword⟩ := he
  rintro (hzero | ⟨hz', hnot⟩)
  · rw [exactValue?, hzero] at hz
    obtain ⟨_, -, hz⟩ := Option.bind_eq_some_iff.mp hz
    cases hz
  · cases hz.symm.trans hz'
    exact hnot hword

/-- What divides by zero has no exact value. -/
theorem Violates.unique {e : Expr} {error other : EvalError} (he : e.Violates error)
    (hother : e.Violates other) : error = other := by
  rcases he with hzero | ⟨hz, hnot⟩ <;> rcases hother with hzero' | ⟨hz', hnot'⟩
  · rfl
  · rw [exactValue?, hzero] at hz'
    obtain ⟨_, -, hz'⟩ := Option.bind_eq_some_iff.mp hz'
    cases hz'
  · rw [exactValue?, hzero'] at hz
    obtain ⟨_, -, hz⟩ := Option.bind_eq_some_iff.mp hz
    cases hz
  · rfl

end Expr

/-! ## Operators on words -/

theorem Operator.integerArithmetic_eq {op : Kind} (hop : op.isArithmetic = true) (a b : Int64) :
    integerArithmetic op a b =
      match exactResult? op a.toInt b.toInt with
      | some z => orOverflow (Integer.ofInt? z)
      | none => .error .divideByZero := by
  cases op with
  | plus | minus | star => rfl
  | slash =>
      rw [integerArithmetic, exactResult?]
      by_cases hb : b = 0
      · rw [if_pos hb, if_pos (by rw [hb]; rfl)]
      · have hvalue : b.toInt ≠ 0 := fun hzero => hb (Int64.toInt_inj.mp hzero)
        rw [if_neg hb, if_neg hvalue, Integer.div?, if_neg hb]
  | _ => cases hop

theorem Operator.binary_integer {op : Kind} (hop : op.isArithmetic = true) (a b : Int64) :
    binary op (some (.integer a)) (some (.integer b)) =
      (integerArithmetic op a b).map (some ∘ .integer) := by
  have hvalue : binary op (some (.integer a)) (some (.integer b)) =
      ((integerArithmetic op a b).map .integer).map some := by
    cases op with
    | plus | minus | star | slash => rfl
    | _ => cases hop
  rw [hvalue]
  cases integerArithmetic op a b <;> rfl

/-! ## Evaluation -/

section Evaluation

variable {scope : Scope} {e : Expr}

/-- The expression is evaluated to a word, its exact value, and so is every operation in it. -/
def Expr.Succeeds (scope : Scope) (e : Expr) : Prop :=
  ∃ value : Int64, e.eval scope = .ok (some (.integer value)) ∧ e.exactValue? = some value.toInt ∧
    ∀ o ∈ e.operations, o.Fits

/-- The evaluation stops at the first operation that has no word for a result. -/
def Expr.Stops (scope : Scope) (e : Expr) : Prop :=
  ∃ error, e.eval scope = .error error ∧ FirstError Expr.Violates e.operations error

theorem forall_not_violates {os : List Expr} (hfits : ∀ o ∈ os, o.Fits) :
    ∀ o ∈ os, ∀ error, ¬o.Violates error :=
  fun o ho error => (hfits o ho).not_violates error

/-- The last operation, whose operands have words, succeeds or is the first to fail. -/
theorem Expr.succeeds_or_stops_last {position : Position} {before : List Expr} {z : Int}
    (hposition : e.position = position) (hoperations : e.operations = before ++ [e])
    (hbefore : ∀ o ∈ before, o.Fits) (hz : e.exactValue? = some z)
    (heval : e.eval scope =
      faultAt position ((Operator.orOverflow (Integer.ofInt? z)).map (some ∘ .integer))) :
    e.Succeeds scope ∨ e.Stops scope := by
  by_cases hword : Integer.HasWord z
  · obtain ⟨value, hvalue, rfl⟩ := Integer.ofInt?_of_hasWord hword
    refine .inl ⟨value, ?_, hz, ?_⟩
    · rw [heval, hvalue]
      rfl
    · rw [hoperations]
      exact List.forall_mem_append.mpr ⟨hbefore, List.forall_mem_singleton.mpr ⟨_, hz, hword⟩⟩
  · refine .inr ⟨⟨e.leftmost.position, .integerOverflow⟩, ?_, ?_⟩
    · rw [heval, Integer.ofInt?_of_not_hasWord hword, e.position_leftmost, hposition]
      rfl
    · rw [hoperations]
      exact .append_left (forall_not_violates hbefore) (.singleton (.overflow hz hword))

/-- By induction on the expression, in the order of evaluation: an operation is reached when all
operations in front of it have succeeded. -/
theorem Expr.IsInteger.succeeds_or_stops (he : e.IsInteger) (scope : Scope) :
    e.Succeeds scope ∨ e.Stops scope := by
  induction he with
  | @literal position value => exact .inl ⟨value, rfl, rfl, List.forall_mem_nil _⟩
  | @sign position op operand hop _ ih =>
      rcases ih with ⟨value, hvalue, hexact, hfits⟩ | ⟨error, herror, hfirst⟩
      · rcases hop with rfl | rfl
        · refine .inl ⟨value, bind_of_ok hvalue rfl, hexact, ?_⟩
          exact List.forall_mem_append.mpr ⟨hfits,
            List.forall_mem_singleton.mpr ⟨_, hexact, Integer.hasWord_toInt value⟩⟩
        · have hnegative : (unary position .minus operand).exactValue? = some (-value.toInt) := by
            rw [exactValue?, hexact]
            rfl
          exact succeeds_or_stops_last rfl rfl hfits hnegative (bind_of_ok hvalue rfl)
      · exact .inr ⟨error, bind_of_error herror, hfirst.append_right _⟩
  | @operation op lhs rhs hop _ _ ihl ihr =>
      rcases ihl with ⟨left, hleft, hexactl, hfitsl⟩ | ⟨error, herror, hfirst⟩
      · rcases ihr with ⟨right, hright, hexactr, hfitsr⟩ | ⟨error, herror, hfirst⟩
        · have hfits : ∀ o ∈ lhs.operations ++ rhs.operations, o.Fits :=
            List.forall_mem_append.mpr ⟨hfitsl, hfitsr⟩
          have hexact : (binary op lhs rhs).exactValue? =
              exactResult? op left.toInt right.toInt := by
            rw [exactValue?, hexactl, hexactr]
            rfl
          have heval : (binary op lhs rhs).eval scope =
              faultAt lhs.position ((Operator.integerArithmetic op left right).map
                (some ∘ .integer)) := by
            rw [← Operator.binary_integer hop]
            exact bind_of_ok hleft (bind_of_ok hright rfl)
          rw [Operator.integerArithmetic_eq hop] at heval
          cases hresult : exactResult? op left.toInt right.toInt with
          | some z =>
              rw [hresult] at hexact heval
              exact succeeds_or_stops_last rfl rfl hfits hexact heval
          | none =>
              obtain ⟨rfl, hzero⟩ := exactResult?_eq_none hop hresult
              refine .inr ⟨⟨lhs.position, .divideByZero⟩, ?_, ?_⟩
              · rw [heval, hresult]
                rfl
              · have hviolates :
                    (binary .slash lhs rhs).Violates ⟨lhs.position, .divideByZero⟩ := by
                  rw [← lhs.position_leftmost]
                  exact .division (hzero ▸ hexactr)
                exact .append_left (forall_not_violates hfits) (.singleton hviolates)
        · refine .inr ⟨error, bind_of_ok hleft (bind_of_error herror), ?_⟩
          exact (hfirst.append_left (forall_not_violates hfitsl)).append_right _
      · exact .inr ⟨error, bind_of_error herror, (hfirst.append_right _).append_right _⟩

end Evaluation

/-- An integer expression is evaluated to a word exactly when no divisor in it is zero and every
operation has an exact result with a word; the word is then its exact value.  In all other cases
the evaluation gives the error of the first operation, in the order of evaluation, that divides by
zero or whose exact result has no word, at the leftmost operand of the operation or at its sign. -/
theorem integer_expression_exact (scope : Scope) {e : Expr} (he : e.IsInteger) :
    (∀ value : Int64, e.eval scope = .ok (some (.integer value)) ↔
      e.exactValue? = some value.toInt ∧ ∀ o ∈ e.operations, o.Fits) ∧
    (∀ error, e.eval scope = .error error ↔ FirstError Expr.Violates e.operations error) ∧
    ((∃ value : Int64, e.eval scope = .ok (some (.integer value))) ∨
      ∃ error, e.eval scope = .error error) := by
  rcases he.succeeds_or_stops scope with ⟨value, hvalue, hexact, hfits⟩ | ⟨error, herror, hfirst⟩
  · refine ⟨fun other => ⟨?_, ?_⟩, fun error => ⟨?_, ?_⟩, .inl ⟨value, hvalue⟩⟩
    · intro hother
      cases hvalue.symm.trans hother
      exact ⟨hexact, hfits⟩
    · rintro ⟨hother, -⟩
      cases Int64.toInt_inj.mp (Option.some.inj (hexact.symm.trans hother))
      exact hvalue
    · intro herror
      cases hvalue.symm.trans herror
    · intro hfirst
      obtain ⟨o, ho, hviolates⟩ := hfirst.exists_mem
      exact absurd hviolates ((hfits o ho).not_violates error)
  · refine ⟨fun value => ⟨?_, ?_⟩, fun other => ⟨?_, ?_⟩, .inr ⟨error, herror⟩⟩
    · intro hvalue
      cases herror.symm.trans hvalue
    · rintro ⟨-, hfits⟩
      obtain ⟨o, ho, hviolates⟩ := hfirst.exists_mem
      exact absurd hviolates ((hfits o ho).not_violates error)
    · intro hother
      cases herror.symm.trans hother
      exact hfirst
    · intro hother
      rw [herror, hfirst.unique hother fun _ _ _ => Expr.Violates.unique]

/-- The expression `1-2*9223372036854775807/0`. -/
def overflowingRatio : Expr :=
  .binary .minus (.literal ⟨1, 0⟩ (.integer 1))
    (.binary .slash
      (.binary .star (.literal ⟨1, 2⟩ (.integer 2))
        (.literal ⟨1, 4⟩ (.integer 9223372036854775807)))
      (.literal ⟨1, 24⟩ (.integer 0)))

theorem overflowingRatio_stops_at_product :
    overflowingRatio.IsInteger ∧
      FirstError Expr.Violates overflowingRatio.operations ⟨⟨1, 2⟩, .integerOverflow⟩ ∧
      overflowingRatio.eval .empty = .error ⟨⟨1, 2⟩, .integerOverflow⟩ := by
  have hinteger : overflowingRatio.IsInteger :=
    .operation rfl .literal (.operation rfl (.operation rfl .literal .literal) .literal)
  have hviolates : Expr.Violates
      (.binary .star (.literal ⟨1, 2⟩ (.integer 2))
        (.literal ⟨1, 4⟩ (.integer 9223372036854775807))) ⟨⟨1, 2⟩, .integerOverflow⟩ :=
    .overflow (z := 18446744073709551614) rfl (by decide)
  have hfirst : FirstError Expr.Violates overflowingRatio.operations
      ⟨⟨1, 2⟩, .integerOverflow⟩ :=
    ⟨[], _, _, rfl, hviolates, List.forall_mem_nil _⟩
  exact ⟨hinteger, hfirst, ((integer_expression_exact .empty hinteger).2.1 _).mpr hfirst⟩

end PocketSql
