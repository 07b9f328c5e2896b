import Mathlib
import PocketSql.Syntax.Parser
import PocketSql.Proofs.Outcome

/-!
# What readers do

The readers of expressions carry bounds on the tokens that they leave.  Here each
of them gets an equation without bounds, for the value and the rest of the stream
alone, by the kind of the token that comes next.
-/

namespace PocketSql

/-- The value and the rest of a reading, without the bound on the rest. -/
def Parse.outcome {α : Type} {bound : Nat} (result : Parse α bound) :
    Except SyntaxError (α × TokenStream) :=
  result.map fun parsed => (parsed.value, parsed.rest)

open Parse (outcome)

section Steps

variable {α β : Type} {bound bound' : Nat}

@[simp]
theorem outcome_ok (parsed : Parsed α bound) :
    outcome (.ok parsed : Parse α bound) = .ok (parsed.value, parsed.rest) := by
  rfl

@[simp]
theorem outcome_error (e : SyntaxError) : outcome (.error e : Parse α bound) = .error e := by
  rfl

theorem outcome_eq_ok {result : Parse α bound} {parsed : Parsed α bound}
    (hresult : result = .ok parsed) : outcome result = .ok (parsed.value, parsed.rest) := by
  rw [hresult, outcome_ok]

/-- A reading followed by another one that looks at no bound. -/
theorem outcome_bind {x : Parse α bound} {f : Parsed α bound → Parse β bound'}
    {next : α × TokenStream → Except SyntaxError (β × TokenStream)}
    (hnext : ∀ parsed, outcome (f parsed) = next (parsed.value, parsed.rest)) :
    outcome (x >>= f) = outcome x >>= next := by
  cases x with
  | error e => rfl
  | ok parsed => exact hnext parsed

theorem outcome_check {x : Except SyntaxError β} {f : β → Parse α bound}
    {next : β → Except SyntaxError (α × TokenStream)} (hnext : ∀ b, outcome (f b) = next b) :
    outcome (x >>= f) = x >>= next := by
  cases x with
  | error e => rfl
  | ok b => exact hnext b

end Steps

namespace TokenStream

/-- Every reader leaves fewer tokens than it has found, so what shall hold of a stream
may be assumed of the shorter ones. -/
@[elab_as_elim]
theorem lengthInduction {motive : TokenStream → Prop}
    (shorter : ∀ s, (∀ s' : TokenStream, s'.length < s.length → motive s') → motive s)
    (s : TokenStream) : motive s :=
  (measure TokenStream.length).wf.induction s shorter

/-! ## Single tokens -/

/-- The kind of the token that comes next, the end being one. -/
def nextKind? : TokenStream → Option Kind
  | done _ => some .eof
  | broken _ => none
  | next t _ => some t.kind

/-- A token comes next that makes no call of a name in front of it. -/
def Closes (s : TokenStream) : Prop :=
  ∃ kind, s.nextKind? = some kind ∧ kind ≠ .leftParen

theorem closes_next {t : Token} (hkind : t.kind ≠ .leftParen) (rest : TokenStream) :
    (next t rest).Closes :=
  ⟨t.kind, rfl, hkind⟩

theorem expect_eq_ok {kind : Kind} {s : TokenStream} {t : Token} {rest : TokenStream} :
    outcome (s.expect kind) = .ok (t, rest) ↔ s = next t rest ∧ t.kind = kind := by
  cases s with
  | done position => simp [expect, expectAmong]
  | broken error => simp [expect, expectAmong]
  | next first others =>
      by_cases hkind : first.kind = kind
      · simp only [expect, expectAmong, hkind, if_true, outcome_ok, Except.ok.injEq,
          Prod.mk.injEq, next.injEq]
        grind
      · simp only [expect, expectAmong, hkind, if_false, outcome_error, next.injEq]
        grind

theorem accept_true {kind : Kind} {s rest : TokenStream} :
    outcome (s.accept kind) = .ok (true, rest) ↔ ∃ t, s = next t rest ∧ t.kind = kind := by
  cases s with
  | done position => simp [accept]
  | broken error => simp [accept]
  | next first others =>
      by_cases hkind : first.kind = kind
      · simp [accept, hkind]
      · simp [accept, hkind]

theorem accept_next {kind : Kind} {t : Token} (hkind : t.kind = kind) (rest : TokenStream) :
    outcome ((next t rest).accept kind) = .ok (true, rest) :=
  accept_true.mpr ⟨t, rfl, hkind⟩

theorem accept_false {kind : Kind} (hkind : kind ≠ .eof) {s rest : TokenStream} :
    outcome (s.accept kind) = .ok (false, rest) ↔
      rest = s ∧ ∃ other, s.nextKind? = some other ∧ other ≠ kind := by
  cases s with
  | done position => simp [accept, nextKind?, hkind.symm, @eq_comm _ rest]
  | broken error => simp [accept, nextKind?]
  | next first others =>
      by_cases hfirst : first.kind = kind
      · simp [accept, nextKind?, hfirst]
      · simp [accept, nextKind?, hfirst, @eq_comm _ rest]

/-! ## Primaries -/

section Primary

variable {t : Token} (depth : Nat) (rest : TokenStream)

theorem outcome_primary_group (hkind : t.kind = .leftParen) :
    outcome ((next t rest).primary depth) = do
      checkDepth depth t.position
      let (inner, rest) ← outcome (rest.expression (depth + 1) lowestPrecedence)
      let (_, rest) ← outcome (rest.expect .rightParen)
      return (inner, rest) := by
  rw [primary]
  simp only [hkind]
  apply outcome_check
  intro _
  apply outcome_bind
  intro _
  apply outcome_bind
  intro _
  rfl

theorem outcome_primary_name (hkind : t.kind = .identifier) :
    outcome ((next t rest).primary depth) = do
      let (isCall, rest) ← outcome (rest.accept .leftParen)
      if isCall then
        let (isEmpty, rest) ← outcome (rest.accept .rightParen)
        if isEmpty then
          return (.call ⟨t.position, t.literal⟩ [], rest)
        else
          let (arguments, rest) ← outcome (rest.projections depth)
          let (_, rest) ← outcome (rest.expect .rightParen)
          return (.call ⟨t.position, t.literal⟩ arguments, rest)
      else
        return (.ident ⟨t.position, t.literal⟩, rest) := by
  rw [primary]
  simp only [hkind]
  apply outcome_bind
  rintro ⟨isCall, rest, _⟩
  cases isCall with
  | false => rfl
  | true =>
      apply outcome_bind
      rintro ⟨isEmpty, rest, _⟩
      cases isEmpty with
      | true => rfl
      | false =>
          apply outcome_bind
          intro _
          apply outcome_bind
          intro _
          rfl

variable {rest} in
theorem outcome_primary_name_alone (hkind : t.kind = .identifier) (hcloses : rest.Closes) :
    outcome ((next t rest).primary depth) = .ok (.ident ⟨t.position, t.literal⟩, rest) := by
  rw [outcome_primary_name _ _ hkind]
  exact bind_eq_ok.mpr ⟨_, (accept_false (by decide)).mpr ⟨rfl, hcloses⟩, rfl⟩

theorem outcome_primary_sign (hkind : t.kind = .plus ∨ t.kind = .minus) :
    outcome ((next t rest).primary depth) = do
      checkDepth depth t.position
      let (operand, rest) ← outcome (rest.primary (depth + 1))
      return (.unary t.position t.kind operand, rest) := by
  rw [primary]
  rcases hkind with hkind | hkind <;>
    · simp only [hkind]
      apply outcome_check
      intro _
      apply outcome_bind
      intro _
      rfl

/-- The kinds of tokens that stand for a value. -/
def literalKinds : List Kind :=
  [.numberLiteral, .stringLiteral, .kwTrue, .kwFalse, .kwNull]

/-- The value of a token of one of these kinds. -/
def literalOf (t : Token) : Except SyntaxError Literal :=
  match t.kind with
  | .numberLiteral => numberLiteral t
  | .stringLiteral => .ok (.string t.literal)
  | .kwTrue => .ok (.boolean true)
  | .kwFalse => .ok (.boolean false)
  | _ => .ok .null

theorem outcome_primary_literal (hkind : t.kind ∈ literalKinds) :
    outcome ((next t rest).primary depth) = do
      let value ← literalOf t
      return (.literal t.position value, rest) := by
  rw [primary]
  rw [literalOf]
  simp only [literalKinds, List.mem_cons, List.not_mem_nil, or_false] at hkind
  rcases hkind with hkind | hkind | hkind | hkind | hkind
  · simp only [hkind]
    apply outcome_check
    intro _
    rfl
  all_goals
    simp only [hkind]
    rfl

/-- No other kind begins a primary. -/
theorem outcome_primary_other (hstart : t.kind ∉ primaryStart) :
    outcome ((next t rest).primary depth) =
      .error (unexpected primaryStart (.next t rest)) := by
  rw [primary]
  simp only [primaryStart, List.mem_cons, List.not_mem_nil, or_false, not_or] at hstart
  split <;> simp_all

end Primary

/-! ## Expressions -/

section Expression

variable (depth precedence : Nat)

theorem outcome_expression (s : TokenStream) :
    outcome (s.expression depth precedence) =
      outcome (s.primary depth) >>= fun (first, rest) =>
        outcome (rest.operators depth precedence first) := by
  rw [expression]
  apply outcome_bind
  rintro ⟨first, rest, _⟩
  cases hwhole : rest.operators depth precedence first with
  | error e => simp [bind, Except.bind, hwhole]
  | ok parsed => simp [bind, Except.bind, hwhole, pure, Except.pure]

theorem outcome_operators_done (lhs : Expr) (position : Position) :
    outcome ((done position).operators depth precedence lhs) = .ok (lhs, done position) := by
  rw [operators, outcome_ok]

theorem outcome_operators_next (lhs : Expr) (t : Token) (rest : TokenStream) :
    outcome ((next t rest).operators depth precedence lhs) =
      if t.kind.precedence = 0 ∨ t.kind.precedence < precedence then
        .ok (lhs, next t rest)
      else
        checkDepth depth t.position >>= fun _ =>
          outcome (rest.expression (depth + 1) (t.kind.precedence + 1)) >>= fun (rhs, rest) =>
            outcome (rest.operators (depth + 1) precedence (.binary t.kind lhs rhs)) := by
  rw [operators]
  split
  · next hstop => rw [outcome_ok]
  · next hstop =>
    apply outcome_check
    intro _
    apply outcome_bind
    rintro ⟨rhs, rest, _⟩
    cases hwhole : rest.operators (depth + 1) precedence (.binary t.kind lhs rhs) with
    | error e => simp [bind, Except.bind, hwhole]
    | ok parsed => simp [bind, Except.bind, hwhole, pure, Except.pure]

end Expression

/-! ## Argument lists -/

section Projections

variable (depth : Nat)

theorem outcome_projection_star {t : Token} (hkind : t.kind = .star) (rest : TokenStream) :
    outcome ((next t rest).projection depth) = .ok (.star t.position, rest) := by
  rw [projection, if_pos hkind, outcome_ok]

theorem outcome_projection_expression {s : TokenStream} (hkind : s.nextKind? ≠ some .star) :
    outcome (s.projection depth) = outcome (s.expression depth lowestPrecedence) := by
  unfold projection
  split
  · next t rest =>
    have hstar : t.kind ≠ .star := fun h => hkind (congrArg some h)
    rw [if_neg hstar]
  · rfl

theorem outcome_projections (s : TokenStream) :
    outcome (s.projections depth) = do
      let (first, rest) ← outcome (s.projection depth)
      let (more, rest) ← outcome (rest.accept .comma)
      if more then
        let (others, rest) ← outcome (rest.projections depth)
        return (first :: others, rest)
      else
        return ([first], rest) := by
  rw [projections]
  apply outcome_bind
  rintro ⟨first, rest, _⟩
  apply outcome_bind
  rintro ⟨more, rest, _⟩
  cases more with
  | false => rfl
  | true =>
      apply outcome_bind
      intro _
      rfl

end Projections

/-! ## Deletions -/

section Deletion

theorem outcome_expectIdent (s : TokenStream) :
    outcome s.expectIdent = do
      let (t, rest) ← outcome (s.expect .identifier)
      return (⟨t.position, t.literal⟩, rest) := by
  apply outcome_bind
  intro _
  rfl

theorem outcome_clause (keyword : Kind) (s : TokenStream) :
    outcome (s.clause keyword) = do
      let (present, rest) ← outcome (s.accept keyword)
      if present then
        let (value, rest) ← outcome (rest.expression 0 lowestPrecedence)
        return (some value, rest)
      else
        return (none, rest) := by
  apply outcome_bind
  rintro ⟨present, rest, _⟩
  cases present with
  | false => rfl
  | true =>
      apply outcome_bind
      intro _
      rfl

theorem outcome_delete (s : TokenStream) :
    outcome s.delete = do
      let (keyword, rest) ← outcome (s.expect .kwDelete)
      let (_, rest) ← outcome (rest.expect .kwFrom)
      let (table, rest) ← outcome rest.expectIdent
      let (condition, rest) ← outcome (rest.clause .kwWhere)
      return (⟨keyword.position, table, condition⟩, rest) := by
  apply outcome_bind
  intro _
  apply outcome_bind
  intro _
  apply outcome_bind
  intro _
  apply outcome_bind
  intro _
  rfl

end Deletion

/-! ## Lists and clauses -/

section Clauses

theorem outcome_commaSeparated {α : Type} (item : (s : TokenStream) → Parse α s.length)
    (s : TokenStream) :
    outcome (s.commaSeparated item) = do
      let (first, rest) ← outcome (item s)
      let (more, rest) ← outcome (rest.accept .comma)
      if more then
        let (others, rest) ← outcome (rest.commaSeparated item)
        return (first :: others, rest)
      else
        return ([first], rest) := by
  rw [commaSeparated]
  apply outcome_bind
  rintro ⟨first, rest, _⟩
  apply outcome_bind
  rintro ⟨more, rest, _⟩
  cases more with
  | false => rfl
  | true =>
      apply outcome_bind
      intro _
      rfl

theorem dataType_next {t : Token} {type : DataType}
    (ht : DataType.ofKeyword? t.kind = some type) (rest : TokenStream) :
    outcome ((next t rest).dataType) = .ok (type, rest) := by
  rw [dataType]
  split
  · next htype =>
    cases ht.symm.trans htype
    rfl
  · next hnone => cases ht.symm.trans hnone

theorem outcome_nullability (s : TokenStream) :
    outcome s.nullability = do
      let (negated, rest) ← outcome (s.accept .kwNot)
      if negated then
        let (_, rest) ← outcome (rest.expect .kwNull)
        return (false, rest)
      else
        let (_, rest) ← outcome (rest.accept .kwNull)
        return (true, rest) := by
  apply outcome_bind
  rintro ⟨negated, rest, _⟩
  cases negated with
  | false =>
      apply outcome_bind
      intro _
      rfl
  | true =>
      apply outcome_bind
      intro _
      rfl

/-- Neither a default nor a mark is read any more. -/
def FillEnds (default : Option Expr) (autoIncrement : Bool) (kind : Kind) : Prop :=
  ¬(kind = .kwDefault ∧ default.isNone) ∧ ¬(kind = .kwAutoIncrement ∧ autoIncrement = false)

theorem fillClauses_of_ends {default : Option Expr} {autoIncrement : Bool} (s : TokenStream)
    (kind : Kind) (hkind : s.nextKind? = some kind) (hends : FillEnds default autoIncrement kind) :
    outcome (s.fillClauses default autoIncrement) = .ok ((default, autoIncrement), s) := by
  cases s with
  | done =>
      rw [fillClauses]
      rfl
  | broken => cases hkind
  | next t rest =>
      cases hkind
      rw [fillClauses, if_neg hends.1, if_neg hends.2]
      rfl

theorem outcome_fillClauses_default {t : Token} (hkind : t.kind = .kwDefault)
    (autoIncrement : Bool) (rest : TokenStream) :
    outcome ((next t rest).fillClauses none autoIncrement) =
      outcome (rest.expression 0 lowestPrecedence) >>= fun (value, rest) =>
        outcome (rest.fillClauses (some value) autoIncrement) := by
  rw [fillClauses, if_pos ⟨hkind, rfl⟩]
  apply outcome_bind
  rintro ⟨value, rest, _⟩
  cases hfill : rest.fillClauses (some value) autoIncrement with
  | error e => simp [bind, Except.bind, hfill]
  | ok parsed => simp [bind, Except.bind, hfill, pure, Except.pure]

theorem outcome_fillClauses_mark {t : Token} (hkind : t.kind = .kwAutoIncrement)
    (default : Option Expr) (rest : TokenStream) :
    outcome ((next t rest).fillClauses default false) =
      outcome (rest.fillClauses default true) := by
  have hdefault : ¬(t.kind = .kwDefault ∧ default.isNone) := by
    rw [hkind]
    rintro ⟨⟨⟩, -⟩
  rw [fillClauses, if_neg hdefault, if_pos ⟨hkind, rfl⟩]
  cases rest.fillClauses default true with
  | error e => rfl
  | ok parsed => rfl

theorem outcome_columnDefinition (s : TokenStream) :
    outcome s.columnDefinition = do
      let (name, rest) ← outcome s.expectIdent
      let (type, rest) ← outcome rest.dataType
      let (nullable, rest) ← outcome rest.nullability
      let ((default, autoIncrement), rest) ← outcome (rest.fillClauses none false)
      return ({ name, type, nullable, default, autoIncrement }, rest) := by
  apply outcome_bind
  intro _
  apply outcome_bind
  intro _
  apply outcome_bind
  intro _
  apply outcome_bind
  intro _
  rfl

theorem outcome_targetColumns (s : TokenStream) :
    outcome s.targetColumns = do
      let (named, rest) ← outcome (s.accept .leftParen)
      if named then
        let (columns, rest) ← outcome (rest.commaSeparated expectIdent)
        let (_, rest) ← outcome (rest.expect .rightParen)
        return (columns, rest)
      else
        return ([], rest) := by
  apply outcome_bind
  rintro ⟨named, rest, _⟩
  cases named with
  | false => rfl
  | true =>
      apply outcome_bind
      intro _
      apply outcome_bind
      intro _
      rfl

theorem outcome_assignment (s : TokenStream) :
    outcome s.assignment = do
      let (column, rest) ← outcome s.expectIdent
      let (_, rest) ← outcome (rest.expect .equal)
      let (value, rest) ← outcome (rest.expression 0 lowestPrecedence)
      return ({ column, value }, rest) := by
  apply outcome_bind
  intro _
  apply outcome_bind
  intro _
  apply outcome_bind
  intro _
  rfl

theorem outcome_assignments (s : TokenStream) :
    outcome s.assignments = do
      let (enclosed, rest) ← outcome (s.accept .leftParen)
      let (assignments, rest) ← outcome (rest.commaSeparated assignment)
      if enclosed then
        let (_, rest) ← outcome (rest.expect .rightParen)
        return (assignments, rest)
      else
        return (assignments, rest) := by
  apply outcome_bind
  rintro ⟨enclosed, rest, _⟩
  apply outcome_bind
  intro _
  cases enclosed with
  | false => rfl
  | true =>
      apply outcome_bind
      intro _
      rfl

end Clauses

/-! ## Statements -/

section Statements

theorem outcome_createTable (s : TokenStream) :
    outcome s.createTable = do
      let (create, rest) ← outcome (s.expect .kwCreate)
      let (_, rest) ← outcome (rest.expect .kwTable)
      let (table, rest) ← outcome rest.expectIdent
      let (_, rest) ← outcome (rest.expect .leftParen)
      let (columns, rest) ← outcome (rest.commaSeparated columnDefinition)
      let (_, rest) ← outcome (rest.expectAmong [.comma, .rightParen] .rightParen)
      return ({ position := create.position, table, columns }, rest) := by
  iterate 6
    apply outcome_bind
    intro _
  rfl

theorem outcome_select (s : TokenStream) :
    outcome s.select = do
      let (select, rest) ← outcome (s.expect .kwSelect)
      let (projections, rest) ← outcome (rest.projections 0)
      let (_, rest) ← outcome (rest.expect .kwFrom)
      let (table, rest) ← outcome (rest.expression 0 lowestPrecedence)
      let (condition, rest) ← outcome (rest.clause .kwWhere)
      return ({ position := select.position, projections, table, condition }, rest) := by
  iterate 5
    apply outcome_bind
    intro _
  rfl

theorem outcome_insert (s : TokenStream) :
    outcome s.insert = do
      let (insert, rest) ← outcome (s.expect .kwInsert)
      let (_, rest) ← outcome (rest.expect .kwInto)
      let (table, rest) ← outcome rest.expectIdent
      let (columns, rest) ← outcome rest.targetColumns
      let (_, rest) ← outcome (rest.expect .kwValues)
      let (_, rest) ← outcome (rest.expect .leftParen)
      let (values, rest) ← outcome (rest.commaSeparated wholeExpression)
      let (_, rest) ← outcome (rest.expect .rightParen)
      return ({ position := insert.position, table, columns, values }, rest) := by
  iterate 8
    apply outcome_bind
    intro _
  rfl

theorem outcome_update (s : TokenStream) :
    outcome s.update = do
      let (update, rest) ← outcome (s.expect .kwUpdate)
      let (table, rest) ← outcome rest.expectIdent
      let (_, rest) ← outcome (rest.expect .kwSet)
      let (assignments, rest) ← outcome rest.assignments
      let (condition, rest) ← outcome (rest.clause .kwWhere)
      return ({ position := update.position, table, assignments, condition }, rest) := by
  iterate 5
    apply outcome_bind
    intro _
  rfl

theorem outcome_mapParsed {α β : Type} {bound : Nat} (f : α → β) (result : Parse α bound) :
    outcome (mapParsed f result) = do
      let (a, rest) ← outcome result
      return (f a, rest) := by
  cases result with
  | error e => rfl
  | ok parsed => rfl

/-- The first token tells which statement it is. -/
theorem outcome_statement (t : Token) (rest : TokenStream) :
    outcome ((next t rest).statement) =
      match t.kind with
      | .kwCreate => outcome (mapParsed .createTable (next t rest).createTable)
      | .kwSelect => outcome (mapParsed .select (next t rest).select)
      | .kwInsert => outcome (mapParsed .insert (next t rest).insert)
      | .kwUpdate => outcome (mapParsed .update (next t rest).update)
      | .kwDelete => outcome (mapParsed .delete (next t rest).delete)
      | _ => .error (unexpected statementStart (next t rest)) := by
  rw [statement]
  cases t.kind <;> rfl

theorem outcome_statement_delete (t : Token) (rest : TokenStream) (hkind : t.kind = .kwDelete) :
    outcome ((next t rest).statement) = outcome (mapParsed .delete (next t rest).delete) := by
  rw [outcome_statement, hkind]

end Statements

/-- A text of one statement. -/
theorem statements_of_statement {s : TokenStream} {statement : Statement} {finish : Position}
    (hread : outcome s.statement = .ok (statement, done finish)) :
    s.statements = .ok [statement] := by
  obtain ⟨⟨first, rest, hshorter⟩, hstatement, heq⟩ := map_eq_ok.mp hread
  cases heq
  rw [statements.eq_def]
  split
  · cases hshorter
  · exact bind_eq_ok.mpr ⟨_, hstatement, rfl⟩

end TokenStream

end PocketSql
