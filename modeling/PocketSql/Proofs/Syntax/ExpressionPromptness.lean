import Mathlib
import PocketSql.Proofs.Syntax.Promptness

/-!
# Expressions are read promptly

A name completes whatever an expression lacks, at any depth: it opens no group and takes no
operator, so the limit of the depth does not stand in its way.  The readers of expressions
call each other on shorter streams, and they are prompt together.
-/

namespace PocketSql

open Parse (outcome)

namespace TokenStream

/-- What can stand behind projections or arguments. -/
def projectionsFollow : List Kind :=
  [.kwFrom, .rightParen]

theorem projectionsFollow_subset : projectionsFollow ⊆ expressionFollow := by
  decide

/-- What is said of the readers of expressions, all of them together. -/
structure ExpressionsPrompt (bound : Nat) : Prop where
  primary : ∀ depth, Prompt [.identifier] expressionFollow
    (fun s => outcome (s.primary depth)) bound
  expression : ∀ depth precedence, Prompt [.identifier] expressionFollow
    (fun s => outcome (s.expression depth precedence)) bound
  operators : ∀ depth precedence lhs, Prompt expressionFollow expressionFollow
    (fun s => outcome (s.operators depth precedence lhs)) bound
  projections : ∀ depth, Prompt [.identifier] projectionsFollow
    (fun s => outcome (s.projections depth)) bound

variable {bound : Nat} {depth precedence : Nat}

/-! ## Primaries -/

theorem completes_primary (depth : Nat) :
    Completes [.identifier] expressionFollow fun s => outcome (s.primary depth) := by
  obtain ⟨t, ht, hwell⟩ := Token.exists_wellFormed (show Kind.identifier ≠ .eof by decide)
  exact ⟨[t], .ident ⟨t.position, t.literal⟩, List.forall_mem_singleton.mpr hwell,
    fun rest hrest => ⟨nextIn_next (ht ▸ List.mem_singleton_self _) rest,
      outcome_primary_name_alone depth ht hrest.closes⟩⟩

theorem primary_of_ne {s : TokenStream} (hs : ∀ kind ∈ primaryStart, s.nextKind? ≠ some kind) :
    outcome (s.primary depth) = .error (s.unexpected primaryStart) := by
  cases s with
  | done | broken =>
      unfold primary
      rfl
  | next t rest => exact outcome_primary_other depth rest fun hmem => hs t.kind hmem rfl

theorem ne_refusal_of_checkDepth {position : Position} {e : SyntaxError}
    (hcheck : checkDepth depth position = .error e) (p : Position) (found : Kind)
    (expected : List Kind) : e ≠ refusal p found expected := by
  rw [checkDepth] at hcheck
  split at hcheck <;> cases hcheck
  intro heq
  cases heq

theorem ne_refusal_of_literalOf {t : Token} {e : SyntaxError} (hliteral : literalOf t = .error e)
    (p : Position) (found : Kind) (expected : List Kind) : e ≠ refusal p found expected := by
  rw [literalOf] at hliteral
  split at hliteral
  · rw [numberLiteral] at hliteral
    split at hliteral
    all_goals
      split at hliteral <;> cases hliteral
      intro heq
      cases heq
  all_goals cases hliteral

/-- A closing parenthesis behind something that has been read. -/
theorem prompt_close {α β : Type} (f : α → β) (a : α) (follow : List Kind) (bound : Nat) :
    Prompt [.rightParen] follow
      (fun s => outcome (s.expect .rightParen) >>= fun (_, rest) => .ok (f a, rest)) bound :=
  (prompt_expect .rightParen (by decide) bound).map fun _ => f a

section Primary

variable (ih : ExpressionsPrompt bound) {t : Token} {rest : TokenStream}
  (hrest : rest.length < bound)

include ih hrest

theorem promptAt_group (ht : t.kind = .leftParen) :
    PromptAt [.identifier] expressionFollow (fun s => outcome (s.primary depth)) (next t rest) := by
  apply PromptAt.next fun s => outcome_primary_group depth s ht
  apply PromptAt.check fun _ => ne_refusal_of_checkDepth
  intro _ _
  refine Prompt.promptAt (Prompt.bind (ih.expression (depth + 1) lowestPrecedence) [.rightParen]
    (by decide) fun inner => ?_) rest hrest
  exact prompt_close id inner expressionFollow bound

theorem promptAt_name (ht : t.kind = .identifier) :
    PromptAt [.identifier] expressionFollow (fun s => outcome (s.primary depth)) (next t rest) := by
  let name : Ident := ⟨t.position, t.literal⟩
  apply PromptAt.next fun s => outcome_primary_name depth s ht
  have halone : Prompt expressionFollow expressionFollow
      (fun s => .ok (Expr.ident name, s)) bound := .ok _ (List.Subset.refl _)
  have hempty : Prompt expressionFollow expressionFollow
      (fun s => .ok (Expr.call name [], s)) bound := .ok _ (List.Subset.refl _)
  refine Prompt.promptAt (prompt_accept (by decide) (by decide) ⟨[.identifier], ?_⟩ halone)
    rest hrest
  refine prompt_accept (by decide) (by decide) ⟨expressionFollow, hempty⟩ ?_
  refine Prompt.bind (ih.projections depth) [.rightParen] (by decide) fun arguments => ?_
  exact prompt_close (Expr.call name) arguments expressionFollow bound

theorem promptAt_sign (ht : t.kind = .plus ∨ t.kind = .minus) :
    PromptAt [.identifier] expressionFollow (fun s => outcome (s.primary depth)) (next t rest) := by
  apply PromptAt.next fun s => outcome_primary_sign depth s ht
  apply PromptAt.check fun _ => ne_refusal_of_checkDepth
  intro _ _
  exact ((ih.primary (depth + 1)).map (Expr.unary t.position t.kind)).promptAt rest hrest

omit ih hrest in
theorem promptAt_literal (ht : t.kind ∈ literalKinds) (rest : TokenStream) :
    PromptAt [.identifier] expressionFollow (fun s => outcome (s.primary depth)) (next t rest) := by
  apply PromptAt.next fun s => outcome_primary_literal depth s ht
  apply PromptAt.check fun _ => ne_refusal_of_literalOf
  intro value _
  exact .ok (Expr.literal t.position value) (List.Subset.refl expressionFollow)

end Primary

theorem prompt_primary (ih : ExpressionsPrompt bound) (depth : Nat) :
    Prompt [.identifier] expressionFollow (fun s => outcome (s.primary depth)) (bound + 1) where
  completes := completes_primary depth
  promptAt := by
    intro s hs
    by_cases hstart : ∀ kind ∈ primaryStart, s.nextKind? ≠ some kind
    · exact .refused (fun _ => primary_of_ne) hstart (completes_primary depth)
    · push Not at hstart
      obtain ⟨kind, hmem, hkind⟩ := hstart
      cases s with
      | done =>
          cases hkind
          exact absurd hmem (by decide)
      | broken => cases hkind
      | next t rest =>
          cases hkind
          have hrest : rest.length < bound := Nat.lt_of_succ_lt_succ hs
          by_cases hgroup : t.kind = .leftParen
          · exact promptAt_group ih hrest hgroup
          by_cases hname : t.kind = .identifier
          · exact promptAt_name ih hrest hname
          by_cases hsign : t.kind = .plus ∨ t.kind = .minus
          · exact promptAt_sign ih hrest hsign
          apply promptAt_literal
          simp only [primaryStart, literalKinds, List.mem_cons, List.not_mem_nil, or_false]
            at hmem ⊢
          tauto

/-! ## Operators -/

theorem operators_of_precedence {lhs : Expr} (s : TokenStream) (kind : Kind)
    (hkind : s.nextKind? = some kind) (hstop : kind.precedence = 0 ∨ kind.precedence < precedence) :
    outcome (s.operators depth precedence lhs) = .ok (lhs, s) := by
  cases s with
  | done => exact outcome_operators_done depth precedence lhs _
  | broken => cases hkind
  | next t rest =>
      cases hkind
      rw [outcome_operators_next, if_pos hstop]

theorem precedence_of_mem_expressionFollow : ∀ kind ∈ expressionFollow, kind.precedence = 0 := by
  decide

theorem completes_operators (depth precedence : Nat) (lhs : Expr) :
    Completes expressionFollow expressionFollow
      fun s => outcome (s.operators depth precedence lhs) :=
  (Completes.ok lhs (List.Subset.refl expressionFollow)).congr operators_of_precedence
    (fun kind hmem => .inl (precedence_of_mem_expressionFollow kind hmem)) (List.Subset.refl _)

theorem prompt_operators (ih : ExpressionsPrompt bound) (depth precedence : Nat) (lhs : Expr) :
    Prompt expressionFollow expressionFollow
      (fun s => outcome (s.operators depth precedence lhs)) (bound + 1) := by
  apply (Prompt.ok lhs (List.Subset.refl expressionFollow)).congr operators_of_precedence
    (fun kind hmem => .inl (precedence_of_mem_expressionFollow kind hmem)) (List.Subset.refl _)
  intro s hs hgoes
  cases s with
  | done => exact absurd (.inl rfl) (hgoes .eof rfl)
  | broken e =>
      refine .of_error (e := .lexical e) ?_ (ne_refusal_lexical e)
      unfold operators
      rfl
  | next t rest =>
      have hrest : rest.length < bound := Nat.lt_of_succ_lt_succ hs
      apply PromptAt.next fun s => by
        rw [outcome_operators_next, if_neg (hgoes t.kind rfl)]
      apply PromptAt.check fun _ => ne_refusal_of_checkDepth
      intro _ _
      refine Prompt.promptAt (Prompt.bind (ih.expression (depth + 1) (t.kind.precedence + 1))
        expressionFollow (List.Subset.refl _) fun rhs => ?_) rest hrest
      exact ih.operators (depth + 1) precedence (.binary t.kind lhs rhs)

/-! ## Expressions and projections -/

theorem outcome_projections_eq (depth : Nat) (s : TokenStream) :
    outcome (s.projections depth) =
      outcome (s.projection depth) >>= fun (first, rest) =>
        outcome (rest.accept .comma) >>= fun (more, rest) =>
          if more then outcome (rest.projections depth) >>= fun (others, rest) =>
            .ok (first :: others, rest)
          else .ok ([first], rest) :=
  outcome_projections depth s

theorem projection_of_ne (s : TokenStream) (kind : Kind) (hkind : s.nextKind? = some kind)
    (hstar : kind ≠ .star) :
    outcome (s.projection depth) = outcome (s.expression depth lowestPrecedence) :=
  outcome_projection_expression depth fun heq => hstar (Option.some.inj (hkind.symm.trans heq))

section Whole

theorem completes_expression (depth precedence : Nat) :
    Completes [.identifier] expressionFollow fun s => outcome (s.expression depth precedence) := by
  rw [funext (outcome_expression depth precedence)]
  exact (completes_primary depth).bind (completes_operators depth precedence)
    (List.Subset.refl expressionFollow)

theorem completes_projection (depth : Nat) :
    Completes [.identifier] expressionFollow fun s => outcome (s.projection depth) :=
  (completes_expression depth lowestPrecedence).congr projection_of_ne (by decide)
    (List.Subset.refl _)

theorem prompt_expression {bound : Nat}
    (hprimary : Prompt [.identifier] expressionFollow (fun s => outcome (s.primary depth)) bound)
    (hoperators : ∀ lhs, Prompt expressionFollow expressionFollow
      (fun s => outcome (s.operators depth precedence lhs)) bound) :
    Prompt [.identifier] expressionFollow
      (fun s => outcome (s.expression depth precedence)) bound := by
  rw [funext (outcome_expression depth precedence)]
  exact hprimary.bind expressionFollow (List.Subset.refl _) hoperators

theorem prompt_projection {bound : Nat}
    (hexpression : Prompt [.identifier] expressionFollow
      (fun s => outcome (s.expression depth lowestPrecedence)) bound) :
    Prompt [.identifier] expressionFollow (fun s => outcome (s.projection depth)) bound := by
  apply hexpression.congr projection_of_ne (by decide) (List.Subset.refl _)
  intro s hs hstar
  cases s with
  | done => exact absurd (by decide) (hstar .eof rfl)
  | broken e =>
      refine .of_error (e := .lexical e) ?_ (ne_refusal_lexical e)
      unfold projection
      rw [outcome_expression, primary_of_ne fun kind _ hkind => by cases hkind]
      rfl
  | next t rest =>
      have ht : t.kind = .star := not_not.mp (hstar t.kind rfl)
      exact .next (outcome_projection_star depth ht)
        (.ok (Expr.star t.position) (List.Subset.refl _))

/-- By induction on the length of the streams. -/
theorem expressionsPrompt (bound : Nat) : ExpressionsPrompt bound := by
  induction bound with
  | zero =>
      exact {
        primary := fun depth => ⟨completes_primary depth, nofun⟩
        expression := fun depth precedence => ⟨completes_expression depth precedence, nofun⟩
        operators := fun depth precedence lhs => ⟨completes_operators depth precedence lhs, nofun⟩
        projections := fun depth => ⟨completes_list (outcome_projections_eq depth)
          (completes_projection depth) projectionsFollow_subset (by decide), nofun⟩ }
  | succ bound ih =>
      have hexpression (depth precedence : Nat) : Prompt [.identifier] expressionFollow
          (fun s => outcome (s.expression depth precedence)) (bound + 1) :=
        prompt_expression (prompt_primary ih depth) (prompt_operators ih depth precedence)
      exact {
        primary := prompt_primary ih
        expression := hexpression
        operators := prompt_operators ih
        projections := fun depth => prompt_list_succ (outcome_projections_eq depth)
          (prompt_projection (hexpression depth lowestPrecedence)) projectionsFollow_subset
          (by decide) (ih.projections depth) }

end Whole

end TokenStream

end PocketSql
