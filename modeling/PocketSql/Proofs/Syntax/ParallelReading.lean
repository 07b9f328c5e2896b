import Mathlib
import PocketSql.Proofs.Syntax.Relocation
import PocketSql.Proofs.Syntax.StatementReading

/-!
# Reading two streams side by side

Two streams that have the same tokens at different positions are read alike: the same
trees at the positions of either stream, or the same error.  The second stream may also
go on with a semicolon where the first one ends; then what succeeds on the first one
succeeds on the second one and stops in front of the semicolon.

The readers are taken two by two, so whatever a reader would keep from one statement to
the next, or take from a position, would break the proof.
-/

namespace PocketSql

open Parse (outcome)

/-- A token whose literal is a number if its kind says so. -/
def Token.Readable (t : Token) : Prop :=
  t.kind = .numberLiteral → (Number.read? t.literal.toList).isSome

namespace TokenStream

variable (f : Relocation)

/-- The second stream has the tokens of the first one, moved, and ends as it does.  With a
tail it goes on with a semicolon and the tail where the first one ends. -/
inductive Mirrors : Option TokenStream → TokenStream → TokenStream → Prop
  | done (position : Position) : Mirrors none (done position) (done (f.place position))
  | ends {tail : TokenStream} {semicolon : Token} (position : Position) :
      semicolon.kind = .semicolon → Mirrors (some tail) (done position) (next semicolon tail)
  | broken (tail : Option TokenStream) (error : LexError) :
      Mirrors tail (broken error) (broken (f.lexical error))
  | next {tail : Option TokenStream} {t : Token} {rest rest' : TokenStream} : t.Readable →
      Mirrors tail rest rest' → Mirrors tail (next t rest) (next (t.move f.place) rest')

end TokenStream

open TokenStream

section Alike

variable (f : Relocation) (tail : Option TokenStream) {α β : Type}

/-- The second reading succeeds if the first one does, with what it has read moved.  It
fails if the first one does, unless the second stream goes on where the first one ends. -/
def Alike (move : α → α) (first second : Except SyntaxError (α × TokenStream)) : Prop :=
  match first with
  | .ok (a, rest) => ∃ rest', second = .ok (move a, rest') ∧ Mirrors f tail rest rest'
  | .error e => (tail = none → second = .error (e.move f)) ∧
      ∀ literal, e ≠ .malformedNumber literal

variable {f tail} {move : α → α} {move' : β → β}

theorem Alike.ok {a : α} {rest rest' : TokenStream} (hrest : Mirrors f tail rest rest') :
    Alike f tail move (.ok (a, rest)) (.ok (move a, rest')) :=
  ⟨rest', rfl, hrest⟩

theorem Alike.error {e : SyntaxError} (hnumber : ∀ literal, e ≠ .malformedNumber literal) :
    Alike f tail move (.error e) (.error (e.move f)) :=
  ⟨fun _ => rfl, hnumber⟩

/-- Where the second stream goes on, anything may follow. -/
theorem Alike.beyond {tail : TokenStream} {e : SyntaxError}
    {second : Except SyntaxError (α × TokenStream)}
    (hnumber : ∀ literal, e ≠ .malformedNumber literal) :
    Alike f (some tail) move (.error e) second :=
  ⟨fun hnone => absurd hnone (Option.some_ne_none _), hnumber⟩

theorem Alike.bind {x x' : Except SyntaxError (α × TokenStream)}
    {g g' : α × TokenStream → Except SyntaxError (β × TokenStream)} (hx : Alike f tail move x x')
    (hg : ∀ a rest rest', x = .ok (a, rest) → Mirrors f tail rest rest' →
      Alike f tail move' (g (a, rest)) (g' (move a, rest'))) :
    Alike f tail move' (x >>= g) (x' >>= g') := by
  cases x with
  | error e =>
      refine ⟨fun hexact => ?_, hx.2⟩
      rw [hx.1 hexact]
      rfl
  | ok parsed =>
      obtain ⟨rest', rfl, hrest⟩ := hx
      exact hg _ _ _ rfl hrest

/-- The bounds of readers play no part. -/
theorem Alike.cases {b b' : Nat} {x : Parse α b} {x' : Parse α b'}
    (hx : Alike f tail move (outcome x) (outcome x')) :
    (∃ a rest rest' hshorter hshorter', x = .ok ⟨a, rest, hshorter⟩ ∧
      x' = .ok ⟨move a, rest', hshorter'⟩ ∧ Mirrors f tail rest rest') ∨
    ∃ e, x = .error e ∧ (tail = none → x' = .error (e.move f)) ∧
      ∀ literal, e ≠ .malformedNumber literal := by
  cases x with
  | error e =>
      refine .inr ⟨e, rfl, fun hexact => ?_, hx.2⟩
      have herror := hx.1 hexact
      cases x' with
      | error e' => simpa using herror
      | ok parsed => cases herror
  | ok parsed =>
      obtain ⟨rest', hread, hrest⟩ := hx
      obtain ⟨⟨a', rest', hshorter'⟩, rfl, heq⟩ := map_eq_ok.mp hread
      cases heq
      exact .inl ⟨_, _, _, _, _, rfl, rfl, hrest⟩

theorem Alike.bind_outcome {b b' c c' : Nat} {x : Parse α b} {x' : Parse α b'}
    {g : Parsed α b → Parse β c} {g' : Parsed α b' → Parse β c'}
    (hx : Alike f tail move (outcome x) (outcome x'))
    (hg : ∀ a rest rest' hshorter hshorter', Mirrors f tail rest rest' →
      Alike f tail move' (outcome (g ⟨a, rest, hshorter⟩))
        (outcome (g' ⟨move a, rest', hshorter'⟩))) :
    Alike f tail move' (outcome (x >>= g)) (outcome (x' >>= g')) := by
  rcases hx.cases with ⟨a, rest, rest', _, _, rfl, rfl, hrest⟩ | ⟨e, rfl, hexact, hnumber⟩
  · exact hg _ _ _ _ _ hrest
  · refine ⟨fun hnone => ?_, hnumber⟩
    rw [hexact hnone]
    rfl

theorem Alike.map {b b' : Nat} {x : Parse α b} {x' : Parse α b'} {wrap : α → β}
    (hx : Alike f tail move (outcome x) (outcome x'))
    (hwrap : ∀ a, wrap (move a) = move' (wrap a)) :
    Alike f tail move' (outcome (mapParsed wrap x)) (outcome (mapParsed wrap x')) := by
  rcases hx.cases with ⟨a, rest, rest', _, _, rfl, rfl, hrest⟩ | ⟨e, rfl, hexact, hnumber⟩
  · exact ⟨rest', by rw [← hwrap]; rfl, hrest⟩
  · refine ⟨fun hnone => ?_, hnumber⟩
    rw [hexact hnone]
    rfl

end Alike

/-! ## Single tokens -/

section Tokens

variable {f : Relocation} {tail : Option TokenStream} {s s' : TokenStream}

theorem TokenStream.unexpected_ne (s : TokenStream) (expected : List Kind) (literal : String) :
    s.unexpected expected ≠ .malformedNumber literal := by
  cases s <;> simp [TokenStream.unexpected]

/-- A refused stream is refused for the same reason. -/
theorem Alike.unexpected {α : Type} {move : α → α} (hs : Mirrors f tail s s')
    (expected : List Kind) :
    Alike f tail move (.error (s.unexpected expected)) (.error (s'.unexpected expected)) := by
  cases hs with
  | ends => exact .beyond (unexpected_ne _ expected)
  | done | broken | next => exact .error (unexpected_ne _ expected)

theorem TokenStream.Mirrors.expectAmong (hs : Mirrors f tail s s') (expected : List Kind)
    (kind : Kind) :
    Alike f tail (Token.move f.place) (outcome (s.expectAmong expected kind))
      (outcome (s'.expectAmong expected kind)) := by
  cases hs with
  | done | broken => exact .unexpected (by constructor) expected
  | ends => exact .beyond (unexpected_ne _ expected)
  | @next _ t rest rest' hreadable hrest =>
      rw [TokenStream.expectAmong, TokenStream.expectAmong, Token.kind_move]
      split
      · exact .ok hrest
      · exact .unexpected (.next hreadable hrest) expected

theorem TokenStream.Mirrors.accept (hs : Mirrors f tail s s') (kind : Kind)
    (hkind : kind ≠ .semicolon) :
    Alike f tail id (outcome (s.accept kind)) (outcome (s'.accept kind)) := by
  cases hs with
  | done position => exact .ok (.done position)
  | broken error => exact .error (by simp)
  | ends position hsemicolon =>
      rw [TokenStream.accept, TokenStream.accept, if_neg (by rw [hsemicolon]; exact hkind.symm)]
      exact .ok (.ends position hsemicolon)
  | @next _ t rest rest' hreadable hrest =>
      rw [TokenStream.accept, TokenStream.accept]
      simp only [Token.kind_move]
      split
      · exact .ok hrest
      · exact .ok (.next hreadable hrest)

theorem TokenStream.Mirrors.expectIdent (hs : Mirrors f tail s s') :
    Alike f tail (Ident.move f.place) (outcome s.expectIdent) (outcome s'.expectIdent) := by
  refine (hs.expectAmong [.identifier] .identifier).bind_outcome ?_
  intro t rest rest' _ _ hrest
  exact .ok hrest

/-- By induction on the length of the first stream. -/
theorem TokenStream.Mirrors.commaSeparated {α : Type} {move : α → α}
    {item : (s : TokenStream) → Parse α s.length}
    (hitem : ∀ {s s'}, Mirrors f tail s s' →
      Alike f tail move (outcome (item s)) (outcome (item s')))
    (hs : Mirrors f tail s s') :
    Alike f tail (List.map move) (outcome (s.commaSeparated item))
      (outcome (s'.commaSeparated item)) := by
  induction s using lengthInduction generalizing s' with
  | shorter s ih =>
      rw [TokenStream.commaSeparated, TokenStream.commaSeparated]
      refine (hitem hs).bind_outcome fun first rest rest' hfirst _ hrest => ?_
      refine (hrest.accept .comma (by decide)).bind_outcome fun more rest rest' hmore _ hrest => ?_
      cases more with
      | false => exact .ok hrest
      | true =>
          refine (ih rest (by omega) hrest).bind_outcome fun others rest rest' _ _ hrest => ?_
          exact .ok hrest

end Tokens

/-! ## Expressions -/

section Expressions

variable {f : Relocation} {tail : Option TokenStream}

theorem Alike.checkDepth {depth : Nat} {position : Position} {α : Type} {move : α → α}
    {x x' : Except SyntaxError (α × TokenStream)} (hx : Alike f tail move x x') :
    Alike f tail move (PocketSql.checkDepth depth position >>= fun _ => x)
      (PocketSql.checkDepth depth (f.place position) >>= fun _ => x') := by
  by_cases hdepth : depth < maxDepth
  · simp only [PocketSql.checkDepth, if_pos hdepth]
    exact hx
  · simp only [PocketSql.checkDepth, if_neg hdepth]
    exact .error (by simp)

/-- What is said of the readers of expressions, all of them together. -/
structure TokenStream.ReadsAlike (f : Relocation) (tail : Option TokenStream) (s : TokenStream) :
    Prop where
  primary : ∀ {depth s'}, Mirrors f tail s s' →
    Alike f tail (Expr.move f.place) (outcome (s.primary depth)) (outcome (s'.primary depth))
  expression : ∀ {depth precedence s'}, Mirrors f tail s s' →
    Alike f tail (Expr.move f.place) (outcome (s.expression depth precedence))
      (outcome (s'.expression depth precedence))
  operators : ∀ {depth precedence lhs s'}, Mirrors f tail s s' →
    Alike f tail (Expr.move f.place) (outcome (s.operators depth precedence lhs))
      (outcome (s'.operators depth precedence (lhs.move f.place)))
  projection : ∀ {depth s'}, Mirrors f tail s s' →
    Alike f tail (Expr.move f.place) (outcome (s.projection depth)) (outcome (s'.projection depth))
  projections : ∀ {depth s'}, Mirrors f tail s s' →
    Alike f tail (List.map (Expr.move f.place)) (outcome (s.projections depth))
      (outcome (s'.projections depth))

section Primary

variable {s : TokenStream} (ih : ∀ s' : TokenStream, s'.length < s.length → s'.ReadsAlike f tail)

/-- What a literal stands for does not depend on its place. -/
theorem literalOf_move (f : Relocation) {t : Token} (hreadable : t.Readable) :
    (∃ value, literalOf t = .ok value ∧ literalOf (t.move f.place) = .ok value) ∨
      ∃ e, literalOf t = .error e ∧ literalOf (t.move f.place) = .error (e.move f) ∧
        ∀ literal, e ≠ .malformedNumber literal := by
  unfold literalOf
  rw [Token.kind_move]
  split
  · next hnumber =>
    obtain ⟨value, hvalue⟩ := Option.isSome_iff_exists.mp (hreadable hnumber)
    rw [numberLiteral, numberLiteral, Token.literal_move]
    split
    · cases Integer.read? t.literal.toList with
      | some value => exact .inl ⟨_, rfl, rfl⟩
      | none => exact .inr ⟨_, rfl, rfl, by simp⟩
    · rw [hvalue]
      exact .inl ⟨_, rfl, rfl⟩
  all_goals exact .inl ⟨_, rfl, rfl⟩

include ih

theorem alike_primary {depth : Nat} {s' : TokenStream} (hs : Mirrors f tail s s') :
    Alike f tail (Expr.move f.place) (outcome (s.primary depth)) (outcome (s'.primary depth)) := by
  cases hs with
  | done | broken =>
      unfold TokenStream.primary
      exact .unexpected (by constructor) primaryStart
  | ends =>
      rw [TokenStream.primary.eq_def]
      exact .beyond (unexpected_ne _ _)
  | @next _ t rest rest' hreadable hrest =>
      have hshorter : rest.length < (next t rest).length := Nat.lt_succ_self _
      by_cases hgroup : t.kind = .leftParen
      · rw [outcome_primary_group _ _ hgroup,
          outcome_primary_group (t := t.move f.place) _ _ hgroup]
        refine .checkDepth (((ih rest hshorter).expression hrest).bind ?_)
        intro inner rest rest' _ hrest
        refine (hrest.expectAmong _ _).bind fun _ rest rest' _ hrest => ?_
        exact .ok hrest
      by_cases hname : t.kind = .identifier
      · rw [outcome_primary_name _ _ hname, outcome_primary_name (t := t.move f.place) _ _ hname]
        refine (hrest.accept .leftParen (by decide)).bind fun isCall r r' hcall hr => ?_
        cases isCall with
        | false => exact .ok hr
        | true =>
            refine (hr.accept .rightParen (by decide)).bind fun isEmpty q q' hempty hq => ?_
            cases isEmpty with
            | true => exact .ok hq
            | false =>
                have hq' : q.length < (next t rest).length := by
                  have hcall' := length_lt_of_outcome hcall
                  have hempty' := length_lt_of_outcome hempty
                  rw [TokenStream.length]
                  omega
                refine ((ih q hq').projections hq).bind fun arguments _ _ _ hrest => ?_
                refine (hrest.expectAmong _ _).bind fun _ rest rest' _ hrest => ?_
                exact ⟨rest', by rw [Expr.move_call]; rfl, hrest⟩
      by_cases hsign : t.kind = .plus ∨ t.kind = .minus
      · rw [outcome_primary_sign _ _ hsign, outcome_primary_sign (t := t.move f.place) _ _ hsign]
        refine .checkDepth (((ih rest hshorter).primary hrest).bind ?_)
        intro operand rest rest' _ hrest
        exact .ok hrest
      by_cases hliteral : t.kind ∈ literalKinds
      · rw [outcome_primary_literal _ _ hliteral,
          outcome_primary_literal (t := t.move f.place) _ _ hliteral]
        rcases literalOf_move f hreadable with
          ⟨value, hvalue, hvalue'⟩ | ⟨e, hfault, hfault', hnumber⟩
        · rw [hvalue, hvalue']
          exact .ok hrest
        · rw [hfault, hfault']
          exact .error hnumber
      have hother : t.kind ∉ primaryStart := by
        simp only [literalKinds, primaryStart, List.mem_cons, List.not_mem_nil, or_false,
          not_or] at hliteral hsign ⊢
        tauto
      rw [outcome_primary_other _ _ hother, outcome_primary_other (t := t.move f.place) _ _ hother]
      exact .unexpected (.next hreadable hrest) primaryStart

theorem alike_operators {depth precedence : Nat} {lhs : Expr} {s' : TokenStream}
    (hs : Mirrors f tail s s') :
    Alike f tail (Expr.move f.place) (outcome (s.operators depth precedence lhs))
      (outcome (s'.operators depth precedence (lhs.move f.place))) := by
  cases hs with
  | done position =>
      rw [outcome_operators_done, outcome_operators_done]
      exact .ok (.done position)
  | broken error =>
      unfold TokenStream.operators
      exact .error (by simp)
  | ends position hsemicolon =>
      rw [outcome_operators_done, outcome_operators_next,
        if_pos (by simp [hsemicolon, Kind.precedence])]
      exact .ok (.ends position hsemicolon)
  | @next _ t rest rest' hreadable hrest =>
      rw [outcome_operators_next, outcome_operators_next, Token.kind_move]
      split
      · exact .ok (.next hreadable hrest)
      · refine .checkDepth (((ih rest (Nat.lt_succ_self _)).expression hrest).bind ?_)
        intro rhs q q' hrhs hq
        have hlt : q.length < (next t rest).length :=
          (length_lt_of_outcome hrhs).trans (Nat.lt_succ_self _)
        have hwhole : Alike f tail (Expr.move f.place)
            (outcome (q.operators (depth + 1) precedence (.binary t.kind lhs rhs)))
            (outcome (q'.operators (depth + 1) precedence
              ((Expr.binary t.kind lhs rhs).move f.place))) := (ih q hlt).operators hq
        exact hwhole

theorem alike_expression {depth precedence : Nat} {s' : TokenStream} (hs : Mirrors f tail s s') :
    Alike f tail (Expr.move f.place) (outcome (s.expression depth precedence))
      (outcome (s'.expression depth precedence)) := by
  rw [outcome_expression, outcome_expression]
  refine (alike_primary ih hs).bind fun first rest rest' hfirst hrest => ?_
  exact (ih rest (length_lt_of_outcome hfirst)).operators hrest

theorem alike_projection {depth : Nat} {s' : TokenStream} (hs : Mirrors f tail s s') :
    Alike f tail (Expr.move f.place) (outcome (s.projection depth))
      (outcome (s'.projection depth)) := by
  by_cases hstar : s.nextKind? = some .star
  · cases hs with
    | done | ends | broken => cases hstar
    | next _ hrest =>
        have hkind := Option.some.inj hstar
        rw [outcome_projection_star _ hkind, outcome_projection_star _ (by exact hkind)]
        exact .ok hrest
  · have hstar' : s'.nextKind? ≠ some .star := by
      cases hs with
      | done | broken => exact hstar
      | next => exact hstar
      | ends _ hsemicolon =>
          rw [nextKind?, hsemicolon]
          decide
    rw [outcome_projection_expression _ hstar, outcome_projection_expression _ hstar']
    exact alike_expression ih hs

theorem alike_projections {depth : Nat} {s' : TokenStream} (hs : Mirrors f tail s s') :
    Alike f tail (List.map (Expr.move f.place)) (outcome (s.projections depth))
      (outcome (s'.projections depth)) := by
  rw [outcome_projections, outcome_projections]
  refine (alike_projection ih hs).bind fun first rest rest' hfirst hrest => ?_
  refine (hrest.accept .comma (by decide)).bind fun more q q' hmore hq => ?_
  cases more with
  | false => exact .ok hq
  | true =>
      have hfirst' := length_lt_of_outcome hfirst
      have hmore' := length_lt_of_outcome hmore
      refine ((ih q (by omega)).projections hq).bind fun others _ _ _ hrest => ?_
      exact .ok hrest

end Primary

theorem readsAlike (f : Relocation) (tail : Option TokenStream) (s : TokenStream) :
    s.ReadsAlike f tail := by
  induction s using lengthInduction with
  | shorter s ih =>
      exact {
        primary := alike_primary ih
        expression := alike_expression ih
        operators := alike_operators ih
        projection := alike_projection ih
        projections := alike_projections ih }

end Expressions

/-! ## Statements -/

namespace TokenStream.Mirrors

variable {f : Relocation} {tail : Option TokenStream} {s s' : TokenStream}

theorem wholeExpression (hs : Mirrors f tail s s') :
    Alike f tail (Expr.move f.place) (outcome s.wholeExpression) (outcome s'.wholeExpression) :=
  (readsAlike f tail s).expression hs

theorem clause (hs : Mirrors f tail s s') (keyword : Kind) (hkeyword : keyword ≠ .semicolon) :
    Alike f tail (Option.map (Expr.move f.place)) (outcome (s.clause keyword))
      (outcome (s'.clause keyword)) := by
  rw [TokenStream.clause, TokenStream.clause]
  refine (hs.accept keyword hkeyword).bind_outcome ?_
  intro present rest rest' _ _ hrest
  cases present with
  | false => exact .ok hrest
  | true =>
      refine hrest.wholeExpression.bind_outcome fun value rest rest' _ _ hrest => ?_
      exact .ok hrest

theorem dataType (hs : Mirrors f tail s s') :
    Alike f tail id (outcome s.dataType) (outcome s'.dataType) := by
  cases hs with
  | done | broken => exact .unexpected (by constructor) DataType.keywords
  | ends => exact .beyond (unexpected_ne _ _)
  | @next _ t rest rest' hreadable hrest =>
      rw [TokenStream.dataType, TokenStream.dataType, Token.kind_move]
      cases DataType.ofKeyword? t.kind with
      | some type => exact .ok hrest
      | none => exact .unexpected (.next hreadable hrest) DataType.keywords

theorem nullability (hs : Mirrors f tail s s') :
    Alike f tail id (outcome s.nullability) (outcome s'.nullability) := by
  rw [TokenStream.nullability, TokenStream.nullability]
  refine (hs.accept .kwNot (by decide)).bind_outcome fun negated rest rest' _ _ hrest => ?_
  cases negated with
  | true =>
      refine (hrest.expectAmong _ _).bind_outcome fun _ rest rest' _ _ hrest => ?_
      exact .ok hrest
  | false =>
      refine (hrest.accept .kwNull (by decide)).bind_outcome fun _ rest rest' _ _ hrest => ?_
      exact .ok hrest

/-- By induction on the length of the first stream, with what has been read so far. -/
theorem fillClauses (hs : Mirrors f tail s s') (default : Option Expr) (autoIncrement : Bool) :
    Alike f tail (Prod.map (Option.map (Expr.move f.place)) id)
      (outcome (s.fillClauses default autoIncrement))
      (outcome (s'.fillClauses (default.map (Expr.move f.place)) autoIncrement)) := by
  induction s using lengthInduction generalizing s' default autoIncrement with
  | shorter s ih =>
      cases hs with
      | done position =>
          rw [TokenStream.fillClauses, TokenStream.fillClauses]
          exact .ok (.done position)
      | broken error =>
          rw [TokenStream.fillClauses, TokenStream.fillClauses]
          exact .error (by simp)
      | ends position hsemicolon =>
          rw [TokenStream.fillClauses, TokenStream.fillClauses, if_neg (by simp [hsemicolon]),
            if_neg (by simp [hsemicolon])]
          exact .ok (.ends position hsemicolon)
      | @next _ t rest rest' hreadable hrest =>
          rw [TokenStream.fillClauses, TokenStream.fillClauses]
          simp only [Token.kind_move, Option.isNone_map]
          split
          · refine hrest.wholeExpression.bind_outcome fun value q q' hq _ hmirror => ?_
            have hlt : q.length < (TokenStream.next t rest).length := by
              rw [TokenStream.length]
              omega
            refine (ih q hlt hmirror (some value) autoIncrement).bind_outcome
              fun clauses _ _ _ _ hrest => ?_
            exact .ok hrest
          · split
            · refine (ih rest (Nat.lt_succ_self _) hrest default true).bind_outcome
                fun clauses _ _ _ _ hrest => ?_
              exact .ok hrest
            · exact .ok (.next hreadable hrest)

theorem columnDefinition (hs : Mirrors f tail s s') :
    Alike f tail (ColumnDefinition.move f.place) (outcome s.columnDefinition)
      (outcome s'.columnDefinition) := by
  rw [TokenStream.columnDefinition, TokenStream.columnDefinition]
  refine hs.expectIdent.bind_outcome fun name _ _ _ _ hs => ?_
  refine hs.dataType.bind_outcome fun type _ _ _ _ hs => ?_
  refine hs.nullability.bind_outcome fun nullable _ _ _ _ hs => ?_
  refine (hs.fillClauses none false).bind_outcome fun clauses _ _ _ _ hs => ?_
  exact .ok hs

theorem createTable (hs : Mirrors f tail s s') :
    Alike f tail (CreateTable.move f.place) (outcome s.createTable) (outcome s'.createTable) := by
  rw [TokenStream.createTable, TokenStream.createTable]
  refine (hs.expectAmong _ _).bind_outcome fun create _ _ _ _ hs => ?_
  refine (hs.expectAmong _ _).bind_outcome fun _ _ _ _ _ hs => ?_
  refine hs.expectIdent.bind_outcome fun table _ _ _ _ hs => ?_
  refine (hs.expectAmong _ _).bind_outcome fun _ _ _ _ _ hs => ?_
  refine (hs.commaSeparated columnDefinition).bind_outcome fun columns _ _ _ _ hs => ?_
  refine (hs.expectAmong _ _).bind_outcome fun _ _ _ _ _ hs => ?_
  exact .ok hs

theorem select (hs : Mirrors f tail s s') :
    Alike f tail (Select.move f.place) (outcome s.select) (outcome s'.select) := by
  rw [TokenStream.select, TokenStream.select]
  refine (hs.expectAmong _ _).bind_outcome fun select _ _ _ _ hs => ?_
  refine ((readsAlike f tail _).projections hs).bind_outcome fun projections _ _ _ _ hs => ?_
  refine (hs.expectAmong _ _).bind_outcome fun _ _ _ _ _ hs => ?_
  refine hs.wholeExpression.bind_outcome fun table _ _ _ _ hs => ?_
  refine (hs.clause .kwWhere (by decide)).bind_outcome fun condition _ _ _ _ hs => ?_
  exact .ok hs

theorem targetColumns (hs : Mirrors f tail s s') :
    Alike f tail (List.map (Ident.move f.place)) (outcome s.targetColumns)
      (outcome s'.targetColumns) := by
  rw [TokenStream.targetColumns, TokenStream.targetColumns]
  refine (hs.accept .leftParen (by decide)).bind_outcome fun named _ _ _ _ hs => ?_
  cases named with
  | false => exact .ok hs
  | true =>
      refine (hs.commaSeparated expectIdent).bind_outcome fun columns _ _ _ _ hs => ?_
      refine (hs.expectAmong _ _).bind_outcome fun _ _ _ _ _ hs => ?_
      exact .ok hs

theorem insert (hs : Mirrors f tail s s') :
    Alike f tail (Insert.move f.place) (outcome s.insert) (outcome s'.insert) := by
  rw [TokenStream.insert, TokenStream.insert]
  refine (hs.expectAmong _ _).bind_outcome fun insert _ _ _ _ hs => ?_
  refine (hs.expectAmong _ _).bind_outcome fun _ _ _ _ _ hs => ?_
  refine hs.expectIdent.bind_outcome fun table _ _ _ _ hs => ?_
  refine hs.targetColumns.bind_outcome fun columns _ _ _ _ hs => ?_
  refine (hs.expectAmong _ _).bind_outcome fun _ _ _ _ _ hs => ?_
  refine (hs.expectAmong _ _).bind_outcome fun _ _ _ _ _ hs => ?_
  refine (hs.commaSeparated wholeExpression).bind_outcome fun values _ _ _ _ hs => ?_
  refine (hs.expectAmong _ _).bind_outcome fun _ _ _ _ _ hs => ?_
  exact .ok hs

theorem assignment (hs : Mirrors f tail s s') :
    Alike f tail (Assignment.move f.place) (outcome s.assignment) (outcome s'.assignment) := by
  rw [TokenStream.assignment, TokenStream.assignment]
  refine hs.expectIdent.bind_outcome fun column _ _ _ _ hs => ?_
  refine (hs.expectAmong _ _).bind_outcome fun _ _ _ _ _ hs => ?_
  refine hs.wholeExpression.bind_outcome fun value _ _ _ _ hs => ?_
  exact .ok hs

theorem assignments (hs : Mirrors f tail s s') :
    Alike f tail (List.map (Assignment.move f.place)) (outcome s.assignments)
      (outcome s'.assignments) := by
  rw [TokenStream.assignments, TokenStream.assignments]
  refine (hs.accept .leftParen (by decide)).bind_outcome fun enclosed _ _ _ _ hs => ?_
  refine (hs.commaSeparated assignment).bind_outcome fun assignments _ _ _ _ hs => ?_
  cases enclosed with
  | false => exact .ok hs
  | true =>
      refine (hs.expectAmong _ _).bind_outcome fun _ _ _ _ _ hs => ?_
      exact .ok hs

theorem update (hs : Mirrors f tail s s') :
    Alike f tail (Update.move f.place) (outcome s.update) (outcome s'.update) := by
  rw [TokenStream.update, TokenStream.update]
  refine (hs.expectAmong _ _).bind_outcome fun update _ _ _ _ hs => ?_
  refine hs.expectIdent.bind_outcome fun table _ _ _ _ hs => ?_
  refine (hs.expectAmong _ _).bind_outcome fun _ _ _ _ _ hs => ?_
  refine hs.assignments.bind_outcome fun assignments _ _ _ _ hs => ?_
  refine (hs.clause .kwWhere (by decide)).bind_outcome fun condition _ _ _ _ hs => ?_
  exact .ok hs

theorem delete (hs : Mirrors f tail s s') :
    Alike f tail (Delete.move f.place) (outcome s.delete) (outcome s'.delete) := by
  rw [TokenStream.delete, TokenStream.delete]
  refine (hs.expectAmong _ _).bind_outcome fun delete _ _ _ _ hs => ?_
  refine (hs.expectAmong _ _).bind_outcome fun _ _ _ _ _ hs => ?_
  refine hs.expectIdent.bind_outcome fun table _ _ _ _ hs => ?_
  refine (hs.clause .kwWhere (by decide)).bind_outcome fun condition _ _ _ _ hs => ?_
  exact .ok hs

theorem statement (hs : Mirrors f tail s s') :
    Alike f tail (Statement.move f.place) (outcome s.statement) (outcome s'.statement) := by
  cases hs with
  | done | broken => exact .unexpected (by constructor) statementStart
  | ends => exact .beyond (unexpected_ne _ _)
  | @next _ t rest rest' hreadable hrest =>
      have hs : Mirrors f tail (.next t rest) (.next (t.move f.place) rest') :=
        .next hreadable hrest
      rw [TokenStream.statement, TokenStream.statement, Token.kind_move]
      split
      · exact hs.createTable.map fun _ => rfl
      · exact hs.select.map fun _ => rfl
      · exact hs.insert.map fun _ => rfl
      · exact hs.update.map fun _ => rfl
      · exact hs.delete.map fun _ => rfl
      · exact .unexpected hs statementStart

end TokenStream.Mirrors

/-! ## Batches -/

namespace TokenStream

/-- How a batch goes on behind its first statement. -/
def continueBatch (first : Statement) : TokenStream → Except SyntaxError (List Statement)
  | done _ => .ok [first]
  | broken e => .error (.lexical e)
  | next t rest => if t.kind = .semicolon then rest.statements.map (first :: ·)
    else .error ((next t rest).unexpected [.semicolon])

theorem statements_of_statement_ok {t : Token} {rest q : TokenStream} {first : Statement}
    {hshorter : q.length < (next t rest).length}
    (hread : (next t rest).statement = .ok ⟨first, q, hshorter⟩) :
    (next t rest).statements = q.continueBatch first := by
  rw [statements_next, hread]
  cases q with
  | done position => rfl
  | broken e => rfl
  | next t' r =>
      rw [continueBatch]
      by_cases hsemicolon : t'.kind = .semicolon
      · have haccept : (next t' r).accept .semicolon = .ok ⟨true, r, by simp⟩ := by
          rw [TokenStream.accept, if_pos hsemicolon]
        rw [if_pos hsemicolon]
        simp only [bind, Except.bind, haccept, if_true]
        cases r.statements <;> rfl
      · have haccept : (next t' r).accept .semicolon = .ok ⟨false, next t' r, by simp⟩ := by
          rw [TokenStream.accept, if_neg hsemicolon]
        rw [if_neg hsemicolon]
        simp only [bind, Except.bind, haccept, Bool.false_eq_true, if_false]

/-- Only the end of a stream is a batch of no statements. -/
theorem eq_done_of_statements {s : TokenStream} (hread : s.statements = .ok []) :
    ∃ position, s = done position := by
  obtain ⟨ts, finish, rfl, hts⟩ := s.derives_of_statements (fun hts => hts) hread
  cases hts
  exact ⟨finish, rfl⟩

/-- The kind of the last token. -/
def lastKind? : TokenStream → Option Kind
  | done _ => none
  | broken _ => none
  | next t rest => rest.lastKind?.or (some t.kind)

theorem lastKind?_prepend {s : TokenStream} (hs : s.lastKind?.isSome) (ts : List Token) :
    (s.prepend ts).lastKind? = s.lastKind? := by
  induction ts with
  | nil => rfl
  | cons t ts ih =>
      rw [prepend_cons, lastKind?, ih]
      exact Option.or_of_isSome hs

end TokenStream

namespace TokenStream.Mirrors

variable {f : Relocation} {s s' : TokenStream}

/-- Streams with the same end give the same statements or the same error. -/
theorem statements (hs : Mirrors f none s s') :
    (∃ statements, s.statements = .ok statements ∧
      s'.statements = .ok (statements.map (Statement.move f.place))) ∨
    ∃ e, s.statements = .error e ∧ s'.statements = .error (e.move f) ∧
      ∀ literal, e ≠ .malformedNumber literal := by
  induction s using lengthInduction generalizing s' with
  | shorter s ih =>
      have hstatement := hs.statement.cases
      cases hs with
      | done =>
          rw [TokenStream.statements, TokenStream.statements]
          exact .inl ⟨[], rfl, rfl⟩
      | broken error =>
          rw [TokenStream.statements.eq_def, TokenStream.statements.eq_def]
          exact .inr ⟨_, rfl, rfl, unexpected_ne _ _⟩
      | @next _ t rest rest' hreadable hrest =>
          rcases hstatement with ⟨first, q, q', hq, _, hread, hread', hmirror⟩ |
            ⟨e, hread, hexact, hnumber⟩
          swap
          · rw [statements_next, statements_next, hread, hexact rfl]
            exact .inr ⟨e, rfl, rfl, hnumber⟩
          rw [statements_of_statement_ok hread, statements_of_statement_ok hread']
          cases hmirror with
          | done => exact .inl ⟨[first], rfl, rfl⟩
          | broken error => exact .inr ⟨_, rfl, rfl, by simp⟩
          | @next _ t' r r' _ hr =>
              rw [continueBatch, continueBatch, Token.kind_move]
              split
              · rcases ih r (by rw [TokenStream.length] at hq; omega) hr with
                  ⟨others, hothers, hothers'⟩ | ⟨e, herror, herror', hnumber⟩
                · rw [hothers, hothers']
                  exact .inl ⟨first :: others, rfl, rfl⟩
                · rw [herror, herror']
                  exact .inr ⟨e, rfl, rfl, hnumber⟩
              · exact .inr ⟨_, rfl, rfl, unexpected_ne _ _⟩

/-- A batch whose last token is no semicolon, with a semicolon and another batch behind it. -/
theorem statements_append {tail : TokenStream} (hs : Mirrors f (some tail) s s')
    {statements : List Statement} (hread : s.statements = .ok statements)
    (hne : statements ≠ []) (hlast : s.lastKind? ≠ some .semicolon) :
    s'.statements = tail.statements.map (statements.map (Statement.move f.place) ++ ·) := by
  induction s using lengthInduction generalizing s' statements with
  | shorter s ih =>
      have hstatement := hs.statement.cases
      cases hs with
      | ends =>
          rw [TokenStream.statements] at hread
          cases hread
          exact absurd rfl hne
      | broken error =>
          rw [TokenStream.statements.eq_def] at hread
          cases hread
      | @next _ t rest rest' hreadable hrest =>
          rcases hstatement with ⟨first, q, q', hq, _, hfirst, hfirst', hmirror⟩ |
            ⟨e, herror, -⟩
          swap
          · rw [statements_next, herror] at hread
            cases hread
          rw [statements_of_statement_ok hfirst] at hread
          rw [statements_of_statement_ok hfirst']
          cases hmirror with
          | broken error => cases hread
          | ends _ hsemicolon =>
              cases hread
              rw [continueBatch, if_pos hsemicolon]
              rfl
          | @next _ t' r r' _ hr =>
              rw [continueBatch] at hread ⊢
              rw [Token.kind_move]
              split at hread
              swap
              · cases hread
              next hsemicolon =>
              rw [if_pos hsemicolon]
              obtain ⟨others, hothers, rfl⟩ := map_eq_ok.mp hread
              obtain ⟨ts, hts, -⟩ := derives_of_statement (fun hts => hts) hfirst
              have hrest : (TokenStream.next t' r).lastKind? ≠ some .semicolon := by
                rwa [hts, lastKind?_prepend (by simp [lastKind?])] at hlast
              have hlast' : r.lastKind? ≠ some .semicolon := by
                intro heq
                simp [lastKind?, heq] at hrest
              have hothers' : others ≠ [] := by
                rintro rfl
                obtain ⟨position, rfl⟩ := eq_done_of_statements hothers
                exact hrest (congrArg some hsemicolon)
              rw [ih r (by rw [TokenStream.length] at hq; omega) hr hothers hothers' hlast']
              cases tail.statements <;> rfl

end TokenStream.Mirrors

end PocketSql
