import Mathlib
import PocketSql.Proofs.Syntax.ExpressionPromptness
import PocketSql.Proofs.Syntax.ParallelReading

/-!
# Syntax errors come promptly

The readers of statements are put together from prompt readers, so a batch is refused at
the first token that no batch goes on with.  The tokens in front of it begin a batch; the
tokens up to it begin none, and whatever stands behind it is not looked at.
-/

namespace PocketSql

open Parse (outcome)

namespace TokenStream

variable {bound : Nat} {follow : List Kind}

/-! ## Clauses -/

theorem prompt_wholeExpression (bound : Nat) :
    Prompt [.identifier] expressionFollow (fun s => outcome s.wholeExpression) bound :=
  (expressionsPrompt bound).expression 0 lowestPrecedence

theorem prompt_clause {keyword : Kind} (heof : keyword ≠ .eof) (hkeyword : keyword ∉ follow)
    (hfollow : follow ⊆ expressionFollow) :
    Prompt follow follow (fun s => outcome (s.clause keyword)) bound := by
  have hnone : Prompt follow follow (fun s => .ok ((none : Option Expr), s)) bound :=
    .ok none (List.Subset.refl follow)
  rw [funext (outcome_clause keyword)]
  refine prompt_accept heof hkeyword ⟨[.identifier], ?_⟩ hnone
  refine Prompt.bind (prompt_wholeExpression bound) follow hfollow fun value => ?_
  exact .ok (some value) (List.Subset.refl follow)

/-! ## Columns -/

theorem ofKeyword?_of_mem {kind : Kind} (hkind : kind ∈ DataType.keywords) :
    ∃ type, DataType.ofKeyword? kind = some type := by
  cases kind <;> first | exact ⟨_, rfl⟩ | exact absurd hkind (by decide)

theorem ofKeyword?_of_not_mem {kind : Kind} (hkind : kind ∉ DataType.keywords) :
    DataType.ofKeyword? kind = none := by
  cases kind <;> first | rfl | exact absurd (by decide) hkind

theorem dataType_of_ne {s : TokenStream}
    (hs : ∀ kind ∈ DataType.keywords, s.nextKind? ≠ some kind) :
    outcome s.dataType = .error (s.unexpected DataType.keywords) := by
  cases s with
  | done | broken => rfl
  | next t rest =>
      have hnone := ofKeyword?_of_not_mem fun hmem => hs t.kind hmem rfl
      rw [dataType]
      split
      · next htype => cases hnone.symm.trans htype
      · rfl

theorem prompt_dataType (bound : Nat) :
    Prompt [.kwInteger] follow (fun s => outcome s.dataType) bound := by
  have hcompletes : Completes [.kwInteger] follow fun s => outcome s.dataType := by
    let t : Token := ⟨.kwInteger, .start, ""⟩
    exact ⟨[t], .integer, List.forall_mem_singleton.mpr rfl, fun rest _ =>
      ⟨nextIn_next (List.mem_singleton_self _) rest, dataType_next rfl rest⟩⟩
  refine ⟨hcompletes, fun s _ => ?_⟩
  by_cases hs : ∀ kind ∈ DataType.keywords, s.nextKind? ≠ some kind
  · exact .refused (fun _ => dataType_of_ne) hs hcompletes
  · push Not at hs
    obtain ⟨kind, hmem, hkind⟩ := hs
    obtain ⟨type, htype⟩ := ofKeyword?_of_mem hmem
    cases s with
    | done =>
        cases hkind
        exact absurd hmem (by decide)
    | broken => cases hkind
    | next t rest =>
        cases hkind
        exact .next (dataType_next htype) (.ok type (List.Subset.refl follow))

theorem prompt_nullability (hnot : .kwNot ∉ follow) (hnull : .kwNull ∉ follow) (bound : Nat) :
    Prompt follow follow (fun s => outcome s.nullability) bound := by
  have hread (nullable : Bool) : Prompt follow follow (fun s => .ok (nullable, s)) bound :=
    .ok nullable (List.Subset.refl follow)
  rw [funext outcome_nullability]
  refine prompt_accept (by decide) hnot ⟨[.kwNull], ?_⟩ ?_
  · exact prompt_behind .kwNull (by decide) follow fun _ => hread false
  · exact prompt_accept (by decide) hnull ⟨follow, hread true⟩ (hread true)

/-- By induction on the length of the stream, with what has been read generalised. -/
theorem prompt_fillClauses (bound : Nat) (default : Option Expr) (autoIncrement : Bool) :
    Prompt columnFollow columnFollow
      (fun s => outcome (s.fillClauses default autoIncrement)) bound := by
  have hok (bound : Nat) : Prompt columnFollow columnFollow
      (fun s => .ok ((default, autoIncrement), s)) bound := .ok _ (List.Subset.refl columnFollow)
  induction bound generalizing default autoIncrement with
  | zero =>
      exact ⟨(hok 0).completes.congr fillClauses_of_ends fillEnds_of_mem (List.Subset.refl _),
        nofun⟩
  | succ bound ih =>
      apply (hok (bound + 1)).congr fillClauses_of_ends fillEnds_of_mem (List.Subset.refl _)
      intro s hs hgoes
      cases s with
      | done => exact absurd ⟨nofun, nofun⟩ (hgoes .eof rfl)
      | broken e =>
          refine .of_error (e := .lexical e) ?_ (ne_refusal_lexical e)
          unfold fillClauses
          rfl
      | next t rest =>
          have hrest : rest.length < bound := Nat.lt_of_succ_lt_succ hs
          by_cases hdefault : t.kind = .kwDefault ∧ default.isNone
          · obtain ⟨ht, hnone⟩ := hdefault
            rw [Option.isNone_iff_eq_none.mp hnone]
            apply PromptAt.next fun s => outcome_fillClauses_default ht autoIncrement s
            refine Prompt.promptAt (Prompt.bind (prompt_wholeExpression bound) columnFollow
              (by decide) fun value => ?_) rest hrest
            exact ih (some value) autoIncrement fun _ => .ok _ (List.Subset.refl columnFollow)
          by_cases hmark : t.kind = .kwAutoIncrement ∧ autoIncrement = false
          · obtain ⟨ht, rfl⟩ := hmark
            exact .next (outcome_fillClauses_mark ht default)
              ((ih default true fun _ => .ok _ (List.Subset.refl columnFollow)).promptAt rest hrest)
          exact absurd ⟨hdefault, hmark⟩ (hgoes t.kind rfl)

theorem prompt_columnDefinition (bound : Nat) :
    Prompt [.identifier] columnFollow (fun s => outcome s.columnDefinition) bound := by
  rw [funext outcome_columnDefinition]
  refine Prompt.bind (prompt_expectIdent bound) [.kwInteger] (List.Subset.refl _) fun name => ?_
  refine Prompt.bind (prompt_dataType bound) columnFollow (List.Subset.refl _) fun type => ?_
  refine Prompt.bind (prompt_nullability (by decide) (by decide) bound) columnFollow
    (List.Subset.refl _) fun nullable => ?_
  exact (prompt_fillClauses bound none false).map fun (default, autoIncrement) =>
    ({ name, type, nullable, default, autoIncrement } : ColumnDefinition)

/-- A list ends where no comma comes next. -/
theorem nextKind?_of_commaSeparated {α : Type} {item : (s : TokenStream) → Parse α s.length}
    {s rest : TokenStream} {xs : List α}
    (hread : outcome (s.commaSeparated item) = .ok (xs, rest)) : rest.nextKind? ≠ some .comma := by
  induction s using lengthInduction generalizing xs with
  | shorter s ih =>
      rw [outcome_commaSeparated] at hread
      obtain ⟨⟨first, rest₁⟩, hfirst, hread⟩ := bind_eq_ok.mp hread
      obtain ⟨⟨more, rest₂⟩, hmore, hread⟩ := bind_eq_ok.mp hread
      cases more with
      | true =>
          obtain ⟨⟨others, rest₃⟩, hothers, heq⟩ := bind_eq_ok.mp hread
          cases heq
          have hlt₁ := length_lt_of_outcome hfirst
          have hlt₂ := length_lt_of_outcome hmore
          exact ih rest₂ (by omega) hothers
      | false =>
          cases hread
          obtain ⟨rfl, other, hother, hne⟩ := (accept_false (by decide)).mp hmore
          rw [hother]
          exact fun heq => hne (Option.some.inj heq)

/-- The columns of a table up to the closing parenthesis.  It is expected beside a comma, of
which the list has left none. -/
theorem prompt_columns {β : Type} (f : List ColumnDefinition → β) (bound : Nat) :
    Prompt [.identifier] follow (fun s => outcome (s.commaSeparated columnDefinition) >>=
      fun (columns, rest) => outcome (rest.expectAmong [.comma, .rightParen] .rightParen) >>=
        fun (_, rest) => .ok (f columns, rest)) bound := by
  have hlist := prompt_commaSeparated prompt_columnDefinition
    (show [.rightParen] ⊆ columnFollow by decide) (by decide) bound
  have hok (columns : List ColumnDefinition) :=
    Completes.ok (f columns) (List.Subset.refl follow)
  have hclose (columns : List ColumnDefinition) : Completes [.rightParen] follow fun s =>
      outcome (s.expectAmong [.comma, .rightParen] .rightParen) >>=
        fun (_, rest) => .ok (f columns, rest) :=
    (completes_expectAmong _ (by decide) follow).bind (fun _ => hok columns)
      (List.Subset.refl follow)
  refine ⟨hlist.completes.bind hclose (List.Subset.refl _), fun s hs => ?_⟩
  refine (hlist.promptAt s hs).bind hclose (fun columns rest hread => ?_) (List.Subset.refl _)
  refine PromptAt.bind (promptAt_expectAmong (by decide) (by decide) ?_) (fun _ => hok columns)
    (fun _ _ _ => .ok (f columns) (List.Subset.refl follow)) (List.Subset.refl follow)
  rintro other hother
  rcases List.mem_cons.mp hother with rfl | hother
  · exact .inr (nextKind?_of_commaSeparated hread)
  · exact .inl (List.mem_singleton.mp hother)

/-! ## Assignments and targets -/

theorem prompt_targetColumns (bound : Nat) :
    Prompt [.kwValues] [.kwValues] (fun s => outcome s.targetColumns) bound := by
  have hnone : Prompt [.kwValues] [.kwValues] (fun s => .ok (([] : List Ident), s)) bound :=
    .ok [] (List.Subset.refl _)
  rw [funext outcome_targetColumns]
  refine prompt_accept (by decide) (by decide) ⟨[.identifier], ?_⟩ hnone
  refine Prompt.bind (prompt_commaSeparated prompt_expectIdent
    (show [.rightParen] ⊆ columnFollow by decide) (by decide) bound) [.rightParen]
    (List.Subset.refl _) fun columns => ?_
  exact prompt_close id columns [.kwValues] bound

theorem prompt_assignment (bound : Nat) :
    Prompt [.identifier] expressionFollow (fun s => outcome s.assignment) bound := by
  rw [funext outcome_assignment]
  refine Prompt.bind (prompt_expectIdent bound) [.equal] (List.Subset.refl _) fun column => ?_
  refine prompt_behind .equal (by decide) [.identifier] fun _ => ?_
  exact (prompt_wholeExpression bound).map fun value => ({ column, value } : Assignment)

/-- What can stand behind assignments. -/
def assignmentsFollow : List Kind :=
  .kwWhere :: statementFollow

theorem prompt_assignments (bound : Nat) :
    Prompt [.identifier] assignmentsFollow (fun s => outcome s.assignments) bound := by
  rw [funext outcome_assignments]
  refine prompt_accept (by decide) (by decide) ⟨[.identifier], ?_⟩ ?_
  · refine Prompt.bind (prompt_commaSeparated prompt_assignment
      (show [.rightParen] ⊆ expressionFollow by decide) (by decide) bound) [.rightParen]
      (List.Subset.refl _) fun assignments => ?_
    exact prompt_close id assignments assignmentsFollow bound
  · refine Prompt.bind (prompt_commaSeparated prompt_assignment
      (show assignmentsFollow ⊆ expressionFollow by decide) (by decide) bound) assignmentsFollow
      (List.Subset.refl _) fun assignments => ?_
    exact .ok assignments (List.Subset.refl _)

/-! ## Statements -/

theorem prompt_condition (bound : Nat) :
    Prompt statementFollow statementFollow (fun s => outcome (s.clause .kwWhere)) bound :=
  prompt_clause (by decide) (by decide) (by decide)

theorem prompt_createTable (bound : Nat) :
    Prompt [.kwCreate] statementFollow (fun s => outcome s.createTable) bound := by
  rw [funext outcome_createTable]
  refine prompt_behind .kwCreate (by decide) [.kwTable] fun create => ?_
  refine prompt_behind .kwTable (by decide) [.identifier] fun _ => ?_
  refine Prompt.bind (prompt_expectIdent bound) [.leftParen] (List.Subset.refl _) fun table => ?_
  refine prompt_behind .leftParen (by decide) [.identifier] fun _ => ?_
  exact prompt_columns
    (fun columns => ({ position := create.position, table, columns } : CreateTable)) bound

theorem prompt_select (bound : Nat) :
    Prompt [.kwSelect] statementFollow (fun s => outcome s.select) bound := by
  rw [funext outcome_select]
  refine prompt_behind .kwSelect (by decide) [.identifier] fun select => ?_
  refine Prompt.bind ((expressionsPrompt bound).projections 0) [.kwFrom] (by decide)
    fun projections => ?_
  refine prompt_behind .kwFrom (by decide) [.identifier] fun _ => ?_
  refine Prompt.bind (prompt_wholeExpression bound) statementFollow (by decide) fun table => ?_
  exact (prompt_condition bound).map fun condition =>
    ({ position := select.position, projections, table, condition } : Select)

theorem prompt_insert (bound : Nat) :
    Prompt [.kwInsert] statementFollow (fun s => outcome s.insert) bound := by
  rw [funext outcome_insert]
  refine prompt_behind .kwInsert (by decide) [.kwInto] fun insert => ?_
  refine prompt_behind .kwInto (by decide) [.identifier] fun _ => ?_
  refine Prompt.bind (prompt_expectIdent bound) [.kwValues] (List.Subset.refl _) fun table => ?_
  refine Prompt.bind (prompt_targetColumns bound) [.kwValues] (List.Subset.refl _)
    fun columns => ?_
  refine prompt_behind .kwValues (by decide) [.leftParen] fun _ => ?_
  refine prompt_behind .leftParen (by decide) [.identifier] fun _ => ?_
  refine Prompt.bind (prompt_commaSeparated prompt_wholeExpression
    (show [.rightParen] ⊆ expressionFollow by decide) (by decide) bound) [.rightParen]
    (List.Subset.refl _) fun values => ?_
  exact prompt_close
    (fun values => ({ position := insert.position, table, columns, values } : Insert)) values
    statementFollow bound

theorem prompt_update (bound : Nat) :
    Prompt [.kwUpdate] statementFollow (fun s => outcome s.update) bound := by
  rw [funext outcome_update]
  refine prompt_behind .kwUpdate (by decide) [.identifier] fun update => ?_
  refine Prompt.bind (prompt_expectIdent bound) [.kwSet] (List.Subset.refl _) fun table => ?_
  refine prompt_behind .kwSet (by decide) [.identifier] fun _ => ?_
  refine Prompt.bind (prompt_assignments bound) statementFollow (by decide) fun assignments => ?_
  exact (prompt_condition bound).map fun condition =>
    ({ position := update.position, table, assignments, condition } : Update)

theorem prompt_delete (bound : Nat) :
    Prompt [.kwDelete] statementFollow (fun s => outcome s.delete) bound := by
  rw [funext outcome_delete]
  refine prompt_behind .kwDelete (by decide) [.kwFrom] fun keyword => ?_
  refine prompt_behind .kwFrom (by decide) [.identifier] fun _ => ?_
  refine Prompt.bind (prompt_expectIdent bound) statementFollow (List.Subset.refl _)
    fun table => ?_
  exact (prompt_condition bound).map
    fun condition => (⟨keyword.position, table, condition⟩ : Delete)

theorem statement_of_ne {s : TokenStream}
    (hs : ∀ kind ∈ statementStart, s.nextKind? ≠ some kind) :
    outcome s.statement = .error (s.unexpected statementStart) := by
  cases s with
  | done | broken => rfl
  | next t rest =>
      have ht : t.kind ∉ statementStart := fun hmem => hs t.kind hmem rfl
      rw [outcome_statement]
      split <;> first | rfl | exact absurd (by simp only [*]; decide) ht

/-- A statement that begins with a keyword is read as that keyword says. -/
theorem statement_of_keyword {α : Type} {keyword : Kind} {f : α → Statement}
    {reader : (s : TokenStream) → Parse α s.length} (hkeyword : keyword ≠ .eof)
    (hstatement : ∀ t rest, t.kind = keyword →
      outcome ((next t rest).statement) = outcome (mapParsed f (reader (next t rest))))
    (s : TokenStream) (kind : Kind) (hs : s.nextKind? = some kind) (hkind : kind = keyword) :
    outcome s.statement = outcome (reader s) >>= fun (a, rest) => .ok (f a, rest) := by
  subst hkind
  cases s with
  | done =>
      cases hs
      exact absurd rfl hkeyword
  | broken => cases hs
  | next t rest =>
      rw [hstatement t rest (Option.some.inj hs), outcome_mapParsed]
      rfl

theorem completes_statement :
    Completes statementStart statementFollow fun s => outcome s.statement :=
  ((prompt_delete 0).map Statement.delete).completes.congr
    (statement_of_keyword (by decide) outcome_statement_delete) (by simp) (by decide)

theorem promptAt_statement {α : Type} {keyword : Kind} {f : α → Statement}
    {reader : (s : TokenStream) → Parse α s.length} {s : TokenStream}
    (hreader : ∀ bound, Prompt [keyword] statementFollow (fun s => outcome (reader s)) bound)
    (hkeyword : keyword ∈ statementStart) (hs : s.nextKind? = some keyword)
    (hstatement : ∀ t rest, t.kind = keyword →
      outcome ((next t rest).statement) = outcome (mapParsed f (reader (next t rest)))) :
    PromptAt statementStart statementFollow (fun s => outcome s.statement) s := by
  have heof : keyword ≠ .eof := by
    rintro rfl
    exact absurd hkeyword (by decide)
  have hprompt := ((hreader (s.length + 1)).map f).promptAt s (Nat.lt_succ_self _)
  exact hprompt.congr (statement_of_keyword heof hstatement) ⟨keyword, hs, rfl⟩ (by simp)
    (by simpa using hkeyword)

theorem promptAt_anyStatement (s : TokenStream) :
    PromptAt statementStart statementFollow (fun s => outcome s.statement) s := by
  by_cases hs : ∀ kind ∈ statementStart, s.nextKind? ≠ some kind
  · exact .refused (fun _ => statement_of_ne) hs completes_statement
  · push Not at hs
    obtain ⟨kind, hmem, hkind⟩ := hs
    have hmem' := hmem
    simp only [statementStart, List.mem_cons, List.not_mem_nil, or_false] at hmem'
    rcases hmem' with rfl | rfl | rfl | rfl | rfl
    · exact promptAt_statement prompt_createTable hmem hkind fun t rest ht => by
        rw [outcome_statement, ht]
    · exact promptAt_statement prompt_select hmem hkind fun t rest ht => by
        rw [outcome_statement, ht]
    · exact promptAt_statement prompt_insert hmem hkind fun t rest ht => by
        rw [outcome_statement, ht]
    · exact promptAt_statement prompt_update hmem hkind fun t rest ht => by
        rw [outcome_statement, ht]
    · exact promptAt_statement prompt_delete hmem hkind outcome_statement_delete

/-! ## Batches -/

theorem statements_of_outcome {s q : TokenStream} {first : Statement}
    (hread : outcome s.statement = .ok (first, q)) : s.statements = q.continueBatch first := by
  obtain ⟨⟨_, _, hshorter⟩, hstatement, heq⟩ := map_eq_ok.mp hread
  cases heq
  cases s with
  | done | broken => cases hstatement
  | next t rest => exact statements_of_statement_ok hstatement

theorem statements_of_outcome_error {s : TokenStream} {e : SyntaxError}
    (hs : ∃ t rest, s = next t rest) (herror : outcome s.statement = .error e) :
    s.statements = .error e := by
  obtain ⟨t, rest, rfl⟩ := hs
  rw [statements_next]
  cases hstatement : (next t rest).statement with
  | error e' =>
      rw [hstatement] at herror
      cases herror
      rfl
  | ok parsed =>
      rw [hstatement] at herror
      cases herror

theorem SameHead.exists_next {s s' : TokenStream} (hsame : s.SameHead s') {front : List Token}
    (hs : ∃ t rest, s.prepend front = next t rest) : ∃ t rest, s'.prepend front = next t rest := by
  cases front with
  | cons t front => exact ⟨t, _, rfl⟩
  | nil =>
      obtain ⟨t, rest, rfl⟩ := hs
      cases s' with
      | done | broken => cases hsame
      | next t' rest' => exact ⟨t', rest', rfl⟩

/-- A batch is refused behind a front that begins one, at a token that goes on with none. -/
structure BatchRefused (position : Position) (found : Kind) (expected : List Kind)
    (front : List Token) (offender : TokenStream) : Prop where
  stands : offender.StandsAt position found
  not_expected : found ∉ expected
  same : ∀ s, offender.SameHead s →
    (s.prepend front).statements = .error (refusal position found expected)
  completes : ∃ back : List Token, (∀ t ∈ back, t.WellFormed) ∧ ∀ finish, ∃ statements,
    ((done finish).prepend (front ++ back)).statements = .ok statements

namespace BatchRefused

variable {position : Position} {found : Kind} {expected : List Kind}

/-- The first statement is refused, and with it the batch. -/
theorem of_statement {front : List Token} {offender : TokenStream}
    (hrefuses : RefusesBehind statementStart statementFollow (fun s => outcome s.statement)
      position found expected front offender)
    (hnext : ∃ t rest, offender.prepend front = next t rest) :
    BatchRefused position found expected front offender where
  stands := hrefuses.stands
  not_expected := hrefuses.not_expected
  same := fun s hsame =>
    statements_of_outcome_error (hsame.exists_next hnext) (hrefuses.same s hsame)
  completes := by
    obtain ⟨back, a, hwell, hback⟩ := hrefuses.completes
    refine ⟨back, hwell, fun finish => ⟨[a], ?_⟩⟩
    rw [prepend_append]
    exact statements_of_statement (hback (done finish) ⟨.eof, by decide, rfl⟩).2

section First

variable {first : Statement} {front₁ : List Token} {t : Token} {rest : TokenStream}
  (htakes : Takes statementFollow (fun s => outcome s.statement) front₁ first (next t rest))

include htakes

/-- Behind a statement and a semicolon stands what is refused. -/
theorem behind_semicolon (ht : t.kind = .semicolon) {front₂ : List Token} {offender : TokenStream}
    (hbatch : BatchRefused position found expected front₂ offender) :
    BatchRefused position found expected (front₁ ++ t :: front₂) offender := by
  have hfirst (r : TokenStream) :
      ((next t r).prepend front₁).statements = r.statements.map (first :: ·) := by
    have hread : outcome ((next t r).prepend front₁).statement = .ok (first, next t r) :=
      htakes _ (.inl rfl)
    rw [statements_of_outcome hread, continueBatch, if_pos ht]
  refine ⟨hbatch.stands, hbatch.not_expected, fun s hsame => ?_, ?_⟩
  · rw [prepend_append, prepend_cons, hfirst, hbatch.same s hsame]
    rfl
  · obtain ⟨back, hwell, hback⟩ := hbatch.completes
    refine ⟨back, hwell, fun finish => ?_⟩
    obtain ⟨others, hothers⟩ := hback finish
    refine ⟨first :: others, ?_⟩
    rw [List.append_assoc, prepend_append, List.cons_append, prepend_cons, hfirst, hothers]
    rfl

/-- Behind a statement stands something else than a semicolon. -/
theorem of_ne_semicolon (ht : t.kind ≠ .semicolon) :
    BatchRefused t.position t.kind [.semicolon] front₁ (next t rest) := by
  refine ⟨⟨rfl, rfl⟩, by simpa using ht, fun s hsame => ?_, ?_⟩
  · cases s with
    | done | broken => cases hsame
    | next t' rest' =>
        cases hsame
        have hfirst : outcome ((next t rest').prepend front₁).statement =
            .ok (first, next t rest') := htakes _ (.inl rfl)
        rw [statements_of_outcome hfirst, continueBatch, if_neg ht]
        rfl
  · refine ⟨[], List.forall_mem_nil _, fun finish => ⟨[first], ?_⟩⟩
    rw [List.append_nil]
    exact statements_of_statement (htakes _ (.inr ⟨.eof, by decide, rfl⟩))

end First

end BatchRefused

theorem exists_next_of_refused {s : TokenStream} {position : Position} {found : Kind}
    {expected : List Kind} (hrefused : s.statements = .error (refusal position found expected)) :
    ∃ t rest, s = next t rest := by
  cases s with
  | done =>
      rw [statements] at hrefused
      cases hrefused
  | broken e =>
      rw [statements.eq_def] at hrefused
      cases hrefused
  | next t rest => exact ⟨t, rest, rfl⟩

/-- By induction on the length of the stream, statement by statement. -/
theorem exists_batchRefused {s : TokenStream} {position : Position} {found : Kind}
    {expected : List Kind} (hrefused : s.statements = .error (refusal position found expected)) :
    ∃ front offender, s = offender.prepend front ∧
      BatchRefused position found expected front offender := by
  induction s using lengthInduction with
  | shorter s ih =>
      have hprompt := promptAt_anyStatement s
      cases hread : outcome s.statement with
      | error e =>
          have hnext := exists_next_of_refused hrefused
          rw [statements_of_outcome_error hnext hread] at hrefused
          cases hrefused
          obtain ⟨front, offender, rfl, hrefuses⟩ := hprompt.refuses hread
          exact ⟨front, offender, rfl, .of_statement hrefuses hnext⟩
      | ok parsed =>
          obtain ⟨first, q⟩ := parsed
          obtain ⟨front₁, hsplit, -, htakes⟩ := hprompt.reads hread
          rw [statements_of_outcome hread] at hrefused
          cases q with
          | done | broken => cases hrefused
          | next t rest =>
              rw [continueBatch] at hrefused
              split at hrefused
              · next ht =>
                have hshorter : rest.length < s.length := by
                  have hlength := length_le_of_prepend hsplit
                  rw [TokenStream.length] at hlength
                  omega
                have hothers : rest.statements = .error (refusal position found expected) := by
                  cases hrest : rest.statements <;> rw [hrest] at hrefused <;> cases hrefused
                  rfl
                obtain ⟨front₂, offender, rfl, hbatch⟩ := ih rest hshorter hothers
                refine ⟨front₁ ++ t :: front₂, offender, ?_, .behind_semicolon htakes ht hbatch⟩
                rw [hsplit, prepend_append, prepend_cons]
              · next ht =>
                cases hrefused
                exact ⟨front₁, next t rest, hsplit, .of_ne_semicolon htakes ht⟩

theorem prepend_done_eq_prepend {ts front : List Token} {finish : Position} {s : TokenStream}
    (heq : (done finish).prepend ts = s.prepend front) :
    ∃ others, ts = front ++ others ∧ s = (done finish).prepend others := by
  induction front generalizing ts with
  | nil => exact ⟨ts, rfl, heq.symm⟩
  | cons t front ih =>
      cases ts with
      | nil => cases heq
      | cons u ts =>
          rw [prepend_cons, prepend_cons, next.injEq] at heq
          obtain ⟨rfl, hrest⟩ := heq
          obtain ⟨others, rfl, hs⟩ := ih hrest
          exact ⟨others, rfl, hs⟩

end TokenStream

/-- A list of tokens is refused as soon as it can be.  The tokens in front of the one that is
reported begin a batch that is accepted, and those that complete it can be written.  The
tokens up to it begin none: whatever stands behind it, the error is the same.  The kind that
is reported is its own, and is none of the kinds that are expected. -/
theorem syntax_error_is_prompt {tokens : List Token} {finish position : Position} {found : Kind}
    {expected : List Kind}
    (hrefused : (TokenStream.ofList tokens finish).statements =
      .error (.grammatical ⟨position, .unexpected found expected⟩)) :
    found ∉ expected ∧ ∃ front : List Token,
      (∃ back finish' statements, (∀ t ∈ back, t.WellFormed) ∧
        (TokenStream.ofList (front ++ back) finish').statements = .ok statements) ∧
      ((∃ t others, tokens = front ++ t :: others ∧ t.kind = found ∧ t.position = position ∧
          ∀ others' finish', (TokenStream.ofList (front ++ t :: others') finish').statements =
            .error (.grammatical ⟨position, .unexpected found expected⟩)) ∨
        (tokens = front ∧ found = .eof ∧ position = finish)) := by
  obtain ⟨front, offender, hsplit, hbatch⟩ := TokenStream.exists_batchRefused hrefused
  obtain ⟨back, hwell, hback⟩ := hbatch.completes
  obtain ⟨statements, hread⟩ := hback finish
  obtain ⟨others, htokens, hoffender⟩ := TokenStream.prepend_done_eq_prepend hsplit
  refine ⟨hbatch.not_expected, front, ⟨back, finish, statements, hwell, hread⟩, ?_⟩
  cases others with
  | nil =>
      have hstands := hbatch.stands
      rw [hoffender] at hstands
      exact .inr ⟨by rw [htokens, List.append_nil], hstands.2.symm, hstands.1.symm⟩
  | cons t others =>
      have hstands := hbatch.stands
      rw [hoffender] at hstands
      refine .inl ⟨t, others, htokens, hstands.2, hstands.1, fun others' finish' => ?_⟩
      have hsame : offender.SameHead (.next t ((TokenStream.done finish').prepend others')) := by
        rw [hoffender]
        rfl
      have herror := hbatch.same _ hsame
      rwa [← TokenStream.prepend_cons, ← TokenStream.prepend_append] at herror

section Example

/-- `DELETE FROM t WHERE (a` -/
def unclosed : List Token :=
  [⟨.kwDelete, ⟨1, 0⟩, ""⟩, ⟨.kwFrom, ⟨1, 7⟩, ""⟩, ⟨.identifier, ⟨1, 12⟩, "t"⟩,
    ⟨.kwWhere, ⟨1, 14⟩, ""⟩, ⟨.leftParen, ⟨1, 20⟩, ""⟩, ⟨.identifier, ⟨1, 21⟩, "a"⟩]

/-- A semicolon where the group is still open. -/
def interruption : Token :=
  ⟨.semicolon, ⟨1, 22⟩, ""⟩

theorem unclosed_refused (others : List Token) (finish : Position) :
    (TokenStream.ofList (unclosed ++ interruption :: others) finish).statements =
      .error (.grammatical ⟨⟨1, 22⟩, .unexpected .semicolon [.rightParen]⟩) := by
  let rest := TokenStream.ofList (interruption :: others) finish
  let name : Token := ⟨.identifier, ⟨1, 21⟩, "a"⟩
  let opening : Token := ⟨.leftParen, ⟨1, 20⟩, ""⟩
  have hcloses : rest.Closes := TokenStream.closes_next (by decide) _
  have hstops : rest.StopsAt 1 := (TokenStream.stopsAt_next (le_refl 1)).mpr (.inl rfl)
  have hinner : outcome (TokenStream.expression 1 lowestPrecedence (.next name rest)) =
      .ok (.ident ⟨⟨1, 21⟩, "a"⟩, rest) := by
    rw [TokenStream.outcome_expression, TokenStream.outcome_primary_name_alone 1 rfl hcloses]
    exact TokenStream.outcome_operators_of_stopsAt (le_refl 1) hcloses hstops _
  have hgroup : outcome (TokenStream.expression 0 lowestPrecedence
      (.next opening (.next name rest))) =
        .error (.grammatical ⟨⟨1, 22⟩, .unexpected .semicolon [.rightParen]⟩) := by
    rw [TokenStream.outcome_expression, TokenStream.outcome_primary_group 0 _ rfl]
    simp only [zero_add, hinner]
    rfl
  let s := TokenStream.ofList (unclosed ++ interruption :: others) finish
  have hclause : outcome (TokenStream.clause .kwWhere (.next ⟨.kwWhere, ⟨1, 14⟩, ""⟩
      (.next opening (.next name rest)))) =
        .error (.grammatical ⟨⟨1, 22⟩, .unexpected .semicolon [.rightParen]⟩) := by
    rw [TokenStream.outcome_clause]
    exact bind_of_ok rfl (bind_of_error hgroup)
  have hdelete : outcome s.delete =
      .error (.grammatical ⟨⟨1, 22⟩, .unexpected .semicolon [.rightParen]⟩) := by
    rw [TokenStream.outcome_delete]
    exact bind_of_ok rfl (bind_of_ok rfl (bind_of_ok rfl (bind_of_error hclause)))
  apply TokenStream.statements_of_outcome_error (s := s) ⟨_, _, rfl⟩
  have hstatement : outcome s.statement =
      outcome (TokenStream.mapParsed .delete s.delete) := TokenStream.outcome_statement_delete _ _ rfl
  rw [hstatement, TokenStream.outcome_mapParsed]
  exact bind_of_error hdelete

theorem unclosed_interrupted_promptly :
    (TokenStream.ofList (unclosed ++ [interruption]) ⟨1, 23⟩).statements =
        .error (.grammatical ⟨⟨1, 22⟩, .unexpected .semicolon [.rightParen]⟩) ∧
      Kind.semicolon ∉ [Kind.rightParen] ∧
      ∃ front back finish statements, (∀ t ∈ back, t.WellFormed) ∧
        (TokenStream.ofList (front ++ back) finish).statements = .ok statements ∧
          (∃ t others, unclosed ++ [interruption] = front ++ t :: others ∧
            t.kind = .semicolon ∧ t.position = ⟨1, 22⟩) := by
  have hrefused := unclosed_refused [] ⟨1, 23⟩
  obtain ⟨hexpected, front, ⟨back, finish, statements, hwell, hread⟩, hplace⟩ :=
    syntax_error_is_prompt hrefused
  refine ⟨hrefused, hexpected, front, back, finish, statements, hwell, hread, ?_⟩
  rcases hplace with ⟨t, others, hsplit, hkind, hposition, -⟩ | ⟨-, heof, -⟩
  · exact ⟨t, others, hsplit, hkind, hposition⟩
  · cases heof

end Example

end PocketSql
