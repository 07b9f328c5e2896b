import Mathlib
import PocketSql.Proofs.Syntax.Soundness
import PocketSql.Proofs.Syntax.StatementGrammar

/-!
# Statements that are read are sentences

Each reader of a part of a statement takes the tokens of a phrase of that part from
the stream and returns what they stand for.  All that is asked of the expressions of the
grammar is that those read as a whole are among them.
-/

namespace PocketSql

open Parse (outcome)

namespace TokenStream

variable {s : TokenStream}

/-! ## Tokens -/

theorem next_of_expectAmong {expected : List Kind} {kind : Kind} {t : Token} {rest : TokenStream}
    {hshorter : rest.length < s.length}
    (hread : s.expectAmong expected kind = .ok ⟨t, rest, hshorter⟩) :
    s = next t rest ∧ t.kind = kind := by
  cases s with
  | done position => cases hread
  | broken error => cases hread
  | next first others =>
      rw [expectAmong] at hread
      split at hread
      · next hkind =>
        cases hread
        exact ⟨rfl, hkind⟩
      · cases hread

theorem next_of_expectIdent {name : Ident} {rest : TokenStream}
    {hshorter : rest.length < s.length} (hread : s.expectIdent = .ok ⟨name, rest, hshorter⟩) :
    ∃ t, s = next t rest ∧ t.kind = .identifier ∧ name = ⟨t.position, t.literal⟩ := by
  obtain ⟨⟨t, rest, _⟩, ht, heq⟩ := bind_eq_ok.mp hread
  cases heq
  obtain ⟨rfl, hkind⟩ := next_of_expectAmong ht
  exact ⟨t, rfl, hkind, rfl⟩

theorem next_of_accept {kind : Kind} {rest : TokenStream} {hshorter : rest.length < s.length + 1}
    (hread : s.accept kind = .ok ⟨true, rest, hshorter⟩) : ∃ t, s = next t rest ∧ t.kind = kind :=
  accept_true.mp (outcome_eq_ok hread)

theorem eq_of_accept {kind : Kind} {rest : TokenStream} {hshorter : rest.length < s.length + 1}
    (hread : s.accept kind = .ok ⟨false, rest, hshorter⟩) : rest = s := by
  cases s with
  | done position =>
      cases hread
      rfl
  | broken error => cases hread
  | next t others =>
      rw [accept] at hread
      split at hread
      · cases hread
      · cases hread
        rfl

/-! ## Lists -/

theorem derives_of_expectIdent {name : Ident} {rest : TokenStream}
    {hshorter : rest.length < s.length} (hread : s.expectIdent = .ok ⟨name, rest, hshorter⟩) :
    ∃ ts, s = rest.prepend ts ∧ DerivesName ts name := by
  obtain ⟨t, rfl, hkind, rfl⟩ := next_of_expectIdent hread
  exact ⟨[t], rfl, .name hkind⟩

/-- By induction on the length of the stream, as a list is as long as it likes. -/
theorem derives_of_commaSeparated {α : Type} {item : (s : TokenStream) → Parse α s.length}
    {Item : List Token → α → Prop}
    (hitem : ∀ {s a rest hshorter}, item s = .ok ⟨a, rest, hshorter⟩ →
      ∃ ts, s = rest.prepend ts ∧ Item ts a) {s : TokenStream} {as : List α}
    {rest : TokenStream} {hshorter : rest.length < s.length}
    (hread : s.commaSeparated item = .ok ⟨as, rest, hshorter⟩) :
    ∃ ts, s = rest.prepend ts ∧ DerivesList Item ts as := by
  induction s using lengthInduction generalizing as rest with
  | shorter s ih =>
      rw [commaSeparated] at hread
      obtain ⟨⟨first, r, hfirst⟩, hread₁, hrest⟩ := bind_eq_ok.mp hread
      obtain ⟨⟨more, r', hmore⟩, hread₂, hend⟩ := bind_eq_ok.mp hrest
      obtain ⟨ts, rfl, hts⟩ := hitem hread₁
      cases more with
      | false =>
          cases hend
          obtain rfl := eq_of_accept hread₂
          exact ⟨ts, rfl, .last hts⟩
      | true =>
          obtain ⟨⟨others, r₁, _⟩, hothers, heq⟩ := bind_eq_ok.mp hend
          cases heq
          obtain ⟨comma, rfl, hcomma⟩ := next_of_accept hread₂
          obtain ⟨us, rfl, hus⟩ := ih r' (by omega) hothers
          exact ⟨ts ++ comma :: us, by simp, .more hts hcomma hus⟩

/-- The items of a selection are read as any other list. -/
theorem projections_eq (depth : Nat) (s : TokenStream) :
    s.projections depth = s.commaSeparated (projection depth) := by
  induction s using lengthInduction with
  | shorter s ih =>
      rw [projections, commaSeparated]
      cases s.projection depth with
      | error e => rfl
      | ok first =>
          obtain ⟨first, rest, hfirst⟩ := first
          refine congrArg (rest.accept .comma >>= ·) (funext fun more => ?_)
          obtain ⟨more, rest', hmore⟩ := more
          cases more with
          | false => rfl
          | true => exact congrArg (· >>= _) (ih rest' (by omega))

variable {Expression : Nat → List Token → Expr → Prop}

/-! ## Columns -/

theorem next_of_dataType {type : DataType} {rest : TokenStream}
    {hshorter : rest.length < s.length} (hread : s.dataType = .ok ⟨type, rest, hshorter⟩) :
    ∃ t, s = next t rest ∧ DataType.ofKeyword? t.kind = some type := by
  cases s with
  | done position => cases hread
  | broken error => cases hread
  | next t others =>
      rw [dataType] at hread
      split at hread
      · next htype =>
        cases hread
        exact ⟨t, rfl, htype⟩
      · cases hread

theorem derives_of_nullability {nullable : Bool} {rest : TokenStream}
    {hshorter : rest.length < s.length + 1}
    (hread : s.nullability = .ok ⟨nullable, rest, hshorter⟩) :
    ∃ ts, s = rest.prepend ts ∧ DerivesNullability ts nullable := by
  obtain ⟨⟨negated, r, _⟩, hnot, hread⟩ := bind_eq_ok.mp hread
  cases negated with
  | true =>
      obtain ⟨⟨t, r', _⟩, hnull, heq⟩ := bind_eq_ok.mp hread
      cases heq
      obtain ⟨negation, rfl, hnegation⟩ := next_of_accept hnot
      obtain ⟨rfl, hkind⟩ := next_of_expectAmong hnull
      exact ⟨[negation, t], rfl, .notNull hnegation hkind⟩
  | false =>
      obtain ⟨⟨isNull, r', _⟩, hnull, heq⟩ := bind_eq_ok.mp hread
      cases heq
      obtain rfl := eq_of_accept hnot
      cases isNull with
      | true =>
          obtain ⟨t, rfl, hkind⟩ := next_of_accept hnull
          exact ⟨[t], rfl, .null hkind⟩
      | false =>
          obtain rfl := eq_of_accept hnull
          exact ⟨[], rfl, .unmarked⟩

section Sound

variable (hderives : ∀ {level ts e}, ReadAt 0 level ts e → Expression level ts e)

include hderives

theorem derives_of_wholeExpression {e : Expr} {rest : TokenStream}
    {hshorter : rest.length < s.length} (hread : s.wholeExpression = .ok ⟨e, rest, hshorter⟩) :
    ∃ ts, s = rest.prepend ts ∧ Expression 1 ts e := by
  obtain ⟨ts, hs, hts, -⟩ :=
    s.readsSentences.expression (Nat.le_refl 1) (by decide) (outcome_eq_ok hread)
  exact ⟨ts, hs, hderives hts⟩

theorem derives_of_projection {e : Expr} {rest : TokenStream}
    {hshorter : rest.length < s.length} (hread : s.projection 0 = .ok ⟨e, rest, hshorter⟩) :
    ∃ ts, s = rest.prepend ts ∧ Expression 0 ts e := by
  obtain ⟨ts, hs, hts⟩ := s.readsSentences.projection (outcome_eq_ok hread)
  exact ⟨ts, hs, hderives hts⟩

theorem derives_of_clause {keyword : Kind} {value : Option Expr} {rest : TokenStream}
    {hshorter : rest.length < s.length + 1}
    (hread : s.clause keyword = .ok ⟨value, rest, hshorter⟩) :
    ∃ ts, s = rest.prepend ts ∧ DerivesClause Expression keyword ts value := by
  obtain ⟨⟨present, r, _⟩, hkeyword, hread⟩ := bind_eq_ok.mp hread
  cases present with
  | false =>
      cases hread
      obtain rfl := eq_of_accept hkeyword
      exact ⟨[], rfl, .absent⟩
  | true =>
      obtain ⟨⟨e, r', _⟩, hexpression, heq⟩ := bind_eq_ok.mp hread
      cases heq
      obtain ⟨t, rfl, hkind⟩ := next_of_accept hkeyword
      obtain ⟨ts, rfl, hts⟩ := derives_of_wholeExpression hderives hexpression
      exact ⟨t :: ts, rfl, .present hkind hts⟩

end Sound

/-! ### Defaults and marks -/

/-- What one round of the loop over the clauses of a column does. -/
theorem fillClauses_cases {default : Option Expr} {autoIncrement : Bool}
    {clauses : Option Expr × Bool} {rest : TokenStream} {hshorter : rest.length < s.length + 1}
    (hread : s.fillClauses default autoIncrement = .ok ⟨clauses, rest, hshorter⟩) :
    (∃ t others, s = next t others ∧ t.kind = .kwDefault ∧ default = none ∧
      ∃ e r, ∃ hr : r.length < others.length, ∃ hrest : rest.length < r.length + 1,
        others.wholeExpression = .ok ⟨e, r, hr⟩ ∧
        r.fillClauses (some e) autoIncrement = .ok ⟨clauses, rest, hrest⟩) ∨
    (∃ t others, s = next t others ∧ t.kind = .kwAutoIncrement ∧ autoIncrement = false ∧
      ∃ hrest : rest.length < others.length + 1,
        others.fillClauses default true = .ok ⟨clauses, rest, hrest⟩) ∨
    s = rest ∧ clauses = (default, autoIncrement) := by
  cases s with
  | done position =>
      rw [fillClauses] at hread
      cases hread
      exact .inr (.inr ⟨rfl, rfl⟩)
  | broken error =>
      rw [fillClauses] at hread
      cases hread
  | next t others =>
      rw [fillClauses] at hread
      split at hread
      · next hdefault =>
        obtain ⟨⟨e, r, hr⟩, hexpression, hread⟩ := bind_eq_ok.mp hread
        obtain ⟨⟨_, r', hrest⟩, hclauses, heq⟩ := bind_eq_ok.mp hread
        cases heq
        exact .inl ⟨t, others, rfl, hdefault.1, Option.isNone_iff_eq_none.mp hdefault.2,
          e, r, hr, hrest, hexpression, hclauses⟩
      · split at hread
        · next hmark =>
          obtain ⟨⟨_, r', hrest⟩, hclauses, heq⟩ := bind_eq_ok.mp hread
          cases heq
          exact .inr (.inl ⟨t, others, rfl, hmark.1, hmark.2, hrest, hclauses⟩)
        · cases hread
          exact .inr (.inr ⟨rfl, rfl⟩)

section Sound

variable (hderives : ∀ {level ts e}, ReadAt 0 level ts e → Expression level ts e)
  {clauses : Option Expr × Bool} {rest : TokenStream} {hshorter : rest.length < s.length + 1}

/-- With both read, the loop ends. -/
theorem eq_of_fillClauses {e : Expr}
    (hread : s.fillClauses (some e) true = .ok ⟨clauses, rest, hshorter⟩) :
    s = rest ∧ clauses = (some e, true) := by
  rcases fillClauses_cases hread with
    ⟨_, _, _, _, hdefault, _⟩ | ⟨_, _, _, _, hmark, _⟩ | hstop
  · cases hdefault
  · cases hmark
  · exact hstop

theorem derivesMark_of_fillClauses {e : Expr}
    (hread : s.fillClauses (some e) false = .ok ⟨clauses, rest, hshorter⟩) :
    ∃ ts, s = rest.prepend ts ∧ clauses.1 = some e ∧
      DerivesMark .kwAutoIncrement ts clauses.2 := by
  rcases fillClauses_cases hread with
    ⟨_, _, _, _, hdefault, _⟩ | ⟨t, others, rfl, hkind, -, _, hmore⟩ | ⟨rfl, rfl⟩
  · cases hdefault
  · obtain ⟨rfl, rfl⟩ := eq_of_fillClauses hmore
    exact ⟨[t], rfl, rfl, .present hkind⟩
  · exact ⟨[], rfl, rfl, .absent⟩

include hderives

theorem derivesClause_of_fillClauses
    (hread : s.fillClauses none true = .ok ⟨clauses, rest, hshorter⟩) :
    ∃ ts, s = rest.prepend ts ∧ DerivesClause Expression .kwDefault ts clauses.1 ∧
      clauses.2 = true := by
  rcases fillClauses_cases hread with
    ⟨t, others, rfl, hkind, -, e, r, _, _, hexpression, hmore⟩ | ⟨_, _, _, _, hmark, _⟩ |
      ⟨rfl, rfl⟩
  · obtain ⟨rfl, rfl⟩ := eq_of_fillClauses hmore
    obtain ⟨ts, rfl, hts⟩ := derives_of_wholeExpression hderives hexpression
    exact ⟨t :: ts, rfl, .present hkind hts, rfl⟩
  · cases hmark
  · exact ⟨[], rfl, .absent, rfl⟩

theorem derives_of_fillClauses
    (hread : s.fillClauses none false = .ok ⟨clauses, rest, hshorter⟩) :
    ∃ ts, s = rest.prepend ts ∧ DerivesFill Expression ts clauses := by
  obtain ⟨default, autoIncrement⟩ := clauses
  rcases fillClauses_cases hread with
    ⟨t, others, rfl, hkind, -, e, r, _, _, hexpression, hmore⟩ |
      ⟨t, others, rfl, hkind, -, _, hmore⟩ | ⟨rfl, heq⟩
  · obtain ⟨ms, rfl, rfl, hms⟩ := derivesMark_of_fillClauses hmore
    obtain ⟨ds, rfl, hds⟩ := derives_of_wholeExpression hderives hexpression
    exact ⟨t :: ds ++ ms, by simp, .defaultFirst (.present hkind hds) hms⟩
  · obtain ⟨ds, rfl, hds, rfl⟩ := derivesClause_of_fillClauses hderives hmore
    exact ⟨t :: ds, rfl, .markFirst (.present hkind) hds⟩
  · cases heq
    exact ⟨[], rfl, .defaultFirst .absent .absent⟩

theorem derives_of_columnDefinition {d : ColumnDefinition} {hshorter : rest.length < s.length}
    (hread : s.columnDefinition = .ok ⟨d, rest, hshorter⟩) :
    ∃ ts, s = rest.prepend ts ∧ DerivesColumn Expression ts d := by
  obtain ⟨⟨name, r, _⟩, hname, hread⟩ := bind_eq_ok.mp hread
  obtain ⟨⟨type, r, _⟩, htype, hread⟩ := bind_eq_ok.mp hread
  obtain ⟨⟨nullable, r, _⟩, hnullable, hread⟩ := bind_eq_ok.mp hread
  obtain ⟨⟨⟨default, autoIncrement⟩, r, _⟩, hfill, heq⟩ := bind_eq_ok.mp hread
  cases heq
  obtain ⟨n, rfl, hn, rfl⟩ := next_of_expectIdent hname
  obtain ⟨t, rfl, ht⟩ := next_of_dataType htype
  obtain ⟨ns, rfl, hns⟩ := derives_of_nullability hnullable
  obtain ⟨fs, rfl, hfs⟩ := derives_of_fillClauses hderives hfill
  exact ⟨n :: t :: (ns ++ fs), by simp, .column hn ht hns hfs⟩

/-! ## Statements -/

theorem derives_of_createTable {a : CreateTable} {hshorter : rest.length < s.length}
    (hread : s.createTable = .ok ⟨a, rest, hshorter⟩) :
    ∃ ts, s = rest.prepend ts ∧ DerivesCreateTable Expression ts a := by
  obtain ⟨⟨create, r, _⟩, hcreate, hread⟩ := bind_eq_ok.mp hread
  obtain ⟨⟨keyword, r, _⟩, hkeyword, hread⟩ := bind_eq_ok.mp hread
  obtain ⟨⟨table, r, _⟩, htable, hread⟩ := bind_eq_ok.mp hread
  obtain ⟨⟨opening, r, _⟩, hopening, hread⟩ := bind_eq_ok.mp hread
  obtain ⟨⟨columns, r, _⟩, hcolumns, hread⟩ := bind_eq_ok.mp hread
  obtain ⟨⟨closing, r, _⟩, hclosing, heq⟩ := bind_eq_ok.mp hread
  cases heq
  obtain ⟨rfl, hc⟩ := next_of_expectAmong hcreate
  obtain ⟨rfl, hk⟩ := next_of_expectAmong hkeyword
  obtain ⟨n, rfl, hn, rfl⟩ := next_of_expectIdent htable
  obtain ⟨rfl, ho⟩ := next_of_expectAmong hopening
  obtain ⟨ts, rfl, hts⟩ :=
    derives_of_commaSeparated (derives_of_columnDefinition hderives) hcolumns
  obtain ⟨rfl, hcl⟩ := next_of_expectAmong hclosing
  exact ⟨create :: keyword :: n :: opening :: (ts ++ [closing]), by simp,
    .createTable hc hk hn ho hts hcl⟩

theorem derives_of_select {a : Select} {hshorter : rest.length < s.length}
    (hread : s.select = .ok ⟨a, rest, hshorter⟩) :
    ∃ ts, s = rest.prepend ts ∧ DerivesSelect Expression ts a := by
  obtain ⟨⟨select, r, _⟩, hselect, hread⟩ := bind_eq_ok.mp hread
  obtain ⟨⟨projections, r, _⟩, hprojections, hread⟩ := bind_eq_ok.mp hread
  obtain ⟨⟨keyword, r, _⟩, hkeyword, hread⟩ := bind_eq_ok.mp hread
  obtain ⟨⟨table, r, _⟩, htable, hread⟩ := bind_eq_ok.mp hread
  obtain ⟨⟨condition, r, _⟩, hcondition, heq⟩ := bind_eq_ok.mp hread
  cases heq
  obtain ⟨rfl, hs⟩ := next_of_expectAmong hselect
  rw [projections_eq] at hprojections
  obtain ⟨ps, rfl, hps⟩ := derives_of_commaSeparated (derives_of_projection hderives) hprojections
  obtain ⟨rfl, hk⟩ := next_of_expectAmong hkeyword
  obtain ⟨es, rfl, hes⟩ := derives_of_wholeExpression hderives htable
  obtain ⟨cs, rfl, hcs⟩ := derives_of_clause hderives hcondition
  exact ⟨select :: (ps ++ keyword :: (es ++ cs)), by simp, .select hs hps hk hes hcs⟩

omit hderives in
theorem derives_of_targetColumns {columns : List Ident}
    (hread : s.targetColumns = .ok ⟨columns, rest, hshorter⟩) :
    ∃ ts, s = rest.prepend ts ∧ DerivesTargets ts columns := by
  obtain ⟨⟨named, r, _⟩, hopen, hread⟩ := bind_eq_ok.mp hread
  cases named with
  | false =>
      cases hread
      obtain rfl := eq_of_accept hopen
      exact ⟨[], rfl, .all⟩
  | true =>
      obtain ⟨⟨names, r, _⟩, hnames, hread⟩ := bind_eq_ok.mp hread
      obtain ⟨⟨closing, r, _⟩, hclosing, heq⟩ := bind_eq_ok.mp hread
      cases heq
      obtain ⟨opening, rfl, ho⟩ := next_of_accept hopen
      obtain ⟨ts, rfl, hts⟩ := derives_of_commaSeparated derives_of_expectIdent hnames
      obtain ⟨rfl, hc⟩ := next_of_expectAmong hclosing
      exact ⟨opening :: (ts ++ [closing]), by simp, .named ho hts hc⟩

theorem derives_of_insert {a : Insert} {hshorter : rest.length < s.length}
    (hread : s.insert = .ok ⟨a, rest, hshorter⟩) :
    ∃ ts, s = rest.prepend ts ∧ DerivesInsert Expression ts a := by
  obtain ⟨⟨insert, r, _⟩, hinsert, hread⟩ := bind_eq_ok.mp hread
  obtain ⟨⟨keyword, r, _⟩, hkeyword, hread⟩ := bind_eq_ok.mp hread
  obtain ⟨⟨table, r, _⟩, htable, hread⟩ := bind_eq_ok.mp hread
  obtain ⟨⟨columns, r, _⟩, hcolumns, hread⟩ := bind_eq_ok.mp hread
  obtain ⟨⟨values, r, _⟩, hvalues, hread⟩ := bind_eq_ok.mp hread
  obtain ⟨⟨opening, r, _⟩, hopening, hread⟩ := bind_eq_ok.mp hread
  obtain ⟨⟨exprs, r, _⟩, hexprs, hread⟩ := bind_eq_ok.mp hread
  obtain ⟨⟨closing, r, _⟩, hclosing, heq⟩ := bind_eq_ok.mp hread
  cases heq
  obtain ⟨rfl, hi⟩ := next_of_expectAmong hinsert
  obtain ⟨rfl, hk⟩ := next_of_expectAmong hkeyword
  obtain ⟨n, rfl, hn, rfl⟩ := next_of_expectIdent htable
  obtain ⟨cs, rfl, hcs⟩ := derives_of_targetColumns hcolumns
  obtain ⟨rfl, hv⟩ := next_of_expectAmong hvalues
  obtain ⟨rfl, ho⟩ := next_of_expectAmong hopening
  obtain ⟨es, rfl, hes⟩ := derives_of_commaSeparated (derives_of_wholeExpression hderives) hexprs
  obtain ⟨rfl, hc⟩ := next_of_expectAmong hclosing
  exact ⟨insert :: keyword :: n :: (cs ++ values :: opening :: (es ++ [closing])), by simp,
    .insert hi hk hn hcs hv ho hes hc⟩

theorem derives_of_assignment {a : Assignment} {hshorter : rest.length < s.length}
    (hread : s.assignment = .ok ⟨a, rest, hshorter⟩) :
    ∃ ts, s = rest.prepend ts ∧ DerivesAssignment Expression ts a := by
  obtain ⟨⟨column, r, _⟩, hcolumn, hread⟩ := bind_eq_ok.mp hread
  obtain ⟨⟨equal, r, _⟩, hequal, hread⟩ := bind_eq_ok.mp hread
  obtain ⟨⟨value, r, _⟩, hexpression, heq⟩ := bind_eq_ok.mp hread
  cases heq
  obtain ⟨n, rfl, hn, rfl⟩ := next_of_expectIdent hcolumn
  obtain ⟨rfl, he⟩ := next_of_expectAmong hequal
  obtain ⟨ts, rfl, hts⟩ := derives_of_wholeExpression hderives hexpression
  exact ⟨n :: equal :: ts, rfl, .assignment hn he hts⟩

theorem derives_of_assignments {as : List Assignment} {hshorter : rest.length < s.length}
    (hread : s.assignments = .ok ⟨as, rest, hshorter⟩) :
    ∃ ts, s = rest.prepend ts ∧ DerivesAssignments Expression ts as := by
  obtain ⟨⟨enclosed, r, _⟩, hopen, hread⟩ := bind_eq_ok.mp hread
  obtain ⟨⟨assignments, r, _⟩, hassignments, hread⟩ := bind_eq_ok.mp hread
  obtain ⟨ts, rfl, hts⟩ :=
    derives_of_commaSeparated (derives_of_assignment hderives) hassignments
  cases enclosed with
  | false =>
      cases hread
      obtain rfl := eq_of_accept hopen
      exact ⟨ts, rfl, .bare hts⟩
  | true =>
      obtain ⟨⟨closing, r, _⟩, hclosing, heq⟩ := bind_eq_ok.mp hread
      cases heq
      obtain ⟨opening, rfl, ho⟩ := next_of_accept hopen
      obtain ⟨rfl, hc⟩ := next_of_expectAmong hclosing
      exact ⟨opening :: (ts ++ [closing]), by simp, .enclosed ho hts hc⟩

theorem derives_of_update {a : Update} {hshorter : rest.length < s.length}
    (hread : s.update = .ok ⟨a, rest, hshorter⟩) :
    ∃ ts, s = rest.prepend ts ∧ DerivesUpdate Expression ts a := by
  obtain ⟨⟨update, r, _⟩, hupdate, hread⟩ := bind_eq_ok.mp hread
  obtain ⟨⟨table, r, _⟩, htable, hread⟩ := bind_eq_ok.mp hread
  obtain ⟨⟨keyword, r, _⟩, hkeyword, hread⟩ := bind_eq_ok.mp hread
  obtain ⟨⟨assignments, r, _⟩, hassignments, hread⟩ := bind_eq_ok.mp hread
  obtain ⟨⟨condition, r, _⟩, hcondition, heq⟩ := bind_eq_ok.mp hread
  cases heq
  obtain ⟨rfl, hu⟩ := next_of_expectAmong hupdate
  obtain ⟨n, rfl, hn, rfl⟩ := next_of_expectIdent htable
  obtain ⟨rfl, hk⟩ := next_of_expectAmong hkeyword
  obtain ⟨ts, rfl, hts⟩ := derives_of_assignments hderives hassignments
  obtain ⟨cs, rfl, hcs⟩ := derives_of_clause hderives hcondition
  exact ⟨update :: n :: keyword :: (ts ++ cs), by simp, .update hu hn hk hts hcs⟩

theorem derives_of_delete {a : Delete} {hshorter : rest.length < s.length}
    (hread : s.delete = .ok ⟨a, rest, hshorter⟩) :
    ∃ ts, s = rest.prepend ts ∧ DerivesDelete Expression ts a := by
  obtain ⟨⟨delete, r, _⟩, hdelete, hread⟩ := bind_eq_ok.mp hread
  obtain ⟨⟨keyword, r, _⟩, hkeyword, hread⟩ := bind_eq_ok.mp hread
  obtain ⟨⟨table, r, _⟩, htable, hread⟩ := bind_eq_ok.mp hread
  obtain ⟨⟨condition, r, _⟩, hcondition, heq⟩ := bind_eq_ok.mp hread
  cases heq
  obtain ⟨rfl, hd⟩ := next_of_expectAmong hdelete
  obtain ⟨rfl, hk⟩ := next_of_expectAmong hkeyword
  obtain ⟨n, rfl, hn, rfl⟩ := next_of_expectIdent htable
  obtain ⟨cs, rfl, hcs⟩ := derives_of_clause hderives hcondition
  exact ⟨delete :: keyword :: n :: cs, rfl, .delete hd hk hn hcs⟩

theorem derives_of_statement {a : Statement} {hshorter : rest.length < s.length}
    (hread : s.statement = .ok ⟨a, rest, hshorter⟩) :
    ∃ ts, s = rest.prepend ts ∧ DerivesStatement Expression ts a := by
  cases s with
  | done position => cases hread
  | broken error => cases hread
  | next t others =>
      rw [statement] at hread
      split at hread
      · obtain ⟨⟨b, r, _⟩, hcreate, heq⟩ := map_eq_ok.mp hread
        cases heq
        obtain ⟨ts, hs, hts⟩ := derives_of_createTable hderives hcreate
        exact ⟨ts, hs, .createTable hts⟩
      · obtain ⟨⟨b, r, _⟩, hselect, heq⟩ := map_eq_ok.mp hread
        cases heq
        obtain ⟨ts, hs, hts⟩ := derives_of_select hderives hselect
        exact ⟨ts, hs, .select hts⟩
      · obtain ⟨⟨b, r, _⟩, hinsert, heq⟩ := map_eq_ok.mp hread
        cases heq
        obtain ⟨ts, hs, hts⟩ := derives_of_insert hderives hinsert
        exact ⟨ts, hs, .insert hts⟩
      · obtain ⟨⟨b, r, _⟩, hupdate, heq⟩ := map_eq_ok.mp hread
        cases heq
        obtain ⟨ts, hs, hts⟩ := derives_of_update hderives hupdate
        exact ⟨ts, hs, .update hts⟩
      · obtain ⟨⟨b, r, _⟩, hdelete, heq⟩ := map_eq_ok.mp hread
        cases heq
        obtain ⟨ts, hs, hts⟩ := derives_of_delete hderives hdelete
        exact ⟨ts, hs, .delete hts⟩
      · cases hread

/-- By induction on the length of the stream. -/
theorem derives_of_statements {statements : List Statement}
    (hread : s.statements = .ok statements) :
    ∃ ts finish, s = (done finish).prepend ts ∧ DerivesBatch Expression ts statements := by
  induction s using lengthInduction generalizing statements with
  | shorter s ih =>
      rw [TokenStream.statements.eq_def] at hread
      split at hread
      · cases hread
        exact ⟨[], _, rfl, .empty⟩
      · obtain ⟨⟨first, r, hfirst⟩, hread₁, hread⟩ := bind_eq_ok.mp hread
        obtain ⟨⟨separated, r', hseparated⟩, hread₂, hread⟩ := bind_eq_ok.mp hread
        obtain ⟨ts, rfl, hts⟩ := derives_of_statement hderives hread₁
        cases separated with
        | true =>
            obtain ⟨others, hothers, heq⟩ := bind_eq_ok.mp hread
            cases heq
            obtain ⟨semicolon, rfl, hsemicolon⟩ := next_of_accept hread₂
            obtain ⟨us, finish, rfl, hus⟩ := ih r' (by omega) hothers
            exact ⟨ts ++ semicolon :: us, finish, by simp, .more hts hsemicolon hus⟩
        | false =>
            obtain rfl := eq_of_accept hread₂
            simp only [Bool.false_eq_true, if_false] at hread
            split at hread
            · cases hread
              exact ⟨ts, _, rfl, .last hts⟩
            · cases hread

end Sound

end TokenStream

end PocketSql
