import Mathlib
import PocketSql.Proofs.Syntax.PrecedenceClimbing
import PocketSql.Proofs.Syntax.StatementSoundness

/-!
# Batches are read

A batch of the grammar is read to its end, unless one of its expressions is nested too
deeply or has a numeral that is too large.  Together with the soundness of the readers:
reading a list of tokens succeeds exactly for the sentences, with their one tree.

One token is enough to tell where a part ends.  So each part is read in front of any
stream whose next token is of a kind that can follow the part.
-/

namespace PocketSql

open Parse (outcome)

namespace TokenStream

/-! ## The next token -/

/-- The token that comes next, or the end, is of one of the kinds. -/
def NextIn (s : TokenStream) (kinds : List Kind) : Prop :=
  ∃ kind ∈ kinds, s.nextKind? = some kind

theorem nextIn_next {t : Token} {kinds : List Kind} (ht : t.kind ∈ kinds) (s : TokenStream) :
    (next t s).NextIn kinds :=
  ⟨t.kind, ht, rfl⟩

theorem NextIn.mono {s : TokenStream} {kinds kinds' : List Kind} (hs : s.NextIn kinds)
    (hsubset : kinds ⊆ kinds') : s.NextIn kinds' := by
  obtain ⟨kind, hkind, hnext⟩ := hs
  exact ⟨kind, hsubset hkind, hnext⟩

/-- What can stand behind a statement, a column or an expression of a batch. -/
def statementFollow : List Kind :=
  [.eof, .semicolon]

def columnFollow : List Kind :=
  [.comma, .rightParen]

def expressionFollow : List Kind :=
  [.kwFrom, .kwWhere, .kwDefault, .kwAutoIncrement] ++ columnFollow ++ statementFollow

/-- No expression goes on with what can stand behind one. -/
theorem NextIn.closes {s : TokenStream} (hs : s.NextIn expressionFollow) : s.Closes := by
  obtain ⟨kind, hkind, hnext⟩ := hs
  refine ⟨kind, hnext, ?_⟩
  rintro rfl
  exact absurd hkind (by decide)

theorem NextIn.stopsAt {s : TokenStream} (hs : s.NextIn expressionFollow) : s.StopsAt 1 := by
  obtain ⟨kind, hkind, hnext⟩ := hs
  intro kind' hnext' tight htight hmem
  obtain rfl := Option.some.inj (hnext.symm.trans hnext')
  have hprecedence := (mem_operatorsAt.mp hmem).2
  have hzero : ∀ kind ∈ expressionFollow, kind.precedence = 0 := by decide
  have := hzero kind hkind
  omega

theorem fillEnds_of_mem {default : Option Expr} {autoIncrement : Bool} :
    ∀ kind ∈ columnFollow, FillEnds default autoIncrement kind := by
  intro kind hkind
  constructor <;>
    · rintro ⟨rfl, -⟩
      exact absurd hkind (by decide)

end TokenStream

/-! ## Reading what stands for a value -/

section Meets

variable (Value : Token → Literal → Prop)

/-- The value of a phrase as it is read.  It is that of a derivation whose values are
those of the tokens. -/
def Agrees {α : Type} (b a : α) : Prop :=
  (∀ t v, Value t v → t.Denotes v) → b = a

/-- Reading tokens that stand for `a` leaves the stream behind them, up to the limits. -/
def Meets {α : Type} {bound : Nat} (ts : List Token) (result : Parse α bound) (a : α)
    (rest : TokenStream) : Prop :=
  HitsLimit 0 ts result ∨
    ∃ b hshorter, Agrees Value b a ∧ result = .ok ⟨b, rest, hshorter⟩

variable {Value} {α β : Type} {bound bound' : Nat} {ts us : List Token} {t : Token} {a : α}
  {c : β} {rest mid : TokenStream}

theorem Meets.pure {b : α} {hshorter : rest.length < bound} (hb : Agrees Value b a) :
    Meets Value [] (pure ⟨b, rest, hshorter⟩ : Parse α bound) a rest :=
  .inr ⟨b, hshorter, hb, rfl⟩

/-- Tokens in front only make the limits nearer. -/
theorem Meets.behind {x : Parse α bound} (front : List Token) (hx : Meets Value ts x a rest) :
    Meets Value (front ++ ts) x a rest := by
  rcases hx with hlimit | hread
  · exact .inl (hlimit.of_part (by simp) (by simp))
  · exact .inr hread

/-- A step that succeeds for sure takes the tokens in front, if any. -/
theorem Meets.step {x : Parse α bound} {f : Parsed α bound → Parse β bound'}
    {parsed : Parsed α bound} (front : List Token) (hx : x = .ok parsed)
    (hf : Meets Value ts (f parsed) c rest) : Meets Value (front ++ ts) (x >>= f) c rest := by
  subst hx
  exact hf.behind front

theorem Meets.bind {x : Parse α bound} {f : Parsed α bound → Parse β bound'}
    (hx : Meets Value ts x a mid)
    (hf : ∀ b hshorter, Agrees Value b a → Meets Value us (f ⟨b, mid, hshorter⟩) c rest) :
    Meets Value (ts ++ us) (x >>= f) c rest := by
  rcases hx with hlimit | ⟨b, hshorter, hb, hread⟩
  · exact .inl (hlimit.of_part (by simp) (by simp)).bind
  · exact .step ts hread (hf b hshorter hb)

/-- The last part of a phrase. -/
theorem Meets.bind_pure {x : Parse α bound} {f : Parsed α bound → Parse β bound'}
    (hx : Meets Value ts x a mid)
    (hf : ∀ b hshorter, Agrees Value b a → Meets Value [] (f ⟨b, mid, hshorter⟩) c rest) :
    Meets Value ts (x >>= f) c rest := by
  simpa using hx.bind hf

theorem Meets.map {x : Parse α bound} (hx : Meets Value ts x a rest) (f : α → β) :
    Meets Value ts (TokenStream.mapParsed f x) (f a) rest := by
  rcases hx with ⟨err, rfl, herr⟩ | ⟨b, hshorter, hb, rfl⟩
  · exact .inl ⟨err, rfl, herr⟩
  · exact .inr ⟨f b, hshorter, fun hdenotes => congrArg f (hb hdenotes), rfl⟩

theorem Meets.of_outcome {result : Parse α bound}
    (hresult : HitsLimit 0 ts (outcome result) ∨
      ∃ b, Agrees Value b a ∧ outcome result = .ok (b, rest)) :
    Meets Value ts result a rest := by
  rcases hresult with ⟨err, herror, herr⟩ | ⟨b, hb, hread⟩
  · cases result with
    | error e =>
        cases herror
        exact .inl ⟨_, rfl, herr⟩
    | ok parsed => cases herror
  · obtain ⟨⟨_, _, hshorter⟩, hresult, heq⟩ := map_eq_ok.mp hread
    cases heq
    exact .inr ⟨_, hshorter, hb, hresult⟩

/-! ### Tokens -/

section Tokens

variable {s : TokenStream} {kind : Kind}

open TokenStream

theorem Meets.expectAmong {expected : List Kind}
    {f : Parsed Token (next t s).length → Parse β bound} (hkind : t.kind = kind)
    (hf : ∀ hshorter, Meets Value ts (f ⟨t, s, hshorter⟩) c rest) :
    Meets Value (t :: ts) ((next t s).expectAmong expected kind >>= f) c rest := by
  have hread : (next t s).expectAmong expected kind = .ok ⟨t, s, Nat.lt_succ_self _⟩ := by
    rw [TokenStream.expectAmong, if_pos hkind]
  exact .step [t] hread (hf _)

theorem expectIdent_next (hkind : t.kind = .identifier) :
    (next t s).expectIdent = .ok ⟨⟨t.position, t.literal⟩, s, Nat.lt_succ_self _⟩ := by
  rw [TokenStream.expectIdent, expect, TokenStream.expectAmong, if_pos hkind]
  rfl

theorem Meets.expectIdent {f : Parsed Ident (next t s).length → Parse β bound}
    (hkind : t.kind = .identifier)
    (hf : ∀ hshorter, Meets Value ts (f ⟨⟨t.position, t.literal⟩, s, hshorter⟩) c rest) :
    Meets Value (t :: ts) ((next t s).expectIdent >>= f) c rest :=
  .step [t] (expectIdent_next hkind) (hf _)

theorem Meets.accept {f : Parsed Bool ((next t s).length + 1) → Parse β bound}
    (hkind : t.kind = kind) (hf : ∀ hshorter, Meets Value ts (f ⟨true, s, hshorter⟩) c rest) :
    Meets Value (t :: ts) ((next t s).accept kind >>= f) c rest := by
  have hread : (next t s).accept kind = .ok ⟨true, s, by simp⟩ := by
    rw [TokenStream.accept, if_pos hkind]
  exact .step [t] hread (hf _)

/-- A token is left out if another one comes next. -/
theorem Meets.skip {f : Parsed Bool (s.length + 1) → Parse β bound} {kinds : List Kind}
    (hs : s.NextIn kinds) (hkind : kind ∉ kinds)
    (hf : ∀ hshorter, Meets Value ts (f ⟨false, s, hshorter⟩) c rest) :
    Meets Value ts (s.accept kind >>= f) c rest := by
  obtain ⟨other, hother, hnext⟩ := hs
  have hread : s.accept kind = .ok ⟨false, s, Nat.lt_succ_self _⟩ := by
    cases s with
    | done position => rfl
    | broken error => cases hnext
    | next t s =>
        rw [TokenStream.accept, if_neg]
        rintro rfl
        cases hnext
        exact hkind hother
  exact .step [] hread (hf _)

end Tokens

end Meets

/-! ## Parts of statements -/

section Parts

open TokenStream

variable {Value : Token → Literal → Prop} {ts : List Token} {rest : TokenStream}

/-- By induction on the derivation of the list. -/
theorem meets_list {α : Type} {item : (s : TokenStream) → Parse α s.length}
    {Item : List Token → α → Prop} {kinds : List Kind}
    (hitem : ∀ {ts a} {rest : TokenStream}, Item ts a → rest.NextIn (.comma :: kinds) →
      Meets Value ts (item (rest.prepend ts)) a rest)
    (hkinds : .comma ∉ kinds) {as : List α} (hts : DerivesList Item ts as)
    (hrest : rest.NextIn kinds) :
    Meets Value ts ((rest.prepend ts).commaSeparated item) as rest := by
  induction hts with
  | last ha =>
      rw [commaSeparated]
      refine (hitem ha (hrest.mono (List.subset_cons_self _ _))).bind_pure fun b _ hb => ?_
      refine .skip hrest hkinds fun _ => .pure fun hdenotes => ?_
      rw [hb hdenotes]
  | @more ts others comma a as ha hcomma _ ih =>
      rw [prepend_append, prepend_cons, commaSeparated]
      have hcomma' : (next comma (rest.prepend others)).NextIn (.comma :: kinds) :=
        nextIn_next (by rw [hcomma]; exact List.mem_cons_self) _
      refine (hitem ha hcomma').bind fun b _ hb => ?_
      refine .accept hcomma fun _ => ?_
      refine ih.bind_pure fun bs _ hbs => .pure fun hdenotes => ?_
      rw [hb hdenotes, hbs hdenotes]

theorem meets_name {name : Ident} (hts : DerivesName ts name) :
    Meets Value ts (rest.prepend ts).expectIdent name rest := by
  cases hts with
  | name hkind => exact .inr ⟨_, _, fun _ => rfl, expectIdent_next hkind⟩

theorem meets_nullability {nullable : Bool} (hts : DerivesNullability ts nullable)
    (hrest : rest.NextIn ([.kwDefault, .kwAutoIncrement] ++ columnFollow)) :
    Meets Value ts (rest.prepend ts).nullability nullable rest := by
  rw [nullability]
  cases hts with
  | unmarked =>
      refine .skip hrest (by decide) fun _ => ?_
      exact .skip hrest (by decide) fun _ => .pure fun _ => rfl
  | null hkind =>
      rw [prepend_cons, prepend_nil]
      refine .skip (nextIn_next (List.mem_singleton.mpr hkind) _) (by decide) fun _ => ?_
      exact .accept hkind fun _ => .pure fun _ => rfl
  | notNull hnegation hkind =>
      rw [prepend_cons, prepend_cons, prepend_nil]
      refine .accept hnegation fun _ => ?_
      exact .expectAmong hkind fun _ => .pure fun _ => rfl

section Follow

variable {Expression : Nat → List Token → Expr → Prop} {keyword : Kind} {kinds : List Kind}

/-- A part that may be left out begins with its keyword or with what follows it. -/
theorem nextIn_mark {b : Bool} (hts : DerivesMark keyword ts b) (hrest : rest.NextIn kinds) :
    (rest.prepend ts).NextIn (keyword :: kinds) := by
  cases hts with
  | absent => exact hrest.mono (List.subset_cons_self _ _)
  | present hkind => exact nextIn_next (by simp [hkind]) _

theorem nextIn_clause {e : Option Expr} (hts : DerivesClause Expression keyword ts e)
    (hrest : rest.NextIn kinds) : (rest.prepend ts).NextIn (keyword :: kinds) := by
  cases hts with
  | absent => exact hrest.mono (List.subset_cons_self _ _)
  | present hkind => exact nextIn_next (by simp [hkind]) _

theorem nextIn_fill {clauses : Option Expr × Bool} (hts : DerivesFill Expression ts clauses)
    (hrest : rest.NextIn kinds) :
    (rest.prepend ts).NextIn ([.kwDefault, .kwAutoIncrement] ++ kinds) := by
  cases hts with
  | defaultFirst hdefault hmark =>
      rw [prepend_append]
      exact nextIn_clause hdefault (nextIn_mark hmark hrest)
  | markFirst hmark hdefault =>
      rw [prepend_append]
      exact (nextIn_mark hmark (nextIn_clause hdefault hrest)).mono (by simp)

/-- Assignments begin with the name of a column. -/
theorem nextIn_assignments {as : List Assignment}
    (hts : DerivesList (DerivesAssignment Expression) ts as) :
    (rest.prepend ts).NextIn [.identifier] := by
  cases hts with
  | last ha =>
      cases ha with
      | assignment hname => exact nextIn_next (List.mem_singleton.mpr hname) _
  | more ha =>
      cases ha with
      | assignment hname => exact nextIn_next (List.mem_singleton.mpr hname) _

theorem DerivesStatement.ne_nil {a : Statement} (hts : DerivesStatement Expression ts a) :
    ts ≠ [] := by
  rintro rfl
  cases hts with
  | createTable hts | select hts | insert hts | update hts | delete hts => cases hts

end Follow

variable (hvalue : ∀ t v, Value t v → t.IsLiteral)

include hvalue

theorem meets_expression {e : Expr} (hts : Derives Value 1 ts e)
    (hrest : rest.NextIn expressionFollow) :
    Meets Value ts (rest.prepend ts).wholeExpression e rest := by
  apply Meets.of_outcome
  rcases (hts.reads hvalue).whole (Nat.le_refl 1) 0 hrest.closes hrest.stopsAt with
    hlimit | ⟨b, hb, hread⟩
  · exact .inl hlimit
  · exact .inr ⟨b, hb.eq, hread⟩

theorem meets_projection {e : Expr} (hts : Derives Value 0 ts e)
    (hrest : rest.NextIn expressionFollow) :
    Meets Value ts ((rest.prepend ts).projection 0) e rest := by
  apply Meets.of_outcome
  rcases (hts.reads hvalue).projection rfl 0 rest hrest.closes hrest.stopsAt with
    hlimit | ⟨b, hb, hread⟩
  · exact .inl hlimit
  · exact .inr ⟨b, hb.eq, hread⟩

theorem meets_expressions {es : List Expr} (hts : DerivesList (Derives Value 1) ts es)
    (hrest : rest.NextIn [.rightParen]) :
    Meets Value ts ((rest.prepend ts).commaSeparated wholeExpression) es rest :=
  meets_list (fun hts hrest => meets_expression hvalue hts (hrest.mono (by decide)))
    (by decide) hts hrest

theorem meets_projections {es : List Expr} (hts : DerivesList (Derives Value 0) ts es)
    (hrest : rest.NextIn [.kwFrom]) :
    Meets Value ts ((rest.prepend ts).projections 0) es rest := by
  rw [projections_eq]
  exact meets_list (fun hts hrest => meets_projection hvalue hts (hrest.mono (by decide)))
    (by decide) hts hrest

theorem meets_clause {keyword : Kind} {e : Option Expr} {kinds : List Kind}
    (hts : DerivesClause (Derives Value) keyword ts e) (hrest : rest.NextIn kinds)
    (hkinds : kinds ⊆ expressionFollow) (hkeyword : keyword ∉ kinds) :
    Meets Value ts ((rest.prepend ts).clause keyword) e rest := by
  rw [clause]
  cases hts with
  | absent => exact .skip hrest hkeyword fun _ => .pure fun _ => rfl
  | present hkind hts =>
      rw [prepend_cons]
      refine .accept hkind fun _ => ?_
      refine (meets_expression hvalue hts (hrest.mono hkinds)).bind_pure fun b _ hb => ?_
      exact .pure fun hdenotes => congrArg some (hb hdenotes)

/-! ### Columns -/

omit hvalue in
/-- The loop over the clauses of a column ends with the column. -/
theorem meets_fillEnd {default default' : Option Expr} {autoIncrement : Bool}
    (hdefault : Agrees Value default default') (hrest : rest.NextIn columnFollow) :
    Meets Value [] (rest.fillClauses default autoIncrement) (default', autoIncrement) rest := by
  have hread : rest.fillClauses default autoIncrement =
      .ok ⟨(default, autoIncrement), rest, Nat.lt_succ_self _⟩ := by
    obtain ⟨kind, hkind, hnext⟩ := hrest
    cases rest with
    | done position => rw [fillClauses]
    | broken error => cases hnext
    | next t others =>
        cases hnext
        have hkeywords : t.kind ≠ .kwDefault ∧ t.kind ≠ .kwAutoIncrement := by
          constructor <;>
            · intro heq
              rw [heq] at hkind
              exact absurd hkind (by decide)
        rw [fillClauses, if_neg fun h => hkeywords.1 h.1, if_neg fun h => hkeywords.2 h.1]
  exact .inr ⟨_, _, fun hdenotes => by rw [hdefault hdenotes], hread⟩

omit hvalue in
/-- The loop takes the mark, and goes on with what follows it. -/
theorem meets_fillMark {default : Option Expr} {autoIncrement : Bool} {us : List Token}
    {clauses : Option Expr × Bool} {mid : TokenStream}
    (hts : DerivesMark .kwAutoIncrement ts autoIncrement)
    (hmid : Meets Value us (mid.fillClauses default autoIncrement) clauses rest) :
    Meets Value (ts ++ us) ((mid.prepend ts).fillClauses default false) clauses rest := by
  cases hts with
  | absent => exact hmid
  | @present t hkind =>
      rw [prepend_cons, prepend_nil, fillClauses, if_neg (by simp [hkind]),
        if_pos ⟨hkind, rfl⟩]
      exact .behind [t] (hmid.bind_pure fun _ _ hclauses => .pure hclauses)

theorem meets_fillDefault {default : Option Expr} {autoIncrement : Bool} {us : List Token}
    {clauses : Option Expr × Bool} {mid : TokenStream}
    (hts : DerivesClause (Derives Value) .kwDefault ts default)
    (hnext : mid.NextIn expressionFollow)
    (hmid : ∀ e, Agrees Value e default →
      Meets Value us (mid.fillClauses e autoIncrement) clauses rest) :
    Meets Value (ts ++ us) ((mid.prepend ts).fillClauses none autoIncrement) clauses rest := by
  cases hts with
  | absent => exact hmid none fun _ => rfl
  | @present t ts e hkind hts =>
      rw [prepend_cons, fillClauses, if_pos ⟨hkind, rfl⟩, List.cons_append]
      refine .behind [t] ((meets_expression hvalue hts hnext).bind fun b _ hb => ?_)
      have hb' : Agrees Value (some b) (some e) := fun hdenotes => congrArg some (hb hdenotes)
      exact (hmid (some b) hb').bind_pure fun _ _ hclauses => .pure hclauses

theorem meets_fill {clauses : Option Expr × Bool} (hts : DerivesFill (Derives Value) ts clauses)
    (hrest : rest.NextIn columnFollow) :
    Meets Value ts ((rest.prepend ts).fillClauses none false) clauses rest := by
  cases hts with
  | defaultFirst hdefault hmark =>
      rw [prepend_append]
      have hnext := (nextIn_mark hmark hrest).mono (by decide : _ ⊆ expressionFollow)
      refine meets_fillDefault hvalue hdefault hnext fun e he => ?_
      simpa using meets_fillMark hmark (meets_fillEnd he hrest)
  | markFirst hmark hdefault =>
      rw [prepend_append]
      refine meets_fillMark hmark ?_
      have hnext := hrest.mono (by decide : _ ⊆ expressionFollow)
      simpa using meets_fillDefault hvalue hdefault hnext fun e he => meets_fillEnd he hrest

theorem meets_column {d : ColumnDefinition} (hts : DerivesColumn (Derives Value) ts d)
    (hrest : rest.NextIn columnFollow) :
    Meets Value ts (rest.prepend ts).columnDefinition d rest := by
  rw [columnDefinition]
  cases hts with
  | @column name keyword ns fs type nullable default autoIncrement hname htype hns hfs =>
      rw [prepend_cons, prepend_cons, prepend_append]
      refine .expectIdent hname fun _ => ?_
      have hread : ∀ s, (next keyword s).dataType = .ok ⟨type, s, Nat.lt_succ_self _⟩ := by
        intro s
        rw [dataType, htype]
      refine .step [keyword] (hread _) ?_
      refine (meets_nullability hns (nextIn_fill hfs hrest)).bind fun nullable' _ hnullable => ?_
      refine (meets_fill hvalue hfs hrest).bind_pure fun clauses _ hclauses => ?_
      refine .pure fun hdenotes => ?_
      rw [hnullable hdenotes, hclauses hdenotes]

/-! ### Statements -/

theorem meets_createTable {a : CreateTable} (hts : DerivesCreateTable (Derives Value) ts a) :
    Meets Value ts (rest.prepend ts).createTable a rest := by
  rw [createTable]
  cases hts with
  | @createTable create keyword name opening closing ts columns hcreate hkeyword hname hopen
      hcolumns hclose =>
      rw [prepend_cons, prepend_cons, prepend_cons, prepend_cons, prepend_append, prepend_cons,
        prepend_nil]
      refine .expectAmong hcreate fun _ => .expectAmong hkeyword fun _ => ?_
      refine .expectIdent hname fun _ => .expectAmong hopen fun _ => ?_
      have hnext := nextIn_next (List.mem_singleton.mpr hclose) rest
      refine (meets_list (meets_column hvalue) (by decide) hcolumns hnext).bind
        fun columns _ hcolumns => ?_
      refine .expectAmong hclose fun _ => .pure fun hdenotes => ?_
      rw [hcolumns hdenotes]

theorem meets_select {a : Select} (hts : DerivesSelect (Derives Value) ts a)
    (hrest : rest.NextIn statementFollow) : Meets Value ts (rest.prepend ts).select a rest := by
  rw [select]
  cases hts with
  | @select select keyword ps es cs projections table condition hselect hprojections hkeyword
      htable hcondition =>
      rw [prepend_cons, prepend_append, prepend_cons, prepend_append]
      refine .expectAmong hselect fun _ => ?_
      have hfrom := nextIn_next (List.mem_singleton.mpr hkeyword)
        ((rest.prepend cs).prepend es)
      refine (meets_projections hvalue hprojections hfrom).bind fun projections _ hprojections => ?_
      refine .expectAmong hkeyword fun _ => ?_
      have hwhere := (nextIn_clause hcondition hrest).mono (by decide : _ ⊆ expressionFollow)
      refine (meets_expression hvalue htable hwhere).bind fun table _ htable => ?_
      refine (meets_clause hvalue hcondition hrest (by decide) (by decide)).bind_pure
        fun condition _ hcondition => ?_
      refine .pure fun hdenotes => ?_
      rw [hprojections hdenotes, htable hdenotes, hcondition hdenotes]

omit hvalue in
theorem meets_targets {columns : List Ident} {kinds : List Kind} (hts : DerivesTargets ts columns)
    (hrest : rest.NextIn kinds) (hopen : .leftParen ∉ kinds) :
    Meets Value ts (rest.prepend ts).targetColumns columns rest := by
  rw [targetColumns]
  cases hts with
  | all => exact .skip hrest hopen fun _ => .pure fun _ => rfl
  | @named opening closing ts columns hopening hnames hclosing =>
      rw [prepend_cons, prepend_append, prepend_cons, prepend_nil]
      refine .accept hopening fun _ => ?_
      have hnext := nextIn_next (List.mem_singleton.mpr hclosing) rest
      refine (meets_list (fun hname _ => meets_name hname) (by decide) hnames hnext).bind
        fun names _ hnames => ?_
      exact .expectAmong hclosing fun _ => .pure hnames

theorem meets_insert {a : Insert} (hts : DerivesInsert (Derives Value) ts a) :
    Meets Value ts (rest.prepend ts).insert a rest := by
  rw [TokenStream.insert]
  cases hts with
  | @insert insert keyword name values opening closing cs es columns exprs hinsert hkeyword hname
      hcolumns hvalues hopen hexprs hclose =>
      rw [prepend_cons, prepend_cons, prepend_cons, prepend_append, prepend_cons, prepend_cons,
        prepend_append, prepend_cons, prepend_nil]
      refine .expectAmong hinsert fun _ => .expectAmong hkeyword fun _ => ?_
      refine .expectIdent hname fun _ => ?_
      have hnext := nextIn_next (List.mem_singleton.mpr hvalues)
        (next opening ((next closing rest).prepend es))
      refine (meets_targets hcolumns hnext (by decide)).bind fun columns _ hcolumns => ?_
      refine .expectAmong hvalues fun _ => .expectAmong hopen fun _ => ?_
      have hnext := nextIn_next (List.mem_singleton.mpr hclose) rest
      refine (meets_expressions hvalue hexprs hnext).bind fun exprs _ hexprs => ?_
      refine .expectAmong hclose fun _ => .pure fun hdenotes => ?_
      rw [hcolumns hdenotes, hexprs hdenotes]

theorem meets_assignment {a : Assignment} (hts : DerivesAssignment (Derives Value) ts a)
    (hrest : rest.NextIn expressionFollow) :
    Meets Value ts (rest.prepend ts).assignment a rest := by
  rw [assignment]
  cases hts with
  | assignment hname hequal hts =>
      rw [prepend_cons, prepend_cons]
      refine .expectIdent hname fun _ => .expectAmong hequal fun _ => ?_
      refine (meets_expression hvalue hts hrest).bind_pure fun value _ hvalue' => ?_
      refine .pure fun hdenotes => ?_
      rw [hvalue' hdenotes]

theorem meets_assignments {as : List Assignment} (hts : DerivesAssignments (Derives Value) ts as)
    (hrest : rest.NextIn (.kwWhere :: statementFollow)) :
    Meets Value ts (rest.prepend ts).assignments as rest := by
  rw [assignments]
  cases hts with
  | bare hlist =>
      refine .skip (nextIn_assignments hlist) (by decide) fun _ => ?_
      refine (meets_list (fun ha hrest => meets_assignment hvalue ha (hrest.mono (by decide)))
        (by decide) hlist hrest).bind_pure fun assignments _ hassignments => ?_
      exact .pure hassignments
  | @enclosed opening closing ts assignments hopen hlist hclose =>
      rw [prepend_cons, prepend_append, prepend_cons, prepend_nil]
      refine .accept hopen fun _ => ?_
      have hnext := nextIn_next (List.mem_singleton.mpr hclose) rest
      refine (meets_list (fun ha hrest => meets_assignment hvalue ha (hrest.mono (by decide)))
        (by decide) hlist hnext).bind fun assignments _ hassignments => ?_
      exact .expectAmong hclose fun _ => .pure hassignments

theorem meets_update {a : Update} (hts : DerivesUpdate (Derives Value) ts a)
    (hrest : rest.NextIn statementFollow) : Meets Value ts (rest.prepend ts).update a rest := by
  rw [update]
  cases hts with
  | @update update name keyword ts cs assignments condition hupdate hname hkeyword hassignments
      hcondition =>
      rw [prepend_cons, prepend_cons, prepend_cons, prepend_append]
      refine .expectAmong hupdate fun _ => .expectIdent hname fun _ => ?_
      refine .expectAmong hkeyword fun _ => ?_
      have hwhere := nextIn_clause hcondition hrest
      refine (meets_assignments hvalue hassignments hwhere).bind
        fun assignments _ hassignments => ?_
      refine (meets_clause hvalue hcondition hrest (by decide) (by decide)).bind_pure
        fun condition _ hcondition => ?_
      refine .pure fun hdenotes => ?_
      rw [hassignments hdenotes, hcondition hdenotes]

theorem meets_delete {a : Delete} (hts : DerivesDelete (Derives Value) ts a)
    (hrest : rest.NextIn statementFollow) : Meets Value ts (rest.prepend ts).delete a rest := by
  rw [delete]
  cases hts with
  | delete hdelete hkeyword hname hcondition =>
      rw [prepend_cons, prepend_cons, prepend_cons]
      refine .expectAmong hdelete fun _ => .expectAmong hkeyword fun _ => ?_
      refine .expectIdent hname fun _ => ?_
      refine (meets_clause hvalue hcondition hrest (by decide) (by decide)).bind_pure
        fun condition _ hcondition => ?_
      refine .pure fun hdenotes => ?_
      rw [hcondition hdenotes]

/-- The keyword in front tells which statement is read. -/
theorem meets_statement {a : Statement} (hts : DerivesStatement (Derives Value) ts a)
    (hrest : rest.NextIn statementFollow) : Meets Value ts (rest.prepend ts).statement a rest := by
  cases hts with
  | createTable hts =>
      have hstatement : (rest.prepend ts).statement =
          mapParsed .createTable (rest.prepend ts).createTable := by
        cases hts with
        | createTable hkind =>
            rw [prepend_cons, statement]
            simp only [hkind]
      rw [hstatement]
      exact (meets_createTable hvalue hts).map _
  | select hts =>
      have hstatement : (rest.prepend ts).statement =
          mapParsed .select (rest.prepend ts).select := by
        cases hts with
        | select hkind =>
            rw [prepend_cons, statement]
            simp only [hkind]
      rw [hstatement]
      exact (meets_select hvalue hts hrest).map _
  | insert hts =>
      have hstatement : (rest.prepend ts).statement =
          mapParsed .insert (rest.prepend ts).insert := by
        cases hts with
        | insert hkind =>
            rw [prepend_cons, statement]
            simp only [hkind]
      rw [hstatement]
      exact (meets_insert hvalue hts).map _
  | update hts =>
      have hstatement : (rest.prepend ts).statement =
          mapParsed .update (rest.prepend ts).update := by
        cases hts with
        | update hkind =>
            rw [prepend_cons, statement]
            simp only [hkind]
      rw [hstatement]
      exact (meets_update hvalue hts hrest).map _
  | delete hts =>
      have hstatement : (rest.prepend ts).statement =
          mapParsed .delete (rest.prepend ts).delete := by
        cases hts with
        | delete hkind =>
            rw [prepend_cons, statement]
            simp only [hkind]
      rw [hstatement]
      exact (meets_delete hvalue hts hrest).map _

/-! ## Batches -/

omit hvalue in
theorem statements_next (t : Token) (s : TokenStream) :
    (next t s).statements = (do
      let first ← (next t s).statement
      let separated ← first.rest.accept .semicolon
      if separated.value then
        return first.value :: (← separated.rest.statements)
      else
        match separated.rest with
        | done _ => return [first.value]
        | s => .error (s.unexpected [.semicolon])) :=
  TokenStream.statements.eq_def _

/-- By induction on the derivation of the batch. -/
theorem meets_batch {statements : List Statement}
    (hts : DerivesBatch (Derives Value) ts statements) (finish : Position) :
    HitsLimit 0 ts ((done finish).prepend ts).statements ∨
      ∃ bs, Agrees Value bs statements ∧ ((done finish).prepend ts).statements = .ok bs := by
  induction hts with
  | empty =>
      refine .inr ⟨[], fun _ => rfl, ?_⟩
      rw [prepend_nil, TokenStream.statements]
  | @last ts a ha =>
      obtain ⟨t, others, rfl⟩ := List.exists_cons_of_ne_nil ha.ne_nil
      have hnext : (done finish).NextIn statementFollow := ⟨.eof, by decide, rfl⟩
      have hmeets := meets_statement hvalue ha hnext
      rw [prepend_cons] at hmeets ⊢
      rw [statements_next]
      rcases hmeets with hlimit | ⟨b, hshorter, hb, hread⟩
      · exact .inl hlimit.bind
      · refine .inr ⟨[b], fun hdenotes => by rw [hb hdenotes], ?_⟩
        rw [hread]
        rfl
  | @more ts others semicolon a statements ha hsemicolon _ ih =>
      obtain ⟨t, us, rfl⟩ := List.exists_cons_of_ne_nil ha.ne_nil
      rw [prepend_append, prepend_cons]
      have hnext : (next semicolon ((done finish).prepend others)).NextIn statementFollow :=
        nextIn_next (by rw [hsemicolon]; decide) _
      have hmeets := meets_statement hvalue ha hnext
      rw [prepend_cons] at hmeets ⊢
      rw [statements_next]
      rcases hmeets with hlimit | ⟨b, hshorter, hb, hread⟩
      · exact .inl (hlimit.of_part (by simp) (by simp)).bind
      have haccept : (next semicolon ((done finish).prepend others)).accept .semicolon =
          .ok ⟨true, (done finish).prepend others, by simp⟩ := by
        rw [accept, if_pos hsemicolon]
      rcases ih with hlimit | ⟨bs, hbs, hothers⟩
      · have hlimit' : HitsLimit 0 (t :: us ++ semicolon :: others) _ :=
          hlimit.of_part (fun u hu => by simp [hu]) (by simp; omega)
        exact .inl (.bind_of_ok hread (.bind_of_ok haccept hlimit'.bind))
      · refine .inr ⟨b :: bs, fun hdenotes => by rw [hb hdenotes, hbs hdenotes], ?_⟩
        exact bind_eq_ok.mpr ⟨_, hread, bind_eq_ok.mpr ⟨_, haccept,
          bind_eq_ok.mpr ⟨_, hothers, rfl⟩⟩⟩

end Parts

/-! ## The readers and the grammar -/

theorem eq_of_prepend_done {ts us : List Token} {p q : Position}
    (heq : (TokenStream.done p).prepend ts = (TokenStream.done q).prepend us) : ts = us :=
  TokenStream.eq_of_prepend_eq heq rfl

/-- A list of tokens is read as a batch exactly when it is a sentence of the grammar, unless
reading it fails at a limit, and the statements read are its one tree. -/
theorem batch_reads_sentences (ts : List Token) (finish : Position) :
    (HitsLimit 0 ts (TokenStream.ofList ts finish).statements ∨
      ((∃ statements, (TokenStream.ofList ts finish).statements = .ok statements) ↔
        BatchSentence ts)) ∧
    ∀ statements, (TokenStream.ofList ts finish).statements = .ok statements →
      DerivesBatch (Derives Token.Denotes) ts statements ∧
        ∀ others, DerivesBatch (Derives Token.Denotes) ts others → others = statements := by
  have hderives : ∀ {Value : Token → Literal → Prop}, (∀ t v, t.Denotes v → Value t v) →
      ∀ {statements}, (TokenStream.ofList ts finish).statements = .ok statements →
        DerivesBatch (Derives Value) ts statements := by
    intro Value hvalue statements hread
    obtain ⟨us, finish', hs, hus⟩ :=
      TokenStream.derives_of_statements (fun hts => hts.derives.mono hvalue) hread
    rwa [eq_of_prepend_done hs]
  constructor
  · rw [or_iff_not_imp_left]
    intro hlimit
    constructor
    · rintro ⟨statements, hread⟩
      exact ⟨statements, hderives (fun t v hv => .inr ⟨v, hv⟩) hread⟩
    · rintro ⟨statements, hts⟩
      rcases meets_batch (fun _ _ hv => hv) hts finish with hhits | ⟨bs, -, hread⟩
      · exact absurd hhits hlimit
      · exact ⟨bs, hread⟩
  · intro statements hread
    refine ⟨hderives (fun _ _ hv => hv) hread, fun others hothers => ?_⟩
    rcases meets_batch (fun t v hv => .inr ⟨v, hv⟩) hothers finish with
      ⟨err, herror, -⟩ | ⟨bs, hbs, hread'⟩
    · cases hread.symm.trans herror
    · cases hread.symm.trans hread'
      exact (hbs fun _ _ hv => hv).symm

section Example

/-- `a INTEGER NOT NULL AUTOINCREMENT DEFAULT b` -/
def markedColumn : List Token :=
  [nameAt 4 "a", operatorAt 5 .kwInteger, operatorAt 6 .kwNot, operatorAt 7 .kwNull,
    operatorAt 8 .kwAutoIncrement, operatorAt 9 .kwDefault, nameAt 10 "b"]

theorem derives_markedColumn (Value : Token → Literal → Prop) :
    DerivesColumn (Derives Value) markedColumn
      ⟨⟨⟨1, 4⟩, "a"⟩, .integer, false, some (.ident ⟨⟨1, 10⟩, "b"⟩), true⟩ := by
  have hdefault : Derives Value 1 [nameAt 10 "b"] (.ident ⟨⟨1, 10⟩, "b"⟩) :=
    .loosen (by decide) (by decide) (.name rfl)
  have hfill : DerivesFill (Derives Value)
      ([operatorAt 8 .kwAutoIncrement] ++ [operatorAt 9 .kwDefault, nameAt 10 "b"]) _ :=
    .markFirst (.present rfl) (.present rfl hdefault)
  exact .column rfl rfl (.notNull rfl rfl) hfill

def creation : List Token :=
  operatorAt 0 .kwCreate :: operatorAt 1 .kwTable :: nameAt 2 "t" :: operatorAt 3 .leftParen ::
    (markedColumn ++ [operatorAt 11 .rightParen])

def setting : List Token :=
  operatorAt 13 .kwUpdate :: nameAt 14 "t" :: operatorAt 15 .kwSet ::
    (operatorAt 16 .leftParen ::
      ([nameAt 17 "a", operatorAt 18 .equal, nameAt 19 "b"] ++ [operatorAt 20 .rightParen]) ++ [])

/-- `CREATE TABLE t (a INTEGER NOT NULL AUTOINCREMENT DEFAULT b); UPDATE t SET (a = b);` -/
def settingUp : List Token :=
  creation ++ operatorAt 12 .semicolon :: (setting ++ [operatorAt 21 .semicolon])

def settingUpTree : List Statement :=
  [.createTable ⟨⟨1, 0⟩, ⟨⟨1, 2⟩, "t"⟩,
      [⟨⟨⟨1, 4⟩, "a"⟩, .integer, false, some (.ident ⟨⟨1, 10⟩, "b"⟩), true⟩]⟩,
    .update ⟨⟨1, 13⟩, ⟨⟨1, 14⟩, "t"⟩, [⟨⟨⟨1, 17⟩, "a"⟩, .ident ⟨⟨1, 19⟩, "b"⟩⟩], none⟩]

theorem derives_settingUp (Value : Token → Literal → Prop) :
    DerivesBatch (Derives Value) settingUp settingUpTree := by
  have hcreate : DerivesCreateTable (Derives Value) creation _ :=
    .createTable rfl rfl rfl rfl (.last (derives_markedColumn Value)) rfl
  have hvalue : Derives Value 1 [nameAt 19 "b"] (.ident ⟨⟨1, 19⟩, "b"⟩) :=
    .loosen (by decide) (by decide) (.name rfl)
  have hupdate : DerivesUpdate (Derives Value) setting _ :=
    .update rfl rfl rfl (.enclosed rfl (.last (.assignment rfl rfl hvalue)) rfl) .absent
  exact .more (.createTable hcreate) rfl (.more (.update hupdate) rfl .empty)

theorem settingUp_read :
    (TokenStream.ofList settingUp ⟨1, 22⟩).statements = .ok settingUpTree := by
  obtain ⟨hread, hunique⟩ := batch_reads_sentences settingUp ⟨1, 22⟩
  have hnumerals : ∀ t ∈ settingUp, t.kind ≠ .numberLiteral := by decide
  rcases hread with ⟨err, -, hexceeds⟩ | hiff
  · cases hexceeds with
    | tooDeep _ hdepth => exact absurd hdepth (by decide)
    | integerOutOfRange ht hnumeral => exact absurd hnumeral.1 (hnumerals _ ht)
  · obtain ⟨statements, hstatements⟩ := hiff.mpr ⟨_, derives_settingUp _⟩
    rw [hstatements, (hunique _ hstatements).2 _ (derives_settingUp _)]

end Example

end PocketSql
