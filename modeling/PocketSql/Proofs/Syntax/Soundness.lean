import Mathlib
import PocketSql.Proofs.Syntax.Grammar
import PocketSql.Proofs.Syntax.Reading

/-!
# What is read is a sentence

Whatever the readers of expressions take from a stream is a sentence of the grammar,
and what they return is its tree.  An expression with a least precedence is a sentence
of that level, and no operator that could continue it comes next.

The derivation found remembers the depths at which its parts were read, so it also
tells what the limit of the depth means for the tree.
-/

namespace PocketSql

open Parse (outcome)

namespace TokenStream

/-- The stream with tokens in front. -/
def prepend (s : TokenStream) (ts : List Token) : TokenStream :=
  ts.foldr next s

@[simp]
theorem prepend_nil (s : TokenStream) : s.prepend [] = s := by
  rfl

@[simp]
theorem prepend_cons (s : TokenStream) (t : Token) (ts : List Token) :
    s.prepend (t :: ts) = next t (s.prepend ts) := by
  rfl

@[simp]
theorem prepend_append (s : TokenStream) (ts us : List Token) :
    s.prepend (ts ++ us) = (s.prepend us).prepend ts := by
  unfold prepend
  rw [List.foldr_append]

theorem length_prepend (s : TokenStream) (ts : List Token) :
    (s.prepend ts).length = s.length + ts.length := by
  induction ts with
  | nil => rfl
  | cons t ts ih =>
      rw [prepend_cons, length, ih, List.length_cons]
      omega

/-- Equal streams have the same tokens in front of ends of the same length. -/
theorem eq_of_prepend_eq {s s' : TokenStream} {ts us : List Token}
    (heq : s.prepend ts = s'.prepend us) (hlength : s.length = s'.length) : ts = us := by
  have hfronts : ts.length = us.length := by
    have hwhole := congrArg length heq
    rw [length_prepend, length_prepend] at hwhole
    omega
  induction ts generalizing us with
  | nil => exact (List.length_eq_zero_iff.mp hfronts.symm).symm
  | cons t ts ih =>
      cases us with
      | nil => cases hfronts
      | cons u us =>
          rw [prepend_cons, prepend_cons, next.injEq] at heq
          rw [heq.1, ih heq.2 (Nat.succ.inj hfronts)]

/-- No operator of the level or of a tighter one comes next. -/
def StopsAt (s : TokenStream) (level : Nat) : Prop :=
  ∀ kind, s.nextKind? = some kind → ∀ tight, level ≤ tight → kind ∉ operatorsAt tight

theorem StopsAt.tighten {s : TokenStream} {level tight : Nat} (hs : s.StopsAt level)
    (hle : level ≤ tight) : s.StopsAt tight :=
  fun kind hkind _ htight => hs kind hkind _ (hle.trans htight)

theorem stopsAt_of_primaryLevel_lt (s : TokenStream) {level : Nat}
    (hlevel : primaryLevel ≤ level) : s.StopsAt level := by
  intro kind _ tight htight hmem
  have hprecedence := (mem_operatorsAt.mp hmem).2
  have hlt := precedence_lt_primaryLevel kind
  omega

theorem stopsAt_done (position : Position) (level : Nat) : (done position).StopsAt level := by
  rintro kind ⟨⟩ tight - hmem
  obtain ⟨htight, hprecedence⟩ := mem_operatorsAt.mp hmem
  simp only [Kind.precedence] at hprecedence
  omega

/-- The loop over operators stops where the grammar does. -/
theorem stopsAt_next {t : Token} {rest : TokenStream} {level : Nat} (hlevel : 1 ≤ level) :
    (next t rest).StopsAt level ↔
      t.kind.precedence = 0 ∨ t.kind.precedence < level := by
  constructor
  · intro hs
    by_contra hop
    rw [not_or, not_lt] at hop
    apply hs t.kind rfl t.kind.precedence hop.2
    exact mem_operatorsAt.mpr ⟨Nat.pos_of_ne_zero hop.1, rfl⟩
  · rintro hop kind ⟨⟩ tight htight hmem
    have hprecedence := (mem_operatorsAt.mp hmem).2
    omega

theorem outcome_operators_of_stopsAt {depth level : Nat} (hlevel : 1 ≤ level) {rest : TokenStream}
    (hcloses : rest.Closes) (hstop : rest.StopsAt level) (e : Expr) :
    outcome (rest.operators depth level e) = .ok (e, rest) := by
  cases rest with
  | done position => exact outcome_operators_done _ _ _ _
  | broken error =>
      obtain ⟨kind, hkind, -⟩ := hcloses
      cases hkind
  | next t others =>
      rw [outcome_operators_next, if_pos ((stopsAt_next hlevel).mp hstop)]

end TokenStream

theorem length_lt_of_outcome {α : Type} {bound : Nat} {result : Parse α bound} {a : α}
    {rest : TokenStream} (hread : outcome result = .ok (a, rest)) : rest.length < bound := by
  obtain ⟨parsed, _, heq⟩ := map_eq_ok.mp hread
  cases heq
  exact parsed.shorter

theorem checkDepth_eq_ok {depth : Nat} {position : Position} {u : Unit} :
    checkDepth depth position = .ok u ↔ depth < maxDepth := by
  rw [checkDepth]
  split <;> simp [*]

/-! ## Derivations at a depth -/

/-- A derivation with the depths at which its parts are read.  A group and a sign raise
the depth for what stands inside, an operator for what stands behind it. -/
inductive ReadAt : Nat → Nat → List Token → Expr → Prop
  | literal {depth : Nat} {t : Token} {value : Literal} : t.Denotes value →
      ReadAt depth primaryLevel [t] (.literal t.position value)
  | name {depth : Nat} {t : Token} : t.kind = .identifier →
      ReadAt depth primaryLevel [t] (.ident ⟨t.position, t.literal⟩)
  | group {depth : Nat} {opening closing : Token} {ts : List Token} {e : Expr} :
      opening.kind = .leftParen → depth < maxDepth → ReadAt (depth + 1) 1 ts e →
      closing.kind = .rightParen →
      ReadAt depth primaryLevel (opening :: (ts ++ [closing])) e
  | sign {depth : Nat} {t : Token} {ts : List Token} {e : Expr} :
      t.kind = .plus ∨ t.kind = .minus → depth < maxDepth →
      ReadAt (depth + 1) primaryLevel ts e →
      ReadAt depth primaryLevel (t :: ts) (.unary t.position t.kind e)
  | emptyCall {depth : Nat} {t opening closing : Token} : t.kind = .identifier →
      opening.kind = .leftParen → closing.kind = .rightParen →
      ReadAt depth primaryLevel [t, opening, closing] (.call ⟨t.position, t.literal⟩ [])
  | call {depth : Nat} {t opening closing : Token} {ts : List Token}
      {items : List (List Token × Expr)} :
      t.kind = .identifier → opening.kind = .leftParen →
      Separated (items.map Prod.fst) ts →
      (∀ item ∈ items, ReadAt depth 0 item.1 item.2) → closing.kind = .rightParen →
      ReadAt depth primaryLevel (t :: opening :: (ts ++ [closing]))
        (.call ⟨t.position, t.literal⟩ (items.map Prod.snd))
  /-- The right operand is the deeper, the more operators the loop has folded before. -/
  | fold {depth inner level : Nat} {ls rs : List Token} {op : Token} {l r : Expr} :
      ReadAt depth level ls l → op.kind ∈ operatorsAt level → depth < inner →
      inner ≤ maxDepth → ReadAt inner (level + 1) rs r →
      ReadAt depth level (ls ++ op :: rs) (.binary op.kind l r)
  | tighter {depth level : Nat} {ts : List Token} {e : Expr} : level < primaryLevel →
      ReadAt depth (level + 1) ts e → ReadAt depth level ts e
  | star {depth : Nat} {t : Token} : t.kind = .star → ReadAt depth 0 [t] (.star t.position)

theorem ReadAt.derives {depth level : Nat} {ts : List Token} {e : Expr}
    (hts : ReadAt depth level ts e) : Derives Token.Denotes level ts e := by
  induction hts with
  | literal hvalue => exact .literal hvalue
  | name hkind => exact .name hkind
  | group hopen _ _ hclose ih => exact .group hopen ih hclose
  | sign hkind _ _ ih => exact .sign hkind ih
  | emptyCall hkind hopen hclose => exact .emptyCall hkind hopen hclose
  | call hkind hopen hitems _ hclose ih => exact .call hkind hopen hitems ih hclose
  | fold _ hop _ _ _ ihl ihr => exact .fold ihl hop ihr
  | tighter hlevel _ ih => exact .tighter hlevel ih
  | star hkind => exact .star hkind

theorem ReadAt.loosen {depth level tight : Nat} {ts : List Token} {e : Expr}
    (htight : tight ≤ primaryLevel) (hle : level ≤ tight) (hts : ReadAt depth tight ts e) :
    ReadAt depth level ts e :=
  loosen_of_tighter (P := (ReadAt depth · ts e)) (fun _ => .tighter) htight hle hts

/-! ## What is read is a sentence -/

namespace TokenStream

/-- Whatever a reader takes from the stream is a sentence of its part of the grammar. -/
structure ReadsSentences (s : TokenStream) : Prop where
  primary : ∀ {depth e rest}, outcome (s.primary depth) = .ok (e, rest) →
    ∃ ts, s = rest.prepend ts ∧ ReadAt depth primaryLevel ts e
  expression : ∀ {depth level e rest}, 1 ≤ level → level ≤ primaryLevel →
    outcome (s.expression depth level) = .ok (e, rest) →
    ∃ ts, s = rest.prepend ts ∧ ReadAt depth level ts e ∧
      rest.nextKind?.isSome ∧ rest.StopsAt level
  /-- The tokens `ls` have been read as `lhs` at the depth `start`, and nothing tighter
  than its level `tight` comes next, so an operator of a looser level takes all of it as
  its left operand. -/
  operators : ∀ {start depth level tight ls lhs e rest}, start ≤ depth → 1 ≤ level →
    level ≤ tight → tight ≤ primaryLevel → ReadAt start tight ls lhs → s.StopsAt (tight + 1) →
    outcome (s.operators depth level lhs) = .ok (e, rest) →
    ∃ ts, s = rest.prepend ts ∧ ReadAt start level (ls ++ ts) e ∧
      rest.nextKind?.isSome ∧ rest.StopsAt level
  projection : ∀ {depth e rest}, outcome (s.projection depth) = .ok (e, rest) →
    ∃ ts, s = rest.prepend ts ∧ ReadAt depth 0 ts e
  projections : ∀ {depth es rest}, outcome (s.projections depth) = .ok (es, rest) →
    ∃ (items : List (List Token × Expr)) (ts : List Token), es = items.map Prod.snd ∧
      Separated (items.map Prod.fst) ts ∧ s = rest.prepend ts ∧
      ∀ item ∈ items, ReadAt depth 0 item.1 item.2

section Sound

variable {s : TokenStream}

theorem denotes_of_literalOf {t : Token} {value : Literal} (hkind : t.kind ∈ literalKinds)
    (hvalue : literalOf t = .ok value) : t.Denotes value := by
  rw [literalOf] at hvalue
  simp only [literalKinds, List.mem_cons, List.not_mem_nil, or_false] at hkind
  rcases hkind with hkind | hkind | hkind | hkind | hkind <;> simp only [hkind] at hvalue
  · rw [numberLiteral] at hvalue
    split at hvalue
    · next hdigits =>
      split at hvalue
      · next i hread =>
        cases hvalue
        exact .integer ⟨hkind, hdigits⟩ hread
      · contradiction
    · next hdigits =>
      split at hvalue
      · next x hread =>
        cases hvalue
        exact .number hkind (Bool.eq_false_iff.mpr hdigits) hread
      · contradiction
  · cases hvalue
    exact .string hkind
  · cases hvalue
    exact .true hkind
  · cases hvalue
    exact .false hkind
  · cases hvalue
    exact .null hkind

theorem exists_next_of_primary {depth : Nat} {e : Expr} {rest : TokenStream}
    (hread : outcome (s.primary depth) = .ok (e, rest)) : ∃ t others, s = next t others := by
  cases s with
  | done position =>
      unfold TokenStream.primary at hread
      cases hread
  | broken error =>
      unfold TokenStream.primary at hread
      cases hread
  | next t others => exact ⟨t, others, rfl⟩

variable (ih : ∀ s' : TokenStream, s'.length < s.length → s'.ReadsSentences)

include ih

/-- A name with nothing or with its arguments behind it. -/
theorem readsSentences_name {depth : Nat} {t : Token} {others : TokenStream} {e : Expr}
    {rest : TokenStream} (hs : s = next t others) (hkind : t.kind = .identifier)
    (hread : outcome (s.primary depth) = .ok (e, rest)) :
    ∃ ts, s = rest.prepend ts ∧ ReadAt depth primaryLevel ts e := by
  subst hs
  rw [outcome_primary_name _ _ hkind] at hread
  obtain ⟨⟨isCall, r⟩, hcall, hrest⟩ := bind_eq_ok.mp hread
  cases isCall with
  | false =>
      cases hrest
      obtain ⟨rfl, -⟩ := (accept_false (by decide)).mp hcall
      exact ⟨[t], rfl, .name hkind⟩
  | true =>
      obtain ⟨opening, rfl, hopen⟩ := accept_true.mp hcall
      obtain ⟨⟨isEmpty, r'⟩, hempty, hrest'⟩ := bind_eq_ok.mp hrest
      cases isEmpty with
      | true =>
          cases hrest'
          obtain ⟨closing, rfl, hclose⟩ := accept_true.mp hempty
          exact ⟨[t, opening, closing], rfl, .emptyCall hkind hopen hclose⟩
      | false =>
          obtain ⟨rfl, -⟩ := (accept_false (by decide)).mp hempty
          obtain ⟨⟨arguments, r₁⟩, harguments, hend⟩ := bind_eq_ok.mp hrest'
          obtain ⟨⟨closing, r₂⟩, hclosing, heq⟩ := bind_eq_ok.mp hend
          cases heq
          obtain ⟨rfl, hclose⟩ := expect_eq_ok.mp hclosing
          have hshorter : r'.length < (next t (next opening r')).length := by
            simp only [TokenStream.length]
            omega
          obtain ⟨items, ts, rfl, hseparated, rfl, hitems⟩ :=
            (ih r' hshorter).projections harguments
          exact ⟨t :: opening :: (ts ++ [closing]), by simp,
            .call hkind hopen hseparated hitems hclose⟩

theorem readsSentences_primary {depth : Nat} {e : Expr} {rest : TokenStream}
    (hread : outcome (s.primary depth) = .ok (e, rest)) :
    ∃ ts, s = rest.prepend ts ∧ ReadAt depth primaryLevel ts e := by
  obtain ⟨t, others, hs⟩ := exists_next_of_primary hread
  by_cases hname : t.kind = .identifier
  · exact readsSentences_name ih hs hname hread
  subst hs
  by_cases hgroup : t.kind = .leftParen
  · rw [outcome_primary_group _ _ hgroup] at hread
    obtain ⟨_, hdepth, hrest⟩ := bind_eq_ok.mp hread
    obtain ⟨⟨inner, r⟩, hinner, hend⟩ := bind_eq_ok.mp hrest
    obtain ⟨⟨closing, r'⟩, hclosing, heq⟩ := bind_eq_ok.mp hend
    cases heq
    obtain ⟨rfl, hclose⟩ := expect_eq_ok.mp hclosing
    obtain ⟨ts, rfl, hts, -⟩ := (ih others (Nat.lt_succ_self _)).expression
      (Nat.le_refl 1) (by decide) hinner
    exact ⟨t :: (ts ++ [closing]), by simp, .group hgroup (checkDepth_eq_ok.mp hdepth) hts hclose⟩
  by_cases hsign : t.kind = .plus ∨ t.kind = .minus
  · rw [outcome_primary_sign _ _ hsign] at hread
    obtain ⟨_, hdepth, hrest⟩ := bind_eq_ok.mp hread
    obtain ⟨⟨operand, r⟩, hoperand, heq⟩ := bind_eq_ok.mp hrest
    cases heq
    obtain ⟨ts, rfl, hts⟩ := (ih others (Nat.lt_succ_self _)).primary hoperand
    exact ⟨t :: ts, rfl, .sign hsign (checkDepth_eq_ok.mp hdepth) hts⟩
  by_cases hliteral : t.kind ∈ literalKinds
  · rw [outcome_primary_literal _ _ hliteral] at hread
    obtain ⟨value, hvalue, heq⟩ := bind_eq_ok.mp hread
    cases heq
    exact ⟨[t], rfl, .literal (denotes_of_literalOf hliteral hvalue)⟩
  have hother : t.kind ∉ primaryStart := by
    simp only [literalKinds, primaryStart, List.mem_cons, List.not_mem_nil, or_false,
      not_or] at hliteral hsign ⊢
    tauto
  rw [outcome_primary_other _ _ hother] at hread
  cases hread

theorem readsSentences_operators {start depth level tight : Nat} {ls : List Token} {lhs e : Expr}
    {rest : TokenStream} (hstart : start ≤ depth) (hlevel : 1 ≤ level) (hle : level ≤ tight)
    (htight : tight ≤ primaryLevel) (hls : ReadAt start tight ls lhs)
    (hstop : s.StopsAt (tight + 1))
    (hread : outcome (s.operators depth level lhs) = .ok (e, rest)) :
    ∃ ts, s = rest.prepend ts ∧ ReadAt start level (ls ++ ts) e ∧
      rest.nextKind?.isSome ∧ rest.StopsAt level := by
  cases s with
  | done position =>
      rw [outcome_operators_done] at hread
      cases hread
      exact ⟨[], rfl, by simpa using hls.loosen htight hle, rfl, stopsAt_done position level⟩
  | broken error =>
      rw [TokenStream.operators] at hread
      cases hread
  | next op others =>
      rw [outcome_operators_next] at hread
      by_cases hends : op.kind.precedence = 0 ∨ op.kind.precedence < level
      · rw [if_pos hends] at hread
        cases hread
        exact ⟨[], rfl, by simpa using hls.loosen htight hle, rfl, (stopsAt_next hlevel).mpr hends⟩
      · rw [if_neg hends] at hread
        obtain ⟨_, hdepth, hrest⟩ := bind_eq_ok.mp hread
        obtain ⟨⟨rhs, r⟩, hrhs, hloop⟩ := bind_eq_ok.mp hrest
        have hbelow := (stopsAt_next (by omega)).mp hstop
        have hprimary := precedence_lt_primaryLevel op.kind
        have hop : op.kind ∈ operatorsAt op.kind.precedence :=
          mem_operatorsAt.mpr ⟨by omega, rfl⟩
        have hr := length_lt_of_outcome hrhs
        obtain ⟨rs, rfl, hrs, -, hrstop⟩ := (ih others (Nat.lt_succ_self _)).expression
          (by omega) (by omega) hrhs
        -- The operator takes all that has been read, so that is a sentence of its level.
        have hls' : ReadAt start op.kind.precedence ls lhs := hls.loosen htight (by omega)
        have hfold := ReadAt.fold hls' hop (Nat.lt_succ_of_le hstart)
          (checkDepth_eq_ok.mp hdepth) hrs
        obtain ⟨ts, rfl, hts, hends⟩ := (ih r (by rw [TokenStream.length]; omega)).operators
          (hstart.trans (Nat.le_succ _)) hlevel (by omega) hprimary.le hfold hrstop hloop
        exact ⟨op :: (rs ++ ts), by simp, by simpa using hts, hends⟩

theorem readsSentences_expression {depth level : Nat} {e : Expr} {rest : TokenStream}
    (hlevel : 1 ≤ level) (hle : level ≤ primaryLevel)
    (hread : outcome (s.expression depth level) = .ok (e, rest)) :
    ∃ ts, s = rest.prepend ts ∧ ReadAt depth level ts e ∧
      rest.nextKind?.isSome ∧ rest.StopsAt level := by
  rw [outcome_expression] at hread
  obtain ⟨⟨first, r⟩, hfirst, hloop⟩ := bind_eq_ok.mp hread
  have hr := length_lt_of_outcome hfirst
  obtain ⟨ls, rfl, hls⟩ := readsSentences_primary ih hfirst
  obtain ⟨ts, rfl, hts, hends⟩ := (ih r hr).operators (Nat.le_refl _) hlevel hle
    (Nat.le_refl _) hls (r.stopsAt_of_primaryLevel_lt (Nat.le_succ _)) hloop
  exact ⟨ls ++ ts, by simp, hts, hends⟩

theorem readsSentences_projection {depth : Nat} {e : Expr} {rest : TokenStream}
    (hread : outcome (s.projection depth) = .ok (e, rest)) :
    ∃ ts, s = rest.prepend ts ∧ ReadAt depth 0 ts e := by
  by_cases hstar : s.nextKind? = some .star
  · cases s with
    | done position => cases hstar
    | broken error => cases hstar
    | next t others =>
        have hkind : t.kind = .star := Option.some.inj hstar
        rw [outcome_projection_star _ hkind] at hread
        cases hread
        exact ⟨[t], rfl, .star hkind⟩
  · rw [outcome_projection_expression _ hstar] at hread
    obtain ⟨ts, hts, hderives, -⟩ :=
      readsSentences_expression ih (Nat.le_refl 1) (by decide) hread
    exact ⟨ts, hts, .tighter (by decide) hderives⟩

theorem readsSentences_projections {depth : Nat} {es : List Expr} {rest : TokenStream}
    (hread : outcome (s.projections depth) = .ok (es, rest)) :
    ∃ (items : List (List Token × Expr)) (ts : List Token), es = items.map Prod.snd ∧
      Separated (items.map Prod.fst) ts ∧ s = rest.prepend ts ∧
      ∀ item ∈ items, ReadAt depth 0 item.1 item.2 := by
  rw [outcome_projections] at hread
  obtain ⟨⟨first, r⟩, hfirst, hrest⟩ := bind_eq_ok.mp hread
  obtain ⟨⟨more, r'⟩, hmore, hend⟩ := bind_eq_ok.mp hrest
  have hr := length_lt_of_outcome hfirst
  obtain ⟨fs, rfl, hfs⟩ := readsSentences_projection ih hfirst
  cases more with
  | false =>
      cases hend
      obtain ⟨rfl, -⟩ := (accept_false (by decide)).mp hmore
      exact ⟨[(fs, first)], fs, rfl, .last fs, rfl, by simpa using hfs⟩
  | true =>
      obtain ⟨comma, rfl, hcomma⟩ := accept_true.mp hmore
      obtain ⟨⟨others, r₁⟩, hothers, heq⟩ := bind_eq_ok.mp hend
      cases heq
      obtain ⟨items, ts, rfl, hseparated, rfl, hitems⟩ :=
        (ih r' (lt_trans (Nat.lt_succ_self _) hr)).projections hothers
      exact ⟨(fs, first) :: items, fs ++ comma :: ts, rfl, .more fs hcomma hseparated,
        by simp, List.forall_mem_cons.mpr ⟨hfs, hitems⟩⟩

end Sound

theorem readsSentences (s : TokenStream) : s.ReadsSentences := by
  induction s using lengthInduction with
  | shorter s ih =>
      exact {
        primary := readsSentences_primary ih
        expression := readsSentences_expression ih
        operators := readsSentences_operators ih
        projection := readsSentences_projection ih
        projections := readsSentences_projections ih }

end TokenStream

end PocketSql
