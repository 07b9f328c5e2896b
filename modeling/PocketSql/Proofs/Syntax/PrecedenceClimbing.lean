import Mathlib
import PocketSql.Proofs.Syntax.Soundness

/-!
# Precedence climbing

Reading an expression with a least precedence reads exactly the sentences of that
level of the grammar.  What it reads is a sentence.  In the other direction, a sentence
in front of a token that cannot continue it is read to its end, unless it is nested too
deeply or has a numeral that is too large.

A chain of operators is derived from the left and read by a loop, so a derivation does
not tell where the loop ends.  Hence a sentence of a level does not end the reading of
an expression with a looser least precedence.  It brings the reader to the loop behind
its tokens.
-/

namespace PocketSql

open Parse (outcome)

/-! ## Limits -/

/-- The faults of tokens that are read at a depth.  Each level of depth takes a token, so
only as many tokens as the limit can be nested too deeply. -/
inductive ExceedsLimit (depth : Nat) (ts : List Token) : SyntaxError → Prop
  | tooDeep {t : Token} : t ∈ ts → maxDepth < depth + ts.length →
      ExceedsLimit depth ts (.grammatical ⟨t.position, .tooDeep maxDepth⟩)
  | integerOutOfRange {t : Token} : t ∈ ts → t.IsNumeral →
      Integer.read? t.literal.toList = none →
      ExceedsLimit depth ts (.grammatical ⟨t.position, .integerOutOfRange t.literal⟩)

/-- Reading the tokens fails at a limit. -/
def HitsLimit {α : Type} (depth : Nat) (ts : List Token) (result : Except SyntaxError α) : Prop :=
  ∃ err, result = .error err ∧ ExceedsLimit depth ts err

section HitsLimit

variable {α β : Type} {x : Except SyntaxError α} {f : α → Except SyntaxError β}
  {depth depth' : Nat} {ts us : List Token}

theorem HitsLimit.bind (hx : HitsLimit depth ts x) : HitsLimit depth ts (x >>= f) := by
  obtain ⟨err, rfl, herr⟩ := hx
  exact ⟨err, rfl, herr⟩

theorem HitsLimit.bind_of_ok {a : α} (hx : x = .ok a) (hf : HitsLimit depth ts (f a)) :
    HitsLimit depth ts (x >>= f) := by
  subst hx
  exact hf

/-- A part that hits a limit makes the whole hit it. -/
theorem HitsLimit.of_part (hx : HitsLimit depth' us x) (hsubset : us ⊆ ts)
    (hlength : depth' + us.length ≤ depth + ts.length) : HitsLimit depth ts x := by
  obtain ⟨err, rfl, herr⟩ := hx
  refine ⟨err, rfl, ?_⟩
  cases herr with
  | tooDeep ht hdepth => exact .tooDeep (hsubset ht) (by omega)
  | integerOutOfRange ht hnumeral hread => exact .integerOutOfRange (hsubset ht) hnumeral hread

theorem checkDepth_or (depth : Nat) (t : Token) :
    HitsLimit depth [t] (checkDepth depth t.position) ∨ checkDepth depth t.position = .ok () := by
  rw [checkDepth]
  split
  · exact .inr rfl
  · next hdepth =>
    exact .inl ⟨_, rfl, .tooDeep (List.mem_singleton_self t) (by simpa using hdepth)⟩

end HitsLimit

/-! ## Values of literals -/

theorem Token.Denotes.literalOf {t : Token} {value : Literal} (hvalue : t.Denotes value) :
    t.kind ∈ TokenStream.literalKinds ∧ TokenStream.literalOf t = .ok value := by
  rw [TokenStream.literalOf]
  cases hvalue with
  | null hkind | true hkind | false hkind | string hkind =>
      rw [hkind]
      exact ⟨by decide, rfl⟩
  | integer hnumeral hread =>
      rw [hnumeral.1]
      refine ⟨by decide, ?_⟩
      change numberLiteral t = _
      rw [numberLiteral]
      rw [if_pos hnumeral.2, hread]
  | number hkind hdigits hread =>
      rw [hkind]
      refine ⟨by decide, ?_⟩
      change numberLiteral t = _
      rw [numberLiteral]
      rw [if_neg (Bool.eq_false_iff.mp hdigits), hread]

/-- A token stands for one value, the one that is read. -/
theorem Token.Denotes.unique {t : Token} {v w : Literal} (hv : t.Denotes v) (hw : t.Denotes w) :
    v = w :=
  Except.ok.inj (hv.literalOf.2.symm.trans hw.literalOf.2)

theorem Token.IsNumeral.literalOf {t : Token} (ht : t.IsNumeral) (depth : Nat) :
    HitsLimit depth [t] (TokenStream.literalOf t) ∨
      ∃ value, t.Denotes value ∧ TokenStream.literalOf t = .ok value := by
  cases hread : Integer.read? t.literal.toList with
  | none =>
      refine .inl ⟨_, ?_, .integerOutOfRange (List.mem_singleton_self t) ht hread⟩
      simp only [TokenStream.literalOf, ht.1, numberLiteral, if_pos ht.2, hread]
  | some value =>
      have hvalue : t.Denotes (.integer value) := .integer ht hread
      exact .inr ⟨_, hvalue, hvalue.literalOf.2⟩

theorem Token.IsLiteral.literalOf {t : Token} (ht : t.IsLiteral) (depth : Nat) :
    t.kind ∈ TokenStream.literalKinds ∧
      (HitsLimit depth [t] (TokenStream.literalOf t) ∨
        ∃ value, t.Denotes value ∧ TokenStream.literalOf t = .ok value) := by
  rcases ht with hnumeral | ⟨value, hvalue⟩
  · exact ⟨by rw [hnumeral.1]; decide, hnumeral.literalOf depth⟩
  · exact ⟨hvalue.literalOf.1, .inr ⟨value, hvalue, hvalue.literalOf.2⟩⟩

/-! ## How sentences begin -/

section Begins

variable {Value : Token → Literal → Prop}

theorem Derives.begins (hvalue : ∀ t v, Value t v → t.IsLiteral) {level : Nat} {ts : List Token}
    {e : Expr} (hts : Derives Value level ts e) :
    ∃ t others, ts = t :: others ∧ (t.kind ∈ primaryStart ∨ level = 0 ∧ t.kind = .star) := by
  induction hts with
  | literal hv =>
      refine ⟨_, _, rfl, .inl ?_⟩
      have hkind := ((hvalue _ _ hv).literalOf 0).1
      exact List.mem_of_mem_drop (i := 4) hkind
  | name hkind | emptyCall hkind | call hkind | group hkind =>
      exact ⟨_, _, rfl, .inl (by rw [hkind]; decide)⟩
  | sign hkind =>
      refine ⟨_, _, rfl, .inl ?_⟩
      rcases hkind with hkind | hkind <;>
        · rw [hkind]
          decide
  | fold _ hop _ ih =>
      obtain ⟨t, others, rfl, hstart | ⟨rfl, -⟩⟩ := ih
      · exact ⟨t, _, rfl, .inl hstart⟩
      · cases hop
  | tighter _ _ ih =>
      obtain ⟨t, others, hts, hstart | ⟨hlevel, -⟩⟩ := ih
      · exact ⟨t, others, hts, .inl hstart⟩
      · omega
  | star hkind => exact ⟨_, _, rfl, .inr ⟨rfl, hkind⟩⟩

end Begins

/-! ## Sentences are read -/

section Reads

variable (Value : Token → Literal → Prop)

/-- The tree `e` of a sentence of the level.  It is `tree` when the values that a
derivation may use are those of the tokens. -/
structure Rereads (level : Nat) (ts : List Token) (tree e : Expr) : Prop where
  derives : Derives Token.Denotes level ts e
  eq : (∀ t v, Value t v → t.Denotes v) → e = tree

/-- How the readers meet a sentence in front of the rest of a stream. -/
structure Reads (level : Nat) (ts : List Token) (tree : Expr) : Prop where
  primary : level = primaryLevel → ∀ depth (rest : TokenStream), rest.Closes →
    HitsLimit depth ts (outcome ((rest.prepend ts).primary depth)) ∨
      ∃ e, Rereads Value level ts tree e ∧
        outcome ((rest.prepend ts).primary depth) = .ok (e, rest)
  /-- Looser operators may follow, and the loop goes on with them. -/
  expression : ∀ low, 1 ≤ low → low ≤ level → ∀ depth (rest : TokenStream), rest.Closes →
    rest.StopsAt (level + 1) →
    HitsLimit depth ts (outcome ((rest.prepend ts).expression depth low)) ∨
      ∃ depth' e, depth' ≤ depth + ts.length ∧ Rereads Value level ts tree e ∧
        outcome ((rest.prepend ts).expression depth low) =
          outcome (rest.operators depth' low e)
  projection : level = 0 → ∀ depth (rest : TokenStream), rest.Closes → rest.StopsAt 1 →
    HitsLimit depth ts (outcome ((rest.prepend ts).projection depth)) ∨
      ∃ e, Rereads Value level ts tree e ∧
        outcome ((rest.prepend ts).projection depth) = .ok (e, rest)

variable {Value} {level : Nat} {ts : List Token} {tree : Expr}

/-- In front of a looser operator, a sentence is read to its end. -/
theorem Reads.whole (hts : Reads Value level ts tree) (hlevel : 1 ≤ level) (depth : Nat)
    {rest : TokenStream} (hcloses : rest.Closes) (hstop : rest.StopsAt level) :
    HitsLimit depth ts (outcome ((rest.prepend ts).expression depth level)) ∨
      ∃ e, Rereads Value level ts tree e ∧
        outcome ((rest.prepend ts).expression depth level) = .ok (e, rest) := by
  rcases hts.expression level hlevel (Nat.le_refl _) depth rest hcloses
    (hstop.tighten (Nat.le_succ _)) with hlimit | ⟨depth', e, -, he, hread⟩
  · exact .inl hlimit
  · exact .inr ⟨e, he, hread.trans
      (TokenStream.outcome_operators_of_stopsAt hlevel hcloses hstop e)⟩

/-- A primary is the first operand of an expression. -/
theorem Reads.of_primary
    (hprimary : ∀ depth (rest : TokenStream), rest.Closes →
      HitsLimit depth ts (outcome ((rest.prepend ts).primary depth)) ∨
        ∃ e, Rereads Value primaryLevel ts tree e ∧
          outcome ((rest.prepend ts).primary depth) = .ok (e, rest)) :
    Reads Value primaryLevel ts tree where
  primary _ := hprimary
  expression low _ _ depth rest hcloses _ := by
    rw [TokenStream.outcome_expression]
    rcases hprimary depth rest hcloses with hlimit | ⟨e, he, hread⟩
    · exact .inl hlimit.bind
    · refine .inr ⟨depth, e, Nat.le_add_right _ _, he, ?_⟩
      rw [hread]
      rfl
  projection hzero := nomatch hzero

/-! ### Primaries -/

theorem reads_literal (hvalue : ∀ t v, Value t v → t.IsLiteral) {t : Token} {value : Literal}
    (hv : Value t value) : Reads Value primaryLevel [t] (.literal t.position value) := by
  apply Reads.of_primary
  intro depth rest _
  obtain ⟨hkind, hread⟩ := (hvalue t value hv).literalOf depth
  rw [TokenStream.prepend_cons, TokenStream.prepend_nil,
    TokenStream.outcome_primary_literal _ _ hkind]
  rcases hread with hlimit | ⟨value', hvalue', hread⟩
  · exact .inl hlimit.bind
  · refine .inr ⟨.literal t.position value', ⟨.literal hvalue', fun hdenotes => ?_⟩,
      bind_eq_ok.mpr ⟨value', hread, rfl⟩⟩
    rw [hvalue'.unique (hdenotes t value hv)]

theorem reads_name {t : Token} (hkind : t.kind = .identifier) :
    Reads Value primaryLevel [t] (.ident ⟨t.position, t.literal⟩) := by
  apply Reads.of_primary
  intro depth rest hcloses
  exact .inr ⟨_, ⟨.name hkind, fun _ => rfl⟩,
    TokenStream.outcome_primary_name_alone depth hkind hcloses⟩

theorem reads_group {opening closing : Token} (hopen : opening.kind = .leftParen)
    (hts : Reads Value 1 ts tree) (hclose : closing.kind = .rightParen) :
    Reads Value primaryLevel (opening :: (ts ++ [closing])) tree := by
  apply Reads.of_primary
  intro depth rest _
  rw [TokenStream.prepend_cons, TokenStream.prepend_append,
    TokenStream.outcome_primary_group _ _ hopen]
  rcases checkDepth_or depth opening with hlimit | hdepth
  · exact .inl (hlimit.of_part (by simp) (by simp)).bind
  have hcloses : (TokenStream.next closing rest).Closes :=
    TokenStream.closes_next (by rw [hclose]; decide) rest
  have hstop : (TokenStream.next closing rest).StopsAt 1 :=
    (TokenStream.stopsAt_next (Nat.le_refl 1)).mpr (.inl (by rw [hclose]; rfl))
  rcases hts.whole (Nat.le_refl 1) (depth + 1) hcloses hstop with hlimit | ⟨e, he, hread⟩
  · exact .inl (.bind_of_ok hdepth (hlimit.of_part (by simp) (by simp; omega)).bind)
  · exact .inr ⟨e, ⟨.group hopen he.derives hclose, he.eq⟩,
      bind_eq_ok.mpr ⟨_, hdepth, bind_eq_ok.mpr ⟨_, hread,
        bind_eq_ok.mpr ⟨_, TokenStream.expect_eq_ok.mpr ⟨rfl, hclose⟩, rfl⟩⟩⟩⟩

theorem reads_sign {t : Token} (hkind : t.kind = .plus ∨ t.kind = .minus)
    (hts : Reads Value primaryLevel ts tree) :
    Reads Value primaryLevel (t :: ts) (.unary t.position t.kind tree) := by
  apply Reads.of_primary
  intro depth rest hcloses
  rw [TokenStream.prepend_cons, TokenStream.outcome_primary_sign _ _ hkind]
  rcases checkDepth_or depth t with hlimit | hdepth
  · exact .inl (hlimit.of_part (by simp) (by simp)).bind
  rcases hts.primary rfl (depth + 1) rest hcloses with hlimit | ⟨e, he, hread⟩
  · exact .inl (.bind_of_ok hdepth (hlimit.of_part (by simp) (by simp; omega)).bind)
  · exact .inr ⟨.unary t.position t.kind e,
      ⟨.sign hkind he.derives, fun hdenotes => by rw [he.eq hdenotes]⟩,
      bind_eq_ok.mpr ⟨_, hdepth, bind_eq_ok.mpr ⟨_, hread, rfl⟩⟩⟩

theorem reads_emptyCall {t opening closing : Token} (hkind : t.kind = .identifier)
    (hopen : opening.kind = .leftParen) (hclose : closing.kind = .rightParen) :
    Reads Value primaryLevel [t, opening, closing] (.call ⟨t.position, t.literal⟩ []) := by
  apply Reads.of_primary
  intro depth rest _
  refine .inr ⟨_, ⟨.emptyCall hkind hopen hclose, fun _ => rfl⟩, ?_⟩
  have hprepend : rest.prepend [t, opening, closing] =
      .next t (.next opening (.next closing rest)) := rfl
  rw [hprepend, TokenStream.outcome_primary_name _ _ hkind]
  exact bind_eq_ok.mpr ⟨_, TokenStream.accept_next hopen _,
    bind_eq_ok.mpr ⟨_, TokenStream.accept_next hclose rest, rfl⟩⟩

/-! ### Operators -/

/-- The loop has the left operand and takes the operator with its right operand. -/
theorem reads_fold {ls rs : List Token} {op : Token} {l r : Expr}
    (hls : Reads Value level ls l) (hop : op.kind ∈ operatorsAt level)
    (hrs : Reads Value (level + 1) rs r) :
    Reads Value level (ls ++ op :: rs) (.binary op.kind l r) where
  primary hprimary := by
    subst hprimary
    cases hop
  projection hzero := by
    subst hzero
    cases hop
  expression low hlow hle depth rest hcloses hstop := by
    obtain ⟨hlevel, hprecedence⟩ := mem_operatorsAt.mp hop
    rw [TokenStream.prepend_append, TokenStream.prepend_cons]
    have hopcloses : (TokenStream.next op (rest.prepend rs)).Closes := by
      apply TokenStream.closes_next
      intro hparen
      rw [hparen] at hprecedence
      simp only [Kind.precedence] at hprecedence
      omega
    have hopstop : (TokenStream.next op (rest.prepend rs)).StopsAt (level + 1) :=
      (TokenStream.stopsAt_next (by omega)).mpr (.inr (by omega))
    rcases hls.expression low hlow hle depth _ hopcloses hopstop with
      hlimit | ⟨depth', e, hle', he, hread⟩
    · exact .inl (hlimit.of_part (by simp) (by simp))
    rw [hread, TokenStream.outcome_operators_next, if_neg (by omega), hprecedence]
    rcases checkDepth_or depth' op with hlimit | hdepth
    · exact .inl (hlimit.of_part (by simp) (by simp; omega)).bind
    rcases hrs.whole (by omega) (depth' + 1) hcloses hstop with hlimit | ⟨e', he', hread'⟩
    · exact .inl (.bind_of_ok hdepth (hlimit.of_part (by simp) (by simp; omega)).bind)
    have htree : Rereads Value level (ls ++ op :: rs) (.binary op.kind l r)
        (.binary op.kind e e') :=
      ⟨.fold he.derives hop he'.derives,
        fun hdenotes => by rw [he.eq hdenotes, he'.eq hdenotes]⟩
    refine .inr ⟨depth' + 1, _, by simp; omega, htree, ?_⟩
    rw [hdepth, hread']
    rfl

theorem reads_tighter (hvalue : ∀ t v, Value t v → t.IsLiteral) (hlevel : level < primaryLevel)
    (hderives : Derives Value (level + 1) ts tree) (hts : Reads Value (level + 1) ts tree) :
    Reads Value level ts tree where
  primary hprimary := absurd hprimary hlevel.ne
  expression low hlow hle depth rest hcloses hstop := by
    rcases hts.expression low hlow (by omega) depth rest hcloses (hstop.tighten (by omega)) with
      hlimit | ⟨depth', e, hle', he, hread⟩
    · exact .inl hlimit
    · exact .inr ⟨depth', e, hle', ⟨.tighter hlevel he.derives, he.eq⟩, hread⟩
  projection hzero depth rest hcloses hstop := by
    subst hzero
    obtain ⟨t, others, rfl, hstart | ⟨hzero, -⟩⟩ := hderives.begins hvalue
    · have hstar : ((rest.prepend (t :: others)).nextKind?) ≠ some .star := by
        intro hstar
        rw [Option.some.inj hstar] at hstart
        exact absurd hstart (by decide)
      rw [TokenStream.outcome_projection_expression _ hstar]
      rcases hts.whole (Nat.le_refl 1) depth hcloses hstop with hlimit | ⟨e, he, hread⟩
      · exact .inl hlimit
      · exact .inr ⟨e, ⟨.tighter hlevel he.derives, he.eq⟩, hread⟩
    · cases hzero

theorem reads_star {t : Token} (hkind : t.kind = .star) : Reads Value 0 [t] (.star t.position) where
  primary hprimary := nomatch hprimary
  expression low hlow hle := absurd (hlow.trans hle) (by decide)
  projection _ depth rest _ _ :=
    .inr ⟨_, ⟨.star hkind, fun _ => rfl⟩, TokenStream.outcome_projection_star _ hkind rest⟩

/-! ### Calls -/

section Calls

theorem separated_cons {part : List Token} {parts : List (List Token)} {ts : List Token} :
    Separated (part :: parts) ts ↔
      parts = [] ∧ ts = part ∨
        ∃ comma others, comma.kind = .comma ∧ Separated parts others ∧
          ts = part ++ comma :: others := by
  constructor
  · rintro (_ | ⟨_, hcomma, hothers⟩)
    · exact .inl ⟨rfl, rfl⟩
    · exact .inr ⟨_, _, hcomma, hothers, rfl⟩
  · rintro (⟨rfl, rfl⟩ | ⟨comma, others, hcomma, hothers, rfl⟩)
    · exact .last _
    · exact .more _ hcomma hothers

theorem begins_of_separated (hvalue : ∀ t v, Value t v → t.IsLiteral)
    {items : List (List Token × Expr)} (hitems : ∀ item ∈ items, Derives Value 0 item.1 item.2)
    {ts : List Token} (hseparated : Separated (items.map Prod.fst) ts) :
    ∃ t others, ts = t :: others ∧ t.kind ≠ .rightParen := by
  cases items with
  | nil => cases hseparated
  | cons item items =>
      obtain ⟨t, rest, hitem, hstart⟩ := (List.forall_mem_cons.mp hitems).1.begins hvalue
      have hkind : t.kind ≠ .rightParen := by
        intro hparen
        rw [hparen] at hstart
        revert hstart
        decide
      rcases separated_cons.mp hseparated with ⟨-, rfl⟩ | ⟨comma, others, -, -, rfl⟩
      · exact ⟨t, rest, hitem, hkind⟩
      · exact ⟨t, rest ++ comma :: others, by rw [hitem, List.cons_append], hkind⟩

/-- What the items of an argument list are read as. -/
structure RereadsItems (Value : Token → Literal → Prop)
    (items items' : List (List Token × Expr)) : Prop where
  tokens : items'.map Prod.fst = items.map Prod.fst
  derives : ∀ item ∈ items', Derives Token.Denotes 0 item.1 item.2
  trees : (∀ t v, Value t v → t.Denotes v) → items'.map Prod.snd = items.map Prod.snd

theorem RereadsItems.cons {item : List Token × Expr} {items items' : List (List Token × Expr)}
    {e : Expr} (hitem : Rereads Value 0 item.1 item.2 e)
    (hitems : RereadsItems Value items items') :
    RereadsItems Value (item :: items) ((item.1, e) :: items') where
  tokens := congrArg (item.1 :: ·) hitems.tokens
  derives := List.forall_mem_cons.mpr ⟨hitem.derives, hitems.derives⟩
  trees hdenotes := congrArg₂ List.cons (hitem.eq hdenotes) (hitems.trees hdenotes)

variable {closing : Token} (hclose : closing.kind = .rightParen)

include hclose

theorem reads_projections {items : List (List Token × Expr)}
    (hitems : ∀ item ∈ items, Reads Value 0 item.1 item.2) {ts : List Token}
    (hseparated : Separated (items.map Prod.fst) ts) (depth : Nat) (rest : TokenStream) :
    HitsLimit depth ts
        (outcome (((TokenStream.next closing rest).prepend ts).projections depth)) ∨
      ∃ items', RereadsItems Value items items' ∧
        outcome (((TokenStream.next closing rest).prepend ts).projections depth) =
          .ok (items'.map Prod.snd, .next closing rest) := by
  induction items generalizing ts with
  | nil => cases hseparated
  | cons item items ih =>
      obtain ⟨hitem, hothers⟩ := List.forall_mem_cons.mp hitems
      rw [TokenStream.outcome_projections]
      rcases separated_cons.mp hseparated with
        ⟨hlast, rfl⟩ | ⟨comma, others, hcomma, hseparated', rfl⟩
      · obtain rfl := List.map_eq_nil_iff.mp hlast
        have hcloses : (TokenStream.next closing rest).Closes :=
          TokenStream.closes_next (by rw [hclose]; decide) rest
        have hstop : (TokenStream.next closing rest).StopsAt 1 :=
          (TokenStream.stopsAt_next (Nat.le_refl 1)).mpr (.inl (by rw [hclose]; rfl))
        have hmore : outcome ((TokenStream.next closing rest).accept .comma) =
            .ok (false, .next closing rest) :=
          (TokenStream.accept_false (by decide)).mpr ⟨rfl, _, rfl, by rw [hclose]; decide⟩
        rcases hitem.projection rfl depth _ hcloses hstop with hlimit | ⟨e, he, hread⟩
        · exact .inl hlimit.bind
        · exact .inr ⟨[(item.1, e)], .cons he ⟨rfl, by simp, fun _ => rfl⟩,
            bind_eq_ok.mpr ⟨_, hread, bind_eq_ok.mpr ⟨_, hmore, rfl⟩⟩⟩
      · rw [TokenStream.prepend_append, TokenStream.prepend_cons]
        have hcloses : (TokenStream.next comma
            ((TokenStream.next closing rest).prepend others)).Closes :=
          TokenStream.closes_next (by rw [hcomma]; decide) _
        have hstop : (TokenStream.next comma
            ((TokenStream.next closing rest).prepend others)).StopsAt 1 :=
          (TokenStream.stopsAt_next (Nat.le_refl 1)).mpr (.inl (by rw [hcomma]; rfl))
        rcases hitem.projection rfl depth _ hcloses hstop with hlimit | ⟨e, he, hread⟩
        · exact .inl (hlimit.of_part (by simp) (by simp)).bind
        have hmore := TokenStream.accept_next hcomma
          ((TokenStream.next closing rest).prepend others)
        rcases ih hothers hseparated' with hlimit | ⟨items', hitems', hread'⟩
        · have hlimit' : HitsLimit depth (item.1 ++ comma :: others) _ :=
            hlimit.of_part (by simp) (by simp; omega)
          exact .inl (.bind_of_ok hread (.bind_of_ok hmore hlimit'.bind))
        · exact .inr ⟨_, .cons he hitems',
            bind_eq_ok.mpr ⟨_, hread, bind_eq_ok.mpr ⟨_, hmore,
              bind_eq_ok.mpr ⟨_, hread', rfl⟩⟩⟩⟩

theorem reads_call (hvalue : ∀ t v, Value t v → t.IsLiteral) {t opening : Token}
    {items : List (List Token × Expr)} (hkind : t.kind = .identifier)
    (hopen : opening.kind = .leftParen) (hseparated : Separated (items.map Prod.fst) ts)
    (hderives : ∀ item ∈ items, Derives Value 0 item.1 item.2)
    (hitems : ∀ item ∈ items, Reads Value 0 item.1 item.2) :
    Reads Value primaryLevel (t :: opening :: (ts ++ [closing]))
      (.call ⟨t.position, t.literal⟩ (items.map Prod.snd)) := by
  apply Reads.of_primary
  intro depth rest _
  rw [TokenStream.prepend_cons, TokenStream.prepend_cons, TokenStream.prepend_append,
    TokenStream.prepend_cons, TokenStream.prepend_nil, TokenStream.outcome_primary_name _ _ hkind]
  have hcall := TokenStream.accept_next hopen ((TokenStream.next closing rest).prepend ts)
  have hempty : outcome (((TokenStream.next closing rest).prepend ts).accept .rightParen) =
      .ok (false, (TokenStream.next closing rest).prepend ts) := by
    obtain ⟨first, others, rfl, hfirst⟩ := begins_of_separated hvalue hderives hseparated
    exact (TokenStream.accept_false (by decide)).mpr ⟨rfl, first.kind, rfl, hfirst⟩
  rcases reads_projections hclose hitems hseparated depth rest with
    hlimit | ⟨items', hitems', hread⟩
  · have hlimit' : HitsLimit depth (t :: opening :: (ts ++ [closing])) _ :=
      hlimit.of_part (fun u hu => by simp [hu]) (by simp; omega)
    exact .inl (.bind_of_ok hcall (.bind_of_ok hempty hlimit'.bind))
  · refine .inr ⟨.call ⟨t.position, t.literal⟩ (items'.map Prod.snd), ⟨?_, fun hdenotes => ?_⟩,
      bind_eq_ok.mpr ⟨_, hcall, bind_eq_ok.mpr ⟨_, hempty, bind_eq_ok.mpr ⟨_, hread,
        bind_eq_ok.mpr ⟨_, TokenStream.expect_eq_ok.mpr ⟨rfl, hclose⟩, rfl⟩⟩⟩⟩⟩
    · exact .call hkind hopen (hitems'.tokens ▸ hseparated) hitems'.derives hclose
    · rw [hitems'.trees hdenotes]

end Calls

/-- By induction on the derivation. -/
theorem Derives.reads (hvalue : ∀ t v, Value t v → t.IsLiteral)
    (hts : Derives Value level ts tree) : Reads Value level ts tree := by
  induction hts with
  | literal hv => exact reads_literal hvalue hv
  | name hkind => exact reads_name hkind
  | group hopen _ hclose ih => exact reads_group hopen ih hclose
  | sign hkind _ ih => exact reads_sign hkind ih
  | emptyCall hkind hopen hclose => exact reads_emptyCall hkind hopen hclose
  | call hkind hopen hseparated hitems hclose ih =>
      exact reads_call hclose hvalue hkind hopen hseparated hitems ih
  | fold _ hop _ ihl ihr => exact reads_fold ihl hop ihr
  | tighter hlevel hts ih => exact reads_tighter hvalue hlevel hts ih
  | star hkind => exact reads_star hkind

end Reads

/-! ## The readers and the grammar -/

/-- A sentence has one tree, as far as it is read. -/
theorem Derives.eq_of_read {level depth : Nat} {ts : List Token} {e e' : Expr} {rest : TokenStream}
    (hlevel : 1 ≤ level) (hcloses : rest.Closes) (hstop : rest.StopsAt level)
    (hread : outcome ((rest.prepend ts).expression depth level) = .ok (e, rest))
    (hts : Derives Token.Denotes level ts e') : e' = e := by
  have hreads := hts.reads fun _ v hv => .inr ⟨v, hv⟩
  rcases hreads.whole hlevel depth hcloses hstop with ⟨err, herror, -⟩ | ⟨tree, htree, hread'⟩
  · rw [hread] at herror
    cases herror
  · rw [hread] at hread'
    cases hread'
    exact (htree.eq fun _ _ hv => hv).symm

/-- Reading with a least precedence and the level of the grammar.  What is read is the
one tree of the tokens in front of the rest, and a sentence that ends where no operator
of the level can go on is read, up to the limits. -/
theorem expression_reads_level (s : TokenStream) (depth : Nat) {level : Nat} (hlevel : 1 ≤ level)
    (hprimary : level ≤ primaryLevel) :
    (∀ e rest, outcome (s.expression depth level) = .ok (e, rest) →
      ∃ ts, s = rest.prepend ts ∧ Derives Token.Denotes level ts e ∧
        rest.nextKind?.isSome ∧ rest.StopsAt level) ∧
    ∀ ts rest, s = rest.prepend ts → Sentence level ts → rest.Closes → rest.StopsAt level →
      HitsLimit depth ts (outcome (s.expression depth level)) ∨
        ∃ e, Derives Token.Denotes level ts e ∧
          (∀ e', Derives Token.Denotes level ts e' → e' = e) ∧
          outcome (s.expression depth level) = .ok (e, rest) := by
  constructor
  · intro e rest hread
    obtain ⟨ts, hs, hts, hnext, hstop⟩ := s.readsSentences.expression hlevel hprimary hread
    exact ⟨ts, hs, hts.derives, hnext, hstop⟩
  · rintro ts rest rfl ⟨tree, hts⟩ hcloses hstop
    have hreads := hts.reads fun _ _ hv => hv
    rcases hreads.whole hlevel depth hcloses hstop with hlimit | ⟨e, he, hread⟩
    · exact .inl hlimit
    · exact .inr ⟨e, he.derives, fun e' he' => he'.eq_of_read hlevel hcloses hstop hread, hread⟩

section Example

def nameAt (column : Nat) (name : String) : Token :=
  ⟨.identifier, ⟨1, column⟩, name⟩

def operatorAt (column : Nat) (kind : Kind) : Token :=
  ⟨kind, ⟨1, column⟩, ""⟩

/-- A product is taken from a name, and a name from the difference. -/
def differences : List Token :=
  [nameAt 0 "a", operatorAt 2 .minus, nameAt 4 "b", operatorAt 6 .star, nameAt 8 "c",
    operatorAt 10 .minus, nameAt 12 "d"]

def differencesTree : Expr :=
  .binary .minus
    (.binary .minus (.ident ⟨⟨1, 0⟩, "a"⟩)
      (.binary .star (.ident ⟨⟨1, 4⟩, "b"⟩) (.ident ⟨⟨1, 8⟩, "c"⟩)))
    (.ident ⟨⟨1, 12⟩, "d"⟩)

theorem derives_differences : Derives Token.Denotes 1 differences differencesTree := by
  have hname : ∀ column name, Derives Token.Denotes primaryLevel [nameAt column name]
      (.ident ⟨⟨1, column⟩, name⟩) := fun _ _ => .name rfl
  have hproduct : Derives Token.Denotes 5 [nameAt 4 "b", operatorAt 6 .star, nameAt 8 "c"]
      (.binary .star (.ident ⟨⟨1, 4⟩, "b"⟩) (.ident ⟨⟨1, 8⟩, "c"⟩)) :=
    .fold (.tighter (by decide) (hname 4 "b")) (by decide) (hname 8 "c")
  have hfirst : Derives Token.Denotes 4 ([nameAt 0 "a"] ++ operatorAt 2 .minus ::
      [nameAt 4 "b", operatorAt 6 .star, nameAt 8 "c"]) _ :=
    .fold ((hname 0 "a").loosen (by decide) (by decide)) (by decide) hproduct
  have hsecond : Derives Token.Denotes 4 differences differencesTree :=
    .fold hfirst (by decide) ((hname 12 "d").loosen (by decide) (by decide))
  exact hsecond.loosen (by decide) (by decide)

theorem differences_read_from_left : 1 ≤ 1 ∧ 1 ≤ primaryLevel ∧
    outcome (((TokenStream.done ⟨1, 13⟩).prepend differences).expression 0 1) =
      .ok (differencesTree, .done ⟨1, 13⟩) := by
  refine ⟨by decide, by decide, ?_⟩
  have hcloses : (TokenStream.done ⟨1, 13⟩).Closes := ⟨.eof, rfl, by decide⟩
  have hstop := TokenStream.stopsAt_done ⟨1, 13⟩ 1
  have hnumerals : ∀ t ∈ differences, t.kind ≠ .numberLiteral := by decide
  rcases (expression_reads_level ((TokenStream.done ⟨1, 13⟩).prepend differences) 0
    (Nat.le_refl 1) (by decide)).2 differences _ rfl derives_differences.sentence hcloses hstop with
    ⟨err, -, hexceeds⟩ | ⟨e, -, hunique, hread⟩
  · cases hexceeds with
    | tooDeep _ hdepth => exact absurd hdepth (by decide)
    | integerOutOfRange ht hnumeral => exact absurd hnumeral.1 (hnumerals _ ht)
  · rw [hread, hunique _ derives_differences]

end Example

end PocketSql
