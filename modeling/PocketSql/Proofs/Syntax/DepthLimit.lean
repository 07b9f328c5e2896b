import Mathlib
import PocketSql.Proofs.Syntax.Nesting
import PocketSql.Proofs.Token.Boundary

/-!
# The limit of the depth

An operator behind a leaf raises the depth only while the rest of its chain is read.
With the chain the depth is released, and the tree goes on to grow.  So the limit bounds
the operators in front of a leaf, but not those on a path: there are texts with a path
of any length.  A path keeps to the limit where the operators in front of its leaf leave
enough of it to those behind.
-/

namespace PocketSql

open Parse (outcome)

/-! ## Texts by their tokens -/

namespace TokenStream

/-- The text begins with tokens of the kinds, and goes on with `rest`. -/
def BeginsWith (text : List Char) (kinds : List Kind) (rest : List Char) : Prop :=
  ∀ position, ∃ ts position', ts.map Token.kind = kinds ∧
    ofChars position text = (ofChars position' rest).prepend ts

theorem BeginsWith.of_read {text rest : List Char} (c : Char) (lexeme : Lexeme)
    (hskip : Text.skipBlanks text = c :: rest) (hread : Lexeme.read c rest = .ok lexeme) :
    BeginsWith text [lexeme.kind] lexeme.rest := by
  intro position
  refine ⟨[lexeme.token (position.afterBlanks text)],
    (position.afterBlanks text).after lexeme.raw, rfl, ?_⟩
  rw [ofChars_eq]
  simp only [hskip, hread]
  rfl

theorem BeginsWith.blank {text rest : List Char} {kinds : List Kind}
    (htext : BeginsWith text kinds rest) : BeginsWith (' ' :: text) kinds rest := by
  intro position
  rw [ofChars_blank]
  exact htext _

theorem BeginsWith.trans {text middle rest : List Char} {kinds kinds' : List Kind}
    (hfirst : BeginsWith text kinds middle) (hsecond : BeginsWith middle kinds' rest) :
    BeginsWith text (kinds ++ kinds') rest := by
  intro position
  obtain ⟨ts, position', hts, heq⟩ := hfirst position
  obtain ⟨us, position'', hus, heq'⟩ := hsecond position'
  exact ⟨ts ++ us, position'', by rw [List.map_append, hts, hus],
    by rw [heq, heq', prepend_append]⟩

end TokenStream

/-! ### Deletions with a condition -/

/-- A deletion of the rows that meet a condition. -/
def deletion (condition : List Char) : String :=
  String.ofList ("DELETE FROM t WHERE ".toList ++ condition)

namespace TokenStream

theorem beginsWith_deletion {condition : List Char} {kinds : List Kind}
    (hcondition : BeginsWith condition kinds []) :
    BeginsWith (deletion condition).toList
      ([.kwDelete, .kwFrom, .identifier, .kwWhere] ++ kinds) [] := by
  have hdelete : BeginsWith ("DELETE FROM t WHERE ".toList ++ condition) [.kwDelete]
      (" FROM t WHERE ".toList ++ condition) :=
    .of_read 'D' ⟨.kwDelete, "", "DELETE".toList, _⟩ rfl rfl
  have hfrom : BeginsWith (" FROM t WHERE ".toList ++ condition) [.kwFrom]
      (" t WHERE ".toList ++ condition) :=
    .of_read 'F' ⟨.kwFrom, "", "FROM".toList, _⟩ rfl rfl
  have hname : BeginsWith (" t WHERE ".toList ++ condition) [.identifier]
      (" WHERE ".toList ++ condition) :=
    .of_read 't' ⟨.identifier, "t", ['t'], _⟩ rfl rfl
  have hwhere : BeginsWith (" WHERE ".toList ++ condition) [.kwWhere] (' ' :: condition) :=
    .of_read 'W' ⟨.kwWhere, "", "WHERE".toList, _⟩ rfl rfl
  have htext : (deletion condition).toList = "DELETE FROM t WHERE ".toList ++ condition :=
    String.toList_ofList
  rw [htext]
  exact (hdelete.trans (hfrom.trans (hname.trans hwhere))).trans hcondition.blank

theorem outcome_statement_deletion {keyword preposition table clause : Token}
    (hkeyword : keyword.kind = .kwDelete) (hpreposition : preposition.kind = .kwFrom)
    (htable : table.kind = .identifier) (hclause : clause.kind = .kwWhere)
    {condition rest : TokenStream} {e : Expr}
    (hcondition : outcome (condition.expression 0 lowestPrecedence) = .ok (e, rest)) :
    outcome ((next keyword (next preposition (next table (next clause condition)))).statement) =
      .ok (.delete ⟨keyword.position, ⟨table.position, table.literal⟩, some e⟩, rest) := by
  have hwhere : outcome ((next clause condition).clause .kwWhere) = .ok (some e, rest) := by
    rw [outcome_clause]
    exact bind_eq_ok.mpr ⟨_, accept_next hclause condition, bind_eq_ok.mpr ⟨_, hcondition, rfl⟩⟩
  have hname : outcome ((next table (next clause condition)).expectIdent) =
      .ok (⟨table.position, table.literal⟩, next clause condition) := by
    rw [outcome_expectIdent]
    exact bind_eq_ok.mpr ⟨_, expect_eq_ok.mpr ⟨rfl, htable⟩, rfl⟩
  have hdelete :
      outcome ((next keyword (next preposition (next table (next clause condition)))).delete) =
        .ok (⟨keyword.position, ⟨table.position, table.literal⟩, some e⟩, rest) := by
    rw [outcome_delete]
    exact bind_eq_ok.mpr ⟨_, expect_eq_ok.mpr ⟨rfl, hkeyword⟩,
      bind_eq_ok.mpr ⟨_, expect_eq_ok.mpr ⟨rfl, hpreposition⟩,
        bind_eq_ok.mpr ⟨_, hname, bind_eq_ok.mpr ⟨_, hwhere, rfl⟩⟩⟩⟩
  rw [outcome_statement_delete _ _ hkeyword, outcome_mapParsed]
  exact bind_eq_ok.mpr ⟨_, hdelete, rfl⟩

end TokenStream

/-- A deletion is read when its condition is. -/
theorem parse_deletion {condition : List Char} {kinds : List Kind}
    (hkinds : TokenStream.BeginsWith condition kinds []) {P : Expr → Prop}
    (hcondition : ∀ ts finish, ts.map Token.kind = kinds →
      ∃ e, outcome (((TokenStream.done finish).prepend ts).expression 0 lowestPrecedence) =
        .ok (e, .done finish) ∧ P e) :
    ∃ statements e, parse (deletion condition) = .ok statements ∧ P e ∧
      ∃ s ∈ statements, e ∈ s.expressions := by
  obtain ⟨all, position, hall, hread⟩ := TokenStream.beginsWith_deletion hkinds .start
  obtain ⟨head, ts, rfl, hhead, hts⟩ := List.map_eq_append_iff.mp hall
  simp only [List.map_eq_cons_iff, List.map_eq_nil_iff] at hhead
  obtain ⟨keyword, _, rfl, hkeyword, preposition, _, rfl, hpreposition, table, _, rfl, htable,
    clause, _, rfl, hclause, rfl⟩ := hhead
  have hstream : TokenStream.ofString (deletion condition) =
      .next keyword (.next preposition (.next table (.next clause
        ((TokenStream.done position).prepend ts)))) := by
    rw [TokenStream.ofString, hread, TokenStream.ofChars_nil]
    rfl
  obtain ⟨e, he, hP⟩ := hcondition ts position hts
  have hparse := TokenStream.statements_of_statement
    (TokenStream.outcome_statement_deletion hkeyword hpreposition htable hclause he)
  rw [← hstream] at hparse
  exact ⟨_, e, hparse, hP, _, List.mem_singleton_self _, Option.mem_toList.mpr rfl⟩

/-! ### Signs in front of a sum -/

/-- The sum of a name behind signs and another name. -/
def signedSum (signs : Nat) : List Char :=
  List.replicate signs '-' ++ "a+a".toList

namespace TokenStream

theorem beginsWith_signedSum (signs : Nat) :
    BeginsWith (signedSum signs)
      (List.replicate signs .minus ++ [.identifier, .plus, .identifier]) [] := by
  induction signs with
  | zero =>
      have hfirst : BeginsWith "a+a".toList [.identifier] "+a".toList :=
        .of_read 'a' ⟨.identifier, "a", ['a'], _⟩ rfl rfl
      have hplus : BeginsWith "+a".toList [.plus] "a".toList :=
        .of_read '+' ⟨.plus, "", ['+'], _⟩ rfl rfl
      have hsecond : BeginsWith "a".toList [.identifier] [] :=
        .of_read 'a' ⟨.identifier, "a", ['a'], _⟩ rfl rfl
      exact hfirst.trans (hplus.trans hsecond)
  | succ signs ih =>
      have hsign : BeginsWith (signedSum (signs + 1)) [.minus] (signedSum signs) :=
        .of_read '-' ⟨.minus, "", ['-'], _⟩ rfl rfl
      exact hsign.trans ih

/-- The tree of an expression behind signs. -/
def signed (ts : List Token) (e : Expr) : Expr :=
  ts.foldr (fun t operand => .unary t.position t.kind operand) e

theorem path_signed {e : Expr} {steps : List Step} (hpath : e.Path steps) (ts : List Token) :
    (signed ts e).Path (List.replicate ts.length .operand ++ steps) := by
  induction ts with
  | nil => exact hpath
  | cons t ts ih => exact .operand ih

theorem outcome_primary_signs {ts : List Token} (hts : ∀ t ∈ ts, t.kind = .minus) (depth : Nat)
    (hdepth : depth + ts.length ≤ maxDepth) {s rest : TokenStream} {e : Expr}
    (hread : outcome (s.primary (depth + ts.length)) = .ok (e, rest)) :
    outcome ((s.prepend ts).primary depth) = .ok (signed ts e, rest) := by
  induction ts generalizing depth with
  | nil => exact hread
  | cons t ts ih =>
      obtain ⟨hkind, hothers⟩ := List.forall_mem_cons.mp hts
      rw [List.length_cons] at hdepth hread
      have hinner := ih hothers (depth + 1) (by omega) (by
        rwa [Nat.add_right_comm, Nat.add_assoc])
      rw [prepend_cons, outcome_primary_sign _ _ (.inr hkind)]
      exact bind_eq_ok.mpr ⟨(), checkDepth_eq_ok.mpr (by omega),
        bind_eq_ok.mpr ⟨_, hinner, rfl⟩⟩

/-- A name is added to what is read as a primary. -/
theorem outcome_sum {s : TokenStream} {depth : Nat} (hdepth : depth < maxDepth) {lhs : Expr}
    {plus name : Token} (hplus : plus.kind = .plus) (hname : name.kind = .identifier)
    {rest : TokenStream} (hcloses : rest.Closes) (hstop : rest.StopsAt 1)
    (hread : outcome (s.primary depth) = .ok (lhs, next plus (next name rest))) :
    outcome (s.expression depth 1) =
      .ok (.binary plus.kind lhs (.ident ⟨name.position, name.literal⟩), rest) := by
  have hrhs : outcome ((next name rest).expression (depth + 1) (plus.kind.precedence + 1)) =
      .ok (.ident ⟨name.position, name.literal⟩, rest) := by
    rw [outcome_expression]
    exact bind_eq_ok.mpr ⟨_, outcome_primary_name_alone _ hname hcloses,
      outcome_operators_of_stopsAt (Nat.le_add_left 1 _) hcloses (hstop.tighten (by omega)) _⟩
  rw [outcome_expression]
  refine bind_eq_ok.mpr ⟨_, hread, ?_⟩
  change outcome (operators depth 1 _ _) = _
  rw [outcome_operators_next, if_neg (by rw [hplus]; decide)]
  exact bind_eq_ok.mpr ⟨(), checkDepth_eq_ok.mpr hdepth, bind_eq_ok.mpr ⟨_, hrhs,
    outcome_operators_of_stopsAt (Nat.le_refl 1) hcloses hstop _⟩⟩

theorem outcome_signedSum {signs : Nat} (hsigns : signs ≤ maxDepth) {all : List Token}
    (hall : all.map Token.kind = List.replicate signs .minus ++ [.identifier, .plus, .identifier])
    (finish : Position) :
    ∃ e, outcome (((done finish).prepend all).expression 0 1) = .ok (e, done finish) ∧
      ∃ steps, e.Path steps ∧ operatorsOn steps = signs + 1 := by
  obtain ⟨ts, sum, rfl, hts, hsum⟩ := List.map_eq_append_iff.mp hall
  simp only [List.map_eq_cons_iff, List.map_eq_nil_iff] at hsum
  obtain ⟨first, _, rfl, hfirst, plus, _, rfl, hplus, second, _, rfl, hsecond, rfl⟩ := hsum
  have hlength : ts.length = signs := by simpa using congrArg List.length hts
  have hminus : ∀ t ∈ ts, t.kind = .minus :=
    fun t ht => List.eq_of_mem_replicate (hts ▸ List.mem_map_of_mem ht)
  have hcloses : (next plus (next second (done finish))).Closes :=
    closes_next (by rw [hplus]; decide) _
  have hleft := outcome_primary_signs hminus 0 (by omega)
    (outcome_primary_name_alone _ hfirst hcloses)
  have hsum := outcome_sum (by decide) hplus hsecond ⟨.eof, rfl, by decide⟩
    (stopsAt_done finish 1) hleft
  have hpath := path_signed (.ident ⟨first.position, first.literal⟩) ts
  rw [prepend_append]
  refine ⟨_, hsum, _, .left hpath, ?_⟩
  simp [operatorsOn, List.countP_replicate, hlength]

end TokenStream

/-- The signs are released before the name is added, so there may be as many as the limit. -/
theorem parse_signedSum (signs : Nat) (hsigns : signs ≤ maxDepth) :
    ∃ statements, parse (deletion (signedSum signs)) = .ok statements ∧
      ∃ steps, PathIn statements steps ∧ operatorsOn steps = signs + 1 := by
  obtain ⟨statements, e, hparse, ⟨steps, hpath, hcount⟩, s, hs, he⟩ :=
    parse_deletion (TokenStream.beginsWith_signedSum signs)
      fun _ finish hall => TokenStream.outcome_signedSum hsigns hall finish
  exact ⟨statements, hparse, steps, ⟨s, hs, e, he, hpath⟩, hcount⟩

/-! ### Calls in front of sums -/

/-- The sum of a call of such a sum and a name, as many times within each other as given. -/
def nestedSum : Nat → List Char → List Char
  | 0, text => 'a' :: text
  | sums + 1, text => 'f' :: '(' :: nestedSum sums (')' :: '+' :: 'a' :: text)

def nestedSumKinds : Nat → List Kind
  | 0 => [.identifier]
  | sums + 1 =>
    .identifier :: .leftParen :: (nestedSumKinds sums ++ [.rightParen, .plus, .identifier])

namespace TokenStream

theorem beginsWith_name {text : List Char} (htext : text = [] ∨ ∃ others, text = ')' :: others) :
    BeginsWith ('a' :: text) [.identifier] text := by
  rcases htext with rfl | ⟨others, rfl⟩
  · exact .of_read 'a' ⟨.identifier, "a", ['a'], _⟩ rfl rfl
  · exact .of_read 'a' ⟨.identifier, "a", ['a'], _⟩ rfl rfl

theorem beginsWith_nestedSum (sums : Nat) {text : List Char}
    (htext : text = [] ∨ ∃ others, text = ')' :: others) :
    BeginsWith (nestedSum sums text) (nestedSumKinds sums) text := by
  induction sums generalizing text with
  | zero => exact beginsWith_name htext
  | succ sums ih =>
      have hfunction : BeginsWith (nestedSum (sums + 1) text) [.identifier]
          ('(' :: nestedSum sums (')' :: '+' :: 'a' :: text)) :=
        .of_read 'f' ⟨.identifier, "f", ['f'], _⟩ rfl rfl
      have hopen : BeginsWith ('(' :: nestedSum sums (')' :: '+' :: 'a' :: text)) [.leftParen]
          (nestedSum sums (')' :: '+' :: 'a' :: text)) :=
        .of_read '(' ⟨.leftParen, "", ['('], _⟩ rfl rfl
      have hclose : BeginsWith (')' :: '+' :: 'a' :: text) [.rightParen] ('+' :: 'a' :: text) :=
        .of_read ')' ⟨.rightParen, "", [')'], _⟩ rfl rfl
      have hplus : BeginsWith ('+' :: 'a' :: text) [.plus] ('a' :: text) :=
        .of_read '+' ⟨.plus, "", ['+'], _⟩ rfl rfl
      have hinner := ih (.inr ⟨'+' :: 'a' :: text, rfl⟩)
      exact hfunction.trans (hopen.trans (hinner.trans (hclose.trans
        (hplus.trans (beginsWith_name htext)))))

/-- A call with one argument. -/
theorem outcome_primary_call {function opening closing : Token}
    (hfunction : function.kind = .identifier) (hopen : opening.kind = .leftParen)
    (hclose : closing.kind = .rightParen) {depth : Nat}
    {argument rest : TokenStream} {kind : Kind} {e : Expr} (hnext : argument.nextKind? = some kind)
    (hkind : kind ≠ .rightParen ∧ kind ≠ .star)
    (hread : outcome (argument.expression depth lowestPrecedence) = .ok (e, next closing rest)) :
    outcome ((next function (next opening argument)).primary depth) =
      .ok (.call ⟨function.position, function.literal⟩ [e], rest) := by
  have hempty : outcome (argument.accept .rightParen) = .ok (false, argument) :=
    (accept_false (by decide)).mpr ⟨rfl, kind, hnext, hkind.1⟩
  have hlast : outcome ((next closing rest).accept .comma) = .ok (false, next closing rest) :=
    (accept_false (by decide)).mpr ⟨rfl, _, rfl, by rw [hclose]; decide⟩
  have hargument : outcome (argument.projection depth) = .ok (e, next closing rest) := by
    rw [outcome_projection_expression _ (by rw [hnext]; simpa using hkind.2)]
    exact hread
  have harguments : outcome (argument.projections depth) = .ok ([e], next closing rest) := by
    rw [outcome_projections]
    exact bind_eq_ok.mpr ⟨_, hargument, bind_eq_ok.mpr ⟨_, hlast, rfl⟩⟩
  rw [outcome_primary_name _ _ hfunction]
  exact bind_eq_ok.mpr ⟨_, accept_next hopen argument, bind_eq_ok.mpr ⟨_, hempty,
    bind_eq_ok.mpr ⟨_, harguments, bind_eq_ok.mpr ⟨_, expect_eq_ok.mpr ⟨rfl, hclose⟩, rfl⟩⟩⟩⟩

theorem nestedSumKinds_eq (sums : Nat) : ∃ kinds, nestedSumKinds sums = .identifier :: kinds := by
  cases sums <;> exact ⟨_, rfl⟩

theorem outcome_nestedSum {sums : Nat} {ts : List Token}
    (hts : ts.map Token.kind = nestedSumKinds sums) {rest : TokenStream} (hcloses : rest.Closes)
    (hstop : rest.StopsAt 1) :
    ∃ e, outcome ((rest.prepend ts).expression 0 1) = .ok (e, rest) ∧
      ∃ steps, e.Path steps ∧ operatorsBehind steps = sums ∧ operatorsBefore steps = 0 := by
  induction sums generalizing ts rest with
  | zero =>
      obtain ⟨name, _, rfl, hname, hnil⟩ := List.map_eq_cons_iff.mp hts
      obtain rfl := List.map_eq_nil_iff.mp hnil
      refine ⟨.ident ⟨name.position, name.literal⟩, ?_, [], .ident _, rfl, rfl⟩
      rw [outcome_expression]
      exact bind_eq_ok.mpr ⟨_, outcome_primary_name_alone 0 hname hcloses,
        outcome_operators_of_stopsAt (Nat.le_refl 1) hcloses hstop _⟩
  | succ sums ih =>
      obtain ⟨function, _, rfl, hfunction, hts⟩ := List.map_eq_cons_iff.mp hts
      obtain ⟨opening, _, rfl, hopen, hts⟩ := List.map_eq_cons_iff.mp hts
      obtain ⟨inner, sum, rfl, hinner, hsum⟩ := List.map_eq_append_iff.mp hts
      simp only [List.map_eq_cons_iff, List.map_eq_nil_iff] at hsum
      obtain ⟨closing, _, rfl, hclose, plus, _, rfl, hplus, name, _, rfl, hname, rfl⟩ := hsum
      have hafter : (next closing (next plus (next name rest))).Closes :=
        closes_next (by rw [hclose]; decide) _
      have hend : (next closing (next plus (next name rest))).StopsAt 1 :=
        (stopsAt_next (Nat.le_refl 1)).mpr (.inl (by rw [hclose]; rfl))
      obtain ⟨e, he, steps, hpath, hbehind, hbefore⟩ := ih hinner hafter hend
      obtain ⟨kinds, hkinds⟩ := nestedSumKinds_eq sums
      obtain ⟨first, others, rfl, hfirst, -⟩ := List.map_eq_cons_iff.mp (hinner.trans hkinds)
      have hnext : ((next closing (next plus (next name rest))).prepend
          (first :: others)).nextKind? = some .identifier := congrArg some hfirst
      have hcall := outcome_primary_call hfunction hopen hclose hnext (by decide) he
      have hsum := outcome_sum (by decide) hplus hname hcloses hstop hcall
      rw [prepend_cons, prepend_cons, prepend_append]
      refine ⟨_, hsum, .left :: .argument :: steps,
        .left (.argument (List.mem_singleton_self e) hpath), ?_, by simpa using hbefore⟩
      simpa [operatorsBehind] using hbehind

end TokenStream

/-- A call adds nothing to the depth and a sum releases it, so a path may be of any length. -/
theorem parse_nestedSum (sums : Nat) :
    ∃ statements, parse (deletion (nestedSum sums [])) = .ok statements ∧
      ∃ steps, PathIn statements steps ∧ operatorsBehind steps = sums ∧
        operatorsBefore steps = 0 := by
  obtain ⟨statements, e, hparse, ⟨steps, hpath, hcounts⟩, s, hs, he⟩ :=
    parse_deletion (TokenStream.beginsWith_nestedSum sums (.inl rfl)) fun _ finish hts =>
      TokenStream.outcome_nestedSum hts ⟨.eof, rfl, by decide⟩ (TokenStream.stopsAt_done finish 1)
  exact ⟨statements, hparse, steps, ⟨s, hs, e, he, hpath⟩, hcounts⟩

/-! ## What the limit bounds -/

/-- In the statements of a text, the limit bounds the operators in front of a leaf.  So no
path has more operators than the limit exactly when at every leaf those behind it are no
more than those in front of it have left over. -/
theorem operators_within_limit_iff {text : String} {statements : List Statement}
    (hparse : parse text = .ok statements) :
    (∀ steps, PathIn statements steps → operatorsBefore steps ≤ maxDepth) ∧
      ((∀ steps, PathIn statements steps → operatorsOn steps ≤ maxDepth) ↔
        ∀ steps, PathIn statements steps →
          operatorsBehind steps ≤ maxDepth - operatorsBefore steps) := by
  have hbefore : ∀ steps, PathIn statements steps → operatorsBefore steps ≤ maxDepth := by
    intro steps hsteps
    exact operatorsBefore_le_of_parse hparse hsteps
  refine ⟨hbefore, forall₂_congr ?_⟩
  intro steps hsteps
  have hbound := hbefore steps hsteps
  rw [operatorsOn_eq]
  omega

/-- With as many signs as the limit, a path of the tree has one operator more. -/
theorem signedSum_beyond_limit : ∃ statements,
    parse (deletion (signedSum 256)) = .ok statements ∧
    ∃ steps, PathIn statements steps ∧ maxDepth < operatorsOn steps := by
  obtain ⟨statements, hparse, steps, hsteps, hcount⟩ :=
    parse_signedSum 256 (by decide)
  exact ⟨statements, hparse, steps, hsteps, by rw [hcount]; decide⟩

/-- The operators behind the first leaf of the sum are more than are left over. -/
theorem signedSum_operatorsBehind : ∃ statements,
    parse (deletion (signedSum 256)) = .ok statements ∧
    (∀ steps, PathIn statements steps → operatorsBefore steps ≤ maxDepth) ∧
      ¬ ∀ steps, PathIn statements steps →
        operatorsBehind steps ≤ maxDepth - operatorsBefore steps := by
  obtain ⟨statements, hparse, steps, hsteps, hcount⟩ :=
    parse_signedSum 256 (by decide)
  obtain ⟨hbefore, hiff⟩ := operators_within_limit_iff hparse
  refine ⟨statements, hparse, hbefore, ?_⟩
  intro hbehind
  have hwithin := hiff.mpr hbehind steps hsteps
  rw [hcount] at hwithin
  exact absurd hwithin (by decide)

end PocketSql
