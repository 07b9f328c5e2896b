import Mathlib
import PocketSql.Proofs.Syntax.StatementReading
import PocketSql.Proofs.Token.Layout

/-!
# Flat statements

The limit of the depth counts the operators of an expression.  A literal with a sign at most
never meets it, whatever the number of literals in a list is.  So statements whose values are
such literals are read at any length.

What a reader does is said of the kinds and literals of the tokens that it finds, up to the
end: it takes those of its own text, and leaves a stream that has the others.
-/

namespace PocketSql

open Parse (outcome)
open TokenStream

/-- The kind of the first of these tokens, or that of the end. -/
def leading : List (Kind × String) → Kind
  | [] => .eof
  | (kind, _) :: _ => kind

/-- In front of a kind that may follow, the reader takes the tokens, and what it reads has
the property. -/
def Consumes {α : Type} (R : TokenStream → Except SyntaxError (α × TokenStream))
    (tokens : List (Kind × String)) (follow : List Kind) (P : α → Prop) : Prop :=
  ∀ s contents, s.Offers (tokens ++ contents) → leading contents ∈ follow →
    ∃ a rest, R s = .ok (a, rest) ∧ rest.Offers contents ∧ P a

namespace TokenStream

theorem Offers.nextKind?_eq {s : TokenStream} {contents : List (Kind × String)}
    (hs : s.Offers contents) : s.nextKind? = some (leading contents) := by
  cases contents with
  | nil =>
      obtain ⟨finish, rfl⟩ := hs
      rfl
  | cons content contents =>
      obtain ⟨position, rest, rfl, -⟩ := hs
      rfl

theorem Offers.nextIn {s : TokenStream} {contents : List (Kind × String)} {kinds : List Kind}
    (hs : s.Offers contents) (hleading : leading contents ∈ kinds) : s.NextIn kinds :=
  ⟨_, hleading, hs.nextKind?_eq⟩

/-- A kind that does not come next is not accepted. -/
theorem Offers.skip {s : TokenStream} {contents : List (Kind × String)} {kinds : List Kind}
    (hs : s.Offers contents) (hleading : leading contents ∈ kinds) (kind : Kind)
    (heof : kind ≠ .eof) (hkind : kind ∉ kinds) : outcome (s.accept kind) = .ok (false, s) :=
  (accept_false heof).mpr ⟨rfl, _, hs.nextKind?_eq, ne_of_mem_of_not_mem hleading hkind⟩

end TokenStream

section Readers

variable {α β : Type} {follow follow' : List Kind}

theorem Consumes.mono {R : TokenStream → Except SyntaxError (α × TokenStream)}
    {tokens : List (Kind × String)} {P : α → Prop} (hR : Consumes R tokens follow P)
    (hsubset : follow' ⊆ follow) : Consumes R tokens follow' P :=
  fun s contents hs hfollow => hR s contents hs (hsubset hfollow)

theorem Consumes.imp {R : TokenStream → Except SyntaxError (α × TokenStream)}
    {tokens : List (Kind × String)} {P Q : α → Prop} (hR : Consumes R tokens follow P)
    (himp : ∀ a, P a → Q a) : Consumes R tokens follow Q := by
  intro s contents hs hfollow
  obtain ⟨a, rest, hread, hrest, ha⟩ := hR s contents hs hfollow
  exact ⟨a, rest, hread, hrest, himp a ha⟩

/-- By induction on the items: a comma goes on with the list, a parenthesis ends it. -/
theorem consumes_list {item : (s : TokenStream) → Parse α s.length}
    {tokens : β → List (Kind × String)} {P : β → α → Prop} {xs : List β} (hne : xs ≠ [])
    (hitem : ∀ x ∈ xs, Consumes (fun s => outcome (item s)) (tokens x) columnFollow (P x)) :
    Consumes (fun s => outcome (s.commaSeparated item))
      ([(.comma, "")].intercalate (xs.map tokens)) [.rightParen] (List.Forall₂ P xs) := by
  induction xs with
  | nil => contradiction
  | cons x xs ih =>
      obtain ⟨hx, hxs⟩ := List.forall_mem_cons.mp hitem
      intro s contents hs hfollow
      cases xs with
      | nil =>
          have hitems : s.Offers (tokens x ++ contents) := by simpa using hs
          obtain ⟨a, rest, hread, hrest, ha⟩ :=
            hx s contents hitems (List.mem_cons_of_mem _ hfollow)
          have hcomma := hrest.skip hfollow .comma (by decide) (by decide)
          refine ⟨[a], rest, ?_, hrest, .cons ha .nil⟩
          exact (outcome_commaSeparated item s).trans
            (bind_of_ok hread (bind_of_ok hcomma rfl))
      | cons x' xs =>
          have hitems : s.Offers (tokens x ++ (.comma, "") ::
              ([(.comma, "")].intercalate ((x' :: xs).map tokens) ++ contents)) := by
            simpa [List.intercalate_cons_cons] using hs
          obtain ⟨a, _, hread, ⟨position, mid, rfl, hmid⟩, ha⟩ :=
            hx s _ hitems (by simp [leading, columnFollow])
          obtain ⟨as, rest, hreads, hrest, has⟩ := ih (by simp) hxs mid contents hmid hfollow
          refine ⟨a :: as, rest, ?_, hrest, .cons ha has⟩
          exact (outcome_commaSeparated item s).trans
            (bind_of_ok hread (bind_of_ok rfl (bind_of_ok hreads rfl)))

end Readers

/-! ## Expressions -/

theorem outcome_wholeExpression_of_primary {s rest : TokenStream} {e : Expr}
    (hprimary : outcome (s.primary 0) = .ok (e, rest)) (hrest : rest.NextIn expressionFollow) :
    outcome s.wholeExpression = .ok (e, rest) := by
  rw [wholeExpression, outcome_expression]
  exact bind_of_ok hprimary
    (outcome_operators_of_stopsAt (le_refl 1) hrest.closes hrest.stopsAt e)

section Literals

variable {kind : Kind} {literal : String} {value : Literal}

theorem consumes_literal (hkind : kind ∈ literalKinds)
    (hvalue : ∀ position, literalOf ⟨kind, position, literal⟩ = .ok value) :
    Consumes (fun s => outcome s.wholeExpression) [(kind, literal)] expressionFollow
      fun e => ∃ position, e = .literal position value := by
  rintro _ contents ⟨position, rest, rfl, hrest⟩ hfollow
  refine ⟨_, rest, ?_, hrest, position, rfl⟩
  refine outcome_wholeExpression_of_primary ?_ (hrest.nextIn hfollow)
  rw [outcome_primary_literal 0 rest hkind]
  exact bind_of_ok (hvalue position) rfl

/-- A minus sign is no part of the literal behind it. -/
theorem consumes_negative (hkind : kind ∈ literalKinds)
    (hvalue : ∀ position, literalOf ⟨kind, position, literal⟩ = .ok value) :
    Consumes (fun s => outcome s.wholeExpression) [(.minus, ""), (kind, literal)] expressionFollow
      fun e => ∃ position position', e = .unary position .minus (.literal position' value) := by
  rintro _ contents ⟨position, _, rfl, position', rest, rfl, hrest⟩ hfollow
  refine ⟨_, rest, ?_, hrest, position, position', rfl⟩
  refine outcome_wholeExpression_of_primary ?_ (hrest.nextIn hfollow)
  have hoperand : outcome ((next ⟨kind, position', literal⟩ rest).primary 1) =
      .ok (.literal position' value, rest) := by
    rw [outcome_primary_literal 1 rest hkind]
    exact bind_of_ok (hvalue position') rfl
  rw [outcome_primary_sign 0 _ (.inr rfl)]
  exact bind_of_ok rfl (bind_of_ok hoperand rfl)

theorem consumes_name :
    Consumes (fun s => outcome s.wholeExpression) [(.identifier, literal)] expressionFollow
      fun e => ∃ position, e = .ident ⟨position, literal⟩ := by
  rintro _ contents ⟨position, rest, rfl, hrest⟩ hfollow
  refine ⟨_, rest, ?_, hrest, position, rfl⟩
  have hnext := hrest.nextIn hfollow
  exact outcome_wholeExpression_of_primary
    (outcome_primary_name_alone 0 rfl hnext.closes) hnext

end Literals

/-! ## Columns -/

/-- Of the column only the name and the type are given. -/
def DefinesPlainly (name : String) (type : DataType) (d : ColumnDefinition) : Prop :=
  ∃ position, d = ⟨⟨position, name⟩, type, true, none, false⟩

theorem consumes_column {name : String} {keyword : Kind} {type : DataType}
    (htype : DataType.ofKeyword? keyword = some type) :
    Consumes (fun s => outcome s.columnDefinition) [(.identifier, name), (keyword, "")] columnFollow
      (DefinesPlainly name type) := by
  rintro _ contents ⟨position, _, rfl, position', rest, rfl, hrest⟩ hfollow
  refine ⟨_, rest, ?_, hrest, position, rfl⟩
  have hnot := hrest.skip hfollow .kwNot (by decide) (by decide)
  have hnull := hrest.skip hfollow .kwNull (by decide) (by decide)
  have hnullability : outcome rest.nullability = .ok (true, rest) := by
    rw [outcome_nullability]
    exact bind_of_ok hnot (bind_of_ok hnull rfl)
  have hfill : outcome (rest.fillClauses none false) = .ok ((none, false), rest) :=
    fillClauses_of_ends rest _ hrest.nextKind?_eq (fillEnds_of_mem _ hfollow)
  refine (outcome_columnDefinition _).trans ?_
  exact bind_of_ok rfl (bind_of_ok (dataType_next htype rest)
    (bind_of_ok hnullability (bind_of_ok hfill rfl)))

/-! ## Statements -/

def creationTokens (table : String) (columns : List (Kind × String)) : List (Kind × String) :=
  [(.kwCreate, ""), (.kwTable, ""), (.identifier, table), (.leftParen, "")] ++ columns ++
    [(.rightParen, "")]

def insertionTokens (table : String) (values : List (Kind × String)) : List (Kind × String) :=
  [(.kwInsert, ""), (.kwInto, ""), (.identifier, table), (.kwValues, ""), (.leftParen, "")] ++
    values ++ [(.rightParen, "")]

def selectionTokens (table : String) : List (Kind × String) :=
  [(.kwSelect, ""), (.star, ""), (.kwFrom, ""), (.identifier, table)]

section Statements

variable {s : TokenStream} {table : String}

/-- A text of one statement, by the reader for statements of its sort. -/
theorem statements_of_mapParsed {α : Type} {f : α → Statement} {result : Parse α s.length}
    {a : α} (finish : Position) (hs : s.statement = mapParsed f result)
    (hresult : outcome result = .ok (a, done finish)) : s.statements = .ok [f a] := by
  have hstatement : outcome s.statement = .ok (f a, done finish) := by
    rw [hs, outcome_mapParsed]
    exact bind_of_ok hresult rfl
  exact statements_of_statement hstatement

theorem statements_of_creation {columns : List (Kind × String)}
    {P : List ColumnDefinition → Prop}
    (hcolumns : Consumes (fun s => outcome (s.commaSeparated columnDefinition)) columns
      [.rightParen] P)
    (hs : s.Offers (creationTokens table columns)) :
    ∃ position position' definitions, P definitions ∧
      s.statements = .ok [.createTable ⟨position, ⟨position', table⟩, definitions⟩] := by
  obtain ⟨position, _, rfl, _, _, rfl, position', _, rfl, _, list, rfl, hlist⟩ := hs
  obtain ⟨definitions, _, hread, ⟨_, _, rfl, finish, rfl⟩, hP⟩ :=
    hcolumns list _ hlist (List.mem_singleton_self _)
  refine ⟨position, position', definitions, hP, statements_of_mapParsed finish rfl ?_⟩
  rw [outcome_createTable]
  exact bind_of_ok rfl (bind_of_ok rfl (bind_of_ok rfl (bind_of_ok rfl
    (bind_of_ok hread rfl))))

theorem statements_of_insertion {values : List (Kind × String)} {P : List Expr → Prop}
    (hvalues : Consumes (fun s => outcome (s.commaSeparated wholeExpression)) values
      [.rightParen] P)
    (hs : s.Offers (insertionTokens table values)) :
    ∃ position position' es, P es ∧
      s.statements = .ok [.insert ⟨position, ⟨position', table⟩, [], es⟩] := by
  obtain ⟨position, _, rfl, _, _, rfl, position', _, rfl, _, _, rfl, _, list, rfl, hlist⟩ := hs
  obtain ⟨es, _, hread, ⟨_, _, rfl, finish, rfl⟩, hP⟩ :=
    hvalues list _ hlist (List.mem_singleton_self _)
  refine ⟨position, position', es, hP, statements_of_mapParsed finish rfl ?_⟩
  rw [outcome_insert]
  exact bind_of_ok rfl (bind_of_ok rfl (bind_of_ok rfl (bind_of_ok rfl (bind_of_ok rfl
    (bind_of_ok rfl (bind_of_ok hread rfl))))))

theorem statements_of_selection (hs : s.Offers (selectionTokens table)) :
    ∃ position star name, s.statements =
      .ok [.select ⟨position, [.star star], .ident ⟨name, table⟩, none⟩] := by
  obtain ⟨position, _, rfl, star, _, rfl, middle, source, rfl, hsource⟩ := hs
  obtain ⟨_, _, hread, ⟨finish, rfl⟩, name, rfl⟩ := consumes_name source [] hsource (by decide)
  let rest : TokenStream := next ⟨.kwFrom, middle, ""⟩ source
  have hstar : outcome ((next ⟨.star, star, ""⟩ rest).projections 0) =
      .ok ([.star star], rest) := by
    rw [outcome_projections]
    exact bind_of_ok (outcome_projection_star 0 rfl rest) (bind_of_ok rfl rfl)
  refine ⟨position, star, name, statements_of_mapParsed finish rfl ?_⟩
  rw [outcome_select]
  exact bind_of_ok rfl (bind_of_ok hstar (bind_of_ok rfl (bind_of_ok hread rfl)))

end Statements

end PocketSql
