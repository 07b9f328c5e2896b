import Mathlib
import PocketSql.Proofs.Syntax.DepthCourse

/-!
# The depth over a whole text

The readers of statements under the counter that the readers of expressions share.  A statement
takes nothing from the counter itself, so between two expressions it stands at zero, and the
readers go on from there through the whole text.
-/

namespace PocketSql

namespace TokenStream

/-! ## Readers under a counter -/

section Lengths

variable {bound first next : Nat}

/-- What is left behind two parts, both of which take a token. -/
theorem shorter_trans (hfirst : first < bound) (hnext : next < first) : next + 1 ≤ bound :=
  hnext.trans hfirst

/-- The second part may be left out. -/
theorem shorter_trans_optional (hfirst : first < bound) (hnext : next < first + 1) :
    next + 1 ≤ bound :=
  (Nat.le_of_lt_succ hnext).trans_lt hfirst

/-- The first part may be left out. -/
theorem optional_trans_shorter (hfirst : first < bound + 1) (hnext : next < first) :
    next + 1 ≤ bound :=
  hnext.trans_le (Nat.le_of_lt_succ hfirst)

end Lengths

def watchedWholeExpression (s : TokenStream) : WatchedParse Expr s.length :=
  s.watchedExpression lowestPrecedence

def watchedCommaSeparated {α : Type} (item : (s : TokenStream) → WatchedParse α s.length)
    (s : TokenStream) : WatchedParse (List α) s.length := do
  let ⟨first, rest, hfirst⟩ ← item s
  let ⟨more, rest, hmore⟩ ← unwatched (rest.accept .comma)
  if more then
    let ⟨others, rest, hothers⟩ ← rest.watchedCommaSeparated item
    return ⟨first :: others, rest, by omega⟩
  else
    return ⟨[first], rest, by omega⟩
termination_by s.length

def watchedCondition (s : TokenStream) : WatchedParse (Option Expr) (s.length + 1) := do
  let ⟨present, rest, hkeyword⟩ ← unwatched (s.accept .kwWhere)
  if present then
    let ⟨value, rest, hvalue⟩ ← rest.watchedWholeExpression
    return ⟨some value, rest, shorter_trans hkeyword hvalue⟩
  else
    return ⟨none, rest, hkeyword⟩

def watchedFillClauses (default : Option Expr) (autoIncrement : Bool) (s : TokenStream) :
    WatchedParse (Option Expr × Bool) (s.length + 1) :=
  match s with
  | .done position => return ⟨(default, autoIncrement), .done position, Nat.lt_succ_self _⟩
  | .broken error => throw (.lexical error)
  | .next token rest =>
    if token.kind = .kwDefault ∧ default.isNone then do
      let ⟨value, rest, hvalue⟩ ← rest.watchedWholeExpression
      let ⟨clauses, rest, hclauses⟩ ← rest.watchedFillClauses (some value) autoIncrement
      return ⟨clauses, rest, by rw [length]; omega⟩
    else if token.kind = .kwAutoIncrement ∧ autoIncrement = false then do
      let ⟨clauses, rest, hclauses⟩ ← rest.watchedFillClauses default true
      return ⟨clauses, rest, by rw [length]; omega⟩
    else
      return ⟨(default, autoIncrement), .next token rest, Nat.lt_succ_self _⟩
termination_by s.length

def watchedColumnDefinition (s : TokenStream) : WatchedParse ColumnDefinition s.length := do
  let ⟨name, rest, hname⟩ ← unwatched s.expectIdent
  let ⟨type, rest, htype⟩ ← unwatched rest.dataType
  let ⟨nullable, rest, hnullable⟩ ← unwatched rest.nullability
  let ⟨(default, autoIncrement), rest, hfill⟩ ← rest.watchedFillClauses none false
  return ⟨{ name, type, nullable, default, autoIncrement }, rest,
    shorter_trans_optional (shorter_trans_optional (shorter_trans hname htype) hnullable) hfill⟩

def watchedCreateTable (s : TokenStream) : WatchedParse CreateTable s.length := do
  let ⟨create, rest, hcreate⟩ ← unwatched (s.expect .kwCreate)
  let ⟨_, rest, htable⟩ ← unwatched (rest.expect .kwTable)
  let ⟨table, rest, hname⟩ ← unwatched rest.expectIdent
  let ⟨_, rest, hopen⟩ ← unwatched (rest.expect .leftParen)
  let ⟨columns, rest, hcolumns⟩ ← rest.watchedCommaSeparated watchedColumnDefinition
  let ⟨_, rest, hclose⟩ ← unwatched (rest.expectAmong [.comma, .rightParen] .rightParen)
  return ⟨{ position := create.position, table, columns }, rest,
    shorter_trans (shorter_trans (shorter_trans (shorter_trans (shorter_trans hcreate htable) hname)
      hopen) hcolumns) hclose⟩

def watchedSelect (s : TokenStream) : WatchedParse Select s.length := do
  let ⟨select, rest, hselect⟩ ← unwatched (s.expect .kwSelect)
  let ⟨projections, rest, hprojections⟩ ← rest.watchedProjections
  let ⟨_, rest, hfrom⟩ ← unwatched (rest.expect .kwFrom)
  let ⟨table, rest, htable⟩ ← rest.watchedWholeExpression
  let ⟨condition, rest, hcondition⟩ ← rest.watchedCondition
  return ⟨{ position := select.position, projections, table, condition }, rest,
    shorter_trans_optional (shorter_trans (shorter_trans (shorter_trans hselect hprojections) hfrom)
      htable) hcondition⟩

def watchedInsert (s : TokenStream) : WatchedParse Insert s.length := do
  let ⟨insert, rest, hinsert⟩ ← unwatched (s.expect .kwInsert)
  let ⟨_, rest, hinto⟩ ← unwatched (rest.expect .kwInto)
  let ⟨table, rest, htable⟩ ← unwatched rest.expectIdent
  let ⟨columns, rest, hcolumns⟩ ← unwatched rest.targetColumns
  let ⟨_, rest, hkeyword⟩ ← unwatched (rest.expect .kwValues)
  let ⟨_, rest, hopen⟩ ← unwatched (rest.expect .leftParen)
  let ⟨values, rest, hvalues⟩ ← rest.watchedCommaSeparated watchedWholeExpression
  let ⟨_, rest, hclose⟩ ← unwatched (rest.expect .rightParen)
  return ⟨{ position := insert.position, table, columns, values }, rest,
    shorter_trans (shorter_trans (shorter_trans (shorter_trans (shorter_trans_optional
      (shorter_trans (shorter_trans hinsert hinto) htable) hcolumns) hkeyword) hopen) hvalues)
      hclose⟩

def watchedAssignment (s : TokenStream) : WatchedParse Assignment s.length := do
  let ⟨column, rest, hcolumn⟩ ← unwatched s.expectIdent
  let ⟨_, rest, hequal⟩ ← unwatched (rest.expect .equal)
  let ⟨value, rest, hvalue⟩ ← rest.watchedWholeExpression
  return ⟨{ column, value }, rest, shorter_trans (shorter_trans hcolumn hequal) hvalue⟩

def watchedAssignments (s : TokenStream) : WatchedParse (List Assignment) s.length := do
  let ⟨enclosed, rest, hopen⟩ ← unwatched (s.accept .leftParen)
  let ⟨assignments, rest, hassignments⟩ ← rest.watchedCommaSeparated watchedAssignment
  if enclosed then
    let ⟨_, rest, hclose⟩ ← unwatched (rest.expect .rightParen)
    return ⟨assignments, rest, shorter_trans (optional_trans_shorter hopen hassignments) hclose⟩
  else
    return ⟨assignments, rest, optional_trans_shorter hopen hassignments⟩

def watchedUpdate (s : TokenStream) : WatchedParse Update s.length := do
  let ⟨update, rest, hupdate⟩ ← unwatched (s.expect .kwUpdate)
  let ⟨table, rest, htable⟩ ← unwatched rest.expectIdent
  let ⟨_, rest, hset⟩ ← unwatched (rest.expect .kwSet)
  let ⟨assignments, rest, hassignments⟩ ← rest.watchedAssignments
  let ⟨condition, rest, hcondition⟩ ← rest.watchedCondition
  return ⟨{ position := update.position, table, assignments, condition }, rest,
    shorter_trans_optional (shorter_trans (shorter_trans (shorter_trans hupdate htable) hset)
      hassignments) hcondition⟩

def watchedDelete (s : TokenStream) : WatchedParse Delete s.length := do
  let ⟨delete, rest, hdelete⟩ ← unwatched (s.expect .kwDelete)
  let ⟨_, rest, hfrom⟩ ← unwatched (rest.expect .kwFrom)
  let ⟨table, rest, htable⟩ ← unwatched rest.expectIdent
  let ⟨condition, rest, hcondition⟩ ← rest.watchedCondition
  return ⟨{ position := delete.position, table, condition }, rest,
    shorter_trans_optional (shorter_trans (shorter_trans hdelete hfrom) htable) hcondition⟩

/-- Applies a function to what was read. -/
def mapWatched {α β : Type} {bound : Nat} (f : α → β) (result : WatchedParse α bound) :
    WatchedParse β bound := do
  let ⟨value, rest, shorter⟩ ← result
  return ⟨f value, rest, shorter⟩

def watchedStatement (s : TokenStream) : WatchedParse Statement s.length :=
  match s with
  | .next token rest =>
    match token.kind with
    | .kwCreate => mapWatched .createTable (watchedCreateTable (.next token rest))
    | .kwSelect => mapWatched .select (watchedSelect (.next token rest))
    | .kwInsert => mapWatched .insert (watchedInsert (.next token rest))
    | .kwUpdate => mapWatched .update (watchedUpdate (.next token rest))
    | .kwDelete => mapWatched .delete (watchedDelete (.next token rest))
    | _ => throw (unexpected statementStart (.next token rest))
  | s => throw (s.unexpected statementStart)

/-- One counter serves all statements. -/
def watchedStatements (s : TokenStream) : Watching (List Statement) :=
  match s with
  | .done _ => return []
  | s => do
    let ⟨first, rest, _⟩ ← s.watchedStatement
    let ⟨separated, rest, _⟩ ← unwatched (rest.accept .semicolon)
    if separated then
      return first :: (← rest.watchedStatements)
    else
      match rest with
      | .done _ => return [first]
      | rest => throw (rest.unexpected [.semicolon])
termination_by s.length

/-! ## Keeping to zero -/

section Statements

variable (s : TokenStream)

theorem keeps_wholeExpression : Keeps 0 0 0 s.watchedWholeExpression s.wholeExpression :=
  s.keepsDepth.expression lowestPrecedence (Nat.zero_le 0)

theorem keeps_commaSeparated {α : Type} {watched : (s : TokenStream) → WatchedParse α s.length}
    {item : (s : TokenStream) → Parse α s.length}
    (hitem : ∀ s, Keeps 0 0 0 (watched s) (item s)) :
    Keeps 0 0 0 (s.watchedCommaSeparated watched) (s.commaSeparated item) := by
  induction s using lengthInduction with
  | shorter s ih =>
      rw [watchedCommaSeparated, commaSeparated]
      refine (hitem s).next fun first rest hfirst => ?_
      refine (Keeps.unwatched _).next fun more q hmore => ?_
      cases more with
      | false => exact .pure _
      | true => exact (ih q (by omega)).next fun others _ _ => .pure _

theorem keeps_condition : Keeps 0 0 0 s.watchedCondition s.condition := by
  rw [watchedCondition, condition, clause]
  refine (Keeps.unwatched _).next fun present rest _ => ?_
  cases present with
  | false => exact .pure _
  | true => exact rest.keeps_wholeExpression.next fun _ _ _ => .pure _

theorem keeps_fillClauses (default : Option Expr) (autoIncrement : Bool) :
    Keeps 0 0 0 (s.watchedFillClauses default autoIncrement)
      (s.fillClauses default autoIncrement) := by
  induction s using lengthInduction generalizing default autoIncrement with
  | shorter s ih =>
      cases s with
      | done position =>
          rw [watchedFillClauses, fillClauses]
          exact .pure _
      | broken error =>
          rw [watchedFillClauses, fillClauses]
          exact .throw _
      | next t rest =>
          rw [watchedFillClauses, fillClauses]
          split
          · refine rest.keeps_wholeExpression.next fun value q hvalue => ?_
            have hlt : q.length < (next t rest).length := hvalue.trans (Nat.lt_succ_self _)
            exact (ih q hlt _ _).next fun clauses _ _ => .pure _
          · split
            · exact (ih rest (Nat.lt_succ_self _) _ _).next fun clauses _ _ => .pure _
            · exact .pure _

theorem keeps_columnDefinition : Keeps 0 0 0 s.watchedColumnDefinition s.columnDefinition := by
  rw [watchedColumnDefinition, columnDefinition]
  refine (Keeps.unwatched _).next fun name _ _ => ?_
  refine (Keeps.unwatched _).next fun type _ _ => ?_
  refine (Keeps.unwatched _).next fun nullable _ _ => ?_
  exact (keeps_fillClauses _ _ _).next fun clauses _ _ => .pure _

theorem keeps_createTable : Keeps 0 0 0 s.watchedCreateTable s.createTable := by
  rw [watchedCreateTable, createTable]
  refine (Keeps.unwatched _).next fun create _ _ => ?_
  refine (Keeps.unwatched _).next fun _ _ _ => ?_
  refine (Keeps.unwatched _).next fun table _ _ => ?_
  refine (Keeps.unwatched _).next fun _ _ _ => ?_
  refine (keeps_commaSeparated _ keeps_columnDefinition).next fun columns _ _ => ?_
  exact (Keeps.unwatched _).next fun _ _ _ => .pure _

theorem keeps_select : Keeps 0 0 0 s.watchedSelect s.select := by
  rw [watchedSelect, select]
  refine (Keeps.unwatched _).next fun select rest _ => ?_
  refine (rest.keepsDepth.projections (Nat.zero_le 0)).next fun projections _ _ => ?_
  refine (Keeps.unwatched _).next fun _ _ _ => ?_
  refine (keeps_wholeExpression _).next fun table _ _ => ?_
  exact (keeps_condition _).next fun condition _ _ => .pure _

theorem keeps_insert : Keeps 0 0 0 s.watchedInsert s.insert := by
  rw [watchedInsert, insert]
  refine (Keeps.unwatched _).next fun insert _ _ => ?_
  refine (Keeps.unwatched _).next fun _ _ _ => ?_
  refine (Keeps.unwatched _).next fun table _ _ => ?_
  refine (Keeps.unwatched _).next fun columns _ _ => ?_
  refine (Keeps.unwatched _).next fun _ _ _ => ?_
  refine (Keeps.unwatched _).next fun _ _ _ => ?_
  refine (keeps_commaSeparated _ keeps_wholeExpression).next fun values _ _ => ?_
  exact (Keeps.unwatched _).next fun _ _ _ => .pure _

theorem keeps_assignment : Keeps 0 0 0 s.watchedAssignment s.assignment := by
  rw [watchedAssignment, assignment]
  refine (Keeps.unwatched _).next fun column _ _ => ?_
  refine (Keeps.unwatched _).next fun _ _ _ => ?_
  exact (keeps_wholeExpression _).next fun value _ _ => .pure _

theorem keeps_assignments : Keeps 0 0 0 s.watchedAssignments s.assignments := by
  rw [watchedAssignments, assignments]
  refine (Keeps.unwatched _).next fun enclosed _ _ => ?_
  refine (keeps_commaSeparated _ keeps_assignment).next fun assignments _ _ => ?_
  cases enclosed with
  | false => exact .pure _
  | true => exact (Keeps.unwatched _).next fun _ _ _ => .pure _

theorem keeps_update : Keeps 0 0 0 s.watchedUpdate s.update := by
  rw [watchedUpdate, update]
  refine (Keeps.unwatched _).next fun update _ _ => ?_
  refine (Keeps.unwatched _).next fun table _ _ => ?_
  refine (Keeps.unwatched _).next fun _ _ _ => ?_
  refine (keeps_assignments _).next fun assignments _ _ => ?_
  exact (keeps_condition _).next fun condition _ _ => .pure _

theorem keeps_delete : Keeps 0 0 0 s.watchedDelete s.delete := by
  rw [watchedDelete, delete]
  refine (Keeps.unwatched _).next fun delete _ _ => ?_
  refine (Keeps.unwatched _).next fun _ _ _ => ?_
  refine (Keeps.unwatched _).next fun table _ _ => ?_
  exact (keeps_condition _).next fun condition _ _ => .pure _

theorem keeps_map {α β : Type} {bound : Nat} {f : α → β} {watched : WatchedParse α bound}
    {plain : Parse α bound} (hread : Keeps 0 0 0 watched plain) :
    Keeps 0 0 0 (mapWatched f watched) (mapParsed f plain) := by
  have hmap : mapParsed f plain = plain >>= fun parsed =>
      .ok ⟨f parsed.value, parsed.rest, parsed.shorter⟩ := by
    cases plain <;> rfl
  rw [hmap]
  exact hread.next fun _ _ _ => .pure _

theorem keeps_statement : Keeps 0 0 0 s.watchedStatement s.statement := by
  cases s with
  | done | broken => exact .throw _
  | next t rest =>
      rw [watchedStatement, statement]
      cases t.kind with
      | kwCreate => exact keeps_map (keeps_createTable _)
      | kwSelect => exact keeps_map (keeps_select _)
      | kwInsert => exact keeps_map (keeps_insert _)
      | kwUpdate => exact keeps_map (keeps_update _)
      | kwDelete => exact keeps_map (keeps_delete _)
      | _ => exact .throw _

/-- Every statement begins and ends with the counter at zero. -/
theorem keeps_statements : Keeps 0 0 0 s.watchedStatements s.statements := by
  induction s using lengthInduction with
  | shorter s ih =>
      cases s with
      | done position =>
          rw [watchedStatements, statements]
          exact .pure _
      | broken | next =>
          rw [watchedStatements.eq_def, statements.eq_def]
          refine (keeps_statement _).next fun first rest hfirst => ?_
          refine (Keeps.unwatched _).next fun separated q hq => ?_
          cases separated with
          | true => exact (ih q (by omega)).bind fun others => .pure _
          | false =>
              cases q with
              | done => exact .pure _
              | broken | next => exact .throw _

end Statements

end TokenStream

end PocketSql
