import Mathlib
import PocketSql.Proofs.Syntax.Reading

/-!
# The course of the depth

One counter of the depth serves a whole text.  It is raised before a parenthesis, a sign and
an operator of a chain, and lowered behind the parenthesis, the operand and the whole chain.
The readers of expressions are run here with such a counter, which remembers all that it has
held.  It can be lowered to any integer, so what it holds shows whether too much is taken
from it.

From a depth on, the counter never falls below that depth and never passes the limit, also
where the text is refused.  Behind what has been read it is back at the depth, and what has
been read is what the readers read that are told their depth.
-/

namespace PocketSql

/-! ## Counters -/

/-- What a counter holds, and what it has held before, the last first. -/
structure Counter where
  value : Int
  past : List Int

namespace Counter

/-- A counter that has held nothing but a depth. -/
def startingAt (depth : Nat) : Counter :=
  ⟨depth, []⟩

def change (value : Int) (c : Counter) : Counter :=
  ⟨value, c.value :: c.past⟩

/-- The counter has never held less than the floor or more than the limit of the depth. -/
def Within (floor : Nat) (c : Counter) : Prop :=
  ∀ value ∈ c.value :: c.past, (floor : Int) ≤ value ∧ value ≤ maxDepth

theorem Within.change {floor : Nat} {c : Counter} (hc : c.Within floor) {value : Int}
    (hfloor : floor ≤ value) (hlimit : value ≤ maxDepth) : (c.change value).Within floor := by
  intro other hother
  rcases List.mem_cons.mp hother with rfl | hpast
  · exact ⟨hfloor, hlimit⟩
  · exact hc other hpast

theorem within_startingAt {depth : Nat} (hdepth : depth ≤ maxDepth) :
    (startingAt depth).Within depth := by
  intro value hvalue
  obtain rfl := List.mem_singleton.mp hvalue
  exact ⟨Int.le_refl _, Int.ofNat_le.mpr hdepth⟩

end Counter

/-- Readings under a counter, which keeps what it holds when the text is refused. -/
abbrev Watching := ExceptT SyntaxError (StateM Counter)

abbrev WatchedParse (α : Type) (bound : Nat) := Watching (Parsed α bound)

/-- What has been read, and the counter behind it. -/
def watch {α : Type} (x : Watching α) (c : Counter) : Except SyntaxError α × Counter :=
  (x.run.run c).run

/-- A computation that does not look at the counter. -/
def unwatched {α : Type} (x : Except SyntaxError α) : Watching α :=
  ExceptT.mk (pure x)

/-- Raises the counter, which has to be below the limit. -/
def raise (position : Position) : Watching Unit := do
  let c ← get
  if c.value < maxDepth then set (c.change (c.value + 1))
  else throw (.grammatical ⟨position, .tooDeep maxDepth⟩)

/-- Lowers the counter. -/
def lower (levels : Nat) : Watching Unit :=
  modify fun c => c.change (c.value - levels)

/-! ### Running -/

theorem watch_bind {α β : Type} (x : Watching α) (k : α → Watching β) (c : Counter) :
    watch (x >>= k) c =
      match watch x c with
      | (.ok a, c') => watch (k a) c'
      | (.error e, c') => (.error e, c') := by
  change ((ExceptT.bindCont k (x.run.run c).1).run (x.run.run c).2).run = _
  unfold watch
  rcases x.run.run c with ⟨result, c'⟩
  cases result <;> rfl

theorem watch_raise (position : Position) (c : Counter) :
    watch (raise position) c =
      if c.value < maxDepth then (.ok (), c.change (c.value + 1))
      else (.error (.grammatical ⟨position, .tooDeep maxDepth⟩), c) := by
  change watch (if c.value < maxDepth then _ else _) c = _
  split <;> rfl

theorem watch_lower (levels : Nat) (c : Counter) :
    watch (lower levels) c = (.ok (), c.change (c.value - levels)) := by
  rfl

/-! ## Readers under a counter -/

namespace TokenStream

mutual

def watchedPrimary (s : TokenStream) : WatchedParse Expr s.length :=
  match s with
  | .next token rest =>
    match token.kind with
    | .leftParen => do
      raise token.position
      let ⟨inner, rest, hinner⟩ ← rest.watchedExpression lowestPrecedence
      let ⟨_, rest, hclose⟩ ← unwatched (rest.expect .rightParen)
      lower 1
      return ⟨inner, rest, by rw [length]; omega⟩
    | .identifier => do
      let ⟨isCall, rest, hopen⟩ ← unwatched (rest.accept .leftParen)
      if isCall then
        let ⟨isEmpty, rest, hempty⟩ ← unwatched (rest.accept .rightParen)
        if isEmpty then
          return ⟨.call ⟨token.position, token.literal⟩ [], rest, by rw [length]; omega⟩
        else
          let ⟨arguments, rest, harguments⟩ ← rest.watchedProjections
          let ⟨_, rest, hclose⟩ ← unwatched (rest.expect .rightParen)
          return ⟨.call ⟨token.position, token.literal⟩ arguments, rest, by rw [length]; omega⟩
      else
        return ⟨.ident ⟨token.position, token.literal⟩, rest, by rw [length]; omega⟩
    | .plus | .minus => do
      raise token.position
      let ⟨operand, rest, hoperand⟩ ← rest.watchedPrimary
      lower 1
      return ⟨.unary token.position token.kind operand, rest, by rw [length]; omega⟩
    | .numberLiteral => do
      let value ← unwatched (numberLiteral token)
      return ⟨.literal token.position value, rest, Nat.lt_succ_self _⟩
    | .stringLiteral =>
      return ⟨.literal token.position (.string token.literal), rest, Nat.lt_succ_self _⟩
    | .kwTrue => return ⟨.literal token.position (.boolean true), rest, Nat.lt_succ_self _⟩
    | .kwFalse => return ⟨.literal token.position (.boolean false), rest, Nat.lt_succ_self _⟩
    | .kwNull => return ⟨.literal token.position .null, rest, Nat.lt_succ_self _⟩
    | _ => throw (unexpected primaryStart (.next token rest))
  | s => throw (s.unexpected primaryStart)
termination_by (s.length, 0)

def watchedExpression (precedence : Nat) (s : TokenStream) : WatchedParse Expr s.length := do
  let ⟨first, rest, hfirst⟩ ← s.watchedPrimary
  let ⟨whole, rest, hwhole⟩ ← rest.watchedOperators 0 precedence first
  return ⟨whole, rest, by omega⟩
termination_by (s.length, 1)

/-- What has been folded is taken back at once where the chain ends. -/
def watchedOperators (folded precedence : Nat) (lhs : Expr) (s : TokenStream) :
    WatchedParse Expr (s.length + 1) :=
  match s with
  | .done position => do
    lower folded
    return ⟨lhs, .done position, Nat.lt_succ_self _⟩
  | .broken error => throw (.lexical error)
  | .next token rest =>
    if token.kind.precedence = 0 ∨ token.kind.precedence < precedence then do
      lower folded
      return ⟨lhs, .next token rest, Nat.lt_succ_self _⟩
    else do
      raise token.position
      let ⟨rhs, rest, hrhs⟩ ← rest.watchedExpression (token.kind.precedence + 1)
      let ⟨whole, rest, hwhole⟩ ←
        rest.watchedOperators (folded + 1) precedence (.binary token.kind lhs rhs)
      return ⟨whole, rest,
        hwhole.trans (Nat.succ_lt_succ (hrhs.trans (Nat.lt_succ_self _)))⟩
termination_by (s.length, 0)

def watchedProjection (s : TokenStream) : WatchedParse Expr s.length :=
  match s with
  | .next token rest =>
    if token.kind = .star then return ⟨.star token.position, rest, Nat.lt_succ_self _⟩
    else watchedExpression lowestPrecedence (.next token rest)
  | s => s.watchedExpression lowestPrecedence
termination_by (s.length, 2)

def watchedProjections (s : TokenStream) : WatchedParse (List Expr) s.length := do
  let ⟨first, rest, hfirst⟩ ← s.watchedProjection
  let ⟨more, rest, hmore⟩ ← unwatched (rest.accept .comma)
  if more then
    let ⟨others, rest, hothers⟩ ← rest.watchedProjections
    return ⟨first :: others, rest, hothers.trans ((Nat.le_of_lt_succ hmore).trans_lt hfirst)⟩
  else
    return ⟨[first], rest, (Nat.le_of_lt_succ hmore).trans_lt hfirst⟩
termination_by (s.length, 3)

end

end TokenStream

/-! ## Keeping to a floor -/

section Rules

variable {α β : Type} {floor start mid finish depth : Nat}

/-- From `start` on the counter keeps between the floor and the limit, whether or not the
text is refused.  What is read is what a reader without a counter reads, and behind it the
counter holds `finish`. -/
def Keeps (floor start finish : Nat) (watched : Watching α) (plain : Except SyntaxError α) :
    Prop :=
  ∀ c : Counter, c.value = start → c.Within floor →
    (watch watched c).1 = plain ∧ (watch watched c).2.Within floor ∧
      ((∃ a, plain = .ok a) → (watch watched c).2.value = finish)

namespace Keeps

theorem unwatched (x : Except SyntaxError α) :
    Keeps floor depth depth (unwatched x) x :=
  fun _ hvalue hwithin => ⟨rfl, hwithin, fun _ => hvalue⟩

theorem pure (a : α) : Keeps floor depth depth (pure a : Watching α) (.ok a) :=
  unwatched (.ok a)

theorem throw (e : SyntaxError) : Keeps floor start finish (throw e : Watching α) (.error e) :=
  fun _ _ hwithin => ⟨rfl, hwithin, fun ⟨_, hok⟩ => nomatch hok⟩

/-- A counter goes on from where the first part has left it. -/
theorem bind {x : Watching α} {x' : Except SyntaxError α} {k : α → Watching β}
    {k' : α → Except SyntaxError β} (hx : Keeps floor start mid x x')
    (hk : ∀ a, Keeps floor mid finish (k a) (k' a)) :
    Keeps floor start finish (x >>= k) (x' >>= k') := by
  intro c hvalue hwithin
  have hfirst := hx c hvalue hwithin
  rw [watch_bind]
  rcases hwatch : watch x c with ⟨result, c'⟩
  rw [hwatch] at hfirst
  obtain ⟨rfl, hwithin', hmid⟩ := hfirst
  cases result with
  | error e => exact ⟨rfl, hwithin', fun ⟨_, hok⟩ => nomatch hok⟩
  | ok a => exact hk a c' (hmid ⟨a, rfl⟩) hwithin'

/-- A reading, with what is left for the next one. -/
theorem next {bound : Nat} {x : WatchedParse α bound} {x' : Parse α bound}
    {k : Parsed α bound → Watching β} {k' : Parsed α bound → Except SyntaxError β}
    (hx : Keeps floor start mid x x')
    (hk : ∀ (a : α) (rest : TokenStream) (h : rest.length < bound),
      Keeps floor mid finish (k ⟨a, rest, h⟩) (k' ⟨a, rest, h⟩)) :
    Keeps floor start finish (x >>= k) (x' >>= k') :=
  hx.bind fun parsed => hk parsed.value parsed.rest parsed.shorter

/-- The counter is raised where the depth is checked. -/
theorem raise {position : Position} {k : Watching β} {k' : Except SyntaxError β}
    (hfloor : floor ≤ depth) (hk : Keeps floor (depth + 1) finish k k') :
    Keeps floor depth finish (raise position >>= fun _ => k)
      (checkDepth depth position >>= fun _ => k') := by
  have hraise : Keeps floor depth (depth + 1) (PocketSql.raise position)
      (checkDepth depth position) := by
    intro c hvalue hwithin
    have hiff : c.value < maxDepth ↔ depth < maxDepth := by
      rw [hvalue]
      exact Int.ofNat_lt
    rw [watch_raise, checkDepth]
    by_cases hdepth : depth < maxDepth
    · rw [if_pos (hiff.mpr hdepth), if_pos hdepth]
      refine ⟨rfl, hwithin.change (by omega) (by omega), fun _ => ?_⟩
      exact congrArg (· + 1) hvalue
    · rw [if_neg (hiff.not.mpr hdepth), if_neg hdepth]
      exact ⟨rfl, hwithin, fun ⟨_, hok⟩ => nomatch hok⟩
  exact hraise.bind fun _ => hk

/-- The counter is lowered by as much as it has been raised. -/
theorem lower {levels : Nat} {k : Watching β} {k' : Except SyntaxError β}
    (hfloor : floor ≤ finish) (hk : Keeps floor finish finish k k') :
    Keeps floor (finish + levels) finish (lower levels >>= fun _ => k) k' := by
  have hlower : Keeps floor (finish + levels) finish (PocketSql.lower levels) (.ok ()) := by
    intro c hvalue hwithin
    have hlevel : c.value - levels = finish := by omega
    have hlimit := (hwithin c.value List.mem_cons_self).2
    rw [watch_lower]
    exact ⟨rfl, hwithin.change (by omega) (by omega), fun _ => hlevel⟩
  exact hlower.bind fun _ => hk

end Keeps

end Rules

/-- What is said of the readers of expressions, all of them together. -/
structure TokenStream.KeepsDepth (s : TokenStream) : Prop where
  primary : ∀ {floor depth : Nat}, floor ≤ depth →
    Keeps floor depth depth s.watchedPrimary (s.primary depth)
  expression : ∀ {floor depth : Nat} (precedence : Nat), floor ≤ depth →
    Keeps floor depth depth (s.watchedExpression precedence) (s.expression depth precedence)
  operators : ∀ {floor depth : Nat} (folded precedence : Nat) (lhs : Expr), floor ≤ depth →
    Keeps floor (depth + folded) depth (s.watchedOperators folded precedence lhs)
      (s.operators (depth + folded) precedence lhs)
  projection : ∀ {floor depth : Nat}, floor ≤ depth →
    Keeps floor depth depth s.watchedProjection (s.projection depth)
  projections : ∀ {floor depth : Nat}, floor ≤ depth →
    Keeps floor depth depth s.watchedProjections (s.projections depth)

namespace TokenStream

section Expressions

variable {s : TokenStream} {floor depth : Nat} (hfloor : floor ≤ depth)
  (ih : ∀ s' : TokenStream, s'.length < s.length → s'.KeepsDepth)

include hfloor ih

theorem keeps_primary : Keeps floor depth depth s.watchedPrimary (s.primary depth) := by
  cases s with
  | done | broken =>
      unfold watchedPrimary primary
      exact .throw _
  | next t rest =>
      have hshorter : rest.length < (next t rest).length := Nat.lt_succ_self _
      have hinside : floor ≤ depth + 1 := hfloor.trans (Nat.le_succ depth)
      rw [watchedPrimary, primary]
      cases hkind : t.kind with
      | leftParen =>
          refine Keeps.raise hfloor ?_
          refine ((ih rest hshorter).expression lowestPrecedence hinside).next ?_
          intro inner rest _
          exact (Keeps.unwatched _).next fun _ _ _ => (Keeps.pure _).lower hfloor
      | identifier =>
          refine (Keeps.unwatched _).next fun isCall r hopen => ?_
          cases isCall with
          | false => exact .pure _
          | true =>
              refine (Keeps.unwatched _).next fun isEmpty q hempty => ?_
              cases isEmpty with
              | true => exact .pure _
              | false =>
                  have hlt : q.length < (next t rest).length := by
                    rw [length]
                    omega
                  refine ((ih q hlt).projections hfloor).next fun arguments _ _ => ?_
                  exact (Keeps.unwatched _).next fun _ _ _ => .pure _
      | plus | minus =>
          refine Keeps.raise hfloor ?_
          refine ((ih rest hshorter).primary hinside).next fun operand _ _ => ?_
          exact (Keeps.pure _).lower hfloor
      | numberLiteral => exact (Keeps.unwatched _).bind fun value => .pure _
      | stringLiteral | kwTrue | kwFalse | kwNull => exact .pure _
      | _ => exact .throw _

/-- In a chain the counter is above the depth by what has been folded. -/
theorem keeps_operators (folded precedence : Nat) (lhs : Expr) :
    Keeps floor (depth + folded) depth (s.watchedOperators folded precedence lhs)
      (s.operators (depth + folded) precedence lhs) := by
  cases s with
  | done position =>
      rw [watchedOperators, operators]
      exact (Keeps.pure _).lower hfloor
  | broken error =>
      rw [watchedOperators, operators]
      exact .throw _
  | next t rest =>
      rw [watchedOperators, operators]
      split
      · exact (Keeps.pure _).lower hfloor
      · refine Keeps.raise (by omega) ?_
        refine ((ih rest (Nat.lt_succ_self _)).expression _ (by omega)).next fun rhs q hrhs => ?_
        have hlt : q.length < (next t rest).length := hrhs.trans (Nat.lt_succ_self _)
        refine ((ih q hlt).operators (folded + 1) _ _ hfloor).next fun whole _ _ => ?_
        exact .pure _

theorem keeps_expression (precedence : Nat) :
    Keeps floor depth depth (s.watchedExpression precedence) (s.expression depth precedence) := by
  rw [watchedExpression, expression]
  refine (keeps_primary hfloor ih).next fun first rest hfirst => ?_
  refine ((ih rest hfirst).operators 0 precedence first hfloor).next fun whole _ _ => ?_
  exact .pure _

theorem keeps_projection : Keeps floor depth depth s.watchedProjection (s.projection depth) := by
  cases s with
  | done | broken =>
      unfold watchedProjection projection
      exact keeps_expression hfloor ih lowestPrecedence
  | next t rest =>
      rw [watchedProjection, projection]
      split
      · exact .pure _
      · exact keeps_expression hfloor ih lowestPrecedence

theorem keeps_projections :
    Keeps floor depth depth s.watchedProjections (s.projections depth) := by
  rw [watchedProjections, projections]
  refine (keeps_projection hfloor ih).next fun first rest hfirst => ?_
  refine (Keeps.unwatched _).next fun more q hmore => ?_
  cases more with
  | false => exact .pure _
  | true => exact ((ih q (by omega)).projections hfloor).next fun others _ _ => .pure _

end Expressions

/-- By induction on the length of the stream. -/
theorem keepsDepth (s : TokenStream) : s.KeepsDepth := by
  induction s using lengthInduction with
  | shorter s ih =>
      exact {
        primary := fun hfloor => keeps_primary hfloor ih
        expression := fun precedence hfloor => keeps_expression hfloor ih precedence
        operators := fun folded precedence lhs hfloor =>
          keeps_operators hfloor ih folded precedence lhs
        projection := fun hfloor => keeps_projection hfloor ih
        projections := fun hfloor => keeps_projections hfloor ih }

end TokenStream

/-! ## Balance -/

/-- A reading under a counter that starts at the depth.  It is that of the reader which is
told the depth; the counter keeps from the depth to the limit; and behind what has been read
it is back at the depth. -/
structure Balanced {α : Type} (depth : Nat) (watched : Watching α)
    (plain : Except SyntaxError α) : Prop where
  reads : (watch watched (.startingAt depth)).1 = plain
  within : (watch watched (.startingAt depth)).2.Within depth
  restored : ∀ a, plain = .ok a → (watch watched (.startingAt depth)).2.value = depth

theorem Keeps.balanced {α : Type} {depth : Nat} {watched : Watching α}
    {plain : Except SyntaxError α} (hdepth : depth ≤ maxDepth)
    (hkeeps : Keeps depth depth depth watched plain) : Balanced depth watched plain := by
  obtain ⟨hreads, hwithin, hrestored⟩ :=
    hkeeps (.startingAt depth) rfl (Counter.within_startingAt hdepth)
  exact ⟨hreads, hwithin, fun a ha => hrestored ⟨a, ha⟩⟩

end PocketSql
