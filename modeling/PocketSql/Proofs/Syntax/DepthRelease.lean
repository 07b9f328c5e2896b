import Mathlib
import PocketSql.Proofs.Syntax.DepthCourse
import PocketSql.Proofs.Syntax.ExpressionPromptness

/-!
# The depth is released

What a reader reads from a depth it reads from every smaller one; from a larger one it may
only fail at the limit.  Behind an expression the counter of the depth is back where it was.
So in a list of projections every item is read as if it stood alone, and a list has no limit
of its own.
-/

namespace PocketSql

open Parse (outcome)

/-! ## Readings from a larger depth -/

section Rules

variable {α β : Type} {depth deeper : Nat}

/-- The second reading is the first one, unless it fails at the limit of the depth.  So all
that the second one reads, the first one reads too. -/
def SameUnlessTooDeep (shallow deep : Except SyntaxError α) : Prop :=
  deep = shallow ∨
    ∃ position, deep = .error (.grammatical ⟨position, .tooDeep maxDepth⟩)

namespace SameUnlessTooDeep

theorem refl (x : Except SyntaxError α) : SameUnlessTooDeep x x :=
  .inl rfl

theorem bind {x x' : Except SyntaxError α} {k k' : α → Except SyntaxError β}
    (hx : SameUnlessTooDeep x x') (hk : ∀ a, SameUnlessTooDeep (k a) (k' a)) :
    SameUnlessTooDeep (x >>= k) (x' >>= k') := by
  rcases hx with rfl | ⟨position, rfl⟩
  · cases x' with
    | error e => exact .refl _
    | ok a => exact hk a
  · exact .inr ⟨position, rfl⟩

/-- A reading, with what is left for the next one. -/
theorem next {bound : Nat} {x x' : Parse α bound} {k k' : Parsed α bound → Except SyntaxError β}
    (hx : SameUnlessTooDeep x x')
    (hk : ∀ (a : α) (rest : TokenStream) (h : rest.length < bound),
      SameUnlessTooDeep (k ⟨a, rest, h⟩) (k' ⟨a, rest, h⟩)) :
    SameUnlessTooDeep (x >>= k) (x' >>= k') :=
  hx.bind fun parsed => hk parsed.value parsed.rest parsed.shorter

theorem check (hle : depth ≤ deeper) (position : Position) :
    SameUnlessTooDeep (checkDepth depth position) (checkDepth deeper position) := by
  unfold checkDepth
  by_cases hdeeper : deeper < maxDepth
  · rw [if_pos hdeeper, if_pos (hle.trans_lt hdeeper)]
    exact .refl _
  · rw [if_neg hdeeper]
    exact .inr ⟨position, rfl⟩

end SameUnlessTooDeep

end Rules

/-- What is said of the readers of expressions, all of them together. -/
structure TokenStream.ReadsDeeper (s : TokenStream) : Prop where
  primary : ∀ {depth deeper : Nat}, depth ≤ deeper →
    SameUnlessTooDeep (s.primary depth) (s.primary deeper)
  expression : ∀ {depth deeper : Nat} (precedence : Nat), depth ≤ deeper →
    SameUnlessTooDeep (s.expression depth precedence) (s.expression deeper precedence)
  operators : ∀ {depth deeper : Nat} (precedence : Nat) (lhs : Expr), depth ≤ deeper →
    SameUnlessTooDeep (s.operators depth precedence lhs) (s.operators deeper precedence lhs)
  projections : ∀ {depth deeper : Nat}, depth ≤ deeper →
    SameUnlessTooDeep (s.projections depth) (s.projections deeper)

namespace TokenStream

section Expressions

variable {s : TokenStream} {depth deeper : Nat} (hle : depth ≤ deeper)
  (ih : ∀ s' : TokenStream, s'.length < s.length → s'.ReadsDeeper)

include hle ih

theorem deeper_primary : SameUnlessTooDeep (s.primary depth) (s.primary deeper) := by
  cases s with
  | done | broken =>
      unfold primary
      exact .refl _
  | next t rest =>
      have hshorter : rest.length < (next t rest).length := Nat.lt_succ_self _
      have hinside : depth + 1 ≤ deeper + 1 := Nat.succ_le_succ hle
      rw [primary, primary]
      cases hkind : t.kind with
      | leftParen =>
          refine (SameUnlessTooDeep.check hle t.position).bind fun _ => ?_
          refine ((ih rest hshorter).expression lowestPrecedence hinside).next ?_
          exact fun inner rest _ => .refl _
      | identifier =>
          refine (SameUnlessTooDeep.refl _).next fun isCall r hopen => ?_
          cases isCall with
          | false => exact .refl _
          | true =>
              refine (SameUnlessTooDeep.refl _).next fun isEmpty q hempty => ?_
              cases isEmpty with
              | true => exact .refl _
              | false =>
                  have hlt : q.length < (next t rest).length := by
                    rw [length]
                    omega
                  exact ((ih q hlt).projections hle).next fun arguments _ _ => .refl _
      | plus | minus =>
          refine (SameUnlessTooDeep.check hle t.position).bind fun _ => ?_
          exact ((ih rest hshorter).primary hinside).next fun operand _ _ => .refl _
      | _ => exact .refl _

theorem deeper_operators (precedence : Nat) (lhs : Expr) :
    SameUnlessTooDeep (s.operators depth precedence lhs) (s.operators deeper precedence lhs) := by
  cases s with
  | done | broken =>
      unfold operators
      exact .refl _
  | next t rest =>
      have hinside : depth + 1 ≤ deeper + 1 := Nat.succ_le_succ hle
      rw [operators, operators]
      split
      · exact .refl _
      · refine (SameUnlessTooDeep.check hle t.position).bind fun _ => ?_
        refine ((ih rest (Nat.lt_succ_self _)).expression _ hinside).next fun rhs q hrhs => ?_
        have hlt : q.length < (next t rest).length := hrhs.trans (Nat.lt_succ_self _)
        exact ((ih q hlt).operators _ _ hinside).next fun whole _ _ => .refl _

theorem deeper_expression (precedence : Nat) :
    SameUnlessTooDeep (s.expression depth precedence) (s.expression deeper precedence) := by
  rw [expression, expression]
  refine (deeper_primary hle ih).next fun first rest hfirst => ?_
  exact ((ih rest hfirst).operators precedence first hle).next fun whole _ _ => .refl _

theorem deeper_projection :
    SameUnlessTooDeep (s.projection depth) (s.projection deeper) := by
  cases s with
  | done | broken =>
      unfold projection
      exact deeper_expression hle ih lowestPrecedence
  | next t rest =>
      rw [projection, projection]
      split
      · exact .refl _
      · exact deeper_expression hle ih lowestPrecedence

theorem deeper_projections :
    SameUnlessTooDeep (s.projections depth) (s.projections deeper) := by
  rw [projections, projections]
  refine (deeper_projection hle ih).next fun first rest hfirst => ?_
  refine (SameUnlessTooDeep.refl _).next fun more q hmore => ?_
  cases more with
  | false => exact .refl _
  | true => exact ((ih q (by omega)).projections hle).next fun others _ _ => .refl _

end Expressions

/-- By induction on the length of the stream. -/
theorem readsDeeper (s : TokenStream) : s.ReadsDeeper := by
  induction s using lengthInduction with
  | shorter s ih =>
      exact {
        primary := fun hle => deeper_primary hle ih
        expression := fun precedence hle => deeper_expression hle ih precedence
        operators := fun precedence lhs hle => deeper_operators hle ih precedence lhs
        projections := fun hle => deeper_projections hle ih }

/-! ## Lists of projections -/

/-- The tokens are read as a projection, and nothing of what stands behind them is.  That may
be the end of the text. -/
def StandsAlone (depth : Nat) (ts : List Token) (e : Expr) : Prop :=
  ∃ behind : TokenStream, outcome ((behind.prepend ts).projection depth) = .ok (e, behind)

variable {depth : Nat} {ts : List Token} {e : Expr}

/-- The reader is prompt, so it has not looked further than at the next token. -/
theorem StandsAlone.reads (halone : StandsAlone depth ts e) {rest : TokenStream}
    (hrest : rest.NextIn expressionFollow) :
    outcome ((rest.prepend ts).projection depth) = .ok (e, rest) := by
  obtain ⟨behind, hread⟩ := halone
  have hprompt := (prompt_projection ((expressionsPrompt _).expression depth lowestPrecedence)
    ).promptAt (behind.prepend ts) (Nat.lt_succ_self _)
  obtain ⟨front, hfront, -, htakes⟩ := hprompt.reads hread
  rw [eq_of_prepend_eq hfront rfl]
  exact htakes rest (.inr hrest)

/-- By induction on the list, whose items do not raise the depth for each other. -/
theorem projections_of_standsAlone {items : List (List Token × Expr)}
    (hts : Separated (items.map Prod.fst) ts)
    (hitems : ∀ item ∈ items, StandsAlone depth item.1 item.2) {rest : TokenStream}
    (hrest : rest.NextIn expressionFollow) (hcomma : rest.nextKind? ≠ some .comma) :
    outcome ((rest.prepend ts).projections depth) = .ok (items.map Prod.snd, rest) := by
  induction items generalizing ts with
  | nil => cases hts
  | cons item items ih =>
      obtain ⟨hitem, hothers⟩ := List.forall_mem_cons.mp hitems
      rw [outcome_projections]
      rcases separated_cons.mp hts with ⟨hnil, rfl⟩ | ⟨comma, others, hkind, hseparated, rfl⟩
      · obtain rfl := List.map_eq_nil_iff.mp hnil
        have hlast : outcome (rest.accept .comma) = .ok (false, rest) := by
          obtain ⟨kind, -, hkind⟩ := hrest
          exact (accept_false (by decide)).mpr ⟨rfl, kind, hkind, fun heq => hcomma (heq ▸ hkind)⟩
        exact bind_eq_ok.mpr ⟨_, hitem.reads hrest, bind_eq_ok.mpr ⟨_, hlast, rfl⟩⟩
      · have hnext : (next comma (rest.prepend others)).NextIn expressionFollow :=
          nextIn_next (by rw [hkind]; decide) _
        rw [prepend_append, prepend_cons]
        exact bind_eq_ok.mpr ⟨_, hitem.reads hnext, bind_eq_ok.mpr ⟨_, accept_next hkind _,
          bind_eq_ok.mpr ⟨_, ih hseparated hothers, rfl⟩⟩⟩

end TokenStream

/-! ## Release -/

/-- From every depth up to the limit, the readers of primaries and of expressions leave the
counter of the depth as they have found it.  What they read and how far does not depend on the
depth, only that from a larger one they may fail at the limit.  So a list of projections is
read when its items are read one by one. -/
theorem depth_is_released {depth : Nat} (hdepth : depth ≤ maxDepth) :
    (∀ s : TokenStream, Balanced depth s.watchedPrimary (s.primary depth) ∧
      ∀ precedence,
        Balanced depth (s.watchedExpression precedence) (s.expression depth precedence)) ∧
    (∀ (s : TokenStream) (deeper : Nat), depth ≤ deeper →
      SameUnlessTooDeep (s.primary depth) (s.primary deeper) ∧
      ∀ precedence,
        SameUnlessTooDeep (s.expression depth precedence) (s.expression deeper precedence)) ∧
    ∀ (items : List (List Token × Expr)) (ts : List Token) (rest : TokenStream),
      Separated (items.map Prod.fst) ts →
      (∀ item ∈ items, TokenStream.StandsAlone depth item.1 item.2) →
      rest.NextIn TokenStream.expressionFollow → rest.nextKind? ≠ some .comma →
      outcome ((rest.prepend ts).projections depth) = .ok (items.map Prod.snd, rest) ∧
        Balanced depth (rest.prepend ts).watchedProjections
          ((rest.prepend ts).projections depth) := by
  refine ⟨fun s => ?_, fun s deeper hle => ?_, fun items ts rest hts hitems hrest hcomma => ?_⟩
  · exact ⟨(s.keepsDepth.primary (Nat.le_refl _)).balanced hdepth,
      fun precedence => (s.keepsDepth.expression precedence (Nat.le_refl _)).balanced hdepth⟩
  · exact ⟨s.readsDeeper.primary hle,
      fun precedence => s.readsDeeper.expression precedence hle⟩
  · exact ⟨TokenStream.projections_of_standsAlone hts hitems hrest hcomma,
      ((rest.prepend ts).keepsDepth.projections (Nat.le_refl _)).balanced hdepth⟩

/-- The items of `SELECT (a), -b`, each of which raises the depth by one. -/
def groupAndSign : List (List Token × Expr) :=
  [([⟨.leftParen, ⟨1, 7⟩, ""⟩, ⟨.identifier, ⟨1, 8⟩, "a"⟩, ⟨.rightParen, ⟨1, 9⟩, ""⟩],
      .ident ⟨⟨1, 8⟩, "a"⟩),
    ([⟨.minus, ⟨1, 12⟩, ""⟩, ⟨.identifier, ⟨1, 13⟩, "b"⟩],
      .unary ⟨1, 12⟩ .minus (.ident ⟨⟨1, 13⟩, "b"⟩))]

/-- One level below the limit the first item leaves enough for the second one. -/
theorem groupAndSign_below_limit : 255 ≤ maxDepth ∧
    ∃ ts, Separated (groupAndSign.map Prod.fst) ts ∧
      (∀ item ∈ groupAndSign, TokenStream.StandsAlone 255 item.1 item.2) ∧
      outcome (((TokenStream.done ⟨1, 14⟩).prepend ts).projections 255) =
        .ok (groupAndSign.map Prod.snd, .done ⟨1, 14⟩) ∧
      (watch ((TokenStream.done ⟨1, 14⟩).prepend ts).watchedProjections (.startingAt 255)).2.value =
        255 := by
  have hts : Separated (groupAndSign.map Prod.fst)
      (groupAndSign[0].1 ++ ⟨.comma, ⟨1, 10⟩, ""⟩ :: groupAndSign[1].1) :=
    .more _ rfl (.last _)
  have halone : ∀ item ∈ groupAndSign, TokenStream.StandsAlone 255 item.1 item.2 := by
    simp only [groupAndSign, List.forall_mem_cons]
    exact ⟨⟨.done ⟨1, 10⟩, by cbv⟩, ⟨.done ⟨1, 14⟩, by cbv⟩, nofun⟩
  obtain ⟨hread, hbalanced⟩ := (depth_is_released (show 255 ≤ maxDepth by decide)).2.2
    groupAndSign _ (.done ⟨1, 14⟩) hts halone ⟨.eof, by decide, rfl⟩ (by decide)
  refine ⟨by decide, _, hts, halone, hread, ?_⟩
  rcases hplain : ((TokenStream.done ⟨1, 14⟩).prepend _).projections 255 with e | parsed
  · rw [hplain] at hread
    cases hread
  · exact hbalanced.restored parsed hplain

end PocketSql
