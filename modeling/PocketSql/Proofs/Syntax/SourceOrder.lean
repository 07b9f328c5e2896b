import Mathlib
import PocketSql.Proofs.Token.Lossless
import PocketSql.Proofs.Syntax.LazyLexing
import PocketSql.Proofs.Syntax.StatementSoundness
import PocketSql.Proofs.Syntax.Walk

/-!
# The order of nodes and tokens

Every node of a parsed statement stands at one of its tokens, and a walk comes to the nodes in
the order of these tokens.  The node for a sign, a name, a literal or a star takes a token of its
own, while a binary expression stands where its left operand does and parentheses leave no node.
The tokens of a text stand one behind the other, so a walk never goes back in the text.
-/

namespace PocketSql

/-! ## Nodes at tokens -/

/-- The name that a node has from the text, apart from the names of its children. -/
def Node.name? : Node → Option String
  | name n => some n.name
  | column d => some d.name.name
  | expr (.ident n) => some n.name
  | _ => none

/-- The node stands at the token, and its name is that of the token. -/
structure Token.Marks (t : Token) (n : Node) : Prop where
  position : n.position = t.position
  name : ∀ name, n.name? = some name → t.kind = .identifier ∧ t.literal = name

theorem Token.Marks.ofPosition {t : Token} {n : Node} (hposition : n.position = t.position)
    (hname : n.name? = none) : t.Marks n := by
  refine ⟨hposition, fun name hn => ?_⟩
  cases hname.symm.trans hn

theorem Token.Marks.ofIdentifier {t : Token} {n : Node} (hkind : t.kind = .identifier)
    (hposition : n.position = t.position) (hname : n.name? = some t.literal) : t.Marks n := by
  refine ⟨hposition, fun name hn => ⟨hkind, ?_⟩⟩
  exact Option.some.inj (hname.symm.trans hn)

/-- The nodes stand at some of the tokens, in their order.  Several may stand at one of them. -/
inductive ReadsOff : List Token → List Node → Prop
  | done (ts : List Token) : ReadsOff ts []
  | skip {ts : List Token} {ns : List Node} (t : Token) : ReadsOff ts ns → ReadsOff (t :: ts) ns
  | take {t : Token} {ts : List Token} {n : Node} {ns : List Node} : t.Marks n →
      ReadsOff (t :: ts) ns → ReadsOff (t :: ts) (n :: ns)

namespace ReadsOff

variable {ts us : List Token} {ns ms : List Node}

theorem behind (ts : List Token) (hus : ReadsOff us ns) : ReadsOff (ts ++ us) ns := by
  induction ts with
  | nil => exact hus
  | cons t ts ih => exact .skip t ih

theorem append (hts : ReadsOff ts ns) (hus : ReadsOff us ms) : ReadsOff (ts ++ us) (ns ++ ms) := by
  induction hts with
  | done ts => exact hus.behind ts
  | skip t _ ih => exact .skip t ih
  | take hmarks _ ih => exact .take hmarks ih

theorem before (us : List Token) (hts : ReadsOff ts ns) : ReadsOff (ts ++ us) ns := by
  have hboth := hts.append (.done us)
  rwa [List.append_nil] at hboth

theorem head {t : Token} {n : Node} (ts : List Token) (hmarks : t.Marks n) :
    ReadsOff (t :: ts) [n] :=
  .take hmarks (.done _)

/-- A node without a name of its own may stand where the first one does. -/
theorem again {n m : Node} (hm : m.name? = none) (hposition : m.position = n.position)
    (hts : ReadsOff ts (n :: ns)) : ReadsOff ts (m :: n :: ns) := by
  induction ts with
  | nil => cases hts
  | cons t ts ih =>
      cases hts with
      | skip _ hrest => exact .skip t (ih hrest)
      | take hmarks hrest =>
          exact .take (.ofPosition (hposition.trans hmarks.position) hm) (.take hmarks hrest)

theorem exists_marks (hts : ReadsOff ts ns) : ∀ n ∈ ns, ∃ t ∈ ts, t.Marks n := by
  induction hts with
  | done => exact nofun
  | skip t _ ih =>
      intro n hn
      obtain ⟨t', ht', hmarks⟩ := ih n hn
      exact ⟨t', List.mem_cons_of_mem t ht', hmarks⟩
  | take hmarks _ ih => exact List.forall_mem_cons.mpr ⟨⟨_, List.mem_cons_self, hmarks⟩, ih⟩

/-- Nodes at tokens that stand one behind the other never go back. -/
theorem pairwise_position (hts : ReadsOff ts ns)
    (hincreasing : ts.Pairwise fun a b => a.position < b.position) :
    ns.Pairwise fun a b => ¬b.position < a.position := by
  induction hts with
  | done => exact .nil
  | skip t _ ih => exact ih (List.pairwise_cons.mp hincreasing).2
  | @take t ts n ns hmarks hrest ih =>
      refine List.pairwise_cons.mpr ⟨fun m hm hlt => ?_, ih hincreasing⟩
      obtain ⟨t', ht', hmarks'⟩ := hrest.exists_marks m hm
      rw [hmarks.position, hmarks'.position] at hlt
      rcases List.mem_cons.mp ht' with rfl | ht'
      · exact Position.lt_irrefl _ hlt
      · exact Position.lt_asymm hlt ((List.pairwise_cons.mp hincreasing).1 t' ht')

end ReadsOff

/-! ## Expressions -/

open Outline (all_node flatMap_all_outlines)

/-- The parts of a list stand in its tokens one behind the other. -/
theorem readsOff_separated {items : List (List Token × Expr)} {ts : List Token}
    (hitems : Separated (items.map Prod.fst) ts)
    (hreads : ∀ item ∈ items, ReadsOff item.1 item.2.outline.all) :
    ReadsOff ts (items.flatMap fun item => item.2.outline.all) := by
  generalize hparts : items.map Prod.fst = parts at hitems
  induction hitems generalizing items with
  | last ts =>
      obtain ⟨item, rfl, rfl⟩ := List.map_eq_singleton_iff.mp hparts
      rw [List.flatMap_singleton]
      exact hreads item List.mem_cons_self
  | more ts _ _ ih =>
      obtain ⟨item, others, rfl, rfl, hothers⟩ := List.map_eq_cons_iff.mp hparts
      rw [List.forall_mem_cons] at hreads
      rw [List.flatMap_cons]
      exact hreads.1.append (.skip _ (ih hreads.2 hothers))

/-- By induction on the derivation. -/
theorem Derives.readsOff {Value : Token → Literal → Prop} {level : Nat} {ts : List Token} {e : Expr}
    (hts : Derives Value level ts e) : ReadsOff ts e.outline.all := by
  induction hts with
  | literal | star => exact .head _ (.ofPosition rfl rfl)
  | name hkind => exact .head _ (.ofIdentifier hkind rfl rfl)
  | group _ _ _ ih => exact .skip _ (ih.before _)
  | sign _ _ ih =>
      rw [Expr.outline, all_node, List.flatMap_singleton]
      exact .take (.ofPosition rfl rfl) (.skip _ ih)
  | emptyCall hkind =>
      rw [Expr.outline, all_node]
      exact .take (.ofPosition rfl rfl) (.head _ (.ofIdentifier hkind rfl rfl))
  | call hkind _ hitems _ _ ih =>
      rw [Expr.outline, all_node, List.flatMap_cons, flatMap_all_outlines, List.flatMap_map]
      refine .take (.ofPosition rfl rfl) (.take (.ofIdentifier hkind rfl rfl) ?_)
      exact .skip _ (.skip _ ((readsOff_separated hitems ih).before _))
  | @fold _ _ _ op l _ _ _ _ ihl ihr =>
      rw [Expr.outline, all_node, List.flatMap_cons, List.flatMap_singleton]
      have hboth := ihl.append (ihr.skip op)
      obtain ⟨rest, hall⟩ := l.outline.all_eq_cons
      rw [hall, Outline.root_outline] at hboth ⊢
      exact hboth.again rfl rfl
  | tighter _ _ ih => exact ih

/-! ## Statements -/

variable {Value : Token → Literal → Prop} {ts : List Token}

theorem DerivesList.readsOff {α : Type} {Item : List Token → α → Prop} {f : α → List Node}
    {as : List α} (hts : DerivesList Item ts as)
    (hitem : ∀ {ts a}, Item ts a → ReadsOff ts (f a)) : ReadsOff ts (as.flatMap f) := by
  induction hts with
  | last hfirst =>
      rw [List.flatMap_singleton]
      exact hitem hfirst
  | more hfirst _ _ ih =>
      rw [List.flatMap_cons]
      exact (hitem hfirst).append (.skip _ ih)

theorem DerivesName.readsOff {name : Ident} (hts : DerivesName ts name) :
    ReadsOff ts [.name name] := by
  cases hts with
  | name hkind => exact .head _ (.ofIdentifier hkind rfl rfl)

theorem DerivesClause.readsOff {keyword : Kind} {value : Option Expr}
    (hts : DerivesClause (Derives Value) keyword ts value) :
    ReadsOff ts (value.toList.flatMap fun e => e.outline.all) := by
  cases hts with
  | absent => exact .done _
  | present _ he =>
      rw [Option.toList_some, List.flatMap_singleton]
      exact .skip _ he.readsOff

theorem DerivesFill.readsOff {default : Option Expr} {autoIncrement : Bool}
    (hts : DerivesFill (Derives Value) ts (default, autoIncrement)) :
    ReadsOff ts (default.toList.flatMap fun e => e.outline.all) := by
  cases hts with
  | defaultFirst hdefault _ => exact hdefault.readsOff.before _
  | markFirst _ hdefault => exact hdefault.readsOff.behind _

theorem DerivesColumn.readsOff {d : ColumnDefinition} (hts : DerivesColumn (Derives Value) ts d) :
    ReadsOff ts d.outline.all := by
  cases hts with
  | column hkind _ _ hfill =>
      rw [ColumnDefinition.outline, all_node, List.flatMap_map]
      exact .take (.ofIdentifier hkind rfl rfl) (.skip _ (.skip _ (hfill.readsOff.behind _)))

theorem DerivesAssignment.readsOff {a : Assignment}
    (hts : DerivesAssignment (Derives Value) ts a) :
    ReadsOff ts (a.outlines.flatMap Outline.all) := by
  cases hts with
  | assignment hkind _ hvalue =>
      rw [Assignment.outlines, List.flatMap_cons, List.flatMap_singleton]
      exact .take (.ofIdentifier hkind rfl rfl) (.skip _ (.skip _ hvalue.readsOff))

theorem DerivesAssignments.readsOff {assignments : List Assignment}
    (hts : DerivesAssignments (Derives Value) ts assignments) :
    ReadsOff ts ((assignments.flatMap Assignment.outlines).flatMap Outline.all) := by
  rw [List.flatMap_assoc]
  cases hts with
  | bare hlist => exact hlist.readsOff DerivesAssignment.readsOff
  | enclosed _ hlist _ =>
      exact .skip _ ((hlist.readsOff DerivesAssignment.readsOff).before _)

theorem DerivesTargets.readsOff {columns : List Ident} (hts : DerivesTargets ts columns) :
    ReadsOff ts (columns.flatMap fun c => [.name c]) := by
  cases hts with
  | all => exact .done _
  | named _ hlist _ => exact .skip _ ((hlist.readsOff DerivesName.readsOff).before _)

theorem DerivesStatement.readsOff {s : Statement} (hts : DerivesStatement (Derives Value) ts s) :
    ReadsOff ts s.outline.all := by
  rw [Statement.outline, all_node]
  cases hts with
  | createTable hts =>
      cases hts with
      | createTable _ _ hname _ hcolumns _ =>
          have hall := hcolumns.readsOff DerivesColumn.readsOff
          rw [Statement.children, List.flatMap_cons, List.flatMap_map]
          refine .take (.ofPosition rfl rfl) (.skip _ (.skip _ ?_))
          exact .take (.ofIdentifier hname rfl rfl) (.skip _ (.skip _ (hall.before _)))
  | select hts =>
      cases hts with
      | select _ hprojections _ htable hcondition =>
          have hall := hprojections.readsOff Derives.readsOff
          rw [Statement.children, flatMap_all_outlines, List.flatMap_append, List.flatMap_cons]
          refine .take (.ofPosition rfl rfl) (.skip _ ?_)
          exact hall.append (.skip _ (htable.readsOff.append hcondition.readsOff))
  | insert hts =>
      cases hts with
      | insert _ _ hname htargets _ _ hvalues _ =>
          have hall := hvalues.readsOff Derives.readsOff
          rw [Statement.children, List.flatMap_append, List.flatMap_cons, List.flatMap_map,
            flatMap_all_outlines]
          refine .take (.ofPosition rfl rfl) (.skip _ (.skip _ ?_))
          refine .take (.ofIdentifier hname rfl rfl) (.skip _ ?_)
          exact htargets.readsOff.append (.skip _ (.skip _ (hall.before _)))
  | update hts =>
      cases hts with
      | update _ hname _ hassignments hcondition =>
          rw [Statement.children, List.flatMap_append, List.flatMap_cons, flatMap_all_outlines]
          refine .take (.ofPosition rfl rfl) (.skip _ ?_)
          refine .take (.ofIdentifier hname rfl rfl) (.skip _ (.skip _ ?_))
          exact hassignments.readsOff.append hcondition.readsOff
  | delete hts =>
      cases hts with
      | delete _ _ hname hcondition =>
          rw [Statement.children, List.flatMap_cons, flatMap_all_outlines]
          refine .take (.ofPosition rfl rfl) (.skip _ (.skip _ ?_))
          exact .take (.ofIdentifier hname rfl rfl) (.skip _ hcondition.readsOff)

theorem DerivesBatch.readsOff {statements : List Statement}
    (hts : DerivesBatch (Derives Value) ts statements) :
    ∀ s ∈ statements, ReadsOff ts s.outline.all := by
  induction hts with
  | empty => exact nofun
  | last hstatement => exact List.forall_mem_singleton.mpr hstatement.readsOff
  | more hstatement _ _ ih =>
      refine List.forall_mem_cons.mpr ⟨hstatement.readsOff.before _, fun s hs => ?_⟩
      exact ((ih s hs).skip _).behind _

/-! ## Texts -/

namespace TokenStream

theorem tokens_prepend (finish : Position) (ts : List Token) :
    ((done finish).prepend ts).tokens = ts := by
  induction ts with
  | nil => rfl
  | cons t ts ih => exact congrArg (t :: ·) ih

theorem toList_prepend (finish : Position) (ts : List Token) :
    ((done finish).prepend ts).toList = .ok (ts ++ [⟨.eof, finish, ""⟩]) := by
  induction ts with
  | nil => rfl
  | cons t ts ih =>
      rw [prepend_cons, toList, ih]
      rfl

end TokenStream

/-- The nodes of a text that is read stand at its tokens. -/
theorem readsOff_of_parse {text : String} {statements : List Statement}
    (hread : parse text = .ok statements) : ∃ ts finish,
      TokenStream.ofString text = (TokenStream.done finish).prepend ts ∧
        ∀ s ∈ statements, ReadsOff ts s.outline.all := by
  obtain ⟨ts, finish, hstream, hbatch⟩ :=
    (TokenStream.ofString text).derives_of_statements (fun hts => hts.derives) hread
  exact ⟨ts, finish, hstream, hbatch.readsOff⟩

theorem increasing_tokens {text : String} {finish : Position} {ts : List Token}
    (hstream : TokenStream.ofString text = (TokenStream.done finish).prepend ts) :
    ts.Pairwise fun a b => a.position < b.position := by
  have hdivided := dividedBy_ofChars [] text.toList (by decide)
  have hstart : location [] = .start := rfl
  rw [hstart] at hdivided
  change DividedBy [] text.toList (TokenStream.ofString text).toList at hdivided
  rw [hstream, TokenStream.toList_prepend] at hdivided
  obtain ⟨pieces, blanks, hdivides, htokens⟩ := hdivided
  have hincreasing := hdivides.increasing
  rw [← htokens] at hincreasing
  exact (List.pairwise_append.mp hincreasing).1

/-- A walk of any visitor enters exactly the nodes above which it has pruned none, each of them
once and before what stands below it and behind it, and leaves each one when it has left all that
it entered below it, at once if it pruned it.  Over the nodes of a text that is read, a walk that
prunes nothing never goes back in the text. -/
theorem walk_covers_in_order :
    (∀ (σ : Type) (v : Visitor σ) (start : σ) (s : Statement), ∃ visits,
      s.outline.walk v.recorded (start, []) = (s.outline.walk v start, visits.map Visit.call) ∧
      WellNested visits ∧
      (∀ address node, Entered visits address node ↔
        (Node.statement s).at? address = some node ∧
          ∀ above, above <+: address → above ≠ address → ¬Pruned visits above) ∧
      (entrances visits).Pairwise (· < ·) ∧
      LeavesPruned visits) ∧
    (∀ (prune : Node → Bool) (s : Statement),
      s.outline.walk (recorder prune) [] = s.outline.events prune) ∧
    ∀ (text : String) (statements : List Statement), parse text = .ok statements →
      ∀ s ∈ statements, (s.outline.entered fun _ => false).Pairwise
        fun a b => ¬b.position < a.position := by
  refine ⟨fun σ v start s => ?_, fun prune s => ?_, fun text statements hread s hs => ?_⟩
  · obtain ⟨visits, htour, hwalk⟩ := s.outline.exists_tour v [] start
    refine ⟨visits, hwalk [], htour.wellNested, fun address node => ?_,
      htour.pairwise_entrances, htour.leavesPruned⟩
    exact htour.entered_iff (Outline.unfolded_statement s)
  · exact s.outline.walk_recorder prune []
  · obtain ⟨ts, finish, hstream, hreads⟩ := readsOff_of_parse hread
    rw [Outline.entered_eq_all]
    exact (hreads s hs).pairwise_position (increasing_tokens hstream)

/-- A sum stands where its first operand does. -/
theorem sum_walked_in_order :
    ∃ s, parse "select a + b from t" = .ok [s] ∧
      (s.outline.entered fun _ => false).Pairwise (fun a b => ¬b.position < a.position) ∧
      (s.outline.entered fun _ => false).map Node.position =
        [⟨1, 0⟩, ⟨1, 7⟩, ⟨1, 7⟩, ⟨1, 11⟩, ⟨1, 18⟩] ∧
      (s.outline.entered fun node => node.label == "Binary(+)").map Node.position =
        [⟨1, 0⟩, ⟨1, 7⟩, ⟨1, 18⟩] := by
  have hread : parse "select a + b from t" =
      .ok [.select ⟨⟨1, 0⟩, [.binary .plus (.ident ⟨⟨1, 7⟩, "a"⟩) (.ident ⟨⟨1, 11⟩, "b"⟩)],
        .ident ⟨⟨1, 18⟩, "t"⟩, none⟩] := by
    cbv
  obtain ⟨-, -, horder⟩ := walk_covers_in_order
  exact ⟨_, hread, horder _ _ hread _ List.mem_cons_self, rfl, rfl⟩

end PocketSql
