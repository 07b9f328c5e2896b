import Mathlib
import PocketSql.Syntax.Visitor

/-!
# Walks over the nodes of a statement

What a visitor sees of a statement.  The nodes are counted by their addresses, the indices of the
children on the way down from the statement, since equal nodes stand at several places.  A walk
of any visitor is a tour of the outline: it enters the nodes in the order of their addresses,
leaves each one as often as it enters it, and leaves out exactly what stands below a node that
the visitor has not descended from.
-/

namespace PocketSql

/-! ## Addresses -/

/-- The indices of the children on the way down to a node. -/
abbrev Address := List Nat

/-- The nodes right below a node, in the order of the text. -/
def Node.children : Node → List Node
  | statement (.createTable s) => .name s.table :: s.columns.map .column
  | statement (.select s) => (s.projections ++ s.table :: s.condition.toList).map .expr
  | statement (.insert s) => .name s.table :: (s.columns.map .name ++ s.values.map .expr)
  | statement (.update s) =>
    .name s.table :: (s.assignments.flatMap (fun a => [.name a.column, .expr a.value]) ++
      s.condition.toList.map .expr)
  | statement (.delete s) => .name s.table :: s.condition.toList.map .expr
  | column d => d.default.toList.map .expr
  | expr (.unary _ _ operand) => [.expr operand]
  | expr (.binary _ lhs rhs) => [.expr lhs, .expr rhs]
  | expr (.call function arguments) => .name function :: arguments.map .expr
  | expr (.ident _) | expr (.literal _ _) | expr (.star _) | name _ => []

/-- The node at an address below a node. -/
def Node.at? (root : Node) : Address → Option Node
  | [] => some root
  | index :: rest => root.children[index]?.bind fun child => child.at? rest

def Outline.root : Outline → Node
  | node root _ => root

/-- The outline has under each node the outlines of the children of that node. -/
inductive Outline.Unfolded : Outline → Prop
  | node {root : Node} {children : List Outline} :
      children.map Outline.root = root.children → (∀ o ∈ children, o.Unfolded) →
        Unfolded (.node root children)

namespace Outline

theorem unfolded_leaf {root : Node} (hroot : root.children = []) : (leaf root).Unfolded :=
  .node hroot.symm (List.forall_mem_nil _)

theorem root_outline (e : Expr) : e.outline.root = .expr e := by
  cases e <;> rfl

theorem outlines_eq_map (es : List Expr) : Expr.outlines es = es.map Expr.outline := by
  induction es with
  | nil => rfl
  | cons e es ih => rw [Expr.outlines, ih, List.map_cons]

theorem map_root_outlines (es : List Expr) : (Expr.outlines es).map root = es.map .expr := by
  rw [outlines_eq_map, List.map_map]
  exact List.map_congr_left fun e _ => root_outline e

mutual

theorem unfolded_expr : (e : Expr) → e.outline.Unfolded
  | .ident _ | .literal _ _ | .star _ => unfolded_leaf rfl
  | .unary _ _ operand =>
      .node (congrArg (fun node => [node]) (root_outline operand))
        (List.forall_mem_singleton.mpr (unfolded_expr operand))
  | .binary _ lhs rhs =>
      .node (congrArg₂ (fun left right => [left, right]) (root_outline lhs) (root_outline rhs))
        (List.forall_mem_cons.mpr
          ⟨unfolded_expr lhs, List.forall_mem_singleton.mpr (unfolded_expr rhs)⟩)
  | .call function arguments =>
      .node (congrArg (Node.name function :: ·) (map_root_outlines arguments))
        (List.forall_mem_cons.mpr ⟨unfolded_leaf rfl, unfolded_exprs arguments⟩)

theorem unfolded_exprs : (es : List Expr) → ∀ o ∈ Expr.outlines es, o.Unfolded
  | [] => List.forall_mem_nil _
  | e :: es => List.forall_mem_cons.mpr ⟨unfolded_expr e, unfolded_exprs es⟩

end

theorem unfolded_name (name : Ident) : (leaf (.name name)).Unfolded :=
  unfolded_leaf rfl

theorem unfolded_column (d : ColumnDefinition) : d.outline.Unfolded := by
  have hroots : (d.default.toList.map Expr.outline).map root = (Node.column d).children := by
    rw [← outlines_eq_map, map_root_outlines]
    rfl
  refine .node hroots fun o ho => ?_
  rw [← outlines_eq_map] at ho
  exact unfolded_exprs d.default.toList o ho

theorem map_root_assignments (assignments : List Assignment) :
    (assignments.flatMap Assignment.outlines).map root =
      assignments.flatMap fun a => [.name a.column, .expr a.value] := by
  rw [List.map_flatMap]
  refine congrArg (fun f => assignments.flatMap f) (funext fun a => ?_)
  exact congrArg (fun node => [Node.name a.column, node]) (root_outline a.value)

theorem map_root_children (s : Statement) : s.children.map root = (Node.statement s).children := by
  cases s with
  | createTable s =>
      have hcolumns : (s.columns.map ColumnDefinition.outline).map root = s.columns.map .column :=
        List.map_map
      exact congrArg (Node.name s.table :: ·) hcolumns
  | select s => exact map_root_outlines _
  | insert s =>
      have hcolumns : (s.columns.map fun c => leaf (.name c)).map root = s.columns.map .name :=
        List.map_map
      rw [Statement.children, List.map_append, List.map_cons, hcolumns, map_root_outlines]
      rfl
  | update s =>
      rw [Statement.children, List.map_append, List.map_cons, map_root_assignments,
        map_root_outlines]
      rfl
  | delete s => exact congrArg (Node.name s.table :: ·) (map_root_outlines _)

theorem unfolded_assignment (a : Assignment) : ∀ o ∈ a.outlines, o.Unfolded :=
  List.forall_mem_cons.mpr
    ⟨unfolded_name a.column, List.forall_mem_singleton.mpr (unfolded_expr a.value)⟩

theorem unfolded_children (s : Statement) : ∀ o ∈ s.children, o.Unfolded := by
  cases s with
  | createTable s =>
      refine List.forall_mem_cons.mpr ⟨unfolded_name s.table, ?_⟩
      exact List.forall_mem_map.mpr fun d _ => unfolded_column d
  | select s => exact unfolded_exprs _
  | insert s =>
      refine List.forall_mem_append.mpr ⟨List.forall_mem_cons.mpr ⟨unfolded_name s.table, ?_⟩,
        unfolded_exprs s.values⟩
      exact List.forall_mem_map.mpr fun c _ => unfolded_name c
  | update s =>
      refine List.forall_mem_append.mpr ⟨List.forall_mem_cons.mpr ⟨unfolded_name s.table, ?_⟩,
        unfolded_exprs _⟩
      exact List.forall_mem_flatMap.mpr fun a _ => unfolded_assignment a
  | delete s => exact List.forall_mem_cons.mpr ⟨unfolded_name s.table, unfolded_exprs _⟩

theorem unfolded_statement (s : Statement) : s.outline.Unfolded :=
  .node (map_root_children s) (unfolded_children s)

end Outline

/-! ## Events -/

mutual

theorem Outline.walk_recorder (prune : Node → Bool) : (o : Outline) → (before : List Event) →
    o.walk (recorder prune) before = before ++ o.events prune
  | .node root children, before => by
      have hchildren := Outline.walkAll_recorder prune children (before ++ [.enter root])
      have henter : (recorder prune).enter root before = (!prune root, before ++ [.enter root]) :=
        rfl
      rw [walk, henter, events]
      cases prune root with
      | true => exact List.append_assoc before [.enter root] [.leave root]
      | false =>
          change Outline.walkAll (recorder prune) children (before ++ [.enter root]) ++ _ = _
          rw [hchildren]
          simp

theorem Outline.walkAll_recorder (prune : Node → Bool) : (os : List Outline) →
    (before : List Event) →
      Outline.walkAll (recorder prune) os before = before ++ Outline.eventsAll prune os
  | [], before => (List.append_nil before).symm
  | o :: os, before => by
      rw [walkAll, o.walk_recorder prune before, Outline.walkAll_recorder prune os, eventsAll,
        List.append_assoc]

end

/-! ## What a visitor is called with -/

/-- A call of a visitor.  The one that enters a node comes with what it returns. -/
inductive Call where
  | enter (node : Node) (descends : Bool)
  | leave (node : Node)

/-- The visitor with a list of its calls. -/
def Visitor.recorded {σ : Type} (v : Visitor σ) : Visitor (σ × List Call) where
  enter node s :=
    ((v.enter node s.1).1, (v.enter node s.1).2, s.2 ++ [.enter node (v.enter node s.1).1])
  leave node s := (v.leave node s.1, s.2 ++ [.leave node])

/-- A call for the node at an address. -/
structure Visit where
  address : Address
  call : Call

/-- The calls for a node that is descended from, with those for its children in between. -/
def enclosed (address : Address) (root : Node) (inner : List (List Visit)) : List Visit :=
  ⟨address, .enter root true⟩ :: (inner.flatten ++ [⟨address, .leave root⟩])

/-- The calls of a walk over an outline at an address, where each node is descended from or not. -/
inductive Tour : Address → Outline → List Visit → Prop
  | pruned {address : Address} {root : Node} {children : List Outline} :
      Tour address (.node root children) [⟨address, .enter root false⟩, ⟨address, .leave root⟩]
  | whole {address : Address} {root : Node} {children : List Outline}
      {inner : List (List Visit)} : inner.length = children.length →
      (∀ (index : Nat) (o : Outline) (visits : List Visit), children[index]? = some o →
        inner[index]? = some visits → Tour (address ++ [index]) o visits) →
      Tour address (.node root children) (enclosed address root inner)

namespace Outline

variable {σ : Type} {v : Visitor σ} {root : Node} {children : List Outline} {s s' : σ}

theorem walk_of_descending (henter : v.enter root s = (true, s')) :
    (node root children).walk v s = v.leave root (walkAll v children s') := by
  rw [walk, henter]

theorem walk_of_pruning (henter : v.enter root s = (false, s')) :
    (node root children).walk v s = v.leave root s' := by
  rw [walk, henter]

theorem enter_recorded {descends : Bool} (henter : v.enter root s = (descends, s'))
    (calls : List Call) :
    v.recorded.enter root (s, calls) = (descends, s', calls ++ [.enter root descends]) := by
  change ((v.enter root s).1, (v.enter root s).2, calls ++ [.enter root (v.enter root s).1]) = _
  rw [henter]

end Outline

mutual

/-- By induction on the outline: a walk is a tour, whatever the visitor keeps and returns. -/
theorem Outline.exists_tour {σ : Type} (v : Visitor σ) : (o : Outline) → (address : Address) →
    (s : σ) → ∃ visits, Tour address o visits ∧ ∀ calls : List Call,
      o.walk v.recorded (s, calls) = (o.walk v s, calls ++ visits.map Visit.call)
  | .node root children, address, s => by
      rcases henter : v.enter root s with ⟨_ | _, s'⟩
      · refine ⟨_, .pruned, fun calls => ?_⟩
        rw [walk_of_pruning (enter_recorded henter calls), walk_of_pruning henter]
        exact congrArg (v.leave root s', ·) (List.append_assoc _ _ _)
      · obtain ⟨inner, hlength, htours, hwalk⟩ := Outline.exists_tours v children address 0 s'
        refine ⟨_, .whole hlength fun index o visits ho hvisits => ?_, fun calls => ?_⟩
        · have htour := htours index o visits ho hvisits
          rwa [Nat.zero_add] at htour
        · rw [walk_of_descending (enter_recorded henter calls), walk_of_descending henter, hwalk]
          refine congrArg (v.leave root (walkAll v children s'), ·) ?_
          simp [enclosed]

theorem Outline.exists_tours {σ : Type} (v : Visitor σ) : (os : List Outline) →
    (address : Address) → (first : Nat) → (s : σ) →
    ∃ inner : List (List Visit), inner.length = os.length ∧
      (∀ (index : Nat) (o : Outline) (visits : List Visit), os[index]? = some o →
        inner[index]? = some visits → Tour (address ++ [first + index]) o visits) ∧
      ∀ calls : List Call, Outline.walkAll v.recorded os (s, calls) =
        (Outline.walkAll v os s, calls ++ inner.flatten.map Visit.call)
  | [], _, _, s => ⟨[], rfl, nofun, fun calls => by
      rw [walkAll, walkAll, List.flatten_nil, List.map_nil, List.append_nil]⟩
  | o :: os, address, first, s => by
      obtain ⟨visits, htour, hwalk⟩ := o.exists_tour v (address ++ [first]) s
      obtain ⟨inner, hlength, htours, hwalks⟩ :=
        Outline.exists_tours v os address (first + 1) (o.walk v s)
      refine ⟨visits :: inner, congrArg (· + 1) hlength, ?_, fun calls => ?_⟩
      · intro index o' visits' ho' hvisits'
        cases index with
        | zero =>
            cases ho'
            cases hvisits'
            exact htour
        | succ index =>
            have htour' := htours index o' visits' ho' hvisits'
            rwa [Nat.add_right_comm] at htour'
      · rw [walkAll, walkAll, hwalk, hwalks, List.flatten_cons, List.map_append, List.append_assoc]

end

/-! ## What all tours have in common -/

/-- Every node that is entered is left at the same depth, with nothing but whole walks between
the two. -/
inductive WellNested : List Visit → Prop
  | nil : WellNested []
  | node {address : Address} {node : Node} {descends : Bool} {inner rest : List Visit} :
      WellNested inner → WellNested rest →
        WellNested (⟨address, .enter node descends⟩ :: (inner ++ ⟨address, .leave node⟩ :: rest))

namespace WellNested

theorem append {first second : List Visit} (hfirst : WellNested first)
    (hsecond : WellNested second) : WellNested (first ++ second) := by
  induction hfirst with
  | nil => exact hsecond
  | node hinner _ _ ih =>
      rw [List.cons_append, List.append_assoc, List.cons_append]
      exact .node hinner ih

theorem flatten {parts : List (List Visit)} (hparts : ∀ part ∈ parts, WellNested part) :
    WellNested parts.flatten := by
  induction parts with
  | nil => exact .nil
  | cons part parts ih =>
      rw [List.forall_mem_cons] at hparts
      exact hparts.1.append (ih hparts.2)

end WellNested

/-- A node that is not descended from is left by the next call. -/
def LeavesPruned (visits : List Visit) : Prop :=
  ∀ (place : Nat) (address : Address) (node : Node),
    visits[place]? = some ⟨address, .enter node false⟩ →
      visits[place + 1]? = some ⟨address, .leave node⟩

namespace LeavesPruned

theorem leave (address : Address) (node : Node) : LeavesPruned [⟨address, .leave node⟩] := by
  rintro (_ | place) address' node' hvisit
  · cases hvisit
  · cases hvisit

theorem append {first second : List Visit} (hfirst : LeavesPruned first)
    (hsecond : LeavesPruned second) : LeavesPruned (first ++ second) := by
  intro place address node hvisit
  rcases lt_or_ge place first.length with hplace | hplace
  · rw [List.getElem?_append_left hplace] at hvisit
    have hleave := hfirst place address node hvisit
    obtain ⟨hnext, -⟩ := List.getElem?_eq_some_iff.mp hleave
    rw [List.getElem?_append_left hnext]
    exact hleave
  · rw [List.getElem?_append_right hplace] at hvisit
    rw [List.getElem?_append_right (hplace.trans (Nat.le_succ place)), Nat.succ_sub hplace]
    exact hsecond _ address node hvisit

theorem flatten {parts : List (List Visit)} (hparts : ∀ part ∈ parts, LeavesPruned part) :
    LeavesPruned parts.flatten := by
  induction parts with
  | nil => exact nofun
  | cons part parts ih =>
      rw [List.forall_mem_cons] at hparts
      exact hparts.1.append (ih hparts.2)

end LeavesPruned

/-- The node at the address is entered. -/
def Entered (visits : List Visit) (address : Address) (node : Node) : Prop :=
  ∃ descends, ⟨address, .enter node descends⟩ ∈ visits

/-- The node at the address is entered and its children are left out. -/
def Pruned (visits : List Visit) (address : Address) : Prop :=
  ∃ node, ⟨address, .enter node false⟩ ∈ visits

/-- The address of a node that is entered. -/
def Visit.entrance? (visit : Visit) : Option Address :=
  match visit.call with
  | .enter _ _ => some visit.address
  | .leave _ => none

/-- The addresses of the nodes that are entered, in the order of the visits. -/
def entrances (visits : List Visit) : List Address :=
  visits.filterMap Visit.entrance?

theorem exists_of_mem_entrances {visits : List Visit} {address : Address}
    (haddress : address ∈ entrances visits) : ∃ visit ∈ visits, visit.address = address := by
  obtain ⟨⟨address', call⟩, hvisit, hentrance⟩ := List.mem_filterMap.mp haddress
  cases call with
  | enter => exact ⟨_, hvisit, Option.some.inj hentrance⟩
  | leave => cases hentrance

theorem entrances_flatten (parts : List (List Visit)) :
    entrances parts.flatten = (parts.map entrances).flatten :=
  List.filterMap_flatten

theorem entrances_enclosed (address : Address) (root : Node) (inner : List (List Visit)) :
    entrances (enclosed address root inner) = address :: (inner.map entrances).flatten := by
  change address :: entrances (inner.flatten ++ [⟨address, .leave root⟩]) = _
  rw [entrances, List.filterMap_append, ← entrances, entrances_flatten]
  exact congrArg (address :: ·) (List.append_nil _)

namespace Tour

variable {address : Address} {o : Outline} {visits : List Visit}

/-- The parts of a tour belong to the children. -/
theorem exists_child {children : List Outline} {inner : List (List Visit)}
    (hlength : inner.length = children.length) {index : Nat} {part : List Visit}
    (hpart : inner[index]? = some part) : ∃ o, children[index]? = some o := by
  obtain ⟨hindex, -⟩ := List.getElem?_eq_some_iff.mp hpart
  exact ⟨_, List.getElem?_eq_getElem (hlength ▸ hindex)⟩

theorem exists_of_mem {children : List Outline} {inner : List (List Visit)}
    (hlength : inner.length = children.length) {part : List Visit} (hpart : part ∈ inner) :
    ∃ (index : Nat) (o : Outline), children[index]? = some o ∧ inner[index]? = some part := by
  obtain ⟨index, hpart⟩ := List.mem_iff_getElem?.mp hpart
  obtain ⟨o, ho⟩ := exists_child hlength hpart
  exact ⟨index, o, ho, hpart⟩

theorem wellNested (htour : Tour address o visits) : WellNested visits := by
  induction htour with
  | pruned => exact .node .nil .nil
  | whole hlength _ ih =>
      refine .node (.flatten fun part hpart => ?_) .nil
      obtain ⟨index, o, ho, hinner⟩ := exists_of_mem hlength hpart
      exact ih index o part ho hinner

theorem leavesPruned (htour : Tour address o visits) : LeavesPruned visits := by
  induction htour with
  | pruned =>
      rintro (_ | place) below node hvisit
      · cases hvisit
        rfl
      · exact LeavesPruned.leave _ _ place below node hvisit
  | @whole address root children inner hlength _ ih =>
      have hinner : LeavesPruned inner.flatten := by
        refine .flatten fun part hpart => ?_
        obtain ⟨index, o, ho, hinner⟩ := exists_of_mem hlength hpart
        exact ih index o part ho hinner
      rintro (_ | place) below node hvisit
      · cases hvisit
      · exact hinner.append (.leave address root) place below node hvisit

theorem prefix_address (htour : Tour address o visits) :
    ∀ visit ∈ visits, address <+: visit.address := by
  induction htour with
  | pruned =>
      refine List.forall_mem_cons.mpr ⟨List.prefix_refl _, ?_⟩
      exact List.forall_mem_singleton.mpr (List.prefix_refl _)
  | whole hlength _ ih =>
      refine List.forall_mem_cons.mpr ⟨List.prefix_refl _, List.forall_mem_append.mpr
        ⟨fun visit hvisit => ?_, List.forall_mem_singleton.mpr (List.prefix_refl _)⟩⟩
      obtain ⟨part, hpart, hvisit⟩ := List.mem_flatten.mp hvisit
      obtain ⟨index, o, ho, hinner⟩ := exists_of_mem hlength hpart
      exact (List.prefix_append _ _).trans (ih index o part ho hinner visit hvisit)

section

variable {root : Node} {inner : List (List Visit)} {children : List Outline}
  (hlength : inner.length = children.length)
  (htours : ∀ (index : Nat) (o : Outline) (visits : List Visit), children[index]? = some o →
    inner[index]? = some visits → Tour (address ++ [index]) o visits)

include hlength htours

/-- No child stands at the address of its parent. -/
theorem enter_mem_enclosed {node : Node} {descends : Bool} :
    ⟨address, .enter node descends⟩ ∈ enclosed address root inner ↔
      node = root ∧ descends = true := by
  have hinner : ⟨address, .enter node descends⟩ ∉ inner.flatten := by
    intro hvisit
    obtain ⟨part, hpart, hvisit⟩ := List.mem_flatten.mp hvisit
    obtain ⟨index, o, ho, hinner⟩ := exists_of_mem hlength hpart
    have hprefix := (htours index o part ho hinner).prefix_address _ hvisit
    exact absurd hprefix.length_le (by simp)
  simp [enclosed, hinner]

/-- The calls for what stands below a child are those of its part. -/
theorem below_mem_enclosed {index : Nat} {rest : Address} {call : Call} :
    ⟨address ++ index :: rest, call⟩ ∈ enclosed address root inner ↔
      ∃ part, inner[index]? = some part ∧ ⟨address ++ [index] ++ rest, call⟩ ∈ part := by
  have hinner : ⟨address ++ index :: rest, call⟩ ∈ inner.flatten ↔
      ∃ part, inner[index]? = some part ∧ ⟨address ++ [index] ++ rest, call⟩ ∈ part := by
    rw [List.append_assoc, List.singleton_append, List.mem_flatten]
    constructor
    · rintro ⟨part, hpart, hvisit⟩
      obtain ⟨index', o, ho, hinner⟩ := exists_of_mem hlength hpart
      have hprefix := (htours index' o part ho hinner).prefix_address _ hvisit
      obtain rfl : index' = index := by simpa using hprefix
      exact ⟨part, hinner, hvisit⟩
    · rintro ⟨part, hpart, hvisit⟩
      exact ⟨part, List.mem_of_getElem? hpart, hvisit⟩
  simp [enclosed, hinner]

theorem entered_enclosed {index : Nat} {rest : Address} {node : Node} :
    Entered (enclosed address root inner) (address ++ index :: rest) node ↔
      ∃ part, inner[index]? = some part ∧ Entered part (address ++ [index] ++ rest) node := by
  simp only [Entered, below_mem_enclosed hlength htours]
  exact ⟨fun ⟨descends, part, hpart, hvisit⟩ => ⟨part, hpart, descends, hvisit⟩,
    fun ⟨part, hpart, descends, hvisit⟩ => ⟨descends, part, hpart, hvisit⟩⟩

theorem pruned_enclosed {index : Nat} {rest : Address} :
    Pruned (enclosed address root inner) (address ++ index :: rest) ↔
      ∃ part, inner[index]? = some part ∧ Pruned part (address ++ [index] ++ rest) := by
  simp only [Pruned, below_mem_enclosed hlength htours]
  exact ⟨fun ⟨node, part, hpart, hvisit⟩ => ⟨part, hpart, node, hvisit⟩,
    fun ⟨part, hpart, node, hvisit⟩ => ⟨node, part, hpart, hvisit⟩⟩

theorem not_pruned_enclosed : ¬Pruned (enclosed address root inner) address := by
  rintro ⟨node, hvisit⟩
  exact Bool.false_ne_true ((enter_mem_enclosed hlength htours).mp hvisit).2

/-- What is pruned above a node is pruned below the child that the node belongs to. -/
theorem unpruned_enclosed {index : Nat} {part : List Visit} (hpart : inner[index]? = some part)
    {rest : Address} :
    (∀ above, above <+: index :: rest → above ≠ index :: rest →
      ¬Pruned (enclosed address root inner) (address ++ above)) ↔
        ∀ above, above <+: rest → above ≠ rest → ¬Pruned part (address ++ [index] ++ above) := by
  constructor
  · intro hfree above hprefix hne hpruned
    refine hfree (index :: above) (List.cons_prefix_cons.mpr ⟨rfl, hprefix⟩) ?_ ?_
    · exact fun heq => hne (List.cons_injective heq)
    · exact (pruned_enclosed hlength htours).mpr ⟨part, hpart, hpruned⟩
  · rintro hfree (_ | ⟨index', above⟩) hprefix hne hpruned
    · rw [List.append_nil] at hpruned
      exact not_pruned_enclosed hlength htours hpruned
    · obtain ⟨rfl, hbelow⟩ := List.cons_prefix_cons.mp hprefix
      obtain ⟨part', hpart', hpruned⟩ := (pruned_enclosed hlength htours).mp hpruned
      cases hpart.symm.trans hpart'
      exact hfree above hbelow (fun heq => hne (congrArg (index' :: ·) heq)) hpruned

/-- What is entered in the part of a child stands below that child. -/
theorem eq_append_of_mem_entrances {index : Nat} {part : List Visit} {below : Address}
    (hpart : inner[index]? = some part) (hbelow : below ∈ entrances part) :
    ∃ rest, below = address ++ index :: rest := by
  obtain ⟨visit, hvisit, rfl⟩ := exists_of_mem_entrances hbelow
  obtain ⟨o, ho⟩ := exists_child hlength hpart
  obtain ⟨rest, hrest⟩ := (htours index o part ho hpart).prefix_address visit hvisit
  exact ⟨rest, by rw [← hrest, List.append_assoc, List.singleton_append]⟩

end

/-- By induction on the tour: a node is entered when it stands in the tree and none of the nodes
above it has been pruned. -/
theorem entered_iff (htour : Tour address o visits) (hunfolded : o.Unfolded) {rest : Address}
    {node : Node} : Entered visits (address ++ rest) node ↔
      o.root.at? rest = some node ∧
        ∀ above, above <+: rest → above ≠ rest → ¬Pruned visits (address ++ above) := by
  induction htour generalizing rest with
  | @pruned address root children =>
      cases rest with
      | nil => simp [Entered, Outline.root, Node.at?, eq_comm]
      | cons index rest =>
          have hpruned : Pruned [⟨address, .enter root false⟩, ⟨address, .leave root⟩]
              (address ++ []) := ⟨root, by simp⟩
          constructor
          · rintro ⟨descends, hvisit⟩
            simp at hvisit
          · rintro ⟨-, hfree⟩
            exact absurd hpruned (hfree [] List.nil_prefix (List.cons_ne_nil _ _).symm)
  | @whole address root children inner hlength htours ih =>
      obtain ⟨hroots, hchildren⟩ := hunfolded
      cases rest with
      | nil =>
          rw [List.append_nil]
          simp [Entered, enter_mem_enclosed hlength htours, Outline.root, Node.at?, eq_comm]
      | cons index rest =>
          rw [entered_enclosed hlength htours, Outline.root, Node.at?, ← hroots,
            List.getElem?_map]
          cases ho : children[index]? with
          | none =>
              have hpart : inner[index]? = none := by
                rw [List.getElem?_eq_none_iff] at ho ⊢
                exact hlength.trans_le ho
              simp [hpart]
          | some o =>
              obtain ⟨hindex, -⟩ := List.getElem?_eq_some_iff.mp ho
              obtain ⟨part, hpart⟩ : ∃ part, inner[index]? = some part :=
                ⟨_, List.getElem?_eq_getElem (hlength.symm ▸ hindex)⟩
              have hentered : Entered part (address ++ [index] ++ rest) node ↔ _ :=
                ih index o part ho hpart (hchildren o (List.mem_of_getElem? ho))
              rw [unpruned_enclosed hlength htours hpart]
              simpa [hpart] using hentered

/-- By induction on the tour: nodes are entered in the order of their addresses, each one before
everything below it and behind everything below the children in front of it. -/
theorem pairwise_entrances (htour : Tour address o visits) :
    (entrances visits).Pairwise (· < ·) := by
  induction htour with
  | pruned => exact List.pairwise_singleton _ _
  | @whole address root children inner hlength htours ih =>
      rw [entrances_enclosed, List.pairwise_cons, List.pairwise_flatten, List.pairwise_map]
      refine ⟨fun below hmem => ?_, List.forall_mem_map.mpr fun part hpart => ?_, ?_⟩
      · obtain ⟨_, hpart, hmem⟩ := List.mem_flatten.mp hmem
        obtain ⟨part, hinner, rfl⟩ := List.mem_map.mp hpart
        obtain ⟨index, hindex⟩ := List.mem_iff_getElem?.mp hinner
        obtain ⟨rest, rfl⟩ := eq_append_of_mem_entrances hlength htours hindex hmem
        have hlt : address ++ [] < address ++ index :: rest :=
          List.append_left_lt (List.nil_lt_cons index rest)
        rwa [List.append_nil] at hlt
      · obtain ⟨index, o, ho, hinner⟩ := exists_of_mem hlength hpart
        exact ih index o part ho hinner
      · rw [List.pairwise_iff_getElem]
        intro i j hi hj hij x hx y hy
        obtain ⟨rest, rfl⟩ :=
          eq_append_of_mem_entrances hlength htours (List.getElem?_eq_getElem hi) hx
        obtain ⟨rest', rfl⟩ :=
          eq_append_of_mem_entrances hlength htours (List.getElem?_eq_getElem hj) hy
        exact List.append_left_lt (List.cons_lt_cons_iff.mpr (.inl hij))

end Tour

/-! ## Walks that leave out nothing -/

namespace Outline

/-- All nodes in the order of a walk. -/
def all (o : Outline) : List Node :=
  o.nodes.map Prod.snd

mutual

theorem map_snd_preorder : (o : Outline) → (depth depth' : Nat) →
    (o.preorder depth).map Prod.snd = (o.preorder depth').map Prod.snd
  | .node root children, depth, depth' =>
      congrArg (root :: ·) (map_snd_preorderAll children (depth + 1) (depth' + 1))

theorem map_snd_preorderAll : (os : List Outline) → (depth depth' : Nat) →
    (preorderAll depth os).map Prod.snd = (preorderAll depth' os).map Prod.snd
  | [], _, _ => rfl
  | o :: os, depth, depth' => by
      rw [preorderAll, preorderAll, List.map_append, List.map_append,
        o.map_snd_preorder depth depth', map_snd_preorderAll os depth depth']

end

theorem map_snd_preorderAll_eq (os : List Outline) (depth : Nat) :
    (preorderAll depth os).map Prod.snd = os.flatMap all := by
  induction os with
  | nil => rfl
  | cons o os ih =>
      rw [preorderAll, List.map_append, ih, map_snd_preorder o depth 0]
      rfl

theorem all_node (root : Node) (children : List Outline) :
    (node root children).all = root :: children.flatMap all :=
  congrArg (root :: ·) (map_snd_preorderAll_eq children 1)

theorem all_eq_cons (o : Outline) : ∃ rest, o.all = o.root :: rest := by
  obtain ⟨root, children⟩ := o
  exact ⟨_, all_node root children⟩

theorem mem_preorderAll {os : List Outline} {depth : Nat} {entry : Nat × Node} :
    entry ∈ preorderAll depth os ↔ ∃ o ∈ os, entry ∈ o.preorder depth := by
  induction os with
  | nil => simp [preorderAll]
  | cons o os ih => simp [preorderAll, ih]

/-- The depth of a node is the length of its address. -/
theorem Unfolded.mem_preorder {o : Outline} (hunfolded : o.Unfolded) {start depth : Nat}
    {n : Node} : (depth, n) ∈ o.preorder start ↔
      ∃ address : Address, start + address.length = depth ∧ o.root.at? address = some n := by
  induction hunfolded generalizing start with
  | @node root children hroots _ ih =>
      rw [preorder, List.mem_cons, mem_preorderAll]
      constructor
      · rintro (heq | ⟨o, ho, hmem⟩)
        · cases heq
          exact ⟨[], rfl, rfl⟩
        · obtain ⟨address, hlength, hat⟩ := (ih o ho).mp hmem
          obtain ⟨index, hindex⟩ := List.mem_iff_getElem?.mp ho
          refine ⟨index :: address, ?_, ?_⟩
          · rw [List.length_cons]
            omega
          · rw [Outline.root, Node.at?, ← hroots, List.getElem?_map, hindex]
            exact hat
      · rintro ⟨_ | ⟨index, address⟩, hlength, hat⟩
        · cases hat
          exact .inl (Prod.ext hlength.symm rfl)
        · rw [Outline.root, Node.at?, ← hroots, List.getElem?_map] at hat
          obtain ⟨child, hchild, hat⟩ := Option.bind_eq_some_iff.mp hat
          obtain ⟨o, ho, rfl⟩ := Option.map_eq_some_iff.mp hchild
          rw [List.length_cons] at hlength
          have hmem := List.mem_of_getElem? ho
          exact .inr ⟨o, hmem, (ih o hmem).mpr ⟨address, by omega, hat⟩⟩

theorem flatMap_all_outlines (es : List Expr) :
    (Expr.outlines es).flatMap all = es.flatMap fun e => e.outline.all := by
  rw [outlines_eq_map, List.flatMap_map]

end Outline

/-- The node that an event enters. -/
def Event.entered? : Event → Option Node
  | enter node => some node
  | leave _ => none

/-- The nodes that a walk enters that leaves out the children of the nodes that `prune` holds
of. -/
def Outline.entered (prune : Node → Bool) (o : Outline) : List Node :=
  (o.events prune).filterMap Event.entered?

mutual

theorem Outline.entered_eq_all : (o : Outline) → o.entered (fun _ => false) = o.all
  | .node root children => by
      have hchildren := Outline.enteredAll_eq_all children
      rw [all_node, ← hchildren, entered, events, List.filterMap_append, List.filterMap_cons]
      exact List.append_nil _

theorem Outline.enteredAll_eq_all : (os : List Outline) →
    (Outline.eventsAll (fun _ => false) os).filterMap Event.entered? = os.flatMap Outline.all
  | [] => rfl
  | o :: os => by
      rw [eventsAll, List.filterMap_append, Outline.enteredAll_eq_all os, List.flatMap_cons,
        ← o.entered_eq_all]
      rfl

end

end PocketSql
