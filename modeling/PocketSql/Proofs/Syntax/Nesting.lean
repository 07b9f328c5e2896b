import Mathlib
import PocketSql.Proofs.Syntax.StatementSoundness

/-!
# The nesting of trees

The depth of a reader is raised by parentheses, and by the signs and the operators in
front of a leaf whose operand the leaf stands in.  So at every leaf of every expression
of a text that can be read, the limit of the depth bounds the operators in front of it.
-/

namespace PocketSql

/-! ## Paths -/

/-- From an expression to one of its parts. -/
inductive Step where
  | operand
  | left
  | right
  | argument
deriving DecidableEq

/-- The steps from an expression to one of its leaves. -/
inductive Expr.Path : Expr → List Step → Prop
  | ident (name : Ident) : Path (.ident name) []
  | literal (position : Position) (value : Literal) : Path (.literal position value) []
  | star (position : Position) : Path (.star position) []
  | emptyCall (function : Ident) : Path (.call function []) []
  | operand {position : Position} {op : Kind} {e : Expr} {steps : List Step} :
      Path e steps → Path (.unary position op e) (.operand :: steps)
  | left {op : Kind} {lhs rhs : Expr} {steps : List Step} :
      Path lhs steps → Path (.binary op lhs rhs) (.left :: steps)
  | right {op : Kind} {lhs rhs : Expr} {steps : List Step} :
      Path rhs steps → Path (.binary op lhs rhs) (.right :: steps)
  | argument {function : Ident} {arguments : List Expr} {e : Expr} {steps : List Step} :
      e ∈ arguments → Path e steps → Path (.call function arguments) (.argument :: steps)

/-- The unary and binary nodes on a path.  Every step but that to an argument leaves one. -/
def operatorsOn (steps : List Step) : Nat :=
  steps.countP (· ≠ .argument)

/-- The operators on a path that stand in front of its leaf. -/
def operatorsBefore (steps : List Step) : Nat :=
  steps.countP fun step => step = .operand ∨ step = .right

/-- The operators on a path that stand behind its leaf. -/
def operatorsBehind (steps : List Step) : Nat :=
  steps.count .left

section Counts

variable (steps : List Step)

@[simp]
theorem operatorsBefore_operand :
    operatorsBefore (.operand :: steps) = operatorsBefore steps + 1 := by
  simp [operatorsBefore]

@[simp]
theorem operatorsBefore_right :
    operatorsBefore (.right :: steps) = operatorsBefore steps + 1 := by
  simp [operatorsBefore]

@[simp]
theorem operatorsBefore_left : operatorsBefore (.left :: steps) = operatorsBefore steps := by
  simp [operatorsBefore]

@[simp]
theorem operatorsBefore_argument :
    operatorsBefore (.argument :: steps) = operatorsBefore steps := by
  simp [operatorsBefore]

theorem operatorsOn_eq :
    operatorsOn steps = operatorsBefore steps + operatorsBehind steps := by
  rw [operatorsOn, operatorsBefore, operatorsBehind]
  induction steps with
  | nil => rfl
  | cons step steps ih =>
      rw [List.countP_cons, List.countP_cons, List.count_cons, ih]
      cases step <;> simp <;> omega

end Counts

/-- The invariant of the depth, by induction on the derivation. -/
theorem ReadAt.operatorsBefore_le {depth level : Nat} {ts : List Token} {e : Expr}
    (hts : ReadAt depth level ts e) (hdepth : depth ≤ maxDepth) {steps : List Step}
    (hpath : e.Path steps) : depth + operatorsBefore steps ≤ maxDepth := by
  induction hts generalizing steps with
  | literal | name | star =>
      cases hpath
      exact hdepth
  | emptyCall =>
      cases hpath with
      | emptyCall => exact hdepth
      | argument hmem => cases hmem
  | group _ hlimit _ _ ih =>
      have hinner := ih hlimit hpath
      omega
  | @sign depth _ _ _ _ hlimit _ ih =>
      cases hpath with
      | @operand _ _ _ steps hpath =>
          calc
            depth + operatorsBefore (.operand :: steps) =
                depth + 1 + operatorsBefore steps := by
              rw [operatorsBefore_operand]
              omega
            _ ≤ maxDepth := ih hlimit hpath
  | call _ _ _ _ _ ih =>
      generalize hitems : List.map Prod.snd _ = arguments at hpath
      cases hpath with
      | emptyCall => exact hdepth
      | argument hmem hpath =>
          subst hitems
          obtain ⟨item, hitem, rfl⟩ := List.mem_map.mp hmem
          rw [operatorsBefore_argument]
          exact ih item hitem hdepth hpath
  | @fold depth inner _ _ _ _ _ _ _ _ hinner hlimit _ ihl ihr =>
      cases hpath with
      | left hpath =>
          rw [operatorsBefore_left]
          exact ihl hdepth hpath
      | @right _ _ _ steps hpath =>
          calc
            depth + operatorsBefore (.right :: steps) = depth + 1 + operatorsBefore steps := by
              rw [operatorsBefore_right]
              omega
            _ ≤ inner + operatorsBefore steps := Nat.add_le_add_right hinner _
            _ ≤ maxDepth := ihr hlimit hpath
  | tighter _ _ ih => exact ih hdepth hpath

/-! ## The expressions of statements -/

/-- The expressions that are no part of another one. -/
def Statement.expressions : Statement → List Expr
  | createTable s => s.columns.filterMap ColumnDefinition.default
  | select s => s.projections ++ s.table :: s.condition.toList
  | insert s => s.values
  | update s => s.assignments.map Assignment.value ++ s.condition.toList
  | delete s => s.condition.toList

/-- The expression has been read as a whole. -/
def Whole (e : Expr) : Prop :=
  ∃ ts, ReadAt 0 0 ts e

section Expressions

theorem DerivesList.exists_of_mem {α : Type} {Item : List Token → α → Prop} {ts : List Token}
    {as : List α} (hts : DerivesList Item ts as) : ∀ a ∈ as, ∃ us, Item us a := by
  induction hts with
  | last ha => exact List.forall_mem_singleton.mpr ⟨_, ha⟩
  | more ha _ _ ih => exact List.forall_mem_cons.mpr ⟨⟨_, ha⟩, ih⟩

variable {Expression : Nat → List Token → Expr → Prop} {ts : List Token}

theorem DerivesClause.exists_of_mem {keyword : Kind} {value : Option Expr}
    (hts : DerivesClause Expression keyword ts value) : ∀ e ∈ value, ∃ us, Expression 1 us e := by
  cases hts with
  | absent => exact nofun
  | present _ he =>
      rintro e ⟨⟩
      exact ⟨_, he⟩

theorem DerivesColumn.exists_of_default {d : ColumnDefinition}
    (hts : DerivesColumn Expression ts d) : ∀ e ∈ d.default, ∃ us, Expression 1 us e := by
  cases hts with
  | column _ _ _ hfill =>
      cases hfill with
      | defaultFirst hdefault => exact hdefault.exists_of_mem
      | markFirst _ hdefault => exact hdefault.exists_of_mem

theorem DerivesAssignments.exists_of_mem {as : List Assignment}
    (hts : DerivesAssignments Expression ts as) : ∀ a ∈ as, ∃ us, Expression 1 us a.value := by
  intro a ha
  cases hts with
  | bare hlist | enclosed _ hlist =>
      obtain ⟨us, hus⟩ := hlist.exists_of_mem a ha
      cases hus with
      | assignment _ _ hvalue => exact ⟨_, hvalue⟩

/-- The expressions of a statement are derived where they stand. -/
theorem DerivesStatement.exists_of_mem {s : Statement} (hts : DerivesStatement Expression ts s) :
    ∀ e ∈ s.expressions, ∃ level ≤ 1, ∃ us, Expression level us e := by
  intro e he
  cases hts with
  | createTable hts =>
      cases hts with
      | createTable _ _ _ _ hcolumns =>
          obtain ⟨d, hd, he⟩ := List.mem_filterMap.mp he
          obtain ⟨us, hus⟩ := hcolumns.exists_of_mem d hd
          exact ⟨1, Nat.le_refl _, hus.exists_of_default e he⟩
  | select hts =>
      cases hts with
      | select _ hprojections _ htable hcondition =>
          rcases List.mem_append.mp he with he | he
          · exact ⟨0, Nat.zero_le _, hprojections.exists_of_mem e he⟩
          rcases List.mem_cons.mp he with rfl | he
          · exact ⟨1, Nat.le_refl _, _, htable⟩
          · exact ⟨1, Nat.le_refl _, hcondition.exists_of_mem e (Option.mem_toList.mp he)⟩
  | insert hts =>
      cases hts with
      | insert _ _ _ _ _ _ hvalues => exact ⟨1, Nat.le_refl _, hvalues.exists_of_mem e he⟩
  | update hts =>
      cases hts with
      | update _ _ _ hassignments hcondition =>
          rcases List.mem_append.mp he with he | he
          · obtain ⟨a, ha, rfl⟩ := List.mem_map.mp he
            exact ⟨1, Nat.le_refl _, hassignments.exists_of_mem a ha⟩
          · exact ⟨1, Nat.le_refl _, hcondition.exists_of_mem e (Option.mem_toList.mp he)⟩
  | delete hts =>
      cases hts with
      | delete _ _ _ hcondition =>
          exact ⟨1, Nat.le_refl _, hcondition.exists_of_mem e (Option.mem_toList.mp he)⟩

theorem DerivesBatch.exists_of_mem {statements : List Statement}
    (hts : DerivesBatch Expression ts statements) :
    ∀ s ∈ statements, ∀ e ∈ s.expressions, ∃ level ≤ 1, ∃ us, Expression level us e := by
  induction hts with
  | empty => exact nofun
  | last hs => exact List.forall_mem_singleton.mpr hs.exists_of_mem
  | more hs _ _ ih => exact List.forall_mem_cons.mpr ⟨hs.exists_of_mem, ih⟩

end Expressions

/-- The grammar may keep the depths at which expressions are read. -/
theorem TokenStream.whole_of_statements (s : TokenStream) {statements : List Statement}
    (hread : s.statements = .ok statements) :
    ∀ statement ∈ statements, ∀ e ∈ statement.expressions, Whole e := by
  intro statement hstatement e he
  obtain ⟨ts, finish, -, hts⟩ := s.derives_of_statements (fun hts => hts) hread
  obtain ⟨level, hlevel, us, hus⟩ := hts.exists_of_mem statement hstatement e he
  exact ⟨us, hus.loosen (hlevel.trans (by decide)) (Nat.zero_le level)⟩

/-! ## Texts -/

/-- A path of an expression in one of the statements. -/
def PathIn (statements : List Statement) (steps : List Step) : Prop :=
  ∃ s ∈ statements, ∃ e ∈ s.expressions, e.Path steps

theorem operatorsBefore_le_of_parse {text : String} {statements : List Statement}
    (hparse : parse text = .ok statements) {steps : List Step}
    (hsteps : PathIn statements steps) : operatorsBefore steps ≤ maxDepth := by
  obtain ⟨s, hs, e, he, hpath⟩ := hsteps
  obtain ⟨ts, hts⟩ := TokenStream.whole_of_statements _ hparse s hs e he
  have hbound := hts.operatorsBefore_le (Nat.zero_le _) hpath
  omega

end PocketSql
