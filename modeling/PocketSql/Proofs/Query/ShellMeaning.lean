import Mathlib
import PocketSql.Proofs.Query.Faults

/-!
# The meaning of shells

Taking an expression apart numbers the calls in it from left to right.  On the results of the
slots, the shell means what the expression means with names for results in place of the calls.
An expression that has been checked has no other names outside its calls, and one that has
been read has no star there, so its shell meets no faults but those of operators.
-/

namespace PocketSql

/-! ## Calls taken out -/

namespace Expr

/-- The calls that stand in no other call, from left to right. -/
def outerCalls : Expr → List (Ident × List Expr)
  | call function arguments => [(function, arguments)]
  | unary _ _ operand => operand.outerCalls
  | binary _ lhs rhs => lhs.outerCalls ++ rhs.outerCalls
  | _ => []

/-- The names, literals and stars that stand in no call. -/
def leaves : Expr → List Expr
  | call _ _ => []
  | unary _ _ operand => operand.leaves
  | binary _ lhs rhs => lhs.leaves ++ rhs.leaves
  | e => [e]

/-- The expression with names in place of its calls: those of the numbers from `first` on, from
left to right. -/
def replaceCalls (fresh : Nat → String) (first : Nat) : Expr → Expr
  | call function _ => ident ⟨function.position, fresh first⟩
  | unary position op operand => unary position op (operand.replaceCalls fresh first)
  | binary op lhs rhs => binary op (lhs.replaceCalls fresh first)
      (rhs.replaceCalls fresh (first + lhs.outerCalls.length))
  | e => e

/-- The expression with the numbers of slots in place of its calls. -/
def shell (first : Nat) : Expr → Shell
  | call _ _ => .slot first
  | unary position op operand => .unary position op (operand.shell first)
  | binary op lhs rhs => .binary lhs.position op (lhs.shell first)
      (rhs.shell (first + lhs.outerCalls.length))
  | e => .leaf e

end Expr

/-- The numbers of the slots of a shell, from left to right. -/
def Shell.indices : Shell → List Nat
  | slot index => [index]
  | unary _ _ operand => operand.indices
  | binary _ _ lhs rhs => lhs.indices ++ rhs.indices
  | leaf _ => []

/-- The slot has the argument of the call.  A count of all rows has none. -/
inductive Slot.Carries : Ident × List Expr → Slot → Prop
  | rows {function : Ident} {position : Position} :
      AggregateFunction.ofName? function.name = some .count →
      Carries (function, [.star position]) ⟨none, .rows 0⟩
  | argument {function : Ident} {known : AggregateFunction} {argument : Expr} :
      AggregateFunction.ofName? function.name = some known →
      (known = .count → ∀ position, argument ≠ .star position) →
      Carries (function, [argument]) ⟨some argument, .start known⟩

/-- The scope in which the names of numbers stand for the results of these numbers. -/
def Scope.ofResults (fresh : Nat → String) (results : List (Option Value)) : Scope :=
  fun name =>
    match results.zipIdx.find? fun (_, index) => fresh index == name with
    | some (result, _) => .ok result
    | none => .error (.unknownColumn name)

/-- A fault of a name, a star or a call that is evaluated. -/
def Fault.OfLeaf : Fault → Prop
  | unknownColumn _ | misplacedStar | scalarFunction _ => True
  | _ => False

/-! ## Numbering -/

section Numbering

variable {slots slots' : List Slot} {function : Ident} {arguments : List Expr} {s : Slot}

theorem Slot.carries_of_ofCall (hcall : Slot.ofCall function arguments = .ok s) :
    Slot.Carries (function, arguments) s := by
  unfold Slot.ofCall at hcall
  split at hcall
  · cases hcall
  · next known hknown =>
    split at hcall
    · cases hcall
      exact .rows hknown
    · next hother =>
      cases hcall
      refine .argument hknown ?_
      rintro rfl position rfl
      exact hother position rfl rfl
    · cases hcall

/-- An expression is taken apart by numbering its calls from the number of slots on. -/
theorem Shell.ofExpr_eq_ok : {e : Expr} → {slots slots' : List Slot} → {shell : Shell} →
    ofExpr slots e = (.ok shell, slots') → shell = e.shell slots.length ∧
      ∃ new, slots' = slots ++ new ∧ List.Forall₂ Slot.Carries e.outerCalls new
  | .call function arguments, _, _, _, hshell => by
      rw [ofExpr] at hshell
      split at hshell
      · cases hshell
      · next new hnew =>
        cases hshell
        have hcarries := Slot.carries_of_ofCall (faultAt_eq_ok.mp hnew)
        exact ⟨rfl, [new], rfl, .cons hcarries .nil⟩
  | .unary position op operand, _, _, _, hshell => by
      rw [ofExpr] at hshell
      split at hshell
      · cases hshell
      · next hoperand =>
        cases hshell
        obtain ⟨rfl, hnew⟩ := ofExpr_eq_ok hoperand
        exact ⟨rfl, hnew⟩
  | .binary op lhs rhs, slots, _, _, hshell => by
      rw [ofExpr] at hshell
      split at hshell
      · cases hshell
      · next hleft =>
        split at hshell
        · cases hshell
        · next hright =>
          cases hshell
          obtain ⟨rfl, left, rfl, hcarried⟩ := ofExpr_eq_ok hleft
          obtain ⟨rfl, right, rfl, hcarried'⟩ := ofExpr_eq_ok hright
          have hcount : (slots ++ left).length = slots.length + lhs.outerCalls.length := by
            rw [List.length_append, hcarried.length_eq]
          refine ⟨?_, left ++ right, List.append_assoc _ _ _, List.rel_append hcarried hcarried'⟩
          rw [Expr.shell, hcount]
  | .ident _, _, _, _, hshell | .literal _ _, _, _, _, hshell | .star _, _, _, _, hshell => by
      cases hshell
      exact ⟨rfl, [], (List.append_nil _).symm, .nil⟩

theorem Expr.indices_shell : (e : Expr) → (first : Nat) →
    (e.shell first).indices = List.range' first e.outerCalls.length
  | .call _ _, _ | .ident _, _ | .literal _ _, _ | .star _, _ => rfl
  | .unary _ _ operand, first => operand.indices_shell first
  | .binary op lhs rhs, first => by
      rw [shell, Shell.indices, lhs.indices_shell, rhs.indices_shell, outerCalls,
        List.length_append, List.range'_append_1]

end Numbering

/-! ## Results under names -/

section Results

variable {fresh : Nat → String} {results : List (Option Value)}

theorem Scope.ofResults_fresh (hfresh : Function.Injective fresh) {index : Nat}
    {result : Option Value} (hresult : results[index]? = some result) :
    ofResults fresh results (fresh index) = .ok result := by
  have hmem : (result, index) ∈ results.zipIdx := List.mem_zipIdx_iff_getElem?.mpr hresult
  have hsome : (results.zipIdx.find? fun (_, other) => fresh other == fresh index).isSome := by
    rw [List.find?_isSome]
    exact ⟨_, hmem, by simp⟩
  obtain ⟨⟨other, index'⟩, hother⟩ := Option.isSome_iff_exists.mp hsome
  have hget := List.mem_zipIdx_iff_getElem?.mp (List.mem_of_find?_eq_some hother)
  have hname : fresh index' = fresh index := by simpa using List.find?_some hother
  cases hfresh hname
  cases hresult.symm.trans hget
  rw [ofResults, hother]

theorem Scope.ofResults_of_ne {name : String} (hname : ∀ index, fresh index ≠ name) :
    ofResults fresh results name = .error (.unknownColumn name) := by
  have hnone : (results.zipIdx.find? fun (_, index) => fresh index == name) = none := by
    rw [List.find?_eq_none]
    rintro ⟨_, index⟩ -
    simpa using hname index
  rw [ofResults, hnone]

/-- There are names that the expression does not have. -/
theorem Expr.exists_fresh (e : Expr) : ∃ fresh : Nat → String, Function.Injective fresh ∧
    ∀ index position, .ident ⟨position, fresh index⟩ ∉ e.leaves := by
  have htaken : {name | ∃ position, ident ⟨position, name⟩ ∈ e.leaves}.Finite := by
    refine (e.leaves.finite_toSet.image heading).subset ?_
    rintro name ⟨position, hmem⟩
    exact ⟨_, hmem, rfl⟩
  let embedding := htaken.infinite_compl.natEmbedding
  refine ⟨fun index => embedding index, ?_, ?_⟩
  · exact Subtype.val_injective.comp embedding.injective
  · exact fun index position hmem => (embedding index).property ⟨position, hmem⟩

@[simp]
theorem Expr.position_replaceCalls (fresh : Nat → String) : (e : Expr) → (first : Nat) →
    (e.replaceCalls fresh first).position = e.position
  | .call _ _, _ | .ident _, _ | .literal _ _, _ | .star _, _ | .unary _ _ _, _ => rfl
  | .binary _ lhs _, first => lhs.position_replaceCalls fresh first

/-- By induction on the expression, the number of whose calls are behind `first`. -/
theorem Expr.eval_shell (hfresh : Function.Injective fresh) : (e : Expr) → (first : Nat) →
    (∀ index position, .ident ⟨position, fresh index⟩ ∉ e.leaves) →
    first + e.outerCalls.length ≤ results.length →
    (e.shell first).eval results = (e.replaceCalls fresh first).eval (.ofResults fresh results)
  | .call function _, first, _, hresults => by
      have hresult : results[first]? = some results[first] := List.getElem?_eq_getElem _
      rw [shell, Shell.eval, hresult, replaceCalls, eval, Scope.ofResults_fresh hfresh hresult]
      rfl
  | .unary position op operand, first, hnames, hresults => by
      rw [shell, Shell.eval, replaceCalls, eval,
        operand.eval_shell hfresh first hnames hresults]
  | .binary op lhs rhs, first, hnames, hresults => by
      rw [outerCalls, List.length_append] at hresults
      have hleft := lhs.eval_shell hfresh first
        (fun index position hmem => hnames index position (List.mem_append_left _ hmem)) (by omega)
      have hright := rhs.eval_shell hfresh (first + lhs.outerCalls.length)
        (fun index position hmem => hnames index position (List.mem_append_right _ hmem)) (by omega)
      rw [shell, Shell.eval, replaceCalls, eval, hleft, hright, position_replaceCalls]
  | .ident name, _, hnames, _ => by
      -- The name stands for no result, so it has no value on either side.
      have hname : ∀ index, fresh index ≠ name.name := by
        rintro index hname
        exact hnames index name.position (by rw [hname]; exact List.mem_singleton_self _)
      exact congrArg (faultAt name.position) (Scope.ofResults_of_ne hname).symm
  | .literal _ _, _, _, _ | .star _, _, _, _ => rfl

end Results

/-! ## Faults of shells -/

theorem Fault.OfOperator.not_ofLeaf {fault : Fault} (hfault : fault.OfOperator) :
    ¬fault.OfLeaf := by
  cases fault <;> first
    | exact id
    | exact hfault.elim

/-- An expression that has been checked names no column outside its calls. -/
theorem Expr.ident_notMem_leaves : (e : Expr) → e.checkAggregate false = .ok () →
    ∀ name, .ident name ∉ e.leaves
  | .ident _, hcheck, _ => by cases hcheck
  | .literal _ _, _, _ | .star _, _, _ => by simp [leaves]
  | .call _ _, _, _ => List.not_mem_nil
  | .unary _ _ operand, hcheck, name => operand.ident_notMem_leaves hcheck name
  | .binary _ lhs rhs, hcheck, name => by
      obtain ⟨_, hleft, hright⟩ := bind_eq_ok.mp hcheck
      rw [leaves, List.mem_append, not_or]
      exact ⟨lhs.ident_notMem_leaves hleft name, rhs.ident_notMem_leaves hright name⟩

/-- A star is read as a whole projection or a whole argument. -/
theorem ReadAt.star_notMem_leaves {depth level : Nat} {ts : List Token} {e : Expr}
    (hts : ReadAt depth level ts e) (hwhole : 1 ≤ level ∨ ∀ position, e ≠ .star position) :
    ∀ position, .star position ∉ e.leaves := by
  induction hts with
  | literal | name => simp [Expr.leaves]
  | emptyCall | call => exact fun _ => List.not_mem_nil
  | group _ _ _ _ ih => exact ih (.inl (Nat.le_refl 1))
  | sign _ _ _ ih => exact ih (.inl (by decide))
  | @fold _ _ level _ _ _ _ _ _ hop _ _ _ ihl ihr =>
      have hlevel : 1 ≤ level := (mem_operatorsAt.mp hop).1
      intro position hmem
      rcases List.mem_append.mp hmem with hleft | hright
      · exact ihl (.inl hlevel) position hleft
      · exact ihr (.inl (Nat.le_add_left 1 level)) position hright
  | tighter _ _ ih => exact ih (.inl (Nat.le_add_left 1 _))
  | star =>
      rcases hwhole with hlevel | hother
      · cases hlevel
      · exact absurd rfl (hother _)

/-- Only operators fail in a shell whose leaves are literals. -/
theorem Expr.Applicable.shell_fails {e : Expr} (he : e.Applicable)
    (hnames : ∀ name, .ident name ∉ e.leaves) (hstars : ∀ position, .star position ∉ e.leaves)
    (results : List (Option Value)) (first : Nat) :
    FailsOnly (fun error : EvalError => ¬error.value.OfLeaf) ((e.shell first).eval results) := by
  induction he generalizing first with
  | ident name => exact absurd (List.mem_singleton_self _) (hnames name)
  | literal _ value => exact .ok value.value
  | star position => exact absurd (List.mem_singleton_self _) (hstars position)
  | @unary position op _ _ ih =>
      refine (ih hnames hstars first).bind fun value _ => ?_
      exact (Operator.unary_fails op value).mapError fun _ => Fault.OfOperator.not_ofLeaf
  | @binary op lhs rhs hop _ _ ihl ihr =>
      have hleft := ihl (fun name hmem => hnames name (List.mem_append_left _ hmem))
        (fun position hmem => hstars position (List.mem_append_left _ hmem)) first
      have hright := ihr (fun name hmem => hnames name (List.mem_append_right _ hmem))
        (fun position hmem => hstars position (List.mem_append_right _ hmem))
        (first + lhs.outerCalls.length)
      refine hleft.bind fun left _ => hright.bind fun right _ => ?_
      exact (Operator.binary_fails hop left right).mapError fun _ => Fault.OfOperator.not_ofLeaf
  | call =>
      rw [shell, Shell.eval]
      split
      · exact .ok _
      · exact .error id

/-- A shell has one slot behind the others for each call of its expression that stands in no
other call, from left to right, with the argument of the call.  Its value on the results of the
slots is that of the expression with names for the results in place of the calls, down to the
position of an error, and no other name has a value there.  Of a projection that has been read
and checked, it is never an error of a column, of a star or of a call. -/
theorem shell_means_expression {slots slots' : List Slot} {e : Expr} {shell : Shell}
    (hshell : Shell.ofExpr slots e = (.ok shell, slots')) :
    (∃ new, slots' = slots ++ new ∧ List.Forall₂ Slot.Carries e.outerCalls new) ∧
    shell.indices = List.range' slots.length e.outerCalls.length ∧
    (∃ fresh : Nat → String, Function.Injective fresh ∧
      ∀ index position, .ident ⟨position, fresh index⟩ ∉ e.leaves) ∧
    (∀ (fresh : Nat → String) (results : List (Option Value)), Function.Injective fresh →
      (∀ index position, .ident ⟨position, fresh index⟩ ∉ e.leaves) →
      slots'.length ≤ results.length →
        shell.eval results =
          (e.replaceCalls fresh slots.length).eval (.ofResults fresh results)) ∧
    ∀ (text : String) (statements : List Statement) (s : Select),
      parse text = .ok statements → .select s ∈ statements → e ∈ s.projections →
      (∀ position, e ≠ .star position) → e.checkAggregate false = .ok () →
        ∀ results error, shell.eval results = .error error → ¬error.value.OfLeaf := by
  obtain ⟨rfl, new, rfl, hcarried⟩ := Shell.ofExpr_eq_ok hshell
  refine ⟨⟨new, rfl, hcarried⟩, e.indices_shell slots.length, e.exists_fresh, ?_, ?_⟩
  · intro fresh results hfresh hnames hresults
    rw [List.length_append, ← hcarried.length_eq] at hresults
    exact e.eval_shell hfresh slots.length hnames hresults
  · intro text statements s hread hs he hother hcheck results
    obtain ⟨ts, hts⟩ := TokenStream.whole_of_statements _ hread (.select s) hs e
      (List.mem_append_left _ he)
    exact hts.applicable.shell_fails (e.ident_notMem_leaves hcheck)
      (hts.star_notMem_leaves (.inr hother)) results slots.length

/-- The projection of `select sum(id)-count(*) from t`. -/
def tally : Expr :=
  .binary .minus (.call ⟨⟨1, 7⟩, "sum"⟩ [.ident ⟨⟨1, 11⟩, "id"⟩])
    (.call ⟨⟨1, 15⟩, "count"⟩ [.star ⟨1, 21⟩])

/-- Its shell behind one slot. -/
def tallyShell : Shell :=
  .binary ⟨1, 7⟩ .minus (.slot 1) (.slot 2)

def tallySlots : List Slot :=
  [⟨none, .rows 0⟩, ⟨some (.ident ⟨⟨1, 11⟩, "id"⟩), .start .sum⟩, ⟨none, .rows 0⟩]

set_option maxRecDepth 4000 in
theorem tallyShell_means_tally :
    Shell.ofExpr [⟨none, .rows 0⟩] tally = (.ok tallyShell, tallySlots) ∧
      tallyShell.indices = [1, 2] ∧
      (∃ fresh : Nat → String, Function.Injective fresh ∧
        (tally.replaceCalls fresh 1).eval
            (.ofResults fresh [none, some (.integer 9), some (.integer 3)]) =
          .ok (some (.integer 6))) ∧
      (∃ statements s, parse "select sum(id)-count(*) from t" = .ok statements ∧
        .select s ∈ statements ∧ tally ∈ s.projections) ∧
      tally.checkAggregate false = .ok () ∧
      tallyShell.eval [none, some (.boolean true), some (.integer 3)] =
        .error ⟨⟨1, 7⟩, .invalidArithmetic (.boolean true) .minus (.integer 3)⟩ ∧
      ¬(Fault.invalidArithmetic (.boolean true) .minus (.integer 3)).OfLeaf := by
  have hread : parse "select sum(id)-count(*) from t" =
      .ok [.select ⟨⟨1, 0⟩, [tally], .ident ⟨⟨1, 29⟩, "t"⟩, none⟩] := by
    cbv
  have hshell : Shell.ofExpr [⟨none, .rows 0⟩] tally = (.ok tallyShell, tallySlots) := rfl
  obtain ⟨-, hindices, ⟨fresh, hfresh, hnames⟩, hmeans, hfails⟩ := shell_means_expression hshell
  have hvalue := hmeans fresh [none, some (.integer 9), some (.integer 3)] hfresh hnames le_rfl
  have hother : ∀ position, tally ≠ .star position := by
    intro position hstar
    cases hstar
  have hfailure : tallyShell.eval [none, some (.boolean true), some (.integer 3)] =
      .error ⟨⟨1, 7⟩, .invalidArithmetic (.boolean true) .minus (.integer 3)⟩ := rfl
  exact ⟨hshell, hindices, ⟨fresh, hfresh, hvalue.symm⟩,
    ⟨_, _, hread, List.mem_cons_self, List.mem_cons_self⟩, rfl, hfailure,
    hfails _ _ _ hread List.mem_cons_self List.mem_cons_self hother rfl _ _ hfailure⟩

end PocketSql
