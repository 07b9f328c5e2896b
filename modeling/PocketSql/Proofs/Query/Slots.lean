import Mathlib
import PocketSql.Proofs.Query.Aggregation

/-!
# The slots of shells

A shell is an expression with a slot in place of each aggregate call.  The slots that it
numbers are there when it is evaluated: those of its calls are put behind the ones that
exist, none is taken away, and stepping them through rows leaves their number.
-/

namespace PocketSql

/-- The shell is the expression with its calls taken out, each into the slot of the number
that stands in its place. -/
inductive Shell.Encloses (slots : List Slot) : Expr → Shell → Prop
  | slot {function : Ident} {arguments : List Expr} {index : Nat} {s : Slot} :
      slots[index]? = some s → Slot.ofCall function arguments = .ok s →
      Encloses slots (.call function arguments) (.slot index)
  | unary {position : Position} {op : Kind} {e : Expr} {shell : Shell} : Encloses slots e shell →
      Encloses slots (.unary position op e) (.unary position op shell)
  | binary {op : Kind} {lhs rhs : Expr} {left right : Shell} : Encloses slots lhs left →
      Encloses slots rhs right →
      Encloses slots (.binary op lhs rhs) (.binary lhs.position op left right)
  | leaf (e : Expr) : Encloses slots e (.leaf e)

namespace Shell

/-- More slots behind those of a shell change nothing. -/
theorem Encloses.append {slots : List Slot} {e : Expr} {shell : Shell} (h : Encloses slots e shell)
    (more : List Slot) : Encloses (slots ++ more) e shell := by
  induction h with
  | slot hindex hcall =>
      refine .slot ?_ hcall
      rw [List.getElem?_append_left (List.getElem?_eq_some_iff.mp hindex).1]
      exact hindex
  | unary _ ih => exact .unary ih
  | binary _ _ ihl ihr => exact .binary ihl ihr
  | leaf e => exact .leaf e

/-- By the structure of the expression. -/
theorem encloses_of_ofExpr {slots slots' : List Slot} : {e : Expr} → {shell : Shell} →
    ofExpr slots e = (.ok shell, slots') → ∃ more, slots' = slots ++ more ∧ Encloses slots' e shell
  | .call function arguments, _, h => by
      rw [ofExpr] at h
      split at h
      · cases h
      · next new hnew =>
        cases h
        refine ⟨[new], rfl, .slot ?_ (faultAt_eq_ok.mp hnew)⟩
        simp
  | .unary position op e, _, h => by
      rw [ofExpr] at h
      split at h
      · cases h
      · next heq =>
        cases h
        obtain ⟨more, rfl, hencloses⟩ := encloses_of_ofExpr heq
        exact ⟨more, rfl, .unary hencloses⟩
  | .binary op lhs rhs, _, h => by
      rw [ofExpr] at h
      split at h
      · cases h
      · next hleft =>
        split at h
        · cases h
        · next hright =>
          cases h
          obtain ⟨more, rfl, hl⟩ := encloses_of_ofExpr hleft
          obtain ⟨others, rfl, hr⟩ := encloses_of_ofExpr hright
          exact ⟨more ++ others, List.append_assoc _ _ _, .binary (hl.append others) hr⟩
  | .ident _, _, h | .literal _ _, _, h | .star _, _, h => by
      cases h
      exact ⟨[], (List.append_nil _).symm, .leaf _⟩

end Shell

theorem encloses_of_shellsOf {slots slots' : List Slot} {es : List Expr} {shells : List Shell}
    (h : shellsOf slots es = .ok (shells, slots')) :
    (∃ more, slots' = slots ++ more) ∧ List.Forall₂ (Shell.Encloses slots') es shells := by
  induction es generalizing slots shells with
  | nil =>
      cases h
      exact ⟨⟨[], (List.append_nil _).symm⟩, .nil⟩
  | cons e es ih =>
      rw [shellsOf] at h
      obtain ⟨_, _, h⟩ := bind_eq_ok.mp h
      split at h
      · cases h
      · next shell mid hshell =>
        obtain ⟨⟨others, last⟩, hothers, heq⟩ := bind_eq_ok.mp h
        cases heq
        obtain ⟨more, rfl, hencloses⟩ := Shell.encloses_of_ofExpr hshell
        obtain ⟨⟨rest, rfl⟩, hrest⟩ := ih hothers
        exact ⟨⟨more ++ rest, List.append_assoc _ _ _⟩, .cons (hencloses.append rest) hrest⟩

theorem Table.length_of_accumulate {t : Table} {position : Position} {condition : Option Expr}
    {slots slots' : List Slot} {rows : List Row}
    (h : t.accumulate position condition slots rows = .ok slots') :
    slots.length = slots'.length := by
  obtain ⟨_, _, hsteps⟩ := accumulate_eq_ok.mp h
  exact hsteps.length_eq

end PocketSql
