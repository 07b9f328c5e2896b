import Mathlib
import PocketSql.Proofs.Query.Selection
import PocketSql.Proofs.Store.Reachable

/-!
# Aggregate queries

A query for aggregate calls takes each row through the condition and through all of its
accumulators before it looks at the next row.  The query for their arguments decides the
condition on all rows first, and then evaluates argument after argument row by row.  The
two meet errors in different orders, but they succeed together: every row and every call
is stepped through on its own, so rows and calls can be exchanged.
-/

namespace PocketSql

/-- A call of an aggregate function on an expression without aggregate calls.  A star is
only counted, and stands for the rows. -/
structure AggregateCall where
  function : AggregateFunction
  name : Ident
  argument : Expr
  named : AggregateFunction.ofName? name.name = some function
  plain : argument.hasAggregate = false
  star : ∀ position, argument = .star position → function = .count

namespace AggregateCall

def expr (call : AggregateCall) : Expr :=
  .call call.name [call.argument]

/-- The results of calls for the rows that a query for their arguments shows.  The column
`index` is that of the first argument, and a star stands for `width` columns. -/
inductive Answers (width : Nat) (rows : List Row) : Nat → List AggregateCall → Row → Prop
  | nil {index : Nat} : Answers width rows index [] []
  | count {index : Nat} {call : AggregateCall} {calls : List AggregateCall} {cells : Row}
      {position : Position} : call.argument = .star position →
      Answers width rows (index + width) calls cells →
      Answers width rows index (call :: calls)
        (some (.integer (Int64.ofNat rows.length)) :: cells)
  | column {index : Nat} {call : AggregateCall} {calls : List AggregateCall} {cells : Row}
      {column : List (Option Value)} {final : Accumulator} :
      (∀ position, call.argument ≠ .star position) →
      rows.map (·[index]?) = column.map some →
      column.foldlM Accumulator.step (.start call.function) = .ok final →
      Answers width rows (index + 1) calls cells →
      Answers width rows index (call :: calls) (final.result :: cells)

end AggregateCall

/-! ## Calls and their slots -/

mutual

/-- An expression without aggregate calls may be the argument of one. -/
theorem Expr.checkAggregate_of_plain :
    ∀ e : Expr, e.hasAggregate = false → e.checkAggregate true = .ok ()
  | .ident _, _ => rfl
  | .literal _ _, _ => rfl
  | .star _, _ => rfl
  | .unary _ _ operand, he => by
      rw [checkAggregate]
      exact checkAggregate_of_plain operand he
  | .binary _ lhs rhs, he => by
      obtain ⟨hl, hr⟩ := Bool.or_eq_false_iff.mp he
      rw [checkAggregate]
      exact bind_eq_ok.mpr ⟨_, checkAggregate_of_plain lhs hl, checkAggregate_of_plain rhs hr⟩
  | .call function arguments, he => by
      obtain ⟨hf, harguments⟩ := Bool.or_eq_false_iff.mp he
      rw [checkAggregate, hf]
      exact checkAllAggregate_of_plain arguments harguments

theorem Expr.checkAllAggregate_of_plain :
    ∀ es : List Expr, Expr.anyHasAggregate es = false → Expr.checkAllAggregate true es = .ok ()
  | [], _ => rfl
  | e :: es, hes => by
      obtain ⟨he, hrest⟩ := Bool.or_eq_false_iff.mp hes
      rw [checkAllAggregate]
      exact bind_eq_ok.mpr ⟨_, checkAggregate_of_plain e he, checkAllAggregate_of_plain es hrest⟩

end

namespace AggregateCall

/-- The slot of a call before the first row. -/
def slot (call : AggregateCall) : Slot :=
  match call.argument with
  | .star _ => ⟨none, .rows 0⟩
  | argument => ⟨some argument, .start call.function⟩

variable (call : AggregateCall)

theorem slot_of_star {position : Position} (hstar : call.argument = .star position) :
    call.slot = ⟨none, .rows 0⟩ := by
  rw [slot, hstar]

theorem slot_of_not_star (hstar : ∀ position, call.argument ≠ .star position) :
    call.slot = ⟨some call.argument, .start call.function⟩ := by
  rw [slot]
  split
  · next position heq => exact absurd heq (hstar position)
  · rfl

theorem ofCall_eq : Slot.ofCall call.name [call.argument] = .ok call.slot := by
  obtain ⟨function, name, argument, named, plain, star⟩ := call
  simp only [Slot.ofCall, named, slot]
  cases argument with
  | star position =>
      obtain rfl := star position rfl
      rfl
  | ident | literal | unary | binary | call => cases function <;> rfl

theorem isAggregate_name : isAggregate call.name.name = true := by
  rw [isAggregate, call.named]
  rfl

theorem check_expr : call.expr.checkAggregate false = .ok () := by
  rw [expr, Expr.checkAggregate, if_pos call.isAggregate_name]
  rw [if_neg (by decide)]
  exact bind_eq_ok.mpr ⟨_, Expr.checkAggregate_of_plain _ call.plain, rfl⟩

/-- The slots of the calls follow those that are there already, and each shell is the number
of a slot. -/
theorem shellsOf_calls (slots : List Slot) (calls : List AggregateCall) :
    shellsOf slots (calls.map expr) =
      .ok ((List.range' slots.length calls.length).map Shell.slot, slots ++ calls.map slot) := by
  induction calls generalizing slots with
  | nil => simp [shellsOf]
  | cons call calls ih =>
      have hshell : Shell.ofExpr slots call.expr =
          (.ok (.slot slots.length), slots ++ [call.slot]) := by
        rw [expr, Shell.ofExpr, ofCall_eq]
        rfl
      rw [List.map_cons, shellsOf, check_expr]
      simp only [bind, Except.bind, hshell, ih, List.length_append, List.length_singleton]
      simp [List.range'_succ, pure, Except.pure]

theorem any_hasAggregate {calls : List AggregateCall} (hcalls : calls ≠ []) :
    (calls.map expr).any Expr.hasAggregate = true := by
  obtain ⟨call, others, rfl⟩ := List.exists_cons_of_ne_nil hcalls
  rw [List.map_cons, List.any_cons, expr, Expr.hasAggregate, call.isAggregate_name]
  rfl

/-- No call is a star, so all of them stand for themselves. -/
theorem flatMap_expand (t : Table) (calls : List AggregateCall) :
    (calls.map expr).flatMap t.expand = calls.map expr := by
  induction calls with
  | nil => rfl
  | cons call calls ih =>
      rw [List.map_cons, List.flatMap_cons, ih]
      rfl

end AggregateCall

/-! ## Rows and slots -/

/-- Steps a slot through rows of a table. -/
def Slot.stepAll (t : Table) (position : Position) (s : Slot) (rows : List Row) :
    Except EvalError Slot :=
  rows.foldlM (fun s row => s.step position (t.scope row)) s

namespace Slot

variable {t : Table} {position : Position} {s s' : Slot}

@[simp]
theorem stepAll_nil : s.stepAll t position [] = .ok s := by
  rfl

theorem stepAll_cons {row : Row} {rows : List Row} :
    s.stepAll t position (row :: rows) = .ok s' ↔
      ∃ mid, s.step position (t.scope row) = .ok mid ∧ mid.stepAll t position rows = .ok s' := by
  rw [stepAll, List.foldlM_cons, bind_eq_ok]
  rfl

end Slot

theorem exists_forall₂_comp {α β γ : Type} {R : α → β → Prop} {S : β → γ → Prop} {xs : List α}
    {zs : List γ} : List.Forall₂ (fun x z => ∃ y, R x y ∧ S y z) xs zs ↔
      ∃ ys, List.Forall₂ R xs ys ∧ List.Forall₂ S ys zs := by
  constructor
  · intro hxs
    induction hxs with
    | nil => exact ⟨[], .nil, .nil⟩
    | cons hx _ ih =>
        obtain ⟨y, hxy, hyz⟩ := hx
        obtain ⟨ys, hxs, hzs⟩ := ih
        exact ⟨y :: ys, .cons hxy hxs, .cons hyz hzs⟩
  · rintro ⟨ys, hxs, hzs⟩
    induction hxs generalizing zs with
    | nil =>
        cases hzs
        exact .nil
    | cons hxy _ ih =>
        cases hzs with
        | cons hyz hzs => exact .cons ⟨_, hxy, hyz⟩ (ih hzs)

namespace Table

variable {t : Table} {position : Position} {condition : Option Expr}

/-- Stepping all slots row by row is stepping each of them through all rows, as far as it
succeeds.  By induction on the rows. -/
theorem accumulate_eq_ok {slots slots' : List Slot} {rows : List Row} :
    t.accumulate position condition slots rows = .ok slots' ↔
      ∃ mask, rows.mapM (fun row => Expr.holds (t.scope row) condition) = .ok mask ∧
        List.Forall₂ (fun s s' => s.stepAll t position (marked rows mask) = .ok s')
          slots slots' := by
  induction rows generalizing slots with
  | nil => simp [accumulate, List.forall₂_eq_eq_eq]
  | cons row rows ih =>
      simp only [accumulate, bind_eq_ok, mapM_eq_ok, List.forall₂_cons_left_iff] at ih ⊢
      constructor
      · rintro ⟨holds, hholds, hrest⟩
        cases holds with
        | true =>
            obtain ⟨mid, hmid, hrest⟩ := bind_eq_ok.mp hrest
            obtain ⟨mask, hmask, hsteps⟩ := ih.mp hrest
            refine ⟨true :: mask, ⟨true, mask, hholds, hmask, rfl⟩, ?_⟩
            simp only [marked_true, Slot.stepAll_cons]
            exact exists_forall₂_comp.mpr ⟨mid, mapM_eq_ok.mp hmid, hsteps⟩
        | false =>
            obtain ⟨mask, hmask, hsteps⟩ := ih.mp hrest
            refine ⟨false :: mask, ⟨false, mask, hholds, hmask, rfl⟩, ?_⟩
            rwa [marked_false]
      · rintro ⟨_, ⟨holds, mask, hholds, hmask, rfl⟩, hsteps⟩
        refine ⟨holds, hholds, ?_⟩
        cases holds with
        | true =>
            simp only [marked_true, Slot.stepAll_cons] at hsteps
            obtain ⟨mid, hmid, hsteps⟩ := exists_forall₂_comp.mp hsteps
            exact bind_eq_ok.mpr ⟨mid, mapM_eq_ok.mpr hmid, ih.mpr ⟨mask, hmask, hsteps⟩⟩
        | false =>
            rw [marked_false] at hsteps
            exact ih.mpr ⟨mask, hmask, hsteps⟩

end Table

/-! ## Columns -/

namespace Slot

variable {t : Table} {position : Position}

theorem stepAll_star (count : Nat) (rows : List Row) :
    stepAll t position ⟨none, .rows count⟩ rows = .ok ⟨none, .rows (count + rows.length)⟩ := by
  induction rows generalizing count with
  | nil => rfl
  | cons row rows ih =>
      refine stepAll_cons.mpr ⟨⟨none, .rows (count + 1)⟩, rfl, ?_⟩
      rw [ih, List.length_cons, Nat.add_assoc, Nat.add_comm 1]

/-- All values of the argument first, and then the accumulator. -/
theorem stepAll_argument {e : Expr} {start : Accumulator} {rows : List Row} {s : Slot} :
    stepAll t position ⟨some e, start⟩ rows = .ok s ↔
      ∃ column final, rows.mapM (fun row => e.eval (t.scope row)) = .ok column ∧
        column.foldlM Accumulator.step start = .ok final ∧ s = ⟨some e, final⟩ := by
  induction rows generalizing start with
  | nil =>
      simp only [stepAll_nil, List.mapM_nil, pure_eq_ok, Except.ok.injEq]
      constructor
      · rintro rfl
        exact ⟨[], start, rfl, rfl, rfl⟩
      · rintro ⟨_, final, rfl, hfinal, rfl⟩
        cases hfinal
        rfl
  | cons row rows ih =>
      have hstep : ∀ {mid}, Slot.step position (t.scope row) ⟨some e, start⟩ = .ok mid ↔
          ∃ value next, e.eval (t.scope row) = .ok value ∧ start.step value = .ok next ∧
            mid = ⟨some e, next⟩ := by
        intro mid
        simp only [Slot.step, bind_eq_ok, faultAt_eq_ok, pure_eq_ok]
        constructor
        · rintro ⟨value, hvalue, next, hnext, rfl⟩
          exact ⟨value, next, hvalue, hnext, rfl⟩
        · rintro ⟨value, next, hvalue, hnext, rfl⟩
          exact ⟨value, hvalue, next, hnext, rfl⟩
      rw [stepAll_cons]
      simp only [hstep, mapM_eq_ok, List.forall₂_cons_left_iff]
      simp only [mapM_eq_ok] at ih
      constructor
      · rintro ⟨_, ⟨value, next, hvalue, hnext, rfl⟩, hrest⟩
        obtain ⟨column, final, hcolumn, hfinal, rfl⟩ := ih.mp hrest
        refine ⟨value :: column, final, ⟨value, column, hvalue, hcolumn, rfl⟩, ?_, rfl⟩
        rw [List.foldlM_cons]
        exact bind_eq_ok.mpr ⟨next, hnext, hfinal⟩
      · rintro ⟨_, final, ⟨value, column, hvalue, hcolumn, rfl⟩, hfinal, rfl⟩
        rw [List.foldlM_cons] at hfinal
        obtain ⟨next, hnext, hfinal⟩ := bind_eq_ok.mp hfinal
        exact ⟨_, ⟨value, next, hvalue, hnext, rfl⟩, ih.mpr ⟨column, final, hcolumn, hfinal, rfl⟩⟩

end Slot

namespace AggregateCall

/-- The slot of a call can be stepped through the rows, and its result is the cell. -/
def StepsTo (t : Table) (position : Position) (rows : List Row) (call : AggregateCall)
    (cell : Option Value) : Prop :=
  ∃ s, call.slot.stepAll t position rows = .ok s ∧ s.accumulator.result = cell

variable {t : Table} {position : Position} {rows : List Row} {call : AggregateCall}
  {cell : Option Value}

theorem stepsTo_of_star {p : Position} (hstar : call.argument = .star p) :
    StepsTo t position rows call cell ↔ cell = some (.integer (Int64.ofNat rows.length)) := by
  rw [StepsTo, call.slot_of_star hstar, Slot.stepAll_star, Nat.zero_add]
  constructor
  · rintro ⟨_, ⟨⟩, rfl⟩
    rfl
  · rintro rfl
    exact ⟨_, rfl, rfl⟩

theorem stepsTo_of_not_star (hstar : ∀ p, call.argument ≠ .star p) :
    StepsTo t position rows call cell ↔
      ∃ column final, rows.mapM (fun row => call.argument.eval (t.scope row)) = .ok column ∧
        column.foldlM Accumulator.step (.start call.function) = .ok final ∧
        cell = final.result := by
  rw [StepsTo, call.slot_of_not_star hstar]
  constructor
  · rintro ⟨_, hs, rfl⟩
    obtain ⟨column, final, hcolumn, hfinal, rfl⟩ := Slot.stepAll_argument.mp hs
    exact ⟨column, final, hcolumn, hfinal, rfl⟩
  · rintro ⟨column, final, hcolumn, hfinal, rfl⟩
    exact ⟨_, Slot.stepAll_argument.mpr ⟨column, final, hcolumn, hfinal, rfl⟩, rfl⟩

end AggregateCall

section Shown

variable {t : Table} {projections : List Expr} {rows shown : List Row}
  (hshown : List.Forall₂ (t.Shows projections) rows shown)

include hshown

/-- A column of what is shown holds the values of its projection. -/
theorem map_getElem?_iff {index : Nat} {e : Expr} (he : projections[index]? = some e)
    {column : List (Option Value)} :
    shown.map (·[index]?) = column.map some ↔
      rows.mapM (fun row => e.eval (t.scope row)) = .ok column := by
  rw [mapM_eq_ok]
  induction hshown generalizing column with
  | nil => cases column <;> simp
  | cons hcells _ ih =>
      obtain ⟨cell, hcell, heval⟩ := hcells.getElem? he
      cases column with
      | nil => simp
      | cons value column =>
          rw [List.map_cons, List.map_cons, List.cons.injEq, List.forall₂_cons, hcell, heval, ih,
            Option.some.injEq, Except.ok.injEq]

/-- The answers to calls are what their slots come to, when the projections from `index` on
are the arguments of the calls. -/
theorem answers_iff {position : Position} {index : Nat} {calls : List AggregateCall}
    (hprojections : projections.drop index =
      (calls.map AggregateCall.argument).flatMap t.expand) {cells : Row} :
    AggregateCall.Answers t.columns.length shown index calls cells ↔
      List.Forall₂ (AggregateCall.StepsTo t position rows) calls cells := by
  induction calls generalizing index cells with
  | nil =>
      rw [List.forall₂_nil_left_iff]
      constructor
      · rintro ⟨⟩
        rfl
      · rintro rfl
        exact .nil
  | cons call calls ih =>
      rw [List.map_cons, List.flatMap_cons] at hprojections
      rw [List.forall₂_cons_left_iff]
      by_cases hstar : ∃ p, call.argument = .star p
      · obtain ⟨p, hstar⟩ := hstar
        rw [hstar, Table.expand_star] at hprojections
        have hrest : projections.drop (index + t.columns.length) =
            (calls.map AggregateCall.argument).flatMap t.expand := by
          rw [← List.drop_drop, hprojections, List.drop_left']
          simp [Table.columnNames]
        constructor
        · rintro (_ | ⟨_, hcells⟩ | ⟨hnot, _⟩)
          · refine ⟨_, _, (AggregateCall.stepsTo_of_star hstar).mpr ?_, (ih hrest).mp hcells, rfl⟩
            rw [hshown.length_eq]
          · exact absurd hstar (hnot p)
        · rintro ⟨_, cells, hcell, hcells, rfl⟩
          rw [(AggregateCall.stepsTo_of_star hstar).mp hcell, hshown.length_eq]
          exact .count hstar ((ih hrest).mpr hcells)
      · rw [not_exists] at hstar
        rw [Table.expand_of_not_star hstar, List.singleton_append] at hprojections
        have hargument : projections[index]? = some call.argument := by
          have hhead := congrArg (·[0]?) hprojections
          simpa using hhead
        have hrest : projections.drop (index + 1) =
            (calls.map AggregateCall.argument).flatMap t.expand := by
          rw [← List.drop_drop, hprojections, List.drop_one, List.tail_cons]
        constructor
        · rintro (_ | ⟨hstar', _⟩ | ⟨_, hcolumn, hfinal, hcells⟩)
          · exact absurd hstar' (hstar _)
          · have hvalues := (map_getElem?_iff hshown hargument).mp hcolumn
            exact ⟨_, _, (AggregateCall.stepsTo_of_not_star hstar).mpr ⟨_, _, hvalues, hfinal, rfl⟩,
              (ih hrest).mp hcells, rfl⟩
        · rintro ⟨_, cells, hcell, hcells, rfl⟩
          obtain ⟨column, final, hvalues, hfinal, rfl⟩ :=
            (AggregateCall.stepsTo_of_not_star hstar).mp hcell
          have hcolumn := (map_getElem?_iff hshown hargument).mpr hvalues
          exact .column hstar hcolumn hfinal ((ih hrest).mpr hcells)

end Shown

section Queries

variable {t : Table} {position : Position} {condition : Option Expr}
  {calls : List AggregateCall}

/-- What the slots take in is shown by the query for the arguments. -/
theorem exists_shown (ht : t.Valid) {rows : List Row} (hrows : ∀ row ∈ rows, row ∈ t.rows)
    {cells : Row} (hcells : List.Forall₂ (AggregateCall.StepsTo t position rows) calls cells) :
    ∃ shown, List.Forall₂ (t.Shows ((calls.map AggregateCall.argument).flatMap t.expand))
      rows shown := by
  have hvalue : ∀ row ∈ rows, ∀ e ∈ (calls.map AggregateCall.argument).flatMap t.expand,
      ∃ cell, Expr.eval (t.scope row) e = .ok cell := by
    intro row hrow e he
    obtain ⟨_, hargument, he⟩ := List.mem_flatMap.mp he
    obtain ⟨call, hcall, rfl⟩ := List.mem_map.mp hargument
    by_cases hstar : ∃ p, call.argument = .star p
    · obtain ⟨p, hstar⟩ := hstar
      rw [hstar, Table.expand_star] at he
      obtain ⟨name, hname, rfl⟩ := List.mem_map.mp he
      exact ht.eval_column (hrows row hrow) hname
    · rw [not_exists] at hstar
      rw [Table.expand_of_not_star hstar, List.mem_singleton] at he
      obtain ⟨k, hk, rfl⟩ := List.mem_iff_getElem.mp hcall
      have hcell := (List.forall₂_iff_get.mp hcells).2 k hk (hcells.length_eq ▸ hk)
      obtain ⟨column, _, hcolumn, -⟩ := (AggregateCall.stepsTo_of_not_star hstar).mp hcell
      exact he ▸ exists_mapM_eq_ok.mp ⟨column, hcolumn⟩ row hrow
  have hshown := exists_mapM_eq_ok.mpr fun row hrow =>
    exists_mapM_eq_ok.mpr (hvalue row hrow)
  simp only [mapM_eq_ok] at hshown
  exact hshown

theorem any_hasAggregate_arguments :
    ((calls.map AggregateCall.argument).flatMap t.expand).any Expr.hasAggregate = false := by
  rw [List.any_eq_false]
  intro e he
  obtain ⟨_, hargument, he⟩ := List.mem_flatMap.mp he
  obtain ⟨call, -, rfl⟩ := List.mem_map.mp hargument
  by_cases hstar : ∃ p, call.argument = .star p
  · obtain ⟨p, hstar⟩ := hstar
    rw [hstar, Table.expand_star] at he
    obtain ⟨name, -, rfl⟩ := List.mem_map.mp he
    exact Bool.false_ne_true
  · rw [not_exists] at hstar
    rw [Table.expand_of_not_star hstar, List.mem_singleton] at he
    rw [he, call.plain]
    exact Bool.false_ne_true

/-- The shells of calls show the results of all slots in order. -/
theorem mapM_eval_slots (results : Row) :
    ((List.range' 0 results.length).map Shell.slot).mapM (Shell.eval results) = .ok results := by
  rw [mapM_eq_ok, List.forall₂_map_left_iff, List.forall₂_iff_get]
  refine ⟨by simp, fun index hindex hindex' => ?_⟩
  simp [Shell.eval, hindex']

theorem aggregate_eq_ok (hrows : t.rows ≠ []) {result : QueryResult} :
    t.aggregate position (calls.map AggregateCall.expr) condition = .ok result ↔
      ∃ mask cells, t.matching condition = .ok mask ∧
        List.Forall₂ (AggregateCall.StepsTo t position (t.selected mask)) calls cells ∧
        result = ⟨calls.map fun _ => "?", [cells]⟩ := by
  have hsteps : ∀ rows cells, List.Forall₂ (AggregateCall.StepsTo t position rows) calls cells ↔
      ∃ slots, List.Forall₂ (fun call s => call.slot.stepAll t position rows = .ok s) calls slots ∧
        slots.map (fun s => s.accumulator.result) = cells := by
    intro rows cells
    simp only [← List.forall₂_eq_eq_eq, List.forall₂_map_left_iff]
    exact exists_forall₂_comp
  have hheadings : ((List.range' 0 calls.length).map Shell.slot).map (fun _ => "?") =
      calls.map fun _ => "?" := by
    rw [List.map_map]
    exact List.ext_getElem (by simp) (by simp)
  simp only [Table.aggregate, AggregateCall.shellsOf_calls, bind_eq_ok, Except.ok.injEq,
    exists_eq_left', if_neg hrows, pure_eq_ok, Table.accumulate_eq_ok, List.nil_append,
    List.length_nil, hheadings, hsteps, List.forall₂_map_left_iff, Table.selected_eq]
  constructor
  · rintro ⟨slots, ⟨mask, hmask, hslots⟩, cells, hcells, rfl⟩
    have hresults := mapM_eval_slots (slots.map fun s => s.accumulator.result)
    rw [List.length_map, ← hslots.length_eq, hcells] at hresults
    cases hresults
    exact ⟨mask, _, hmask, ⟨slots, hslots, rfl⟩, rfl⟩
  · rintro ⟨mask, cells, hmask, ⟨slots, hslots, rfl⟩, rfl⟩
    have hresults := mapM_eval_slots (slots.map fun s => s.accumulator.result)
    rw [List.length_map, ← hslots.length_eq] at hresults
    exact ⟨slots, ⟨mask, hmask, hslots⟩, _, hresults, rfl⟩

end Queries

/-- On a stored table with rows, a query for aggregate calls succeeds exactly when the query
for their arguments does and the accumulator of each call can be stepped through its column
of the rows shown, or counts them.  Its one row holds the final results. -/
theorem aggregate_select_agrees {db : Database} (hdb : db.Reachable) {name : Ident} {t : Table}
    (hfound : db.table? name.name = some t) (hrows : t.rows ≠ []) (position : Position)
    (condition : Option Expr) {calls : List AggregateCall} (hcalls : calls ≠ [])
    (result : QueryResult) :
    (db.execute (.select
        ⟨position, calls.map AggregateCall.expr, .ident name, condition⟩)).1 = .ok (some result) ↔
      ∃ plain cells,
        (db.execute (.select
          ⟨position, calls.map AggregateCall.argument, .ident name, condition⟩)).1 =
            .ok (some plain) ∧
        AggregateCall.Answers t.columns.length plain.rows 0 calls cells ∧
        result = ⟨calls.map fun _ => "?", [cells]⟩ := by
  have ht := (hdb.valid name.name t hfound).2
  simp only [Database.execute_select_eq_ok, Select.run_eq hfound, AggregateCall.flatMap_expand,
    AggregateCall.any_hasAggregate hcalls, any_hasAggregate_arguments, if_true,
    Bool.false_eq_true, if_false, aggregate_eq_ok hrows, Table.project_eq_ok]
  constructor
  · rintro ⟨mask, cells, hmask, hcells, rfl⟩
    obtain ⟨shown, hshown⟩ := exists_shown ht (fun _ => Table.mem_rows_of_mem_selected) hcells
    refine ⟨_, cells, ⟨mask, shown, hmask, hshown, rfl⟩, ?_, rfl⟩
    exact (answers_iff hshown rfl).mpr hcells
  · rintro ⟨_, cells, ⟨mask, shown, hmask, hshown, rfl⟩, hcells, rfl⟩
    exact ⟨mask, cells, hmask, (answers_iff hshown rfl).mp hcells, rfl⟩

/-- `COUNT(*), SUM(id)` -/
def stockCalls : List AggregateCall :=
  [{ function := .count, name := ⟨⟨4, 7⟩, "count"⟩, argument := .star ⟨4, 13⟩
     named := rfl, plain := rfl, star := fun _ _ => rfl },
    { function := .sum, name := ⟨⟨4, 17⟩, "sum"⟩, argument := .ident ⟨⟨4, 21⟩, "id"⟩
      named := rfl, plain := rfl, star := fun _ heq => Expr.noConfusion heq }]

/-- `SELECT *, id FROM stock` -/
def stockShown : QueryResult :=
  ⟨["id", "label", "id"],
    [[some (.integer 1), none, some (.integer 1)],
      [some (.integer 2), some (.string "new"), some (.integer 2)]]⟩

theorem stock_counted_and_summed :
    stock.Reachable ∧ stock.table? "stock" = some stockTable ∧ stockTable.rows ≠ [] ∧
      stockCalls ≠ [] ∧
      (stock.execute (.select ⟨⟨4, 0⟩, stockCalls.map AggregateCall.expr,
        .ident ⟨⟨4, 30⟩, "stock"⟩, none⟩)).1 =
          .ok (some ⟨["?", "?"], [[some (.integer 2), some (.integer 3)]]⟩) := by
  have hrows : stockTable.rows ≠ [] := List.cons_ne_nil _ _
  have hcalls : stockCalls ≠ [] := List.cons_ne_nil _ _
  have hname : stock.table? (Ident.mk ⟨4, 30⟩ "stock").name = some stockTable := stock_table
  have hagrees := aggregate_select_agrees stock_reachable hname hrows ⟨4, 0⟩ none hcalls
  have hcolumn : stockShown.rows.map (·[2]?) =
      [some (Value.integer 1), some (.integer 2)].map some := rfl
  have hsum : AggregateCall.Answers 2 stockShown.rows 2 stockCalls.tail
      [(Accumulator.sum (some (.integer 3))).result] :=
    .column (fun _ heq => Expr.noConfusion heq) hcolumn rfl .nil
  have hanswers : AggregateCall.Answers 2 stockShown.rows 0 stockCalls
      [some (.integer 2), some (.integer 3)] :=
    .count rfl hsum
  exact ⟨stock_reachable, stock_table, hrows, hcalls,
    (hagrees _).mpr ⟨stockShown, _, rfl, hanswers, rfl⟩⟩

end PocketSql
