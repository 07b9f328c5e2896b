import Mathlib
import PocketSql.Proofs.Query.Faults
import PocketSql.Proofs.Store.Reachable
import PocketSql.Proofs.Syntax.StatementDepth
import PocketSql.Proofs.Syntax.LazyLexing

/-!
# No misuse

A text that has been read cannot make a statement misuse an operator or reach outside a
row, a table, a mask or a list of slots.  The rows of a valid table are as long as its
columns are many, masks are made of its rows, and targets are indices of its columns.
-/

namespace PocketSql

/-! ## Failing work -/

section Rules

variable {ε σ α β : Type} {P : ε → Prop} {s : σ}

/-- If the work fails from `s`, the property holds of its error. -/
def WorkFailsOnly (P : ε → Prop) (work : EStateM ε σ α) (s : σ) : Prop :=
  ∀ e s', work s = .error e s' → P e

namespace WorkFailsOnly

theorem of_ok {work : EStateM ε σ α} {a : α} {s' : σ} (hwork : work s = .ok a s') :
    WorkFailsOnly P work s := by
  intro e s'' herror
  cases hwork.symm.trans herror

theorem get {work : σ → EStateM ε σ α} (hwork : WorkFailsOnly P (work s) s) :
    WorkFailsOnly P (MonadState.get >>= work) s :=
  hwork

theorem read {x : Except ε α} {work : α → EStateM ε σ β} (hx : FailsOnly P x)
    (hwork : ∀ a, x = .ok a → WorkFailsOnly P (work a) s) :
    WorkFailsOnly P (liftExcept x >>= work) s := by
  cases x with
  | error e =>
      rintro _ _ ⟨⟩
      exact hx e rfl
  | ok a => exact hwork a rfl

theorem lift {x : Except ε α} (hx : FailsOnly P x) :
    WorkFailsOnly P (liftExcept x : EStateM ε σ α) s := by
  cases x with
  | error e =>
      rintro _ _ ⟨⟩
      exact hx e rfl
  | ok a => exact of_ok (work_liftExcept_ok a s)

theorem guard {condition : Prop} [Decidable condition] {e : ε} {work : EStateM ε σ α} (he : P e)
    (hwork : ¬condition → WorkFailsOnly P work s) :
    WorkFailsOnly P (if condition then throw e else work) s := by
  by_cases hcondition : condition
  · rw [if_pos hcondition]
    rintro _ _ ⟨⟩
    exact he
  · rw [if_neg hcondition]
    exact hwork hcondition

theorem bind {x : EStateM ε σ α} {work : α → EStateM ε σ β} (hx : WorkFailsOnly P x s)
    (hwork : ∀ a s', x s = .ok a s' → WorkFailsOnly P (work a) s') :
    WorkFailsOnly P (x >>= work) s := by
  intro e s'' herror
  rw [work_bind] at herror
  cases hrun : x s with
  | error e' s' =>
      rw [hrun] at herror
      cases herror
      exact hx e s'' hrun
  | ok a s' =>
      rw [hrun] at herror
      exact hwork a s' hrun e s'' herror

/-- What is returned does not matter. -/
theorem answer {work : EStateM ε σ α} {b : β} (hwork : WorkFailsOnly P work s) :
    WorkFailsOnly P (work >>= fun _ => pure b) s :=
  hwork.bind fun _ _ _ => of_ok rfl

end WorkFailsOnly

theorem WorkFailsOnly.workAt {work : EStateM Fault σ α}
    (hwork : WorkFailsOnly Fault.Ordinary work s) (position : Position) :
    WorkFailsOnly Located.Ordinary (workAt position work) s := by
  intro e s' herror
  rw [workAt_eq] at herror
  cases hrun : work s with
  | error fault s'' =>
      rw [hrun] at herror
      cases herror
      exact hwork fault s' hrun
  | ok a s'' =>
      rw [hrun] at herror
      cases herror

/-- Work on a table meets no other errors than that there is no table. -/
theorem WorkFailsOnly.onTable {db : Database} {name : Ident} {work : EStateM EvalError Table α}
    (hwork : ∀ t : Table, db.table? name.name = some t → WorkFailsOnly Located.Ordinary work t) :
    WorkFailsOnly Located.Ordinary (Database.onTable name work) db := by
  intro e db' herror
  unfold Database.onTable Database.find at herror
  cases hfound : db.table? name.name with
  | none =>
      simp only [hfound] at herror
      cases herror
      trivial
  | some t =>
      simp only [hfound] at herror
      cases hrun : work t with
      | error e' t' =>
          rw [hrun] at herror
          cases herror
          exact hwork t hfound e t' hrun
      | ok a t' =>
          rw [hrun] at herror
          cases herror

end Rules

/-! ## Columns and rows -/

theorem Column.fill_ordinary (c : Column) : FailsOnly Fault.Ordinary c.fill := by
  rw [fill]
  split
  · split
    · exact .ok _
    · exact .error trivial
  · exact .ok _

theorem Column.accept_ordinary (c : Column) (value : Option Value) :
    FailsOnly Fault.Ordinary (c.accept value) := by
  cases value with
  | some value => exact (FailsOnly.cast _).ordinary.map some
  | none =>
      rw [accept]
      split
      · exact .ok none
      · exact .error trivial

namespace Table

variable {t : Table}

theorem findColumn_ordinary (t : Table) (name : String) :
    FailsOnly Fault.Ordinary (t.findColumn name) := by
  rw [findColumn]
  split
  · exact .ok _
  · exact .error trivial

theorem distinctIndices_ordinary (t : Table) (seen : List Nat) (names : List String) :
    FailsOnly Fault.Ordinary (t.distinctIndices seen names) := by
  induction names generalizing seen with
  | nil => exact .ok []
  | cons name names ih =>
      refine (t.findColumn_ordinary name).bind fun (_, index) _ => ?_
      dsimp only
      split
      · exact .error trivial
      · exact (ih _).bind fun _ _ => .ok _

theorem targets_ordinary (t : Table) (names : List String) :
    FailsOnly Fault.Ordinary (t.targets names) := by
  rw [targets]
  split
  · exact .ok _
  · exact t.distinctIndices_ordinary [] names

/-- Targets are indices of columns. -/
theorem lt_of_mem_targets {names : List String} {targets : List Nat}
    (htargets : t.targets names = .ok targets) : ∀ index ∈ targets, index < t.columns.length := by
  intro index hindex
  rw [Table.targets] at htargets
  split at htargets
  · cases htargets
    exact List.mem_range.mp hindex
  · obtain ⟨_, _, c, hcolumn⟩ := (mem_distinctIndices htargets index).mp hindex
    exact (List.getElem?_eq_some_iff.mp (column?_eq_some hcolumn).1).1

theorem newRow_ordinary {targets : List Nat}
    (htargets : ∀ index ∈ targets, index < t.columns.length) (values : List (Option Value)) :
    FailsOnly Fault.Ordinary (t.newRow targets values) := by
  have hinside : targets.find? (t.columns.length ≤ ·) = none := by
    rw [List.find?_eq_none]
    intro index hindex
    simpa using htargets index hindex
  rw [newRow, hinside]
  split
  · exact .error trivial
  · have hcells : FailsOnly Fault.Ordinary (t.newCells targets values) := by
      refine FailsOnly.mapM ?_
      rintro ⟨c, index⟩ -
      dsimp only
      split
      · exact .ok _
      · exact c.fill_ordinary
    refine hcells.bind fun cells _ => FailsOnly.mapM ?_
    rintro ⟨c, value⟩ -
    exact c.accept_ordinary value

theorem insertion_ordinary {targets : List Nat}
    (htargets : ∀ index ∈ targets, index < t.columns.length) (values : List (Option Value)) :
    WorkFailsOnly Fault.Ordinary (insertion targets values) t := by
  have hrow := newRow_ordinary htargets values
  have hinsertion := insertion_eq t targets values
  cases hnew : t.newRow targets values with
  | ok row =>
      rw [hnew] at hinsertion
      exact .of_ok hinsertion
  | error fault =>
      rw [hnew] at hinsertion
      intro e t' herror
      cases hinsertion.symm.trans herror
      exact hrow fault hnew

/-- The rows of a valid table have a cell for each column. -/
theorem Valid.scope_ordinary (ht : t.Valid) {row : Row} (hrow : row ∈ t.rows) :
    (t.scope row).Ordinary :=
  Table.scope_ordinary (ht.length_row hrow)

theorem matching_ordinary (ht : t.Valid) {condition : Option Expr}
    (hcondition : ∀ e ∈ condition, e.Applicable) :
    FailsOnly Located.Ordinary (t.matching condition) :=
  FailsOnly.mapM fun _ hrow => Expr.holds_ordinary hcondition (ht.scope_ordinary hrow)

end Table

/-! ## Queries -/

namespace Table

variable {t : Table} {projections : List Expr} {condition : Option Expr}

theorem applicable_of_mem_expand (t : Table) {e : Expr} (he : e.Applicable) :
    ∀ e' ∈ t.expand e, e'.Applicable := by
  cases e with
  | star position =>
      intro e' hmem
      obtain ⟨name, _, rfl⟩ := List.mem_map.mp hmem
      exact .ident _
  | ident | literal | unary | binary | call => exact List.forall_mem_singleton.mpr he

theorem project_ordinary (ht : t.Valid) (hprojections : ∀ e ∈ projections, e.Applicable)
    (hcondition : ∀ e ∈ condition, e.Applicable) :
    FailsOnly Located.Ordinary (t.project projections condition) := by
  refine (matching_ordinary ht hcondition).bind fun mask _ => ?_
  refine (FailsOnly.mapM fun row hrow => ?_).bind fun rows _ => .ok _
  have hscope := ht.scope_ordinary (mem_rows_of_mem_selected hrow)
  exact FailsOnly.mapM fun e he => (hprojections e he).eval_ordinary hscope

theorem aggregate_ordinary (ht : t.Valid) (position : Position)
    (hprojections : ∀ e ∈ projections, e.Applicable) (hcondition : ∀ e ∈ condition, e.Applicable) :
    FailsOnly Located.Ordinary (t.aggregate position projections condition) := by
  have hnone : ∀ s ∈ ([] : List Slot), s.Applicable := nofun
  obtain ⟨htaken, hslots⟩ := shellsOf_ordinary hprojections hnone
  refine htaken.bind fun (shells, slots) hshells => ?_
  have hrows : ∀ row ∈ t.rows, row.length = t.columns.length :=
    fun _ => ht.length_row
  refine (accumulate_ordinary hcondition (hslots shells slots hshells) hrows).bind
    fun slots' hslots' => ?_
  dsimp only
  split
  · exact .ok _
  · refine (FailsOnly.mapM fun shell hshell => ?_).bind fun row _ => .ok _
    obtain ⟨-, hencloses⟩ := encloses_of_shellsOf hshells
    obtain ⟨index, hindex, rfl⟩ := List.mem_iff_getElem.mp hshell
    have hencloses' := (List.forall₂_iff_get.mp hencloses).2 index
      (hencloses.length_eq ▸ hindex) hindex
    refine Shell.eval_ordinary ?_ hencloses' (hprojections _ (List.get_mem _ _))
    rw [List.length_map]
    exact length_of_accumulate hslots'

end Table

theorem Database.find_ordinary (db : Database) (name : Ident) :
    FailsOnly Located.Ordinary (db.find name) := by
  rw [find]
  split
  · exact .ok _
  · exact .error trivial

section Statements

variable {db : Database}

theorem Select.source_valid (hdb : db.Valid) (s : Select) {t : Table}
    (hsource : s.source db = .ok t) : t.Valid := by
  rw [source] at hsource
  split at hsource
  · next name _ =>
    rw [Database.find] at hsource
    split at hsource
    · next hfound =>
      cases hsource
      exact (hdb name.name t hfound).2
    · cases hsource
  · cases hsource

theorem Select.run_ordinary (hdb : db.Valid) (s : Select)
    (hs : ∀ e ∈ (Statement.select s).expressions, e.Applicable) :
    FailsOnly Located.Ordinary (s.run db) := by
  have hsource : FailsOnly Located.Ordinary (s.source db) := by
    rw [source]
    split
    · exact db.find_ordinary _
    · exact .error trivial
  refine hsource.bind fun t ht => ?_
  have hvalid := s.source_valid hdb ht
  have hprojections : ∀ e ∈ s.projections.flatMap t.expand, e.Applicable := by
    intro e he
    obtain ⟨projection, hprojection, he⟩ := List.mem_flatMap.mp he
    exact t.applicable_of_mem_expand (hs _ (List.mem_append_left _ hprojection)) e he
  have hcondition : ∀ e ∈ s.condition, e.Applicable := by
    intro e he
    exact hs e (List.mem_append_right _ (List.mem_cons_of_mem _ (Option.mem_toList.mpr he)))
  dsimp only
  split
  · exact Table.aggregate_ordinary hvalid s.position hprojections hcondition
  · exact Table.project_ordinary hvalid hprojections hcondition

/-! ## Changes -/

theorem ColumnDefinition.column_ordinary (d : ColumnDefinition)
    (hd : ∀ e ∈ d.default, e.Applicable) : FailsOnly Located.Ordinary d.column := by
  have hdefault : FailsOnly Located.Ordinary d.defaultValue := by
    rw [defaultValue]
    split
    · exact .ok none
    · next e he =>
      refine ((hd e he).eval_ordinary Scope.empty_ordinary).bind fun value _ => ?_
      cases value with
      | none => exact .ok none
      | some value => exact ((FailsOnly.cast _).ordinary.faultAt e.position).bind fun _ _ => .ok _
  refine hdefault.bind fun default _ => ?_
  dsimp only
  split
  · rw [Column.withAutoIncrement]
    split
    · exact .ok _
    · exact .error trivial
  · exact .ok _

theorem columnsOf_ordinary (seen : List String) {definitions : List ColumnDefinition}
    (hdefinitions : ∀ d ∈ definitions, ∀ e ∈ d.default, e.Applicable) :
    FailsOnly Located.Ordinary (columnsOf seen definitions) := by
  induction definitions generalizing seen with
  | nil => exact .ok []
  | cons d rest ih =>
      obtain ⟨hd, hrest⟩ := List.forall_mem_cons.mp hdefinitions
      rw [columnsOf]
      split
      · exact .error trivial
      · exact (d.column_ordinary hd).bind fun _ _ => (ih _ hrest).bind fun _ _ => .ok _

theorem CreateTable.work_ordinary (s : CreateTable)
    (hs : ∀ e ∈ (Statement.createTable s).expressions, e.Applicable) :
    WorkFailsOnly Located.Ordinary s.work db := by
  have hdefinitions : ∀ d ∈ s.columns, ∀ e ∈ d.default, e.Applicable :=
    fun d hd e he => hs e (List.mem_filterMap.mpr ⟨d, hd, he⟩)
  refine .get (.guard trivial fun _ => ?_)
  exact .read (columnsOf_ordinary [] hdefinitions) fun columns _ => .of_ok (work_modify _ _)

theorem Insert.work_ordinary (s : Insert) (t : Table)
    (hs : ∀ e ∈ (Statement.insert s).expressions, e.Applicable) :
    WorkFailsOnly Located.Ordinary s.work t := by
  refine .get (.read ((t.targets_ordinary _).faultAt s.position) fun targets htargets => ?_)
  refine .guard trivial fun _ => ?_
  refine .read (FailsOnly.mapM fun e he => (hs e he).eval_ordinary Scope.empty_ordinary)
    fun values _ => ?_
  have hinside := Table.lt_of_mem_targets (faultAt_eq_ok.mp htargets)
  exact (Table.insertion_ordinary hinside values).workAt s.position

theorem Table.mem_rows_of_mem_selectedIndices {t : Table} {mask : List Bool} {row : Row}
    {index : Nat} (hmem : (row, index) ∈ t.selectedIndices mask) : row ∈ t.rows := by
  obtain ⟨⟨_, marked⟩, hmarked, rfl⟩ := List.mem_map.mp hmem
  have hzip := (List.mem_filter.mp hmarked).1
  exact List.mem_of_getElem? (List.mem_zipIdx_iff_getElem?.mp (List.of_mem_zip hzip).1)

/-- Every change is one of a cell that exists, so all of them are written. -/
theorem Update.work_ordinary {name : String} {t : Table} (ht : t.StandsUnder name) (s : Update)
    (hs : ∀ e ∈ (Statement.update s).expressions, e.Applicable) :
    WorkFailsOnly Located.Ordinary s.work t := by
  have hvalues : ∀ a ∈ s.assignments, a.value.Applicable :=
    fun a ha => hs _ (List.mem_append_left _ (List.mem_map_of_mem ha))
  have hcondition : ∀ e ∈ s.condition, e.Applicable :=
    fun e he => hs e (List.mem_append_right _ (Option.mem_toList.mpr he))
  refine .get (.read ?_ fun targets htargets => ?_)
  · exact FailsOnly.mapM fun a _ => (t.findColumn_ordinary _).faultAt a.column.position
  refine .read (Table.matching_ordinary ht.2 hcondition) fun mask _ => ?_
  refine .read ?_ fun changes hchanges => ?_
  · refine (FailsOnly.mapM fun (row, index) hrow => ?_).bind fun _ _ => .ok _
    refine FailsOnly.mapM fun (a, target) ha => ?_
    have hscope := ht.2.scope_ordinary (Table.mem_rows_of_mem_selectedIndices hrow)
    refine ((hvalues a (List.of_mem_zip ha).1).eval_ordinary hscope).bind fun value _ => ?_
    exact ((target.1.accept_ordinary value).faultAt a.value.position).bind fun _ _ => .ok _
  · obtain ⟨t', hok, -⟩ := Table.StandsUnder.invariant.write_changes ht s.position
      (Table.fits_of_changes (Table.column_of_targets htargets) hchanges)
    exact .of_ok hok

theorem Delete.work_ordinary {t : Table} (ht : t.Valid) (s : Delete)
    (hs : ∀ e ∈ (Statement.delete s).expressions, e.Applicable) :
    WorkFailsOnly Located.Ordinary s.work t := by
  obtain ⟨position, table, condition⟩ := s
  refine .get ?_
  cases condition with
  | none => exact .of_ok (work_set _ _)
  | some condition =>
      have hcondition : ∀ e ∈ some condition, e.Applicable :=
        fun e he => hs e (Option.mem_toList.mpr he)
      refine .read (Table.matching_ordinary ht hcondition) fun mask hmask => ?_
      exact (WorkFailsOnly.of_ok (Table.deletion_eq (length_of_mapM hmask).symm)).workAt position

/-- A statement with operators that can be applied misuses nothing of a valid database. -/
theorem Database.Valid.execute_ordinary (hdb : db.Valid) (s : Statement)
    (hs : ∀ e ∈ s.expressions, e.Applicable) : FailsOnly Located.Ordinary (db.execute s).1 := by
  have hwork : WorkFailsOnly Located.Ordinary s.work db := by
    cases s with
    | createTable s => exact (s.work_ordinary hs).answer
    | select s => exact .get (.lift ((s.run_ordinary hdb hs).map some))
    | insert s => exact (WorkFailsOnly.onTable fun t _ => s.work_ordinary t hs).answer
    | update s =>
        exact (WorkFailsOnly.onTable fun t ht => s.work_ordinary (hdb _ t ht) hs).answer
    | delete s =>
        exact (WorkFailsOnly.onTable fun t ht => s.work_ordinary (hdb _ t ht).2 hs).answer
  intro e herror
  rw [Database.execute] at herror
  cases hrun : s.work db with
  | ok result db' =>
      rw [hrun] at herror
      cases herror
  | error e' db' =>
      rw [hrun] at herror
      cases herror
      rw [Located.Ordinary, EvalError.value_caughtAt]
      exact hwork e' db' hrun

end Statements

/-! ## Texts -/

/-- No numeral of a text turns out not to be one after it has been lexed.  A reader with
one counter of the depth for the whole text reads it with the same outcome.  Also where the
text is refused, the counter never holds less than zero, so no more is ever taken from it
than it holds.  A statement that has been read, run on a database that any statements have
led to, applies no operator to what it does not apply to and reads no row, cell, slot or
mask beyond its end. -/
theorem text_brings_no_misuse (text : String) :
    (∀ literal, parse text ≠ .error (.malformedNumber literal)) ∧
      Balanced 0 (TokenStream.ofString text).watchedStatements (parse text) ∧
      ∀ statements, parse text = .ok statements → ∀ s ∈ statements,
        ∀ db : Database, db.Reachable →
          ∀ position misuse, (db.execute s).1 ≠ .error ⟨position, .misuse misuse⟩ := by
  refine ⟨?_, ?_, ?_⟩
  · intro literal hnumber
    exact TokenStream.blames_of_statements (TokenStream.readable_ofChars _ _) hnumber
  · exact (TokenStream.keeps_statements _).balanced (Nat.zero_le _)
  · intro statements hread s hs db hdb position misuse hmisuse
    have happlicable : ∀ e ∈ s.expressions, e.Applicable := by
      intro e he
      obtain ⟨ts, hts⟩ := TokenStream.whole_of_statements _ hread s hs e he
      exact hts.applicable
    exact hdb.valid.execute_ordinary s happlicable _ hmisuse

set_option maxRecDepth 4000 in
/-- A division by a label fails for the label, which is no integer. -/
theorem division_brings_no_misuse :
    ∃ s, parse "delete from stock where id/label" = .ok [s] ∧ stock.Reachable ∧
      (stock.execute s).1 = .error ⟨⟨1, 24⟩, .cast (.unreadable "new" .integer)⟩ ∧
      ∀ position misuse, (stock.execute s).1 ≠ .error ⟨position, .misuse misuse⟩ := by
  have hread : parse "delete from stock where id/label" =
      .ok [.delete ⟨⟨1, 0⟩, ⟨⟨1, 12⟩, "stock"⟩,
        some (.binary .slash (.ident ⟨⟨1, 24⟩, "id"⟩) (.ident ⟨⟨1, 27⟩, "label"⟩))⟩] := by
    cbv
  obtain ⟨-, -, hsafe⟩ := text_brings_no_misuse "delete from stock where id/label"
  exact ⟨_, hread, stock_reachable, rfl,
    hsafe _ hread _ List.mem_cons_self stock stock_reachable⟩

end PocketSql
