import Mathlib
import PocketSql.Proofs.Store.Invariant

/-!
# Statements as transactions

A statement on a valid database either fails before it has written anything or
ends in a valid database.  The rules for `AllOrNothing` follow the shape of the
work: what only reads comes first, in any number, and the writes behind it have to
succeed.  Of validity they use that writing to a table keeps it and that no cell is missing,
so they are stated for every invariant of tables with these properties.
-/

namespace PocketSql

section Rules

variable {ε σ α β : Type} {s : σ} {after : σ → Prop}

/-- From `s`, the work fails and leaves `s`, or it succeeds in a state that satisfies
`after`. -/
def AllOrNothing (work : EStateM ε σ α) (s : σ) (after : σ → Prop) : Prop :=
  (∃ e, work s = .error e s) ∨ ∃ a s', work s = .ok a s' ∧ after s'

namespace AllOrNothing

theorem fail {work : EStateM ε σ α} {e : ε} (hwork : work s = .error e s) :
    AllOrNothing work s after :=
  .inl ⟨e, hwork⟩

theorem succeed {work : EStateM ε σ α} {a : α} {s' : σ} (hwork : work s = .ok a s')
    (hafter : after s') : AllOrNothing work s after :=
  .inr ⟨a, s', hwork, hafter⟩

theorem get {work : σ → EStateM ε σ α} (hwork : AllOrNothing (work s) s after) :
    AllOrNothing (MonadState.get >>= work) s after :=
  hwork

/-- A computation that does not touch the state may stand in front. -/
theorem read {x : Except ε α} {work : α → EStateM ε σ β}
    (hwork : ∀ a, x = .ok a → AllOrNothing (work a) s after) :
    AllOrNothing (liftExcept x >>= work) s after := by
  cases x with
  | error e => exact fail (e := e) rfl
  | ok a => exact hwork a rfl

/-- So may a check. -/
theorem guard {condition : Prop} [Decidable condition] {e : ε} {work : EStateM ε σ α}
    (hwork : ¬condition → AllOrNothing work s after) :
    AllOrNothing (if condition then throw e else work) s after := by
  by_cases hcondition : condition
  · exact fail (e := e) (by rw [if_pos hcondition]; rfl)
  · rw [if_neg hcondition]
    exact hwork hcondition

theorem workAt {position : Position} {work : EStateM Fault σ α}
    (hwork : AllOrNothing work s after) :
    AllOrNothing (PocketSql.workAt position work) s after := by
  rcases hwork with ⟨fault, hfault⟩ | ⟨a, s', hok, hafter⟩
  · exact fail (e := ⟨position, fault⟩) (by rw [workAt_eq, hfault])
  · exact succeed (a := a) (by rw [workAt_eq, hok]) hafter

theorem mono {work : EStateM ε σ α} {after' : σ → Prop} (hwork : AllOrNothing work s after)
    (hafter : ∀ s', after s' → after' s') : AllOrNothing work s after' := by
  rcases hwork with hfail | ⟨a, s', hok, hs'⟩
  · exact .inl hfail
  · exact succeed hok (hafter s' hs')

/-- What is returned does not matter. -/
theorem answer {work : EStateM ε σ α} {b : β} (hwork : AllOrNothing work s after) :
    AllOrNothing (work >>= fun _ => pure b) s after := by
  rcases hwork with ⟨e, herror⟩ | ⟨a, s', hok, hafter⟩
  · exact fail (e := e) (by rw [work_bind, herror])
  · exact succeed (a := b) (by simp only [work_bind, hok, work_pure]) hafter

end AllOrNothing

end Rules

/-! ## Creating a table -/

theorem ColumnDefinition.type_of_defaultValue {d : ColumnDefinition} {default : Option Value}
    (hdefault : d.defaultValue = .ok default) :
    ∀ value, default = some value → value.dataType = d.type := by
  rintro value rfl
  rw [defaultValue] at hdefault
  split at hdefault
  · cases hdefault
  · obtain ⟨evaluated, _, hrest⟩ := bind_eq_ok.mp hdefault
    cases evaluated with
    | none => cases hrest
    | some evaluated =>
        obtain ⟨cast, hcast, heq⟩ := bind_eq_ok.mp hrest
        cases heq
        exact Value.dataType_of_cast (orCastFault_eq_ok.mp (faultAt_eq_ok.mp hcast))

/-- The column that a definition makes. -/
theorem ColumnDefinition.column_eq_ok {d : ColumnDefinition} {c : Column} :
    d.column = .ok c ↔ ∃ default, d.defaultValue = .ok default ∧
      (d.autoIncrement = true → d.type = .integer) ∧
      c = { Column.plain d.name.name d.type with
        default, nullable := d.nullable, autoIncrement := d.autoIncrement } := by
  rw [column, bind_eq_ok]
  refine exists_congr fun default => and_congr_right fun _ => ?_
  cases hauto : d.autoIncrement with
  | false =>
      rw [if_neg Bool.false_ne_true, pure_eq_ok]
      simp [Column.plain, eq_comm]
  | true =>
      rw [if_pos rfl, faultAt_eq_ok, Column.withAutoIncrement]
      by_cases htype : d.type = .integer
      · simp [Column.plain, htype, eq_comm]
      · simp [Column.plain, htype]

theorem ColumnDefinition.valid_of_column {d : ColumnDefinition} {c : Column}
    (hcolumn : d.column = .ok c) : c.Valid ∧ c.name = d.name.name := by
  obtain ⟨default, hdefault, hauto, rfl⟩ := column_eq_ok.mp hcolumn
  refine ⟨⟨type_of_defaultValue hdefault, hauto, ?_⟩, rfl⟩
  rintro _ ⟨⟩
  decide

/-- The columns are made one by one, under names that are new. -/
theorem columnsOf_eq_ok {definitions : List ColumnDefinition} {seen : List String}
    {columns : List Column} : columnsOf seen definitions = .ok columns ↔
      definitions.mapM ColumnDefinition.column = .ok columns ∧
        (definitions.map (·.name.name)).Nodup ∧ seen.Disjoint (definitions.map (·.name.name)) := by
  induction definitions generalizing seen columns with
  | nil => simp [columnsOf]
  | cons d rest ih =>
      rw [columnsOf, List.mapM_cons, List.map_cons, List.nodup_cons, List.disjoint_cons_right]
      split
      · next hseen => simp [hseen]
      · next hnew =>
        simp only [bind_eq_ok, pure_eq_ok, ih, List.disjoint_cons_left]
        constructor
        · rintro ⟨c, hc, others, ⟨hothers, hnodup, hfirst, hdisjoint⟩, heq⟩
          exact ⟨⟨c, hc, others, hothers, heq⟩, ⟨hfirst, hnodup⟩, hnew, hdisjoint⟩
        · rintro ⟨⟨c, hc, others, hothers, heq⟩, ⟨hfirst, hnodup⟩, -, hdisjoint⟩
          exact ⟨c, hc, others, ⟨hothers, hnodup, hfirst, hdisjoint⟩, heq⟩

theorem valid_of_columnsOf {definitions : List ColumnDefinition} {seen : List String}
    {columns : List Column} (hcolumns : columnsOf seen definitions = .ok columns) :
    (∀ c ∈ columns, c.Valid) ∧ (columns.map Column.name).Nodup := by
  obtain ⟨hwalk, hnodup, -⟩ := columnsOf_eq_ok.mp hcolumns
  have hnames : definitions.map (·.name.name) = columns.map Column.name := by
    rw [← List.forall₂_eq_eq_eq, List.forall₂_map_left_iff, List.forall₂_map_right_iff]
    exact (mapM_eq_ok.mp hwalk).imp fun d c hc => (ColumnDefinition.valid_of_column hc).2.symm
  refine ⟨fun c hc => ?_, hnames ▸ hnodup⟩
  obtain ⟨d, -, hd⟩ := exists_of_mem_mapM hwalk hc
  exact (ColumnDefinition.valid_of_column hd).1

/-! ## Invariants of tables -/

/-- A property of the table under a name that every way of writing to the table keeps.  Where
it holds, no cell of a column is missing. -/
structure Table.Invariant (holds : String → Table → Prop) : Prop where
  creation {name : String} {definitions : List ColumnDefinition} {columns : List Column} :
    columnsOf [] definitions = .ok columns → holds name (Table.empty name columns)
  insertion {name : String} {t : Table} (targets : List Nat) (values : List (Option Value)) :
    holds name t →
      (∃ fault, Table.insertion targets values t = .error fault t) ∨
        ∃ t', Table.insertion targets values t = .ok () t' ∧ holds name t'
  writeCell {name : String} {t : Table} {d : Change} : holds name t → d.Fits t →
    ∃ t', Table.writeCell d.row d.column d.cell t = .ok () t' ∧
      (holds name t' ∧ t'.columns = t.columns) ∧ ∀ d' : Change, d'.Fits t → d'.Fits t'
  withRows {name : String} {t : Table} {rows : List Row} : holds name t → rows ⊆ t.rows →
    holds name { t with rows := rows }

/-! ## Statements on one table -/

section Changes

variable {t : Table}

/-- An assignment changes the cell of its target in the given row to something that
the target may hold. -/
theorem Assignment.fits_of_change {a : Assignment} {scope : Scope} {c : Column}
    {index row : Nat} {d : Change} (hc : t.columns[index]? = some c) (hrow : row < t.rows.length)
    (hchange : a.change scope (c, index) row = .ok d) : d.Fits t := by
  obtain ⟨value, _, hrest⟩ := bind_eq_ok.mp hchange
  obtain ⟨cell, haccept, hd⟩ := bind_eq_ok.mp hrest
  cases hd
  exact ⟨hrow, c, hc, Column.holds_of_accept (faultAt_eq_ok.mp haccept)⟩

/-- The targets of assignments are columns of the table. -/
theorem Table.column_of_targets {assignments : List Assignment} {targets : List (Column × Nat)}
    (htargets : assignments.mapM (Assignment.target · t) = .ok targets) :
    ∀ p ∈ assignments.zip targets, t.columns[p.2.2]? = some p.2.1 := by
  intro p hp
  obtain ⟨_, _, htarget⟩ := exists_of_mem_mapM htargets (List.of_mem_zip hp).2
  exact column_of_findColumn (faultAt_eq_ok.mp htarget)

theorem Table.index_lt_of_mem_selectedIndices {mask : List Bool} {row : Row} {index : Nat}
    (hmem : (row, index) ∈ t.selectedIndices mask) : index < t.rows.length := by
  obtain ⟨⟨_, marked⟩, hmarked, rfl⟩ := List.mem_map.mp hmem
  have hzip := (List.mem_filter.mp hmarked).1
  have hrow := (List.of_mem_zip hzip).1
  exact (List.getElem?_eq_some_iff.mp (List.mem_zipIdx_iff_getElem?.mp hrow)).1

theorem Table.fits_of_changes {assignments : List (Assignment × (Column × Nat))}
    {mask : List Bool} {changes : List Change}
    (htargets : ∀ p ∈ assignments, t.columns[p.2.2]? = some p.2.1)
    (hchanges : t.changes assignments mask = .ok changes) : ∀ d ∈ changes, d.Fits t := by
  obtain ⟨rows, hrows, heq⟩ := bind_eq_ok.mp hchanges
  cases heq
  intro d hd
  obtain ⟨row, hrow, hd⟩ := List.mem_flatten.mp hd
  obtain ⟨⟨cells, index⟩, hselected, hassigned⟩ := exists_of_mem_mapM hrows hrow
  obtain ⟨⟨a, c, column⟩, hmem, hchange⟩ := exists_of_mem_mapM hassigned hd
  exact Assignment.fits_of_change (htargets _ hmem)
    (index_lt_of_mem_selectedIndices hselected) hchange

end Changes

namespace Table.Invariant

variable {holds : String → Table → Prop} (hinvariant : Table.Invariant holds)
  {t : Table} {name : String}

include hinvariant

theorem insert (s : Insert) (ht : holds name t) : AllOrNothing s.work t (holds name) := by
  refine .get (.read fun targets _ => .guard fun _ => .read fun values _ => .workAt ?_)
  rcases hinvariant.insertion targets values ht with ⟨fault, hfault⟩ | ⟨t', hok, ht'⟩
  · exact .fail hfault
  · exact .succeed hok ht'

/-- The columns and the number of rows stay, so every change still fits when its turn comes. -/
theorem write_changes (ht : holds name t) (position : Position)
    {changes : List Change} (hchanges : ∀ d ∈ changes, d.Fits t) :
    ∃ t', (forM changes fun d => workAt position (Table.writeCell d.row d.column d.cell)) t =
      .ok () t' ∧ holds name t' ∧ t'.columns = t.columns := by
  have hwrite : ∀ (u : Table) (d : Change), holds name u ∧ u.columns = t.columns →
      d.Fits u → ∃ u', workAt position (Table.writeCell d.row d.column d.cell) u = .ok () u' ∧
        (holds name u' ∧ u'.columns = t.columns) ∧ ∀ d' : Change, d'.Fits u → d'.Fits u' := by
    rintro u d ⟨hu, hcolumns⟩ hd
    obtain ⟨u', hok, ⟨hu', hsame⟩, hkept⟩ := hinvariant.writeCell hu hd
    exact ⟨u', by rw [workAt_eq, hok], ⟨hu', hsame.trans hcolumns⟩, hkept⟩
  exact forM_succeeds _ (fun u => holds name u ∧ u.columns = t.columns)
    (fun u d => Change.Fits d u) hwrite ⟨ht, rfl⟩ hchanges

/-- An update writes cells, and leaves the columns as they are. -/
theorem update (s : Update) (ht : holds name t) :
    AllOrNothing s.work t fun t' => holds name t' ∧ t'.columns = t.columns := by
  refine .get (.read fun targets htargets => .read fun mask _ => .read fun changes hchanges => ?_)
  obtain ⟨t', hok, ht'⟩ := hinvariant.write_changes ht s.position
    (Table.fits_of_changes (Table.column_of_targets htargets) hchanges)
  exact .succeed hok ht'

/-- A deletion removes rows, and leaves the columns as they are. -/
theorem delete (s : Delete) (ht : holds name t) :
    AllOrNothing s.work t fun t' => holds name t' ∧ t'.columns = t.columns := by
  rw [Delete.work]
  refine .get ?_
  cases s.condition with
  | none =>
      apply AllOrNothing.succeed (work_set _ _)
      exact ⟨hinvariant.withRows ht (List.nil_subset _), rfl⟩
  | some condition =>
      refine .read fun mask hmask => .workAt (.succeed (Table.deletion_eq ?_) ?_)
      · exact (length_of_mapM hmask).symm
      · exact ⟨hinvariant.withRows ht (Table.unmarked_sublist t.rows mask).subset, rfl⟩

end Table.Invariant

/-! ## Databases -/

namespace Database

variable {db : Database}

/-- A database is what it holds under each name. -/
theorem ext_table? {left right : Database}
    (hsame : ∀ name, left.table? name = right.table? name) : left = right := by
  cases left
  cases right
  exact congrArg Database.mk (Std.ExtTreeMap.ext_getElem? hsame)

theorem table?_set (db : Database) (name : String) (t : Table) (other : String) :
    (db.set name t).table? other = if name = other then some t else db.table? other := by
  unfold set table?
  rw [Std.ExtTreeMap.getElem?_insert]
  simp only [Std.compare_eq_iff_eq]

/-- Writing a table back unchanged changes nothing. -/
theorem set_self {name : String} {t : Table} (hfound : db.table? name = some t) :
    db.set name t = db := by
  apply ext_table?
  intro other
  rw [table?_set]
  split
  · next hname => rw [← hname, hfound]
  · rfl

/-- Of two tables under one name the later one stays. -/
theorem set_set (db : Database) (name : String) (t u : Table) :
    (db.set name t).set name u = db.set name u := by
  apply ext_table?
  intro other
  rw [table?_set, table?_set, table?_set]
  split <;> rfl

/-- A database that holds tables with a property only. -/
def Stores (holds : String → Table → Prop) (db : Database) : Prop :=
  ∀ name t, db.table? name = some t → holds name t

theorem Stores.set {holds : String → Table → Prop} (hdb : db.Stores holds) {name : String}
    {t : Table} (ht : holds name t) : (db.set name t).Stores holds := by
  intro other u hfound
  rw [table?_set] at hfound
  split at hfound
  · next hname =>
    cases hfound
    exact hname ▸ ht
  · exact hdb other u hfound

theorem Valid.empty : Database.empty.Valid := by
  intro name t hfound
  simp [Database.empty, table?] at hfound

end Database

section Databases

variable {db : Database}

/-- Work on a table that fails and leaves the table leaves the database. -/
theorem AllOrNothing.onTable {α : Type} {name : Ident} {work : EStateM EvalError Table α}
    {after : Table → Table → Prop}
    (hwork : ∀ t : Table, db.table? name.name = some t → AllOrNothing work t (after t)) :
    AllOrNothing (Database.onTable name work) db fun db' =>
      ∃ t t', db.table? name.name = some t ∧ after t t' ∧ db' = db.set name.name t' := by
  unfold Database.onTable Database.find
  cases hfound : db.table? name.name with
  | none =>
      apply AllOrNothing.fail (e := ⟨name.position, .unknownTable name.name⟩)
      simp only [hfound]
  | some t =>
      rcases hwork t hfound with ⟨e, herror⟩ | ⟨a, t', hok, ht'⟩
      · apply AllOrNothing.fail (e := e)
        simp only [hfound, herror, Database.set_self hfound]
      · refine .succeed (a := a) ?_ ⟨t, t', rfl, ht', rfl⟩
        simp only [hfound, hok]

theorem Database.Stores.onTable {holds : String → Table → Prop} (hdb : db.Stores holds) {α : Type}
    {name : Ident} {work : EStateM EvalError Table α}
    (hwork : ∀ t : Table, holds name.name t → AllOrNothing work t (holds name.name)) :
    AllOrNothing (Database.onTable name work) db (Database.Stores holds) := by
  refine (AllOrNothing.onTable fun t ht => hwork t (hdb name.name t ht)).mono ?_
  rintro db' ⟨t, t', -, ht', rfl⟩
  exact hdb.set ht'

namespace Table.Invariant

variable {holds : String → Table → Prop} (hinvariant : Table.Invariant holds)
  (hdb : db.Stores holds)

include hinvariant hdb

theorem createTable (s : CreateTable) : AllOrNothing s.work db (Database.Stores holds) := by
  refine .get (.guard fun _ => .read fun columns hcolumns => .succeed (work_modify _ _) ?_)
  exact hdb.set (hinvariant.creation hcolumns)

/-- A statement on a database that keeps the invariant fails and leaves the database, or ends
in one that keeps it. -/
theorem statement (s : Statement) : AllOrNothing s.work db (Database.Stores holds) := by
  cases s with
  | createTable s => exact (hinvariant.createTable hdb s).answer
  | select s =>
      refine .get ?_
      cases (s.run db).map some with
      | error e => exact .fail (work_liftExcept_error e db)
      | ok result => exact .succeed (work_liftExcept_ok result db) hdb
  | insert s => exact (hdb.onTable fun _ ht => hinvariant.insert s ht).answer
  | update s =>
      exact (hdb.onTable fun _ ht => (hinvariant.update s ht).mono fun _ => And.left).answer
  | delete s =>
      exact (hdb.onTable fun _ ht => (hinvariant.delete s ht).mono fun _ => And.left).answer

/-- The step lemma of an invariant. -/
theorem execute (s : Statement) : (db.execute s).2.Stores holds := by
  rw [Database.execute]
  rcases hinvariant.statement hdb s with ⟨e, herror⟩ | ⟨result, db', hok, hdb'⟩
  · rw [herror]
    exact hdb
  · rw [hok]
    exact hdb'

/-- Before its first write, a statement has met every error that it will meet. -/
theorem eq_of_execute_error {s : Statement} {e : EvalError} {db' : Database}
    (hexecute : db.execute s = (.error e, db')) : db' = db := by
  rw [Database.execute] at hexecute
  rcases hinvariant.statement hdb s with ⟨e, herror⟩ | ⟨result, _, hok, _⟩
  · rw [herror] at hexecute
    exact (congrArg Prod.snd hexecute).symm
  · rw [hok] at hexecute
    cases congrArg Prod.fst hexecute

end Table.Invariant

end Databases

/-! ## Valid databases -/

theorem Table.StandsUnder.invariant : Table.Invariant Table.StandsUnder where
  creation hcolumns := by
    obtain ⟨hvalid, hnodup⟩ := valid_of_columnsOf hcolumns
    exact ⟨rfl, .empty hnodup hvalid⟩
  insertion targets values ht :=
    (ht.2.insertion targets values).imp_right fun ⟨t', hok, hvalid, hname⟩ =>
      ⟨t', hok, hname.trans ht.1, hvalid⟩
  writeCell ht hd := by
    obtain ⟨t', hok, ⟨hvalid, hname, hcolumns⟩, hkept⟩ := ht.2.writeCell hd
    exact ⟨t', hok, ⟨⟨hname.trans ht.1, hvalid⟩, hcolumns⟩, hkept⟩
  withRows ht hrows := ⟨ht.1, ht.2.withRows fun row hrow => ht.2.rows row (hrows hrow)⟩

section Valid

variable {db : Database}

theorem Database.Valid.execute (hdb : db.Valid) (s : Statement) : (db.execute s).2.Valid :=
  Table.StandsUnder.invariant.execute hdb s

theorem Database.Valid.eq_of_execute_error (hdb : db.Valid) {s : Statement} {e : EvalError}
    {db' : Database} (hexecute : db.execute s = (.error e, db')) : db' = db :=
  Table.StandsUnder.invariant.eq_of_execute_error hdb hexecute

end Valid

end PocketSql
