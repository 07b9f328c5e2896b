import Mathlib
import PocketSql.Report.Grid
import PocketSql.Proofs.Query.ResultShape
import PocketSql.Proofs.Token.OneLine

/-!
# Grids read back

The separator of a grid says where its columns meet.  Every line is as long as the separator and
is cut where that has its plus signs, so it does not matter which characters the cells consist of.
A piece is a cell between two blanks, filled up with blanks; the cell ends where they begin, for
no value is shown with a blank at its end.  A grid is written exactly when no heading and no cell
is wider than the formatter can fill up.
-/

namespace PocketSql

namespace Grid

/-! ## Reading -/

/-- The pieces of a line between the places at which the separator has a plus sign. -/
def cut (separator line : List Char) : List (List Char) :=
  ((line.zip separator).splitOnP fun (_, mark) => mark == '+').map (List.map Prod.fst)

/-- A piece without one blank in front and without all blanks at its end. -/
def trim : List Char → String
  | ' ' :: text => String.ofList (text.rdropWhile (· == ' '))
  | text => String.ofList (text.rdropWhile (· == ' '))

def readCells (separator line : List Char) : List String :=
  (cut separator line).map trim

/-- The headings and the rows that stand in the lines of a grid. -/
def readLines : List (List Char) → Option (List String × List (List String))
  | headings :: separator :: rows =>
    some (readCells separator headings, rows.map (readCells separator))
  | _ => none

/-! ## Pieces -/

section Pieces

variable {c : Char} {pieces dashes : List (List Char)}

theorem mem_intercalate {separator : List Char} (hc : c ∈ separator.intercalate pieces) :
    c ∈ separator ∨ ∃ piece ∈ pieces, c ∈ piece := by
  induction pieces with
  | nil => exact absurd hc List.not_mem_nil
  | cons piece pieces ih =>
      cases pieces with
      | nil =>
          rw [List.intercalate_singleton] at hc
          exact .inr ⟨piece, List.mem_cons_self, hc⟩
      | cons next pieces =>
          rw [List.intercalate_cons_cons, List.mem_append, List.mem_append] at hc
          rcases hc with (hc | hc) | hc
          · exact .inr ⟨piece, List.mem_cons_self, hc⟩
          · exact .inl hc
          · refine (ih hc).imp_right ?_
            rintro ⟨other, hother, hc⟩
            exact ⟨other, List.mem_cons_of_mem _ hother, hc⟩

/-- A line of pieces that stand above as many dashes each is cut into the pieces. -/
theorem cut_intercalate (hpieces : pieces ≠ [])
    (h : List.Forall₂ (fun piece dash => piece.length = dash.length ∧ '+' ∉ dash) pieces dashes) :
    (['|'].intercalate pieces).length = (['+'].intercalate dashes).length ∧
      cut (['+'].intercalate dashes) (['|'].intercalate pieces) = pieces := by
  induction h with
  | nil => contradiction
  | @cons piece dash pieces dashes hdash hothers ih =>
      obtain ⟨hlength, hplus⟩ := hdash
      have hinside : ∀ p ∈ piece.zip dash, (p.2 == '+') = false := by
        intro p hp
        exact beq_eq_false_iff_ne.mpr fun heq => hplus (heq ▸ (List.of_mem_zip hp).2)
      cases hothers with
      | nil =>
          rw [List.intercalate_singleton, List.intercalate_singleton, cut,
            List.splitOnP_eq_singleton hinside, List.map_singleton, List.map_fst_zip hlength.le]
          exact ⟨hlength, rfl⟩
      | @cons next dash' pieces dashes hdash' hothers =>
          obtain ⟨hrest, hcut⟩ := ih (List.cons_ne_nil _ _)
          rw [List.intercalate_cons_cons, List.intercalate_cons_cons]
          constructor
          · rw [List.length_append, List.length_append, hlength, hrest, List.length_append,
              List.length_append]
            rfl
          · rw [cut, List.append_assoc, List.append_assoc, List.zip_append hlength,
              List.singleton_append, List.singleton_append, List.zip_cons_cons,
              List.splitOnP_append_cons_of_forall_mem hinside _ rfl, List.map_cons,
              List.map_fst_zip hlength.le, ← cut, hcut]

end Pieces

/-! ## Widths -/

/-- Cells that their columns are wide enough for. -/
abbrev Fits : List String → List Nat → Prop :=
  List.Forall₂ fun cell width => cell.length ≤ width

section Widths

variable {cells others : List String} {widths : List Nat}

theorem length_widen (widths : List Nat) (cells : List String) :
    (widen widths cells).length = widths.length := by
  fun_induction widen widths cells with
  | case1 width widths cell cells ih => simp [ih]
  | case2 => rfl

/-- Columns are made wide enough for a row. -/
theorem fits_widen (hlength : cells.length = widths.length) : Fits cells (widen widths cells) := by
  induction cells generalizing widths with
  | nil =>
      obtain rfl := List.length_eq_zero_iff.mp hlength.symm
      exact .nil
  | cons cell cells ih =>
      obtain ⟨width, widths, rfl⟩ := List.exists_cons_of_length_eq_add_one hlength.symm
      exact .cons (le_max_right _ _) (ih (Nat.succ.inj hlength))

/-- Columns are never made too narrow for a row again. -/
theorem Fits.widen (hfits : Fits cells widths) (others : List String) :
    Fits cells (widen widths others) := by
  induction hfits generalizing others with
  | nil => exact .nil
  | cons hcell hfits ih =>
      cases others with
      | nil => exact .cons hcell hfits
      | cons other others => exact .cons (hcell.trans (le_max_left _ _)) (ih others)

theorem Fits.foldl_widen (hfits : Fits cells widths) (rows : List (List String)) :
    Fits cells (rows.foldl Grid.widen widths) := by
  induction rows generalizing widths with
  | nil => exact hfits
  | cons row rows ih => exact ih (hfits.widen row)

theorem fits_foldl_widen {rows : List (List String)} {row : List String} (hrow : row ∈ rows)
    (hlength : row.length = widths.length) : Fits row (rows.foldl Grid.widen widths) := by
  induction rows generalizing widths with
  | nil => contradiction
  | cons first rows ih =>
      rcases List.mem_cons.mp hrow with rfl | hrow
      · exact (fits_widen hlength).foldl_widen rows
      · exact ih hrow (hlength.trans (length_widen widths first).symm)

theorem fits_headings (headings : List String) (rows : List (List String)) :
    Fits headings (Grid.widths headings rows) := by
  have hfits : Fits headings (headings.map String.length) :=
    List.forall₂_map_right_iff.mpr (List.forall₂_same.mpr fun _ _ => le_rfl)
  exact hfits.foldl_widen rows

/-- Columns are wide enough for the headings and for all rows. -/
theorem fits_widths {headings : List String} {rows : List (List String)}
    (hrows : ∀ row ∈ rows, row.length = headings.length) :
    ∀ cells ∈ headings :: rows, Fits cells (Grid.widths headings rows) := by
  refine List.forall_mem_cons.mpr ⟨fits_headings headings rows, fun row hrow => ?_⟩
  exact fits_foldl_widen hrow (by rw [hrows row hrow, List.length_map])

theorem Fits.exists_le (hfits : Fits cells widths) {cell : String} (hcell : cell ∈ cells) :
    ∃ width ∈ widths, cell.length ≤ width := by
  induction hfits with
  | nil => cases hcell
  | cons hfirst _ ih =>
      rcases List.mem_cons.mp hcell with rfl | hcell
      · exact ⟨_, List.mem_cons_self, hfirst⟩
      · obtain ⟨width, hmem, hle⟩ := ih hcell
        exact ⟨width, List.mem_cons_of_mem _ hmem, hle⟩

/-- Columns are never made wider than the widest cell. -/
theorem le_of_mem_widen {bound : Nat} (hwidths : ∀ width ∈ widths, width ≤ bound)
    (hcells : ∀ cell ∈ cells, cell.length ≤ bound) : ∀ width ∈ widen widths cells, width ≤ bound := by
  fun_induction widen widths cells with
  | case1 width widths cell cells ih =>
      obtain ⟨hwidth, hwidths⟩ := List.forall_mem_cons.mp hwidths
      obtain ⟨hcell, hcells⟩ := List.forall_mem_cons.mp hcells
      exact List.forall_mem_cons.mpr ⟨max_le hwidth hcell, ih hwidths hcells⟩
  | case2 => exact hwidths

theorem le_of_mem_foldl_widen {bound : Nat} {rows : List (List String)}
    (hwidths : ∀ width ∈ widths, width ≤ bound)
    (hrows : ∀ row ∈ rows, ∀ cell ∈ row, cell.length ≤ bound) :
    ∀ width ∈ rows.foldl Grid.widen widths, width ≤ bound := by
  induction rows generalizing widths with
  | nil => exact hwidths
  | cons row rows ih =>
      obtain ⟨hrow, hrows⟩ := List.forall_mem_cons.mp hrows
      exact ih (le_of_mem_widen hwidths hrow) hrows

end Widths

/-! ## Lines -/

section Lines

variable {cell : String} {cells : List String} {width : Nat} {widths : List Nat}

def pieces (widths : List Nat) (cells : List String) : List (List Char) :=
  List.zipWith (fun cell width => (fill cell width).toList) cells widths

def dashes (widths : List Nat) : List (List Char) :=
  widths.map fun width => List.replicate (width + 2) '-'

/-- A line without its end. -/
def lineChars (widths : List Nat) (cells : List String) : List Char :=
  ['|'].intercalate (pieces widths cells)

def separatorChars (widths : List Nat) : List Char :=
  ['+'].intercalate (dashes widths)

theorem toList_separator (widths : List Nat) :
    (separator widths).toList = separatorChars widths ++ ['\n'] := by
  rw [separator, String.toList_append, String.toList_intercalate, List.map_map, separatorChars,
    dashes]
  simp [Function.comp_def]

theorem toList_fill (cell : String) (width : Nat) : (fill cell width).toList =
    ' ' :: (cell.toList ++ (List.replicate (width - cell.length) ' ' ++ [' '])) := by
  simp [fill]

theorem length_fill (hcell : cell.length ≤ width) :
    (fill cell width).toList.length = width + 2 := by
  simp only [toList_fill, List.length_cons, List.length_append, String.length_toList,
    List.length_replicate, List.length_nil]
  omega

/-- A cell is found again if it does not end in a blank itself. -/
theorem trim_fill (hlast : cell.toList.getLast? ≠ some ' ') (width : Nat) :
    trim (fill cell width).toList = cell := by
  have hfilling : ∀ c ∈ (List.replicate (width - cell.length) ' ' ++ [' ']).reverse,
      (c == ' ') = true := by
    simp
  have hcell : cell.toList.rdropWhile (· == ' ') = cell.toList := by
    rw [List.rdropWhile_eq_self_iff]
    intro hne hblank
    exact hlast ((List.getLast?_eq_some_getLast hne).trans (congrArg some (eq_of_beq hblank)))
  rw [toList_fill, trim, List.rdropWhile, List.reverse_append,
    List.dropWhile_append_of_pos hfilling, ← List.rdropWhile, hcell, String.ofList_toList]

theorem trim_pieces (hlast : ∀ cell ∈ cells, cell.toList.getLast? ≠ some ' ')
    (hfits : Fits cells widths) : (pieces widths cells).map trim = cells := by
  induction hfits with
  | nil => rfl
  | @cons cell width cells widths _ _ ih =>
      obtain ⟨hcell, hothers⟩ := List.forall_mem_cons.mp hlast
      rw [pieces, List.zipWith_cons_cons, List.map_cons, trim_fill hcell, ← pieces, ih hothers]

theorem pieces_above_dashes (hfits : Fits cells widths) :
    List.Forall₂ (fun piece dash => piece.length = dash.length ∧ '+' ∉ dash)
      (pieces widths cells) (dashes widths) := by
  induction hfits with
  | nil => exact .nil
  | cons hcell _ ih =>
      refine .cons ⟨?_, ?_⟩ ih
      · rw [length_fill hcell, List.length_replicate]
      · rw [List.mem_replicate]
        exact fun ⟨_, heq⟩ => absurd heq (by decide)

theorem pieces_ne_nil (hcells : cells ≠ []) (hfits : Fits cells widths) :
    pieces widths cells ≠ [] := by
  cases hfits with
  | nil => contradiction
  | cons => exact List.cons_ne_nil _ _

theorem length_lineChars (hcells : cells ≠ []) (hfits : Fits cells widths) :
    (lineChars widths cells).length = (separatorChars widths).length :=
  (cut_intercalate (pieces_ne_nil hcells hfits) (pieces_above_dashes hfits)).1

theorem readCells_lineChars (hcells : cells ≠ []) (hfits : Fits cells widths)
    (hlast : ∀ cell ∈ cells, cell.toList.getLast? ≠ some ' ') :
    readCells (separatorChars widths) (lineChars widths cells) = cells := by
  rw [readCells, separatorChars, lineChars,
    (cut_intercalate (pieces_ne_nil hcells hfits) (pieces_above_dashes hfits)).2,
    trim_pieces hlast hfits]

theorem feed_not_mem_separatorChars (widths : List Nat) : '\n' ∉ separatorChars widths := by
  intro hmem
  rcases mem_intercalate hmem with hplus | ⟨dash, hdash, hmem⟩
  · exact absurd hplus (by decide)
  · obtain ⟨width, -, rfl⟩ := List.mem_map.mp hdash
    exact absurd (List.eq_of_mem_replicate hmem) (by decide)

theorem onOneLine_fill (hcell : OnOneLine cell) (width : Nat) :
    OnOneLine (fill cell width) :=
  .append (.append (.append (by decide) hcell) (.ofList (by simp))) (by decide)

theorem feed_not_mem_lineChars (widths : List Nat) (hcells : ∀ cell ∈ cells, OnOneLine cell) :
    '\n' ∉ lineChars widths cells := by
  intro hmem
  rcases mem_intercalate hmem with hbar | ⟨piece, hpiece, hmem⟩
  · exact absurd hbar (by decide)
  · rw [pieces, ← List.map_uncurry_zip_eq_zipWith] at hpiece
    obtain ⟨⟨cell, width⟩, hcell, rfl⟩ := List.mem_map.mp hpiece
    exact onOneLine_fill (hcells cell (List.of_mem_zip hcell).1) width hmem

end Lines

/-! ## Writing -/

section Writing

variable {widths : List Nat} {headings : List String} {rows : List (List String)}

/-- The line of cells that can all be filled up. -/
theorem line_eq_ok (hwidths : ∀ width ∈ widths, width ≤ maxWidth) (cells : List String) :
    line widths cells = .ok ("|".intercalate (List.zipWith fill cells widths) ++ "\n") := by
  refine bind_of_ok (a := List.zipWith fill cells widths) (mapM_eq_ok.mpr ?_) rfl
  rw [← List.map_uncurry_zip_eq_zipWith]
  refine List.forall₂_map_right_iff.mpr (List.forall₂_same.mpr ?_)
  rintro ⟨cell, width⟩ hmem
  exact if_pos (hwidths width (List.of_mem_zip hmem).2)

/-- A column that is too wide shows in every line that reaches it. -/
theorem line_eq_error {cells : List String} (hlength : widths.length ≤ cells.length) {width : Nat}
    (hmem : width ∈ widths) (hwide : maxWidth < width) :
    line widths cells = .error .widthOutOfRange := by
  cases hline : line widths cells with
  | error fault =>
      cases fault
      rfl
  | ok text =>
      obtain ⟨pieces, hpieces, -⟩ := bind_eq_ok.mp hline
      rw [← List.map_snd_zip hlength] at hmem
      obtain ⟨⟨cell, width⟩, hcell, rfl⟩ := List.mem_map.mp hmem
      obtain ⟨piece, hpiece⟩ := exists_mapM_eq_ok.mp ⟨pieces, hpieces⟩ _ hcell
      have hfault : padCell cell width = .error .widthOutOfRange := if_neg hwide.not_ge
      cases hfault.symm.trans hpiece

theorem toList_line (widths : List Nat) (cells : List String) :
    ("|".intercalate (List.zipWith fill cells widths) ++ "\n").toList =
      lineChars widths cells ++ ['\n'] := by
  rw [String.toList_append, String.toList_intercalate, List.map_zipWith]
  rfl

theorem exists_lines (hwidths : ∀ width ∈ widths, width ≤ maxWidth) (headings : List String)
    (rows : List (List String)) :
    ∃ text, lines widths headings rows = .ok text ∧ text.toList =
      (lineChars widths headings :: separatorChars widths :: rows.map (lineChars widths)).flatMap
        fun line => line ++ ['\n'] := by
  have hrows : rows.mapM (line widths) =
      .ok (rows.map fun cells => "|".intercalate (List.zipWith fill cells widths) ++ "\n") :=
    mapM_eq_ok.mpr (List.forall₂_map_right_iff.mpr
      (List.forall₂_same.mpr fun cells _ => line_eq_ok hwidths cells))
  refine ⟨_, bind_of_ok (line_eq_ok hwidths headings) (bind_of_ok hrows rfl), ?_⟩
  rw [String.toList_append, String.toList_append, toList_line, toList_separator,
    String.toList_join, List.flatMap_map, List.flatMap_cons, List.flatMap_cons, List.flatMap_map,
    List.append_assoc]
  simp only [toList_line]

/-- No column is wider than the widest cell, so all lines can be written. -/
theorem le_of_mem_widths (hnarrow : ∀ cells ∈ headings :: rows, ∀ cell ∈ cells,
    cell.length ≤ maxWidth) : ∀ width ∈ Grid.widths headings rows, width ≤ maxWidth := by
  obtain ⟨hheadings, hrows⟩ := List.forall_mem_cons.mp hnarrow
  exact le_of_mem_foldl_widen (List.forall_mem_map.mpr hheadings) hrows

theorem length_widths (headings : List String) (rows : List (List String)) :
    (Grid.widths headings rows).length = headings.length :=
  (fits_headings headings rows).length_eq.symm

/-- A heading or a cell that is too wide makes its column too wide, and the line of the headings
reaches all columns. -/
theorem ofTexts_eq_error (hrows : ∀ row ∈ rows, row.length = headings.length)
    {cells : List String} (hcells : cells ∈ headings :: rows) {cell : String} (hcell : cell ∈ cells)
    (hwide : maxWidth < cell.length) : ofTexts headings rows = .error .widthOutOfRange := by
  have hfits : Fits cells (Grid.widths headings rows) := fits_widths hrows cells hcells
  obtain ⟨width, hmem, hle⟩ := hfits.exists_le hcell
  rw [ofTexts, lines, line_eq_error (length_widths headings rows).le hmem (hwide.trans_le hle)]
  rfl

end Writing

/-! ## Cells -/

/-- A text that is found again in a grid: on one line, without a blank at its end. -/
structure Legible (cell : String) : Prop where
  onOneLine : OnOneLine cell
  last : cell.toList.getLast? ≠ some ' '

theorem legible_of_solid {text : List Char} (htext : Solid text) :
    Legible (String.ofList text) where
  onOneLine := htext.onOneLine
  last hlast := by
    rw [String.toList_ofList] at hlast
    exact htext.blank_not_mem (by decide +kernel) (List.mem_of_getLast? hlast)

theorem legible_quote (text : String) : Legible (Text.quote text) where
  onOneLine := Text.onOneLine_quote text
  last := by
    rw [Text.quote, String.toList_ofList, List.getLast?_concat]
    decide

/-- However a value is shown, it is found again. -/
theorem legible_cellText (cell : Option Value) : Legible (cellText cell) := by
  cases cell with
  | none => exact ⟨by decide, by decide⟩
  | some value =>
      cases value with
      | boolean value => cases value <;> exact ⟨by decide, by decide⟩
      | integer value => exact legible_of_solid (Integer.solid_digits value.toInt)
      | number value => exact legible_of_solid (Number.solid_chars value)
      | string value => exact legible_quote value
      | timestamp value => exact legible_of_solid value.solid_textChars

/-! ## Whole grids -/

/-- The lines of a grid of texts that can be written, and what is found again in them. -/
theorem ofTexts_reads_back {headings : List String} {rows : List (List String)}
    (hcolumns : headings ≠ []) (hrows : ∀ row ∈ rows, row.length = headings.length)
    (hcells : ∀ cells ∈ headings :: rows, ∀ cell ∈ cells, Legible cell)
    (hnarrow : ∀ cells ∈ headings :: rows, ∀ cell ∈ cells, cell.length ≤ maxWidth) :
    ∃ text lines width, ofTexts headings rows = .ok text ∧
      text.toList.splitOn '\n' = lines ++ [[]] ∧ lines.length = rows.length + 2 ∧
      (∀ line ∈ lines, line.length = width) ∧ readLines lines = some (headings, rows) := by
  have hfits : ∀ cells ∈ headings :: rows, cells ≠ [] ∧ Fits cells (widths headings rows) := by
    intro cells hmem
    refine ⟨?_, fits_widths hrows cells hmem⟩
    rintro rfl
    rcases List.mem_cons.mp hmem with heq | hmem
    · exact hcolumns heq.symm
    · exact hcolumns (List.length_eq_zero_iff.mp (hrows [] hmem).symm)
  obtain ⟨text, htext, hlines⟩ := exists_lines (le_of_mem_widths hnarrow) headings rows
  rw [ofTexts, htext]
  generalize widths headings rows = widths at hfits hlines
  have hlength : ∀ cells ∈ headings :: rows,
      (lineChars widths cells).length = (separatorChars widths).length :=
    fun cells hmem => length_lineChars (hfits cells hmem).1 (hfits cells hmem).2
  have hread : ∀ cells ∈ headings :: rows,
      readCells (separatorChars widths) (lineChars widths cells) = cells :=
    fun cells hmem => readCells_lineChars (hfits cells hmem).1 (hfits cells hmem).2
      fun cell hcell => (hcells cells hmem cell hcell).last
  have hfeed : ∀ cells ∈ headings :: rows, '\n' ∉ lineChars widths cells :=
    fun cells hmem => feed_not_mem_lineChars widths
      fun cell hcell => (hcells cells hmem cell hcell).onOneLine
  rw [List.forall_mem_cons] at hlength hread hfeed
  refine ⟨text, lineChars widths headings :: separatorChars widths :: rows.map (lineChars widths),
    (separatorChars widths).length, rfl, ?_, ?_, ?_, ?_⟩
  · rw [hlines]
    refine splitOn_lines (List.forall_mem_cons.mpr ⟨hfeed.1, List.forall_mem_cons.mpr
      ⟨feed_not_mem_separatorChars widths, List.forall_mem_map.mpr hfeed.2⟩⟩)
  · rw [List.length_cons, List.length_cons, List.length_map]
  · exact List.forall_mem_cons.mpr ⟨hlength.1, List.forall_mem_cons.mpr
      ⟨rfl, List.forall_mem_map.mpr hlength.2⟩⟩
  · have hrows : rows.map (readCells (separatorChars widths) ∘ lineChars widths) = rows :=
      (List.map_congr_left hread.2).trans (List.map_id rows)
    rw [readLines, hread.1, List.map_map, hrows]

end Grid

namespace QueryResult

/-- The headings and the cells of a result as they are shown. -/
def texts (r : QueryResult) : List (List String) :=
  r.columns :: r.rows.map (List.map Grid.cellText)

/-- No heading and no cell is shown wider than the formatter can fill up. -/
def Narrow (r : QueryResult) : Prop :=
  ∀ cells ∈ r.texts, ∀ cell ∈ cells, cell.length ≤ Grid.maxWidth

/-- The text has two lines more than the result has rows, all of one length, and the headings and
the texts of all cells are found again in them. -/
def ReadsBack (r : QueryResult) (text : String) : Prop :=
  ∃ lines width, text.toList.splitOn '\n' = lines ++ [[]] ∧
    lines.length = r.rows.length + 2 ∧ (∀ line ∈ lines, line.length = width) ∧
    Grid.readLines lines = some (r.columns, r.rows.map (List.map Grid.cellText))

section Rectangles

variable {r : QueryResult} (hshape : r.Rectangular)

include hshape

theorem length_of_mem_texts : ∀ texts ∈ r.rows.map (List.map Grid.cellText),
    texts.length = r.columns.length := by
  refine List.forall_mem_map.mpr fun row hrow => ?_
  rw [List.length_map]
  exact hshape row hrow

theorem grid_of_not_narrow (hr : ¬r.Narrow) : r.grid = .error .widthOutOfRange := by
  simp only [Narrow, not_forall, not_le] at hr
  obtain ⟨cells, hcells, cell, hcell, hwide⟩ := hr
  exact Grid.ofTexts_eq_error (length_of_mem_texts hshape) hcells hcell hwide

theorem grid_of_narrow (hcolumns : r.columns ≠ [])
    (hheadings : ∀ heading ∈ r.columns, Grid.Legible heading) (hr : r.Narrow) :
    ∃ text, r.grid = .ok text ∧ r.ReadsBack text := by
  have hcells : ∀ texts ∈ r.columns :: r.rows.map (List.map Grid.cellText), ∀ cell ∈ texts,
      Grid.Legible cell := by
    refine List.forall_mem_cons.mpr ⟨hheadings, List.forall_mem_map.mpr fun row _ => ?_⟩
    exact List.forall_mem_map.mpr fun cell _ => Grid.legible_cellText cell
  obtain ⟨text, lines, width, htext, hlines, hcount, hlength, hread⟩ :=
    Grid.ofTexts_reads_back hcolumns (length_of_mem_texts hshape) hcells hr
  rw [List.length_map] at hcount
  exact ⟨text, htext, lines, width, hlines, hcount, hlength, hread⟩

end Rectangles

/-- A result is written as a grid exactly when no heading and no cell is wider than the formatter
can fill up, and otherwise the writing fails.  The grid has two lines more than rows, all of one
length, and the headings and the texts of all cells are found again in them, whatever characters
they consist of. -/
theorem grid_reads_back_iff {r : QueryResult} (hcolumns : r.columns ≠ [])
    (hheadings : ∀ heading ∈ r.columns, Grid.Legible heading) (hshape : r.Rectangular) :
    ((∃ text, r.grid = .ok text ∧ r.ReadsBack text) ↔ r.Narrow) ∧
      (¬r.Narrow → r.grid = .error .widthOutOfRange) := by
  refine ⟨⟨?_, grid_of_narrow hshape hcolumns hheadings⟩, grid_of_not_narrow hshape⟩
  rintro ⟨text, htext, -⟩
  by_contra hwide
  cases htext.symm.trans (grid_of_not_narrow hshape hwide)

end QueryResult

/-- Cells with bars, plus signs and blanks, on several lines, and without any text. -/
def barred : QueryResult :=
  ⟨["a | b", "?"], [[some (.string "x+y | \n "), none], [some (.string ""), some (.integer (-7))]]⟩

def barredGrid : String :=
  " a | b       | ?  \n-------------+----\n" ++ " \"x+y | \\n \" |    \n \"\"          | -7 \n"

theorem barred_reads_back :
    barred.columns ≠ [] ∧ (∀ heading ∈ barred.columns, Grid.Legible heading) ∧
      barred.Rectangular ∧ barred.Narrow ∧ barred.grid = .ok barredGrid ∧
      barred.ReadsBack barredGrid := by
  have hheadings : ∀ heading ∈ barred.columns, Grid.Legible heading :=
    List.forall_mem_cons.mpr ⟨⟨by decide, by decide⟩,
      List.forall_mem_cons.mpr ⟨⟨by decide, by decide⟩, List.forall_mem_nil _⟩⟩
  have hshape : barred.Rectangular := by
    rw [QueryResult.Rectangular]
    decide
  have hnarrow : barred.Narrow := by
    rw [QueryResult.Narrow]
    decide +kernel
  have hgrid : barred.grid = .ok barredGrid := by
    decide +kernel
  obtain ⟨text, htext, hread⟩ :=
    (QueryResult.grid_reads_back_iff (List.cons_ne_nil _ _) hheadings hshape).1.mpr hnarrow
  cases htext.symm.trans hgrid
  exact ⟨List.cons_ne_nil _ _, hheadings, hshape, hnarrow, hgrid, hread⟩

/-- A string whose text has one character more than a cell can be filled up to. -/
def overlong : QueryResult :=
  ⟨["s"], [[some (.string (String.ofList (List.replicate 65534 'x')))]]⟩

theorem length_quote_of_plain {c : Char} (hc : Text.escape c = [c]) (n : Nat) :
    (Text.quote (String.ofList (List.replicate n c))).length = n + 2 := by
  rw [Text.quote, String.length_ofList, String.toList_ofList, List.flatMap_replicate, hc]
  simp

theorem overlong_has_no_grid :
    overlong.columns ≠ [] ∧ (∀ heading ∈ overlong.columns, Grid.Legible heading) ∧
      overlong.Rectangular ∧ overlong.grid = .error .widthOutOfRange ∧
      ¬∃ text, overlong.grid = .ok text ∧ overlong.ReadsBack text := by
  have hshape : overlong.Rectangular :=
    List.forall_mem_singleton.mpr rfl
  have hwide : ¬overlong.Narrow := by
    intro hnarrow
    have hquoted := hnarrow _ (List.mem_cons_of_mem _ List.mem_cons_self) _ List.mem_cons_self
    rw [Grid.cellText, Value.text, length_quote_of_plain (by decide +kernel)] at hquoted
    exact absurd hquoted (by decide)
  have hgrid := QueryResult.grid_of_not_narrow hshape hwide
  refine ⟨List.cons_ne_nil _ _, List.forall_mem_singleton.mpr ⟨by decide, by decide⟩, hshape, hgrid,
    ?_⟩
  rintro ⟨text, htext, -⟩
  cases htext.symm.trans hgrid

end PocketSql
