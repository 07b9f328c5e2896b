import Mathlib
import PocketSql.Token.Position

/-!
# Locations

The location of the end of a text, computed from the whole text at once: one line for
each line end, and the characters behind the last of them.  The position that is kept
up while a text is read piece by piece agrees with it, as long as no two pieces share
the two characters of one line end.
-/

namespace PocketSql

/-- Whether the first character ends a line.  A carriage return leaves that to a line
feed behind it. -/
def endsLine : List Char → Bool
  | '\n' :: _ => true
  | '\r' :: rest => rest.head? ≠ some '\n'
  | _ => false

/-- The number of places at which a line ends. -/
def lineEnds (text : List Char) : Nat :=
  text.tails.countP endsLine

/-- The characters behind the last line end. -/
def lastLine (text : List Char) : List Char :=
  text.rtakeWhile fun c => c ≠ '\n' ∧ c ≠ '\r'

/-- The line and the column of the character behind a text. -/
def location (text : List Char) : Position :=
  ⟨lineEnds text + 1, (lastLine text).length⟩

/-! ## Line ends -/

section LineEnds

variable {c : Char} {text : List Char}

theorem lineEnds_cons (c : Char) (text : List Char) :
    lineEnds (c :: text) = lineEnds text + if endsLine (c :: text) then 1 else 0 := by
  rw [lineEnds, List.tails_cons, List.countP_cons]
  rfl

theorem endsLine_cons (hfeed : c ≠ '\n') (hreturn : c ≠ '\r') :
    endsLine (c :: text) = false := by
  unfold endsLine
  split <;> simp_all

theorem endsLine_return (text : List Char) :
    endsLine ('\r' :: text) = decide (text.head? ≠ some '\n') := by
  rfl

theorem lineEnds_eq_zero : lineEnds text = 0 ↔ ∀ c ∈ text, c ≠ '\n' ∧ c ≠ '\r' := by
  induction text with
  | nil => simp [lineEnds, endsLine]
  | cons c text ih =>
      rw [lineEnds_cons, List.forall_mem_cons, ← ih]
      by_cases hfeed : c = '\n'
      · simp [hfeed, endsLine]
      by_cases hreturn : c = '\r'
      · subst hreturn
        rw [endsLine_return]
        by_cases hhead : text.head? = some '\n'
        · have htext : lineEnds text ≠ 0 := fun hzero =>
            (ih.mp hzero '\n' (List.mem_of_head? hhead)).1 rfl
          simp [hhead, htext]
        · simp [hhead]
      · simp [endsLine_cons hfeed hreturn, hfeed, hreturn]

theorem lastLine_of_lineEnds_eq_zero (htext : lineEnds text = 0) : lastLine text = text := by
  rw [lastLine, List.rtakeWhile_eq_self_iff]
  simpa using lineEnds_eq_zero.mp htext

theorem lastLine_cons (htext : lineEnds (c :: text) ≠ 0) :
    lastLine (c :: text) = lastLine text := by
  rw [lastLine, List.rtakeWhile, List.reverse_cons, List.takeWhile_append]
  split
  · next hall =>
    -- No line ends behind the character, so it is the one that ends a line.
    have hbreak : ¬(c ≠ '\n' ∧ c ≠ '\r') := by
      intro hc
      apply htext
      rw [lineEnds_eq_zero, List.forall_mem_cons]
      refine ⟨hc, ?_⟩
      simpa using List.takeWhile_eq_self_iff.mp (List.takeWhile_prefix _ |>.eq_of_length hall)
    have hlast : lastLine text = text := by
      rw [lastLine, List.rtakeWhile, List.takeWhile_prefix _ |>.eq_of_length hall,
        List.reverse_reverse]
    simp [hbreak, hlast]
  · rfl

end LineEnds

/-! ## Positions while reading -/

namespace Position

/-- At the begin of a line, the column behind a text is that of its last line. -/
theorem column_of_line_start (text : List Char) :
    (if lineEnds text = 0 then 0 + text.length else (lastLine text).length) =
      (lastLine text).length := by
  split
  · next htext => rw [lastLine_of_lineEnds_eq_zero htext, Nat.zero_add]
  · rfl

theorem after_eq (p : Position) (text : List Char) :
    p.after text =
      ⟨p.line + lineEnds text,
        if lineEnds text = 0 then p.column + text.length else (lastLine text).length⟩ := by
  fun_induction after p text with
  | case1 p => simp [lineEnds, endsLine]
  | case2 p rest ih =>
      have hfeed : lineEnds ('\n' :: rest) = lineEnds rest + 1 := by
        simp [lineEnds_cons, endsLine]
      have hends : lineEnds ('\r' :: '\n' :: rest) = lineEnds rest + 1 := by
        simp [lineEnds_cons, endsLine]
      rw [ih, column_of_line_start, lastLine_cons (by omega), lastLine_cons (by omega), hends,
        if_neg (Nat.succ_ne_zero _), Nat.add_assoc, Nat.add_comm 1]
  | case3 p c rest hpair hc ih =>
      have hends : lineEnds (c :: rest) = lineEnds rest + 1 := by
        rw [lineEnds_cons]
        rcases hc with rfl | rfl
        · rfl
        · have hhead : rest.head? ≠ some '\n' := by
            intro hhead
            obtain ⟨others, rfl⟩ := List.head?_eq_some_iff.mp hhead
            exact hpair others rfl rfl
          simp [endsLine, hhead]
      rw [ih, column_of_line_start, lastLine_cons (by omega), hends, if_neg (Nat.succ_ne_zero _),
        Nat.add_assoc, Nat.add_comm 1]
  | case4 p c rest _ hc ih =>
      have hends : lineEnds (c :: rest) = lineEnds rest := by
        rw [not_or] at hc
        rw [lineEnds_cons, endsLine_cons hc.1 hc.2]
        rfl
      rw [ih, hends]
      split
      · rw [List.length_cons, Nat.add_right_comm, Nat.add_assoc]
      · next hrest => rw [lastLine_cons (by omega)]

theorem after_start (text : List Char) : start.after text = location text := by
  rw [after_eq, location, start]
  rw [column_of_line_start, Nat.add_comm]

/-- Both `"\r\n"` and a lone `'\r'` end one line. -/
example : location "a\r\nb\rcd".toList = ⟨3, 2⟩ := by
  decide

/-- The two pieces do not share the two characters of one line end. -/
def Seam (text more : List Char) : Prop :=
  text.getLast? ≠ some '\r' ∨ more.head? ≠ some '\n'

theorem Seam.of_cons {c : Char} {text more : List Char} (hseam : Seam (c :: text) more) :
    Seam text more := by
  refine hseam.imp_left fun hlast htext => hlast ?_
  rw [List.getLast?_cons, htext]
  rfl

theorem Seam.no_pair {c : Char} {text more : List Char} (hseam : Seam (c :: text) more)
    (hpair : ∀ rest, c = '\r' → text = '\n' :: rest → False) :
    ∀ rest, c = '\r' → text ++ more = '\n' :: rest → False := by
  intro rest hc hmore
  cases text with
  | nil =>
      rcases hseam with hlast | hhead
      · exact hlast (congrArg some hc)
      · exact hhead (by rw [← List.nil_append more, hmore]; rfl)
  | cons d text =>
      obtain ⟨rfl, -⟩ := List.cons.inj hmore
      exact hpair text hc rfl

/-- Pieces of a text are read one after the other, unless they share a line end. -/
theorem after_append (p : Position) {text more : List Char} (hseam : Seam text more) :
    p.after (text ++ more) = (p.after text).after more := by
  fun_induction after p text with
  | case1 p => rfl
  | case2 p rest ih => exact ih hseam.of_cons.of_cons
  | case3 p c rest hpair hc ih =>
      rw [List.cons_append, after.eq_3 _ _ _ (hseam.no_pair hpair), if_pos hc]
      exact ih hseam.of_cons
  | case4 p c rest hpair hc ih =>
      rw [List.cons_append, after.eq_3 _ _ _ (hseam.no_pair hpair), if_neg hc]
      exact ih hseam.of_cons

/-! ## The order of positions -/

/-- Behind some text a position is a later one. -/
theorem lt_after (p : Position) {text : List Char} (htext : text ≠ []) : p < p.after text := by
  rw [after_eq]
  change _ ∨ _
  have hlength := List.length_pos_iff.mpr htext
  split
  · next hends => exact .inr ⟨by simp [hends], Nat.lt_add_of_pos_right hlength⟩
  · exact .inl (by simp; omega)

theorem lt_iff {p q : Position} :
    p < q ↔ p.line < q.line ∨ (p.line = q.line ∧ p.column < q.column) :=
  Iff.rfl

theorem lt_irrefl (p : Position) : ¬p < p := by
  rw [lt_iff]
  omega

theorem lt_asymm {p q : Position} (hpq : p < q) : ¬q < p := by
  rw [lt_iff] at *
  omega

theorem lt_trans {p q r : Position} (hpq : p < q) (hqr : q < r) : p < r := by
  rw [lt_iff] at *
  omega

end Position

end PocketSql
