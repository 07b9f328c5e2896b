import Mathlib
import PocketSql.Proofs.Syntax.LazyLexing

/-!
# Joining texts

The tokens of a text with a semicolon and another text behind it are those of the text,
the semicolon, and those of the other text further down.  So two batches with a semicolon
and a line feed between them are read as one batch.
-/

namespace PocketSql

/-! ## Further down -/

/-- The same column a number of lines further down. -/
def Position.down (lines : Nat) (p : Position) : Position :=
  ⟨p.line + lines, p.column⟩

theorem Position.after_down (lines : Nat) (p : Position) (text : List Char) :
    (p.down lines).after text = (p.after text).down lines := by
  rw [after_eq, after_eq, down, down, Nat.add_right_comm]

/-- A text is moved down with the error that it ends with. -/
def downBy (lines : Nat) : Relocation where
  place := Position.down lines
  lexical := Located.move (Position.down lines)

/-- Nothing is moved. -/
def unmoved : Relocation where
  place := id
  lexical := id

namespace TokenStream

theorem ofChars_down (lines : Nat) (position : Position) (text : List Char) :
    ofChars (position.down lines) text = (ofChars position text).move (downBy lines) := by
  have hblanks (p : Position) (text : List Char) :
      (p.down lines).afterBlanks text = (p.afterBlanks text).down lines :=
    p.after_down lines _
  fun_induction ofChars position text with
  | case1 position text hskip =>
      rw [ofChars_eq, hskip, hblanks]
      rfl
  | case2 position text c rest hskip fault hread =>
      rw [ofChars_eq, hskip, hblanks]
      simp only [hread]
      rfl
  | case3 position text c rest hskip l hread ih =>
      rw [ofChars_eq, hskip, hblanks]
      simp only [hread]
      rw [Position.after_down, ih]
      rfl

/-- A line feed in front of a text only moves it to the next line. -/
theorem ofChars_feed (position : Position) (text : List Char) :
    ofChars position ('\n' :: text) = ofChars ⟨position.line + 1, 0⟩ text := by
  rw [ofChars_eq, ofChars_eq ⟨position.line + 1, 0⟩]
  rfl

theorem read_semicolon (behind : List Char) :
    Lexeme.read ';' behind = .ok ⟨.semicolon, "", [';'], behind⟩ := by
  rfl

/-- The stream of a text with a semicolon and more behind it. -/
theorem mirrors_semicolon {position : Position} {text : List Char}
    (hend : (ofChars position text).lexError? = none) (behind : List Char) :
    Mirrors unmoved (some (ofChars ((position.after text).after [';']) behind))
      (ofChars position text) (ofChars position (text ++ ';' :: behind)) := by
  fun_induction ofChars position text with
  | case1 position text hskip =>
      have hblanks := List.dropWhile_eq_nil_iff.mp hskip
      rw [ofChars_append position (by decide +kernel) behind hblanks, read_semicolon]
      exact .ends _ rfl
  | case2 => cases hend
  | case3 position text c rest hskip l hread ih =>
      obtain ⟨blanks, rfl, hblanks, hc, hafter⟩ := exists_of_skipBlanks hskip
      rw [hafter, List.append_assoc, List.cons_append, ofChars_append position hc _ hblanks,
        Lexeme.read_extend (detached_semicolon behind) hread]
      rw [hafter] at hend ih
      have hposition : position.after (blanks ++ c :: rest) =
          ((position.after blanks).after l.raw).after l.rest := by
        have hfeed : c ≠ '\n' := by
          rintro rfl
          exact absurd hc (by decide +kernel)
        have hseam : Position.Seam blanks (c :: rest) := .inr fun hhead =>
          hfeed (Option.some.inj hhead)
        rw [Position.after_append _ hseam, ← Lexeme.raw_append_rest hread,
          Position.after_append _ (.inl (Lexeme.getLast?_raw hread))]
      rw [hposition]
      exact .next (readable_of_read hread _) (ih hend)

end TokenStream

/-! ## Batches -/

/-- Statements that have been read are read at the other place, if there is no other change. -/
theorem statements_move (f : Relocation) {text : String} {statements : List Statement}
    (hread : parse text = .ok statements) :
    ((TokenStream.ofString text).move f).statements =
      .ok (statements.map (Statement.move f.place)) := by
  have hreadable := TokenStream.readable_ofChars .start text.toList
  rcases (TokenStream.mirrors_move f hreadable).statements with
    ⟨others, hothers, hmoved⟩ | ⟨e, herror, -⟩
  · cases hothers.symm.trans hread
    exact hmoved
  · cases herror.symm.trans hread

theorem map_move_unmoved {text : String} {statements : List Statement}
    (hread : parse text = .ok statements) :
    statements.map (Statement.move unmoved.place) = statements := by
  have hmoved := statements_move unmoved hread
  rw [TokenStream.move_eq_self (fun _ _ => rfl) (fun _ _ => rfl)] at hmoved
  exact Except.ok.inj (hmoved.symm.trans hread)

/-- The stream behind the semicolon and the line feed is that of the text, further down. -/
theorem ofChars_behind (a : List Char) (b : String) :
    TokenStream.ofChars ((Position.start.after a).after [';']) ('\n' :: b.toList) =
      (TokenStream.ofString b).move (downBy (lineEnds a + 1)) := by
  have hline : (⟨((Position.start.after a).after [';']).line + 1, 0⟩ : Position) =
      Position.start.down (lineEnds a + 1) := by
    have hsemicolon : lineEnds [';'] = 0 := by decide
    rw [Position.after_eq, hsemicolon, Position.after_eq]
    simp [Position.down, Position.start, Nat.add_assoc]
  rw [TokenStream.ofChars_feed, hline, TokenStream.ofChars_down]
  rfl

/-- Two batches with a semicolon and a line feed between them are read as one. -/
theorem parse_join {a b : String} {as bs : List Statement} (ha : parse a = .ok as)
    (hne : as ≠ []) (hlast : (TokenStream.ofString a).lastKind? ≠ some .semicolon)
    (hb : parse b = .ok bs) :
    parse (a ++ ";\n" ++ b) =
      .ok (as ++ bs.map (Statement.move (Position.down (lineEnds a.toList + 1)))) := by
  have hend : (TokenStream.ofString a).lexError? = none := by
    cases hend : (TokenStream.ofString a).lexError? with
    | none => rfl
    | some e =>
        obtain ⟨error, herror⟩ := TokenStream.error_of_lexError? hend
        cases herror.symm.trans ha
  have hmirrors := TokenStream.mirrors_semicolon hend ('\n' :: b.toList)
  rw [ofChars_behind] at hmirrors
  have htext : (a ++ ";\n" ++ b).toList = a.toList ++ ';' :: '\n' :: b.toList := by
    simp
  rw [parse, TokenStream.ofString, htext, hmirrors.statements_append ha hne hlast,
    statements_move _ hb, map_move_unmoved ha]
  rfl

end PocketSql
