import Mathlib
import PocketSql.Proofs.Token.Boundary
import PocketSql.Proofs.Token.Location

/-!
# Lossless tokens

A text that has tokens is made up of its lexemes and the blanks between them.  Each
lexeme is its token on its own, and the token stands at the location of the lexeme in
the text.  In a text that has no tokens, the same holds up to the place of the error.
-/

namespace PocketSql

/-- A lexeme of a text with the blanks in front of it, and the token that it is. -/
structure Piece where
  blanks : List Char
  lexeme : List Char
  token : Token

def Piece.text (p : Piece) : List Char :=
  p.blanks ++ p.lexeme

/-- The text that pieces make up. -/
def textOf (pieces : List Piece) : List Char :=
  pieces.flatMap Piece.text

/-- A text whose first character is no blank. -/
def BeginsLexeme (text : List Char) : Prop :=
  ∃ c rest, text = c :: rest ∧ Text.isBlank c = false

/-- A piece of a text, behind the text `before`. -/
structure Piece.FitsBehind (before : List Char) (p : Piece) : Prop where
  blanks : ∀ c ∈ p.blanks, Text.isBlank c = true
  lexeme : BeginsLexeme p.lexeme
  /-- The lexeme on its own has no other token. -/
  alone : tokenize (String.ofList p.lexeme) =
    .ok [⟨p.token.kind, .start, p.token.literal⟩, ⟨.eof, location p.lexeme, ""⟩]
  position : p.token.position = location (before ++ p.blanks)

/-- Behind the text `before`, a text is made up of pieces, blanks and a rest. -/
structure Divides (before : List Char) (pieces : List Piece) (blanks rest : List Char)
    (text : List Char) : Prop where
  text_eq : text = textOf pieces ++ (blanks ++ rest)
  blanks : ∀ c ∈ blanks, Text.isBlank c = true
  pieces : ∀ front p back, pieces = front ++ p :: back → p.FitsBehind (before ++ textOf front)

/-! ## Single lexemes -/

theorem ne_feed_of_not_blank {c : Char} (hc : Text.isBlank c = false) : c ≠ '\n' := by
  rintro rfl
  contradiction

theorem BeginsLexeme.ne_nil {text : List Char} (htext : BeginsLexeme text) : text ≠ [] := by
  obtain ⟨c, rest, rfl, -⟩ := htext
  exact List.cons_ne_nil c rest

/-- What begins a lexeme belongs to no line end in front of it. -/
theorem BeginsLexeme.seam {text : List Char} (htext : BeginsLexeme text) (before more : List Char) :
    Position.Seam before (text ++ more) := by
  obtain ⟨c, rest, rfl, hc⟩ := htext
  exact .inr fun hhead => ne_feed_of_not_blank hc (Option.some.inj hhead)

theorem tokenize_lexeme {c : Char} (hc : Text.isBlank c = false) {text : List Char} {l : Lexeme}
    (hread : Lexeme.read c text = .ok l) :
    tokenize (String.ofList l.raw) =
      .ok [⟨l.kind, .start, l.literal⟩, ⟨.eof, location l.raw, ""⟩] := by
  obtain ⟨more, hraw, hdetached⟩ := Lexeme.read_append hread
  have halone := hdetached [] detached_nil
  rw [List.append_nil] at halone
  rw [tokenize, TokenStream.ofString, String.toList_ofList, hraw,
    TokenStream.ofChars_cons _ hc, halone, ← hraw, ← Position.after_start]
  simp only [TokenStream.ofChars_nil]
  rfl

theorem tokenize_broken {c : Char} (hc : Text.isBlank c = false) {text : List Char}
    {fault : LexFault} (hread : Lexeme.read c text = .error fault) :
    tokenize (String.ofList (c :: text)) = .error ⟨.start, fault⟩ := by
  rw [tokenize, TokenStream.ofString, String.toList_ofList, TokenStream.ofChars_cons _ hc, hread]
  rfl

/-! ## Texts piece by piece -/

section Divides

variable {before blanks rest text : List Char} {pieces : List Piece}

@[simp]
theorem textOf_nil : textOf [] = [] := by
  rfl

@[simp]
theorem textOf_cons (p : Piece) (pieces : List Piece) :
    textOf (p :: pieces) = p.text ++ textOf pieces := by
  rfl

theorem Divides.nil (hblanks : ∀ c ∈ blanks, Text.isBlank c = true) :
    Divides before [] blanks rest (blanks ++ rest) where
  text_eq := rfl
  blanks := hblanks
  pieces front p back hpieces := by simp at hpieces

theorem Divides.cons {p : Piece} (hp : p.FitsBehind before)
    (htext : Divides (before ++ p.text) pieces blanks rest text) :
    Divides before (p :: pieces) blanks rest (p.text ++ text) where
  text_eq := by rw [htext.text_eq, textOf_cons, List.append_assoc]
  blanks := htext.blanks
  pieces front q back hpieces := by
    cases front with
    | nil =>
        cases hpieces
        simpa using hp
    | cons first front =>
        obtain ⟨rfl, hothers⟩ := List.cons.inj hpieces
        simpa using htext.pieces front q back hothers

theorem Divides.head {p : Piece} (htext : Divides before (p :: pieces) blanks rest text) :
    p.FitsBehind before := by
  simpa using htext.pieces [] p pieces rfl

theorem Divides.tail {p : Piece} (htext : Divides before (p :: pieces) blanks rest text) :
    Divides (before ++ p.text) pieces blanks rest (textOf pieces ++ (blanks ++ rest)) where
  text_eq := rfl
  blanks := htext.blanks
  pieces front q back hpieces := by
    have hp := htext.pieces (p :: front) q back (by rw [hpieces]; rfl)
    simpa using hp

/-- A token stands before whatever is behind its lexeme. -/
theorem Piece.FitsBehind.position_lt {p : Piece} (hp : p.FitsBehind before) (more : List Char) :
    p.token.position < location (before ++ p.text ++ more) := by
  have hsplit : before ++ p.text ++ more = (before ++ p.blanks) ++ (p.lexeme ++ more) := by
    simp [Piece.text]
  rw [hp.position, hsplit, ← Position.after_start, ← Position.after_start,
    Position.after_append _ (hp.lexeme.seam _ _)]
  exact Position.lt_after _ (by simp [hp.lexeme.ne_nil])

/-- The tokens of a text stand one behind the other, and its end behind all of them. -/
theorem Divides.increasing (htext : Divides before pieces blanks rest text) :
    List.Pairwise (fun a b => a.position < b.position)
      (pieces.map Piece.token ++ [⟨.eof, location (before ++ text), ""⟩]) := by
  induction pieces generalizing before text with
  | nil => simp
  | cons p pieces ih =>
      have hp := htext.head
      have htail := htext.tail
      have hend : before ++ text = before ++ p.text ++ (textOf pieces ++ (blanks ++ rest)) := by
        simp [htext.text_eq]
      rw [hend, List.map_cons, List.cons_append, List.pairwise_cons]
      refine ⟨?_, ih htail⟩
      intro t ht
      rcases List.mem_append.mp ht with ht | ht
      · obtain ⟨q, hq, rfl⟩ := List.mem_map.mp ht
        obtain ⟨front, back, rfl⟩ := List.append_of_mem hq
        rw [(htail.pieces front q back rfl).position, List.append_assoc]
        exact hp.position_lt _
      · rw [List.mem_singleton.mp ht]
        exact hp.position_lt _

end Divides

/-! ## Streams of texts -/

/-- Behind the text `before`, a text is divided as its tokens or its error say. -/
def DividedBy (before text : List Char) : Except LexError (List Token) → Prop
  | .ok tokens => ∃ pieces blanks, Divides before pieces blanks [] text ∧
      tokens = pieces.map Piece.token ++ [⟨.eof, location (before ++ text), ""⟩]
  | .error e => ∃ pieces blanks rest, Divides before pieces blanks rest text ∧
      BeginsLexeme rest ∧ e.position = location (before ++ (textOf pieces ++ blanks)) ∧
      tokenize (String.ofList rest) = .error ⟨.start, e.value⟩

theorem DividedBy.cons {before text : List Char} {p : Piece} (hp : p.FitsBehind before)
    {result : Except LexError (List Token)} (htext : DividedBy (before ++ p.text) text result) :
    DividedBy before (p.text ++ text) (do return p.token :: (← result)) := by
  cases result with
  | ok tokens =>
      obtain ⟨pieces, blanks, hdivides, rfl⟩ := htext
      exact ⟨p :: pieces, blanks, hdivides.cons hp, by simp⟩
  | error e =>
      obtain ⟨pieces, blanks, rest, hdivides, hrest, hposition, hbroken⟩ := htext
      exact ⟨p :: pieces, blanks, rest, hdivides.cons hp, hrest, by simpa using hposition, hbroken⟩

theorem exists_blanks (text : List Char) :
    ∃ blanks rest, text = blanks ++ rest ∧ (∀ c ∈ blanks, Text.isBlank c = true) ∧
      (rest = [] ∨ BeginsLexeme rest) := by
  refine ⟨text.takeWhile Text.isBlank, text.dropWhile Text.isBlank,
    List.takeWhile_append_dropWhile.symm, fun _ => List.mem_takeWhile_imp, ?_⟩
  have hhead := List.head?_dropWhile_not Text.isBlank text
  cases hrest : text.dropWhile Text.isBlank with
  | nil => exact .inl rfl
  | cons c rest =>
      rw [hrest] at hhead
      exact .inr ⟨c, rest, rfl, hhead⟩

/-- By induction on the length of the text.  A line end that `before` ends in could go on
in the text, so `before` may not end in a carriage return. -/
theorem dividedBy_ofChars (before text : List Char) (hbefore : before.getLast? ≠ some '\r') :
    DividedBy before text (TokenStream.ofChars (location before) text).toList := by
  induction hlength : text.length using Nat.strong_induction_on generalizing before text with
  | h length ih =>
  obtain ⟨blanks, rest, rfl, hblanks, rfl | hrest⟩ := exists_blanks text
  · rw [List.append_nil, TokenStream.ofChars_blanks _ hblanks, ← Position.after_start,
      ← Position.after_append _ (.inl hbefore), Position.after_start]
    refine ⟨[], blanks, ?_, rfl⟩
    have hdivides : Divides before [] blanks [] (blanks ++ []) := .nil hblanks
    simpa using hdivides
  · obtain ⟨c, more, rfl, hc⟩ := hrest
    rw [TokenStream.ofChars_append _ hc more hblanks, ← Position.after_start,
      ← Position.after_append _ (.inl hbefore), Position.after_start]
    cases hread : Lexeme.read c more with
    | error fault =>
        exact ⟨[], blanks, c :: more, .nil hblanks, ⟨c, more, rfl, hc⟩, rfl,
          tokenize_broken hc hread⟩
    | ok l =>
        have hlexeme : BeginsLexeme l.raw := by
          obtain ⟨others, hraw, -⟩ := Lexeme.read_append hread
          exact ⟨c, others, hraw, hc⟩
        have hfits :
            Piece.FitsBehind before ⟨blanks, l.raw, l.token (location (before ++ blanks))⟩ :=
          ⟨hblanks, hlexeme, tokenize_lexeme hc hread, rfl⟩
        have hposition : (location (before ++ blanks)).after l.raw =
            location (before ++ (blanks ++ l.raw)) := by
          have hseam := hlexeme.seam (before ++ blanks) []
          rw [List.append_nil] at hseam
          rw [← Position.after_start, ← Position.after_append _ hseam, Position.after_start,
            List.append_assoc]
        have hlast : (before ++ (blanks ++ l.raw)).getLast? ≠ some '\r' := by
          rw [← List.append_assoc, List.getLast?_append_of_ne_nil _ hlexeme.ne_nil]
          exact Lexeme.getLast?_raw hread
        have hshorter : l.rest.length < length := by
          have hrest := Lexeme.length_rest_lt hread
          rw [List.length_append] at hlength
          omega
        have hrest := ih _ hshorter (before ++ (blanks ++ l.raw)) l.rest hlast rfl
        rw [← hposition] at hrest
        rw [← Lexeme.raw_append_rest hread, ← List.append_assoc]
        exact DividedBy.cons hfits hrest

/-! ## Texts and their tokens -/

/-- A text is its lexemes with blanks between them, and the tokens are those of the
lexemes, at their locations; an error stands at the location of the lexeme that is none. -/
theorem tokenize_lossless (text : String) :
    match tokenize text with
    | .ok tokens => ∃ pieces blanks, Divides [] pieces blanks [] text.toList ∧
        tokens = pieces.map Piece.token ++ [⟨.eof, location text.toList, ""⟩] ∧
        tokens.Pairwise fun a b => a.position < b.position
    | .error e => ∃ pieces blanks rest, Divides [] pieces blanks rest text.toList ∧
        BeginsLexeme rest ∧ e.position = location (textOf pieces ++ blanks) ∧
        tokenize (String.ofList rest) = .error ⟨.start, e.value⟩ := by
  have hdivided := dividedBy_ofChars [] text.toList (by decide)
  have hstart : location [] = .start := rfl
  rw [hstart] at hdivided
  change DividedBy [] text.toList (tokenize text) at hdivided
  split
  · next tokens heq =>
    rw [heq] at hdivided
    obtain ⟨pieces, blanks, hdivides, rfl⟩ := hdivided
    exact ⟨pieces, blanks, hdivides, rfl, hdivides.increasing⟩
  · next e heq =>
    rw [heq] at hdivided
    exact hdivided

end PocketSql
