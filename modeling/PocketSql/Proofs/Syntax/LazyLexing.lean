import Mathlib
import PocketSql.Token.Scanner
import PocketSql.Proofs.Syntax.ParallelReading
import PocketSql.Proofs.Token.Boundary
import PocketSql.Proofs.Token.Location

/-!
# Lexing on demand

A reader asks a scanner for one token after the other, and meets a lexical error only
when it comes to the text that is no token.  The outcome is that of reading the list of
all tokens, if there is one.  Otherwise the text is refused, for the lexical error or for
an error of the grammar in front of it.

Where an error of the grammar stands is found by moving the tokens: an error that is not
at a place of the stream would move when nothing else does.
-/

namespace PocketSql

/-! ## Scans -/

/-- All that a scan can do. -/
inductive Scanner.Scans (s : Scanner) : Bool × Scanner → Prop
  | stuck {e : LexError} : s.error = some e → Scans s (false, s)
  | finish : s.error = none → Text.skipBlanks s.rest = [] →
      Scans s (false, .atEnd (s.position.afterBlanks s.rest))
  | fail {c : Char} {text : List Char} {fault : LexFault} : s.error = none →
      Text.skipBlanks s.rest = c :: text → Lexeme.read c text = .error fault →
      Scans s (false, .failed ⟨s.position.afterBlanks s.rest, fault⟩ (c :: text))
  | find {c : Char} {text : List Char} {l : Lexeme} : s.error = none →
      Text.skipBlanks s.rest = c :: text → Lexeme.read c text = .ok l →
      Scans s (true, ⟨(s.position.afterBlanks s.rest).after l.raw, l.rest,
        l.token (s.position.afterBlanks s.rest), none⟩)

theorem Scanner.scans_scan (s : Scanner) : s.Scans s.scan := by
  unfold scan
  cases hs : s.error with
  | some e => exact .stuck hs
  | none =>
      rw [Option.isSome_none, if_neg Bool.false_ne_true]
      split
      · next hskip => exact .finish hs hskip
      next hskip =>
      split
      · next hread => exact .fail hs hskip hread
      · next hread => exact .find hs hskip hread

section Lexeme

variable {s : Scanner} {c : Char} {text : List Char} (hs : s.error = none)
  (hskip : Text.skipBlanks s.rest = c :: text)

include hs hskip

theorem Scanner.scan_of_fault {fault : LexFault} (hread : Lexeme.read c text = .error fault) :
    s.scan = (false, .failed ⟨s.position.afterBlanks s.rest, fault⟩ (c :: text)) := by
  simp only [scan, hs, hskip, hread, Option.isSome_none, Bool.false_eq_true, if_false]

theorem Scanner.scan_of_lexeme {l : Lexeme} (hread : Lexeme.read c text = .ok l) :
    s.scan = (true, ⟨(s.position.afterBlanks s.rest).after l.raw, l.rest,
      l.token (s.position.afterBlanks s.rest), none⟩) := by
  simp only [scan, hs, hskip, hread, Option.isSome_none, Bool.false_eq_true, if_false]

end Lexeme

/-- What a scanner delivers, scan by scan, until it finds no further token. -/
inductive Scanner.Yields : Scanner → TokenStream → Prop
  | done {s s' : Scanner} : s.scan = (false, s') → s'.error = none →
      Yields s (.done s'.token.position)
  | broken {s s' : Scanner} {e : LexError} : s.scan = (false, s') → s'.error = some e →
      Yields s (.broken e)
  | next {s s' : Scanner} {rest : TokenStream} : s.scan = (true, s') → Yields s' rest →
      Yields s (.next s'.token rest)

/-- By induction on the length of the unread text. -/
theorem Scanner.yields_ofChars {s : Scanner} (hs : s.error = none) :
    s.Yields (TokenStream.ofChars s.position s.rest) := by
  induction hlength : s.rest.length using Nat.strong_induction_on generalizing s with
  | h length ih =>
  rw [TokenStream.ofChars_eq]
  have hscans := s.scans_scan
  generalize hscan : s.scan = outcome at hscans
  cases hscans with
  | stuck herror => cases hs.symm.trans herror
  | finish _ hskip =>
      rw [hskip]
      exact .done hscan rfl
  | fail _ hskip hread =>
      simp only [hskip, hread]
      exact .broken hscan rfl
  | @find c text l _ hskip hread =>
      have hblanks := (List.dropWhile_suffix Text.isBlank (l := s.rest)).length_le
      rw [← Text.skipBlanks, hskip] at hblanks
      have hrest := Lexeme.length_rest_lt hread
      simp only [hskip, hread]
      exact .next hscan (ih l.rest.length (by omega) rfl rfl)

namespace TokenStream

/-! ## Tokens and ends of streams -/

def tokens : TokenStream → List Token
  | done _ => []
  | broken _ => []
  | next t rest => t :: rest.tokens

/-- The error that a stream ends with. -/
def lexError? : TokenStream → Option LexError
  | done _ => none
  | broken e => some e
  | next _ rest => rest.lexError?

/-- The positions of the tokens, and of the end if there is one. -/
def positions : TokenStream → List Position
  | done position => [position]
  | broken _ => []
  | next t rest => t.position :: rest.positions

theorem toList_of_lexError? {s : TokenStream} {e : LexError} (hs : s.lexError? = some e) :
    s.toList = .error e := by
  induction s with
  | done => cases hs
  | broken error =>
      cases hs
      rfl
  | next t rest ih =>
      rw [toList, ih hs]
      rfl

/-- A stream with an end is the list of its tokens. -/
theorem exists_ofList {s : TokenStream} (hs : s.lexError? = none) :
    ∃ front finish, s = ofList front finish ∧ s.toList = .ok (front ++ [⟨.eof, finish, ""⟩]) := by
  induction s with
  | done position => exact ⟨[], position, rfl, rfl⟩
  | broken => cases hs
  | next t rest ih =>
      obtain ⟨front, finish, hrest, htokens⟩ := ih hs
      refine ⟨t :: front, finish, congrArg (next t) hrest, ?_⟩
      rw [toList, htokens]
      rfl

theorem lexError?_prepend (s : TokenStream) (ts : List Token) :
    (s.prepend ts).lexError? = s.lexError? := by
  induction ts with
  | nil => rfl
  | cons t ts ih => exact ih

theorem mirrors_move (f : Relocation) {s : TokenStream} (hs : ∀ t ∈ s.tokens, t.Readable) :
    Mirrors f none s (s.move f) := by
  induction s with
  | done position => exact .done position
  | broken e => exact .broken none e
  | next t rest ih =>
      obtain ⟨ht, hrest⟩ := List.forall_mem_cons.mp hs
      exact .next ht (ih hrest)

theorem move_eq_self {f : Relocation} {s : TokenStream} (hplace : ∀ p ∈ s.positions, f.place p = p)
    (hlexical : ∀ e, s.lexError? = some e → f.lexical e = e) : s.move f = s := by
  induction s with
  | done position => exact congrArg done (hplace position List.mem_cons_self)
  | broken e => exact congrArg broken (hlexical e rfl)
  | next t rest ih =>
      obtain ⟨ht, hrest⟩ := List.forall_mem_cons.mp hplace
      rw [move, ih hrest hlexical, Token.move, ht]

/-! ## Where errors come from -/

/-- The error is the one that the stream ends with, or one of the grammar at a place of
the stream. -/
def Blames (s : TokenStream) : SyntaxError → Prop
  | .lexical e => s.lexError? = some e
  | .grammatical e => e.position ∈ s.positions
  | .malformedNumber _ => False

/-- Moves everything but what stands in a stream. -/
def leaving (s : TokenStream) : Relocation where
  place p := if p ∈ s.positions then p else ⟨p.line + 1, p.column⟩
  lexical e :=
    if s.lexError? = some e then e else ⟨⟨e.position.line + 1, e.position.column⟩, e.value⟩

theorem blames_of_move_leaving {s : TokenStream} {e : SyntaxError}
    (hnumber : ∀ literal, e ≠ .malformedNumber literal) (hmove : e.move s.leaving = e) :
    s.Blames e := by
  cases e with
  | malformedNumber literal => exact hnumber literal rfl
  | lexical e =>
      by_contra hblames
      have hline := congrArg (·.position.line) (SyntaxError.lexical.inj hmove)
      simp only [leaving, if_neg (show ¬s.lexError? = some e from hblames)] at hline
      omega
  | grammatical e =>
      by_contra hblames
      have hline := congrArg (·.position.line) (SyntaxError.grammatical.inj hmove)
      simp only [Located.move, leaving,
        if_neg (show e.position ∉ s.positions from hblames)] at hline
      omega

theorem blames_of_statements {s : TokenStream} (hs : ∀ t ∈ s.tokens, t.Readable) {e : SyntaxError}
    (herror : s.statements = .error e) : s.Blames e := by
  have hself : s.move s.leaving = s :=
    move_eq_self (fun p hp => if_pos hp) (fun e he => if_pos he)
  have hmirrors := mirrors_move s.leaving hs
  rw [hself] at hmirrors
  rcases hmirrors.statements with ⟨statements, hread, -⟩ | ⟨e', herror', hmoved, hnumber⟩
  · cases herror.symm.trans hread
  · obtain rfl := Except.error.inj (herror.symm.trans herror')
    exact blames_of_move_leaving hnumber (Except.error.inj (hmoved.symm.trans herror))

/-- A stream that ends with text that is no token is no batch. -/
theorem error_of_lexError? {s : TokenStream} {e : LexError} (hs : s.lexError? = some e) :
    ∃ error, s.statements = .error error := by
  cases hread : s.statements with
  | error error => exact ⟨error, rfl⟩
  | ok statements =>
      obtain ⟨ts, finish, rfl, -⟩ := s.derives_of_statements (fun hts => hts) hread
      rw [lexError?_prepend] at hs
      cases hs

/-! ## Streams of texts -/

theorem readable_of_read {c : Char} {text : List Char} {l : Lexeme}
    (hread : Lexeme.read c text = .ok l) (position : Position) : (l.token position).Readable := by
  intro hnumber
  cases Lexeme.readAs_of_read hread with
  | number _ hread =>
      rw [Lexeme.readNumber, Lexeme.ofNumber] at hread
      split at hread
      · next hvalid =>
        cases hread
        simpa [Lexeme.token] using hvalid
      · cases hread
  | symbol hkind _ hl =>
      subst hl
      have hother : ∀ kind ∈ Kind.symbols, kind ≠ .numberLiteral := by decide
      exact absurd hnumber (hother _ hkind)
  | string _ hread =>
      rw [Lexeme.readString] at hread
      split at hread
      · cases hread
        cases hnumber
      · cases hread
  | word _ hl =>
      subst hl
      rw [Lexeme.readWord, Lexeme.ofWord, Lexeme.token] at hnumber
      split at hnumber
      · next kind hkeyword =>
        have hother : ∀ kind ∈ Kind.keywords, kind ≠ .numberLiteral := by decide
        exact absurd hnumber (hother _ (List.mem_of_find?_eq_some hkeyword))
      · cases hnumber

theorem readable_ofChars (position : Position) (text : List Char) :
    ∀ t ∈ (ofChars position text).tokens, t.Readable := by
  fun_induction ofChars position text with
  | case1 | case2 => exact nofun
  | case3 position text c rest _ l hread ih =>
      exact List.forall_mem_cons.mpr ⟨readable_of_read hread _, ih⟩

theorem eq_or_lt_afterBlanks (position : Position) (text : List Char) :
    position = position.afterBlanks text ∨ position < position.afterBlanks text := by
  rw [Position.afterBlanks]
  by_cases hblanks : text.takeWhile Text.isBlank = []
  · rw [hblanks]
    exact .inl rfl
  · exact .inr (position.lt_after hblanks)

/-- Every lexeme has a character, so the position behind it is a later one. -/
theorem lt_after_lexeme (position : Position) (text : List Char) {c : Char} {rest : List Char}
    {l : Lexeme} (hread : Lexeme.read c rest = .ok l) :
    position < (position.afterBlanks text).after l.raw := by
  have hlexeme := (position.afterBlanks text).lt_after (Lexeme.raw_ne_nil hread)
  rcases eq_or_lt_afterBlanks position text with heq | hlt
  · rwa [← heq] at hlexeme ⊢
  · exact Position.lt_trans hlt hlexeme

theorem eq_or_lt_lexError {position : Position} {text : List Char} {e : LexError}
    (he : (ofChars position text).lexError? = some e) :
    position = e.position ∨ position < e.position := by
  fun_induction ofChars position text with
  | case1 => cases he
  | case2 position text c rest fault =>
      cases he
      exact eq_or_lt_afterBlanks position text
  | case3 position text c rest _ l hread ih =>
      have hlt := lt_after_lexeme position text hread
      rcases ih he with heq | hrest
      · exact .inr (heq ▸ hlt)
      · exact .inr (Position.lt_trans hlt hrest)

/-- The tokens of a text stand in front of what is no token. -/
theorem lt_lexError {position : Position} {text : List Char} {e : LexError}
    (he : (ofChars position text).lexError? = some e) :
    ∀ p ∈ (ofChars position text).positions, p < e.position := by
  fun_induction ofChars position text with
  | case1 => cases he
  | case2 => exact nofun
  | case3 position text c rest _ l hread ih =>
      refine List.forall_mem_cons.mpr ⟨?_, ih he⟩
      have hlexeme := (position.afterBlanks text).lt_after (Lexeme.raw_ne_nil hread)
      rcases eq_or_lt_lexError he with heq | hlt
      · exact heq ▸ hlexeme
      · exact Position.lt_trans hlexeme hlt

end TokenStream

/-! ## Reading texts -/

/-- A text is read from what a scanner yields.  If it has a list of tokens, the outcome is
that of reading the list, and no lexical error.  If lexing fails, so does reading: with the
same error, or with one of the grammar that stands in front of it. -/
theorem lazy_lexing_agrees (text : String) :
    ∃ s, Scanner.Yields (.ofString text) s ∧ parse text = s.statements ∧
      match tokenize text with
      | .ok tokens => ∃ front finish, tokens = front ++ [⟨.eof, finish, ""⟩] ∧
          parse text = (TokenStream.ofList front finish).statements ∧
          ∀ e, parse text ≠ .error (.lexical e)
      | .error e => parse text = .error (.lexical e) ∨
          ∃ e', parse text = .error (.grammatical e') ∧ e'.position < e.position := by
  refine ⟨.ofString text, Scanner.yields_ofChars rfl, rfl, ?_⟩
  have hblames : ∀ {e}, parse text = .error e → (TokenStream.ofString text).Blames e :=
    TokenStream.blames_of_statements (TokenStream.readable_ofChars _ _)
  rw [tokenize]
  cases hend : (TokenStream.ofString text).lexError? with
  | none =>
      obtain ⟨front, finish, hstream, htokens⟩ := TokenStream.exists_ofList hend
      rw [htokens]
      refine ⟨front, finish, rfl, by rw [parse, ← hstream], fun e he => ?_⟩
      have he' : (TokenStream.ofString text).lexError? = some e := hblames he
      cases hend.symm.trans he'
  | some e =>
      rw [TokenStream.toList_of_lexError? hend]
      obtain ⟨error, herror⟩ := TokenStream.error_of_lexError? hend
      have herror' : parse text = .error error := herror
      cases error with
      | lexical e' =>
          have he' : (TokenStream.ofString text).lexError? = some e' := hblames herror'
          cases hend.symm.trans he'
          exact .inl herror'
      | grammatical e' =>
          exact .inr ⟨e', herror', TokenStream.lt_lexError hend _ (hblames herror')⟩
      | malformedNumber literal => cases hblames herror'

end PocketSql
