import Mathlib
import PocketSql.Proofs.Token.Boundary

/-!
# Spelled tokens

Tokens are spelled with one blank between two of them: punctuation and keywords by the
text of their kind, names and numbers by their literals, strings in quotes.  What is
spelled has the kinds and the literals of the tokens again, whatever stands side by side.
-/

namespace PocketSql

/-- A text with every quote in it written twice. -/
def doubleQuotes (content : List Char) : List Char :=
  content.flatMap fun c => if c = '\'' then ['\'', '\''] else [c]

def quoted (content : List Char) : List Char :=
  '\'' :: (doubleQuotes content ++ ['\''])

def Token.spelling (t : Token) : List Char :=
  match t.kind with
  | .identifier | .numberLiteral => t.literal.toList
  | .stringLiteral => quoted t.literal.toList
  | kind => kind.text.toList

/-- The spelling of tokens with a blank between two of them. -/
def spell (tokens : List Token) : String :=
  String.ofList ([' '].intercalate (tokens.map Token.spelling))

/-- A word that is an identifier and its own literal. -/
structure IsName (word : List Char) : Prop where
  begins : ∃ c rest, word = c :: rest ∧ Text.isWordStart c = true
  parts : ∀ c ∈ word, Text.isWordPart c = true
  lowercase : Text.lowercase word = word
  no_keyword : Kind.keyword? word = none

/-- The text of a number without signs and names. -/
structure IsNumberText (text : List Char) : Prop where
  begins : Lexeme.startsNumber text = true
  parts : ∀ c ∈ text, Lexeme.isNumberPart c = true
  value : (Number.read? text).isSome = true

/-- A token that is not the end, with a literal that tokens of its kind can have. -/
def Token.WellFormed (t : Token) : Prop :=
  match t.kind with
  | .eof => False
  | .identifier => IsName t.literal.toList
  | .numberLiteral => IsNumberText t.literal.toList
  | .stringLiteral => ¬['\r', '\n'] <:+: t.literal.toList
  | _ => t.literal = ""

/-- The kind and the literal of a token. -/
def Token.content (t : Token) : Kind × String :=
  (t.kind, t.literal)

/-! ## Single tokens -/

/-- In front of every detached text, the spelling is read as the lexeme. -/
def IsRead (spelling : List Char) (kind : Kind) (literal : String) : Prop :=
  ∃ c more, spelling = c :: more ∧ Text.isBlank c = false ∧
    ∀ rest, Detached rest → Lexeme.read c (more ++ rest) = .ok ⟨kind, literal, spelling, rest⟩

theorem isRead_symbol {kind : Kind} (hkind : kind ∈ Kind.symbols) :
    IsRead kind.text.toList kind "" := by
  obtain ⟨c, more, htext⟩ := List.exists_cons_of_ne_nil (Lexeme.symbol_text_ne_nil hkind)
  have hmark := Lexeme.mark_of_mem_symbol hkind (htext ▸ List.mem_cons_self)
  refine ⟨c, more, htext, ?_, fun rest hrest => Lexeme.read_symbol hkind htext hrest⟩
  exact Bool.eq_false_iff.mpr fun hblank => Text.not_mark_of_blank hblank hmark

/-- A text that goes on with no word and no number, and doubles no quote. -/
def SetOff (text : List Char) : Prop :=
  ∀ c ∈ text.head?,
    Text.isWordPart c = false ∧ Lexeme.isNumberPart c = false ∧ c ≠ '\''

/-- In front of every text that is set off, the spelling is read as the lexeme. -/
def StandsApart (spelling : List Char) (kind : Kind) (literal : String) : Prop :=
  ∃ c more, spelling = c :: more ∧ Text.isBlank c = false ∧
    ∀ rest, SetOff rest → Lexeme.read c (more ++ rest) = .ok ⟨kind, literal, spelling, rest⟩

theorem Detached.setOff {rest : List Char} (hrest : Detached rest) : SetOff rest := by
  intro c hc
  rcases hrest c hc with hblank | rfl
  · refine ⟨Text.not_wordPart_of_blank hblank, Text.not_numberPart_of_blank hblank, ?_⟩
    rintro rfl
    contradiction
  · exact ⟨by decide +kernel, by decide, by decide⟩

theorem StandsApart.isRead {spelling : List Char} {kind : Kind} {literal : String}
    (happart : StandsApart spelling kind literal) : IsRead spelling kind literal := by
  obtain ⟨c, more, hspelling, hc, hread⟩ := happart
  exact ⟨c, more, hspelling, hc, fun rest hrest => hread rest hrest.setOff⟩

/-- A run of characters ends in front of a text that does not go on with it. -/
theorem run_before {p : Char → Bool} {raw rest : List Char} (hraw : ∀ c ∈ raw, p c = true)
    (hrest : ∀ c ∈ rest.head?, p c = false) :
    (raw ++ rest).takeWhile p = raw ∧ (raw ++ rest).dropWhile p = rest := by
  rw [List.takeWhile_append_of_pos hraw, List.dropWhile_append_of_pos hraw]
  cases rest with
  | nil => simp
  | cons c rest =>
      have hc : p c = false := hrest c rfl
      simp [hc]

/-- A word is read as a whole. -/
theorem read_ofWord {c : Char} {more rest : List Char} (hc : Text.isWordStart c = true)
    (hmore : ∀ d ∈ c :: more, Text.isWordPart d = true) (hrest : SetOff rest) :
    Lexeme.read c (more ++ rest) = .ok (Lexeme.ofWord (c :: more) rest) := by
  obtain ⟨htake, hdrop⟩ := run_before hmore fun d hd => (hrest d hd).1
  rw [Lexeme.read_word hc, ← List.cons_append, Lexeme.readWord, htake, hdrop]

theorem not_blank_of_wordStart {c : Char} (hc : Text.isWordStart c = true) :
    Text.isBlank c = false := by
  apply Bool.eq_false_iff.mpr
  intro hblank
  have hpart := Lexeme.isWordPart_of_isWordStart hc
  rw [Text.not_wordPart_of_blank hblank] at hpart
  contradiction

theorem keyword_parts : Kind.keywords.all (fun kind => kind.text.toList.all Text.isWordStart) := by
  decide +kernel

/-- The text of a keyword is not empty, and in small letters it stands for the keyword. -/
theorem keyword_text : ∀ kind ∈ Kind.keywords, kind.text.toList ≠ [] ∧
    Kind.keyword? (Text.lowercase kind.text.toList) = some kind := by
  decide +kernel

theorem standsApart_keyword {kind : Kind} (hkind : kind ∈ Kind.keywords) :
    StandsApart kind.text.toList kind "" := by
  obtain ⟨hne, hkeyword⟩ := keyword_text kind hkind
  have hparts := List.all_eq_true.mp (List.all_eq_true.mp keyword_parts kind hkind)
  obtain ⟨c, more, htext⟩ := List.exists_cons_of_ne_nil hne
  rw [htext] at hparts hkeyword ⊢
  have hc := hparts c List.mem_cons_self
  refine ⟨c, more, rfl, not_blank_of_wordStart hc, fun rest hrest => ?_⟩
  rw [read_ofWord hc (fun d hd => Lexeme.isWordPart_of_isWordStart (hparts d hd)) hrest,
    Lexeme.ofWord, hkeyword]

theorem standsApart_name {literal : String} (hname : IsName literal.toList) :
    StandsApart literal.toList .identifier literal := by
  obtain ⟨c, more, htext, hc⟩ := hname.begins
  refine ⟨c, more, htext, not_blank_of_wordStart hc, fun rest hrest => ?_⟩
  rw [read_ofWord hc (htext ▸ hname.parts) hrest, ← htext, Lexeme.ofWord, hname.lowercase,
    hname.no_keyword, String.ofList_toList]

theorem startsNumber_append_of_true {c : Char} {more : List Char}
    (hbegins : Lexeme.startsNumber (c :: more) = true) (rest : List Char) :
    Lexeme.startsNumber (c :: (more ++ rest)) = true := by
  rw [Lexeme.startsNumber_cons] at hbegins ⊢
  cases more with
  | cons d more => exact hbegins
  | nil =>
      by_cases hpoint : c = '.'
      · rw [if_pos hpoint] at hbegins
        contradiction
      · rwa [if_neg hpoint] at hbegins ⊢

theorem standsApart_number {literal : String} (hnumber : IsNumberText literal.toList) :
    StandsApart literal.toList .numberLiteral literal := by
  have hbegins := hnumber.begins
  have hparts := hnumber.parts
  cases htext : literal.toList with
  | nil =>
      rw [htext] at hbegins
      contradiction
  | cons c more =>
      rw [htext] at hbegins hparts
      have hblank : Text.isBlank c = false := Bool.eq_false_iff.mpr fun hblank => by
        have hpart := hparts c List.mem_cons_self
        rw [Text.not_numberPart_of_blank hblank] at hpart
        contradiction
      refine ⟨c, more, rfl, hblank, fun rest hrest => ?_⟩
      obtain ⟨htake, hdrop⟩ := run_before hparts fun d hd => (hrest d hd).2.1
      rw [Lexeme.read_number (startsNumber_append_of_true hbegins rest), Lexeme.readNumber,
        ← List.cons_append, htake, hdrop, Lexeme.ofNumber, ← htext, if_pos hnumber.value,
        String.ofList_toList]

@[simp]
theorem doubleQuotes_cons (c : Char) (content : List Char) :
    doubleQuotes (c :: content) =
      (if c = '\'' then ['\'', '\''] else [c]) ++ doubleQuotes content := by
  rfl

/-- Written twice, no quote ends the string. -/
theorem stringBody_doubleQuotes {content rest : List Char}
    (hcontent : ¬['\r', '\n'] <:+: content) (hrest : rest.head? ≠ some '\'') :
    Lexeme.stringBody (doubleQuotes content ++ '\'' :: rest) =
      some (content, doubleQuotes content ++ ['\''], rest) := by
  induction content with
  | nil => exact Lexeme.stringBody_cons (fun _ => hrest) fun heq => absurd heq (by decide)
  | cons c content ih =>
      have ih := ih fun hpart => hcontent (hpart.trans (List.suffix_cons c content).isInfix)
      by_cases hc : c = '\''
      · simp [hc, Lexeme.stringBody, ih]
      have hpair : c = '\r' → (doubleQuotes content ++ '\'' :: rest).head? ≠ some '\n' := by
        rintro rfl hfeed
        cases content with
        | nil => exact absurd (Option.some.inj hfeed) (by decide)
        | cons d content =>
            have hd : d = '\n' := by
              rw [doubleQuotes_cons] at hfeed
              split at hfeed
              · exact absurd (Option.some.inj hfeed) (by decide)
              · exact Option.some.inj hfeed
            subst hd
            exact hcontent ⟨[], content, rfl⟩
      rw [doubleQuotes_cons, if_neg hc, List.append_assoc, List.singleton_append,
        Lexeme.stringBody_cons (fun heq => absurd heq hc) hpair, if_neg hc, ih]
      rfl

theorem standsApart_string {literal : String} (hliteral : ¬['\r', '\n'] <:+: literal.toList) :
    StandsApart (quoted literal.toList) .stringLiteral literal := by
  refine ⟨'\'', _, rfl, by decide, fun rest hrest => ?_⟩
  rw [Lexeme.read_string, Lexeme.readString, List.append_assoc, List.singleton_append,
    stringBody_doubleQuotes hliteral fun hhead => (hrest _ hhead).2.2 rfl]
  simp [quoted]

/-- Every kind that is spelled by its text is a symbol or a keyword. -/
theorem mem_symbols_or_keywords {kind : Kind}
    (hkind : kind ∉ [.eof, .identifier, .numberLiteral, .stringLiteral]) :
    kind ∈ Kind.symbols ∨ kind ∈ Kind.keywords := by
  revert hkind
  cases kind <;> decide

theorem Token.WellFormed.isRead {t : Token} (ht : t.WellFormed) :
    IsRead t.spelling t.kind t.literal := by
  rw [Token.WellFormed] at ht
  rw [Token.spelling]
  split at ht
  · contradiction
  · next hkind =>
    rw [hkind]
    exact (standsApart_name ht).isRead
  · next hkind =>
    rw [hkind]
    exact (standsApart_number ht).isRead
  · next hkind =>
    rw [hkind]
    exact (standsApart_string ht).isRead
  · next hend hname hnumber hstring =>
    rw [ht]
    split
    · exact absurd ‹_› hname
    · exact absurd ‹_› hnumber
    · exact absurd ‹_› hstring
    · have hspelled : t.kind ∉ [.eof, .identifier, .numberLiteral, .stringLiteral] := by
        simp only [List.mem_cons, List.not_mem_nil, or_false]
        tauto
      rcases mem_symbols_or_keywords hspelled with hkind | hkind
      · exact isRead_symbol hkind
      · exact (standsApart_keyword hkind).isRead

/-! ## Plain words -/

def isPlainStart (c : Char) : Bool :=
  c.isLower || c == '_'

def isPlainPart (c : Char) : Bool :=
  isPlainStart c || c.isDigit

/-- Small letters, digits and underscores, the first of them no digit, that make up no
keyword. -/
structure IsPlainWord (word : List Char) : Prop where
  begins : word.head?.any isPlainStart = true
  parts : word.all isPlainPart = true
  no_keyword : Kind.keyword? word = none

instance (word : List Char) : Decidable (IsPlainWord word) :=
  decidable_of_iff (word.head?.any isPlainStart = true ∧ word.all isPlainPart = true ∧
      Kind.keyword? word = none)
    ⟨fun ⟨hbegins, hparts, hkeyword⟩ => ⟨hbegins, hparts, hkeyword⟩,
      fun hword => ⟨hword.begins, hword.parts, hword.no_keyword⟩⟩

def plainChars : List Char :=
  "abcdefghijklmnopqrstuvwxyz0123456789_".toList

theorem mem_plainChars {c : Char} (hc : isPlainPart c = true) : c ∈ plainChars := by
  have hcode : c.toNat < 123 ∧
      (97 ≤ c.toNat ∨ (48 ≤ c.toNat ∧ c.toNat < 58) ∨ c.toNat = 95) := by
    simp only [isPlainPart, isPlainStart, Char.isLower, Char.isDigit, Bool.or_eq_true,
      Bool.and_eq_true, decide_eq_true_eq, beq_iff_eq, ge_iff_le, UInt32.le_iff_toNat_le] at hc
    rcases hc with (hlower | rfl) | hdigit
    · exact ⟨Nat.lt_succ_of_le hlower.2, .inl hlower.1⟩
    · decide
    · have hlt : c.toNat < 58 := Nat.lt_succ_of_le hdigit.2
      exact ⟨by omega, .inr (.inl ⟨hdigit.1, hlt⟩)⟩
  have hcodes : ∀ code < 123, (97 ≤ code ∨ (48 ≤ code ∧ code < 58) ∨ code = 95) →
      Char.ofNat code ∈ plainChars := by
    decide +kernel
  have hmem := hcodes c.toNat hcode.1 hcode.2
  rwa [Char.ofNat_toNat] at hmem

theorem plainChars_all : plainChars.all fun c =>
    Text.isWordPart c && (Text.isWordStart c || !isPlainStart c) &&
      (c != '\u03A3' && Text.lowercaseChar c == [c]) := by
  decide +kernel

section Plain

variable {c : Char}

theorem isWordPart_of_plain (hc : isPlainPart c = true) : Text.isWordPart c = true := by
  have hall := List.all_eq_true.mp plainChars_all c (mem_plainChars hc)
  simp only [Bool.and_eq_true] at hall
  exact hall.1.1

theorem isWordStart_of_plain (hc : isPlainStart c = true) : Text.isWordStart c = true := by
  have hpart : isPlainPart c = true := by rw [isPlainPart, hc, Bool.true_or]
  have hall := List.all_eq_true.mp plainChars_all c (mem_plainChars hpart)
  simpa [hc] using (Bool.and_eq_true_iff.mp (Bool.and_eq_true_iff.mp hall).1).2

theorem lowercaseChar_of_plain (hc : isPlainPart c = true) :
    c ≠ '\u03A3' ∧ Text.lowercaseChar c = [c] := by
  have hall := List.all_eq_true.mp plainChars_all c (mem_plainChars hc)
  simpa using (Bool.and_eq_true_iff.mp hall).2

end Plain

theorem lowercaseAfter_plain {word : List Char}
    (hword : ∀ c ∈ word, isPlainPart c = true) (before : List Char) :
    Text.lowercaseAfter before word = word := by
  induction word generalizing before with
  | nil => rfl
  | cons c word ih =>
      obtain ⟨hc, hothers⟩ := List.forall_mem_cons.mp hword
      obtain ⟨hsigma, hlower⟩ := lowercaseChar_of_plain hc
      rw [Text.lowercaseAfter, if_neg hsigma, hlower, ih hothers]
      rfl

/-- A plain word is a name, and its own literal. -/
theorem IsPlainWord.isName {word : List Char} (hword : IsPlainWord word) : IsName word where
  begins := by
    obtain ⟨c, hhead, hc⟩ := (Option.any_eq_true _ _).mp hword.begins
    obtain ⟨rest, heq⟩ := List.head?_eq_some_iff.mp hhead
    exact ⟨c, rest, heq, isWordStart_of_plain hc⟩
  parts := fun c hc => isWordPart_of_plain (List.all_eq_true.mp hword.parts c hc)
  lowercase := lowercaseAfter_plain (List.all_eq_true.mp hword.parts) []
  no_keyword := hword.no_keyword

/-- Every kind but that of the end has a token that can be written. -/
theorem Token.exists_wellFormed {kind : Kind} (heof : kind ≠ .eof) :
    ∃ t : Token, t.kind = kind ∧ t.WellFormed := by
  cases kind with
  | eof => contradiction
  | identifier =>
      have hname : IsPlainWord "a".toList := by decide +kernel
      exact ⟨⟨_, .start, "a"⟩, rfl, hname.isName⟩
  | numberLiteral =>
      have hzero : IsNumberText "0".toList :=
        ⟨by decide +kernel, List.all_eq_true.mp (by decide +kernel), rfl⟩
      exact ⟨⟨_, .start, "0"⟩, rfl, hzero⟩
  | stringLiteral =>
      have hempty : ¬['\r', '\n'] <:+: "".toList := by decide +kernel
      exact ⟨⟨_, .start, ""⟩, rfl, hempty⟩
  | _ => exact ⟨⟨_, .start, ""⟩, rfl, rfl⟩

/-! ## Lists of tokens -/

@[simp]
theorem ofList_nil (finish : Position) : TokenStream.ofList [] finish = .done finish := by
  rfl

@[simp]
theorem ofList_cons (t : Token) (tokens : List Token) (finish : Position) :
    TokenStream.ofList (t :: tokens) finish = .next t (TokenStream.ofList tokens finish) := by
  rfl

theorem toList_ofList (tokens : List Token) (finish : Position) :
    (TokenStream.ofList tokens finish).toList = .ok (tokens ++ [⟨.eof, finish, ""⟩]) := by
  induction tokens with
  | nil => rfl
  | cons t tokens ih =>
      rw [ofList_cons, TokenStream.toList, ih]
      rfl

theorem ofChars_isRead {spelling rest : List Char} {kind : Kind} {literal : String}
    (hread : IsRead spelling kind literal) (hrest : Detached rest) (position : Position) :
    TokenStream.ofChars position (spelling ++ rest) =
      .next ⟨kind, position, literal⟩ (TokenStream.ofChars (position.after spelling) rest) := by
  obtain ⟨c, more, htext, hc, hlexeme⟩ := hread
  rw [htext, List.cons_append, TokenStream.ofChars_cons _ hc, hlexeme rest hrest, htext]
  rfl

theorem ofChars_spelled {tokens : List Token} (htokens : ∀ t ∈ tokens, t.WellFormed)
    (position : Position) :
    ∃ read finish,
      TokenStream.ofChars position ([' '].intercalate (tokens.map Token.spelling)) =
        .ofList read finish ∧
      read.map Token.content = tokens.map Token.content := by
  induction tokens generalizing position with
  | nil => exact ⟨[], position, TokenStream.ofChars_nil position, rfl⟩
  | cons t tokens ih =>
      obtain ⟨ht, hothers⟩ := List.forall_mem_cons.mp htokens
      cases tokens with
      | nil =>
          have hread := ofChars_isRead ht.isRead detached_nil position
          rw [List.append_nil, TokenStream.ofChars_nil] at hread
          exact ⟨[⟨t.kind, position, t.literal⟩], position.after t.spelling, by simpa using hread,
            rfl⟩
      | cons t' tokens =>
          obtain ⟨read, finish, hothers, hcontent⟩ :=
            ih hothers ((position.after t.spelling).after [' '])
          have hblank :
              Detached (' ' :: [' '].intercalate ((t' :: tokens).map Token.spelling)) := by
            rintro c ⟨⟩
            decide
          refine ⟨⟨t.kind, position, t.literal⟩ :: read, finish, ?_,
            congrArg (t.content :: ·) hcontent⟩
          have hread := ofChars_isRead ht.isRead hblank position
          rw [TokenStream.ofChars_blank, hothers] at hread
          simpa using hread

/-- Tokens can be spelled: what is read from their spelling are the same kinds and
literals, and the end. -/
theorem tokenize_spell {tokens : List Token} (htokens : ∀ t ∈ tokens, t.WellFormed) :
    ∃ read finish, tokenize (spell tokens) = .ok (read ++ [⟨.eof, finish, ""⟩]) ∧
      read.map Token.content = tokens.map Token.content := by
  obtain ⟨read, finish, hread, hcontent⟩ := ofChars_spelled htokens .start
  refine ⟨read, finish, ?_, hcontent⟩
  rw [tokenize, TokenStream.ofString, spell, String.toList_ofList, hread, toList_ofList]

/-- Words in two scripts, signs that could be one, a number in front of a word, and strings
with quotes and line breaks. -/
def assorted : List Token :=
  [⟨.kwSelect, .start, ""⟩, ⟨.identifier, .start, "größe_ж2"⟩, ⟨.less, .start, ""⟩,
    ⟨.equal, .start, ""⟩, ⟨.numberLiteral, .start, "1.5e3"⟩, ⟨.identifier, .start, "e7"⟩,
    ⟨.stringLiteral, .start, "it's\n\r''"⟩, ⟨.stringLiteral, .start, ""⟩]

theorem assorted_spelled :
    (∀ t ∈ assorted, t.WellFormed) ∧
      ∃ read finish, tokenize (spell assorted) = .ok (read ++ [⟨.eof, finish, ""⟩]) ∧
        read.map Token.content = assorted.map Token.content := by
  have hword : IsName "größe_ж2".toList :=
    ⟨⟨'g', _, rfl, by decide +kernel⟩, List.all_eq_true.mp (by decide +kernel),
      by decide +kernel, by decide +kernel⟩
  have hexponent : IsName "e7".toList :=
    ⟨⟨'e', _, rfl, by decide +kernel⟩, List.all_eq_true.mp (by decide +kernel),
      by decide +kernel, by decide +kernel⟩
  have hnumber : IsNumberText "1.5e3".toList :=
    ⟨by decide +kernel, List.all_eq_true.mp (by decide +kernel), rfl⟩
  have hstring : ¬['\r', '\n'] <:+: "it's\n\r''".toList := by decide +kernel
  have hempty : ¬['\r', '\n'] <:+: "".toList := by decide +kernel
  have hwell : ∀ t ∈ assorted, t.WellFormed := by
    simp only [assorted, List.forall_mem_cons]
    exact ⟨rfl, hword, rfl, rfl, hnumber, hexponent, hstring, hempty, by simp⟩
  exact ⟨hwell, tokenize_spell hwell⟩

end PocketSql
