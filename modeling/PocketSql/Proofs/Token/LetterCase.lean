import Mathlib
import PocketSql.Proofs.Outcome
import PocketSql.Proofs.Token.Lossless
import PocketSql.Proofs.Token.Spelling

/-!
# Words in any case

The case of ASCII letters in a word makes no difference to its token, nor to any other token of
the text.  All classes of characters but one have both forms of a letter or none of them, so no
lexeme ends elsewhere, and a sigma ends a word behind either form or behind none.  The exception
is the letter `e` of numbers: a word that begins where a number ends is left as it is.
-/

namespace PocketSql

/-! ## Letters -/

/-- The same character, up to the case of an ASCII letter. -/
def SameLetter (c c' : Char) : Prop :=
  c.toLower = c'.toLower

instance (c c' : Char) : Decidable (SameLetter c c') :=
  inferInstanceAs (Decidable (_ = _))

/-- The same text, up to the case of ASCII letters. -/
abbrev SameLetters : List Char → List Char → Prop :=
  List.Forall₂ SameLetter

/-- How a letter is classified and folded, a capital one or not. -/
structure IsPlainLetter (c : Char) : Prop where
  wordStart : Text.isWordStart c = true
  not_ignorable : Text.caseIgnorable.covers c.toNat = false
  cased : Text.cased.covers c.toNat = true
  not_sigma : c ≠ '\u03A3'
  lowercase : Text.lowercaseChar c = [c.toLower]

theorem letters_classified : ∀ code < 123, (Char.ofNat code).isAlpha = true →
    Text.isWordStart (Char.ofNat code) = true ∧
      Text.caseIgnorable.covers (Char.ofNat code).toNat = false ∧
      Text.cased.covers (Char.ofNat code).toNat = true ∧ Char.ofNat code ≠ '\u03A3' ∧
      Text.lowercaseChar (Char.ofNat code) = [(Char.ofNat code).toLower] := by
  decide +kernel

namespace IsPlainLetter

variable {c : Char}

theorem of_isAlpha (hc : c.isAlpha = true) : IsPlainLetter c := by
  have hcode : c.toNat < 123 := by
    simp only [Char.isAlpha, Char.isUpper, Char.isLower, Bool.or_eq_true, Bool.and_eq_true,
      decide_eq_true_eq, ge_iff_le, UInt32.le_iff_toNat_le] at hc
    rcases hc with hupper | hlower
    · exact Nat.lt_of_le_of_lt hupper.2 (by decide)
    · exact Nat.lt_of_le_of_lt hlower.2 (by decide)
  have hletter := letters_classified c.toNat hcode
  rw [Char.ofNat_toNat] at hletter
  obtain ⟨hstart, hignorable, hcased, hsigma, hlower⟩ := hletter hc
  exact ⟨hstart, hignorable, hcased, hsigma, hlower⟩

variable (hc : IsPlainLetter c)

include hc

theorem ne_mark {mark : Char} (hmark : mark ∈ Text.marks) : c ≠ mark := by
  rintro rfl
  exact Text.not_mark_of_wordStart hc.wordStart (List.mem_map_of_mem hmark)

theorem not_digit : c.isDigit = false :=
  Bool.eq_false_iff.mpr fun hdigit =>
    Text.not_mark_of_wordStart hc.wordStart (Text.mark_of_isDigit hdigit)

end IsPlainLetter

namespace SameLetter

variable {c c' : Char}

theorem eq_or_isPlainLetter (h : SameLetter c c') :
    c = c' ∨ (IsPlainLetter c ∧ IsPlainLetter c') := by
  have halpha : c.isAlpha = c'.isAlpha := by
    rw [← Char.isAlpha_toLower_eq_isAlpha, ← Char.isAlpha_toLower_eq_isAlpha (c := c'), h]
  cases hc : c.isAlpha with
  | true => exact .inr ⟨.of_isAlpha hc, .of_isAlpha (halpha ▸ hc)⟩
  | false =>
      have hself : ∀ d : Char, d.isAlpha = false → d.toLower = d := by
        intro d hd
        rw [Char.isAlpha, Bool.or_eq_false_iff] at hd
        exact Char.toLower_eq_of_not_isUpper (Bool.eq_false_iff.mp hd.1)
      refine .inl ?_
      rw [← hself c hc, ← hself c' (halpha ▸ hc)]
      exact h

/-- What does not tell letters apart does not tell their cases apart. -/
theorem congr {α : Type} (h : SameLetter c c') (f : Char → α) {a : α}
    (hf : ∀ d, IsPlainLetter d → f d = a) : f c = f c' := by
  rcases h.eq_or_isPlainLetter with rfl | ⟨hc, hc'⟩
  · rfl
  · rw [hf c hc, hf c' hc']

theorem eq_mark_iff (h : SameLetter c c') (mark : Char) (hmark : mark ∈ Text.marks) :
    c = mark ↔ c' = mark :=
  iff_of_eq (h.congr (· = mark) fun _ hd => eq_false (hd.ne_mark hmark))

theorem isWordStart_eq (h : SameLetter c c') : Text.isWordStart c = Text.isWordStart c' :=
  h.congr Text.isWordStart fun _ hd => hd.wordStart

theorem isWordPart_eq (h : SameLetter c c') : Text.isWordPart c = Text.isWordPart c' :=
  h.congr Text.isWordPart fun _ hd => Lexeme.isWordPart_of_isWordStart hd.wordStart

theorem isBlank_eq (h : SameLetter c c') : Text.isBlank c = Text.isBlank c' :=
  h.congr Text.isBlank fun _ hd => not_blank_of_wordStart hd.wordStart

theorem eq_blank_iff (h : SameLetter c c') {blank : Char} (hblank : Text.isBlank blank = true) :
    c = blank ↔ c' = blank := by
  refine iff_of_eq (h.congr (· = blank) fun d hd => eq_false ?_)
  rintro rfl
  rw [not_blank_of_wordStart hd.wordStart] at hblank
  contradiction

theorem isDigit_eq (h : SameLetter c c') : c.isDigit = c'.isDigit :=
  h.congr Char.isDigit fun _ hd => hd.not_digit

end SameLetter

theorem SameLetters.refl (text : List Char) : SameLetters text text :=
  List.forall₂_same.mpr fun _ _ => rfl

/-- No letter ends a line. -/
theorem Position.after_recased {text text' : List Char} (htext : SameLetters text text')
    (p : Position) : p.after text' = p.after text := by
  have hfeed : Text.isBlank '\n' = true := by decide +kernel
  have hreturn : Text.isBlank '\r' = true := by decide +kernel
  fun_induction after p text generalizing text' with
  | case1 p =>
      cases htext
      rfl
  | case2 p rest ih =>
      obtain ⟨c', more, hc, hmore, rfl⟩ := List.forall₂_cons_left_iff.mp htext
      obtain ⟨d', rest', hd, hrest, rfl⟩ := List.forall₂_cons_left_iff.mp hmore
      obtain rfl := (hc.eq_blank_iff hreturn).mp rfl
      obtain rfl := (hd.eq_blank_iff hfeed).mp rfl
      exact ih hrest
  | case3 p c rest hpair hc ih | case4 p c rest hpair hc ih =>
      obtain ⟨c', rest', hsame, hrest, rfl⟩ := List.forall₂_cons_left_iff.mp htext
      rw [hsame.eq_blank_iff hfeed, hsame.eq_blank_iff hreturn] at hc
      rw [after.eq_3]
      · simp only [hc, if_true, if_false, ih hrest]
      · rintro others rfl rfl
        obtain ⟨d, others', hd, -, rfl⟩ := List.forall₂_cons_right_iff.mp hrest
        exact hpair others' ((hsame.eq_blank_iff hreturn).mpr rfl)
          (congrArg (· :: others') ((hd.eq_blank_iff hfeed).mpr rfl))

/-! ## Lowercase words -/

namespace Text

section Lowercase

variable {before before' text text' : List Char}

theorem meetsCased_recased (htext : SameLetters text text') :
    meetsCased text = meetsCased text' := by
  rw [meetsCased, meetsCased]
  induction htext with
  | nil => rfl
  | @cons c c' text text' hc _ ih =>
      have hignorable : caseIgnorable.covers c.toNat = caseIgnorable.covers c'.toNat :=
        hc.congr (fun d => caseIgnorable.covers d.toNat) fun _ hd => hd.not_ignorable
      have hcased : cased.covers c.toNat = cased.covers c'.toNat :=
        hc.congr (fun d => cased.covers d.toNat) fun _ hd => hd.cased
      rw [List.dropWhile_cons, List.dropWhile_cons, ← hignorable]
      cases caseIgnorable.covers c.toNat with
      | true => exact ih
      | false => exact hcased

theorem lowercaseChar_recased {c c' : Char} (hc : SameLetter c c') :
    lowercaseChar c = lowercaseChar c' := by
  rcases hc.eq_or_isPlainLetter with rfl | ⟨hletter, hletter'⟩
  · rfl
  · rw [hletter.lowercase, hletter'.lowercase]
    exact congrArg (fun d => [d]) hc

/-- By induction on the word; what stands before a character decides on a sigma only. -/
theorem lowercaseAfter_recased (hbefore : SameLetters before before')
    (htext : SameLetters text text') :
    lowercaseAfter before text = lowercaseAfter before' text' := by
  induction htext generalizing before before' with
  | nil => rfl
  | @cons c c' text text' hc htext ih =>
      have hsigma : c = '\u03A3' ↔ c' = '\u03A3' :=
        iff_of_eq (hc.congr (· = '\u03A3') fun _ hd => eq_false hd.not_sigma)
      have hlast : lowercaseSigma before text = lowercaseSigma before' text' := by
        rw [lowercaseSigma, lowercaseSigma, meetsCased_recased hbefore, meetsCased_recased htext]
      rw [lowercaseAfter, lowercaseAfter, ih (.cons hc hbefore), hlast, lowercaseChar_recased hc]
      simp only [hsigma]

theorem lowercase_recased (htext : SameLetters text text') : lowercase text = lowercase text' :=
  lowercaseAfter_recased .nil htext

end Lowercase

end Text

/-! ## Lexemes -/

namespace Lexeme

/-- Keywords and identifiers are words. -/
def IsWord (l : Lexeme) : Prop :=
  l.kind = .identifier ∨ l.kind ∈ Kind.keywords

section Recased

variable {c c' : Char} {text text' : List Char}

theorem startsNumber_recased (hc : SameLetter c c') (htext : SameLetters text text') :
    startsNumber (c :: text) = startsNumber (c' :: text') := by
  have hhead : text.head?.any Char.isDigit = text'.head?.any Char.isDigit := by
    cases htext with
    | nil => rfl
    | cons hd => exact hd.isDigit_eq
  rw [startsNumber_cons, startsNumber_cons, hhead, hc.isDigit_eq]
  simp only [hc.eq_mark_iff '.' (by decide)]

theorem isPrefixOf_recased {symbol : List Char} (hsymbol : ∀ d ∈ symbol, d ∈ Text.marks)
    (htext : SameLetters text text') : symbol.isPrefixOf text = symbol.isPrefixOf text' := by
  induction symbol generalizing text text' with
  | nil => rw [List.isPrefixOf_nil_left, List.isPrefixOf_nil_left]
  | cons d symbol ih =>
      obtain ⟨hd, hothers⟩ := List.forall_mem_cons.mp hsymbol
      cases htext with
      | nil => rfl
      | @cons c c' text text' hc htext =>
          have hbegins : (d == c) = (d == c') :=
            hc.congr (d == ·) fun _ hletter => beq_eq_false_iff_ne.mpr (hletter.ne_mark hd).symm
          rw [List.isPrefixOf, List.isPrefixOf, hbegins, ih hothers htext]

theorem symbol?_recased (htext : SameLetters text text') :
    Kind.symbol? text = Kind.symbol? text' := by
  apply List.find?_congr
  intro kind hkind
  exact isPrefixOf_recased
    (fun d hd => symbols_subset_marks (List.mem_flatMap_of_mem hkind hd)) htext

/-- Both words have the same small letters. -/
theorem ofWord_recased {raw raw' : List Char} (hraw : SameLetters raw raw')
    (rest rest' : List Char) :
    ofWord raw' rest' = { ofWord raw rest with raw := raw', rest := rest' } := by
  rw [ofWord, ofWord, Text.lowercase_recased hraw]
  split <;> rfl

theorem all_recased {p : Char → Bool} (hp : ∀ d d', SameLetter d d' → p d = p d')
    (htext : SameLetters text text') (hall : ∀ d ∈ text, p d = true) :
    ∀ d ∈ text', p d = true := by
  induction htext with
  | nil => exact hall
  | cons hc _ ih =>
      obtain ⟨hd, hothers⟩ := List.forall_mem_cons.mp hall
      exact List.forall_mem_cons.mpr ⟨(hp _ _ hc).symm.trans hd, ih hothers⟩

theorem head_recased {p : Char → Bool} (hp : ∀ d d', SameLetter d d' → p d = p d')
    (htext : SameLetters text text') (hhead : ∀ d ∈ text.head?, p d = false) :
    ∀ d ∈ text'.head?, p d = false := by
  cases htext with
  | nil => exact hhead
  | cons hc _ =>
      rintro _ ⟨⟩
      exact (hp _ _ hc).symm.trans (hhead _ rfl)

theorem head?_recased_ne {mark : Char} (hmark : mark ∈ Text.marks)
    (htext : SameLetters text text') (hhead : text.head? ≠ some mark) :
    text'.head? ≠ some mark := by
  cases htext with
  | nil => exact hhead
  | cons hc _ =>
      rintro ⟨⟩
      exact hhead (congrArg some ((hc.eq_mark_iff mark hmark).mpr rfl))

end Recased

/-- The other forms that a lexeme and the rest of its text may take.  What is no word stays as
it is, and so does the first character behind a number. -/
structure Recases (l : Lexeme) (raw rest : List Char) : Prop where
  sameRaw : SameLetters l.raw raw
  sameRest : SameLetters l.rest rest
  word : raw ≠ l.raw → l.IsWord
  number : l.kind = .numberLiteral → rest.head? = l.rest.head?

section Read

variable {c c' : Char} {text text' raw rest : List Char} {l : Lexeme}

theorem Recases.raw_eq (h : l.Recases raw rest) (hword : ¬l.IsWord) : raw = l.raw :=
  by_contra fun hne => hword (h.word hne)

theorem not_isWord_symbol : ∀ kind ∈ Kind.symbols, kind ≠ .identifier ∧ kind ∉ Kind.keywords := by
  decide

theorem readNumber_recased (hread : readNumber text = .ok l) (h : l.Recases raw rest) :
    readNumber (raw ++ rest) = .ok { l with raw := raw, rest := rest } := by
  rw [readNumber, ofNumber] at hread
  split at hread
  · next hvalue =>
    cases hread
    have hend : ∀ d ∈ rest.head?, isNumberPart d = false := by
      intro d hd
      have hnot := List.head?_dropWhile_not isNumberPart text
      rwa [← h.number rfl, hd] at hnot
    obtain rfl := h.raw_eq (by simp [IsWord, Kind.keywords])
    obtain ⟨htake, hdrop⟩ := run_before (fun _ => List.mem_takeWhile_imp) hend
    rw [readNumber, htake, hdrop, ofNumber, if_pos hvalue]
  · contradiction

theorem readSymbol_recased {kind : Kind} (hkind : Kind.symbol? text = some kind)
    (h : (readSymbol kind text).Recases raw rest) :
    readSymbol kind (raw ++ rest) = { readSymbol kind text with raw := raw, rest := rest } := by
  have hsymbol := not_isWord_symbol kind (List.mem_of_find?_eq_some hkind)
  obtain rfl := h.raw_eq (not_or.mpr hsymbol)
  simp [readSymbol]

theorem readString_recased (hread : readString text = .ok l) (h : l.Recases raw rest)
    (htext' : raw ++ rest = '\'' :: text') :
    readString text' = .ok { l with raw := raw, rest := rest } := by
  unfold readString at hread
  split at hread
  · next content body _ hbody =>
    cases hread
    have hquote := head?_recased_ne (by decide) h.sameRest (head?_of_stringBody hbody)
    obtain rfl := h.raw_eq (by simp [IsWord, Kind.keywords])
    have htext : body ++ rest = text' := (List.cons.inj htext').2
    rw [readString, ← htext, stringBody_append hbody hquote]
  · contradiction

theorem readWord_recased (h : (readWord text).Recases raw rest) :
    readWord (raw ++ rest) = { readWord text with raw := raw, rest := rest } := by
  have hraw := h.sameRaw
  have hrest := h.sameRest
  rw [readWord, ofWord_raw] at hraw
  rw [readWord, ofWord_rest] at hrest
  have hparts := all_recased (fun _ _ hd => hd.isWordPart_eq) hraw fun _ => List.mem_takeWhile_imp
  have hend := head_recased (fun _ _ hd => hd.isWordPart_eq) hrest fun d hd => by
    have hnot := List.head?_dropWhile_not Text.isWordPart text
    rwa [hd] at hnot
  obtain ⟨htake, hdrop⟩ := run_before hparts hend
  rw [readWord, htake, hdrop, ofWord_recased hraw, readWord]

/-- The text of a lexeme in another form is read as the same lexeme. -/
theorem read_recased (hread : read c text = .ok l) (h : l.Recases raw rest)
    (htext' : raw ++ rest = c' :: text') :
    read c' text' = .ok { l with raw := raw, rest := rest } := by
  have hall : SameLetters (c :: text) (c' :: text') := by
    rw [← raw_append_rest hread, ← htext']
    exact List.rel_append h.sameRaw h.sameRest
  obtain ⟨hc, htext⟩ := List.forall₂_cons.mp hall
  unfold read at hread ⊢
  rw [← startsNumber_recased hc htext, ← symbol?_recased hall, ← htext', ← hc.isWordStart_eq]
  simp only [← hc.eq_mark_iff '\'' (by decide)]
  split at hread
  · next hstart => rw [if_pos hstart, readNumber_recased hread h]
  next hstart =>
  rw [if_neg hstart]
  split at hread
  · next hkind =>
    cases hread
    rw [readSymbol_recased hkind h]
  split at hread
  · next hquote =>
    rw [if_pos hquote]
    obtain rfl := (hc.eq_mark_iff '\'' (by decide)).mp hquote
    exact readString_recased hread h htext'
  next hquote =>
  rw [if_neg hquote]
  split at hread
  · next hword =>
    cases hread
    rw [if_pos hword, readWord_recased h]
  · contradiction

end Read

end Lexeme

/-! ## Texts -/

/-- The other text differs in the case of letters of words alone.  `before` is the kind of the
lexeme in front of the text, if any: a word directly behind a number is left as it is. -/
inductive RecasesWords : Option Kind → List Char → List Char → Prop
  | blanks {before : Option Kind} {blanks : List Char}
      (hblanks : ∀ c ∈ blanks, Text.isBlank c = true) : RecasesWords before blanks blanks
  | lexeme {before : Option Kind} {blanks text raw rest : List Char} {c : Char} {l : Lexeme}
      (hblanks : ∀ c ∈ blanks, Text.isBlank c = true) (hc : Text.isBlank c = false)
      (hread : Lexeme.read c text = .ok l) (hraw : SameLetters l.raw raw)
      (hword : raw ≠ l.raw → l.IsWord ∧ (before = some .numberLiteral → blanks ≠ []))
      (hrest : RecasesWords (some l.kind) l.rest rest) :
      RecasesWords before (blanks ++ c :: text) (blanks ++ (raw ++ rest))

namespace RecasesWords

variable {before : Option Kind} {text text' : List Char}

theorem sameLetters (h : RecasesWords before text text') : SameLetters text text' := by
  induction h with
  | blanks _ => exact .refl _
  | lexeme _ _ hread hraw _ _ ih =>
      rw [← Lexeme.raw_append_rest hread]
      exact List.rel_append (SameLetters.refl _) (List.rel_append hraw ih)

/-- Behind a number a text begins as before, with a blank or with a lexeme that is left as it is. -/
theorem head?_eq (h : RecasesWords (some .numberLiteral) text text') :
    text'.head? = text.head? := by
  cases h with
  | blanks _ => rfl
  | @lexeme _ blanks _ raw _ _ l _ _ hread _ hword _ =>
      cases blanks with
      | cons d blanks => rfl
      | nil =>
          have hsame : raw = l.raw := by_contra fun hne => (hword hne).2 rfl rfl
          rw [← Lexeme.raw_append_rest hread, hsame, List.nil_append, List.nil_append,
            List.head?_append_of_ne_nil _ (Lexeme.raw_ne_nil hread),
            List.head?_append_of_ne_nil _ (Lexeme.raw_ne_nil hread)]

/-- By induction on the lexemes of the text. -/
theorem ofChars_eq (h : RecasesWords before text text') (position : Position) :
    TokenStream.ofChars position text' = TokenStream.ofChars position text := by
  induction h generalizing position with
  | blanks _ => rfl
  | @lexeme _ blanks text raw rest c l hblanks hc hread hraw hword hrest ih =>
      have hrecases : l.Recases raw rest := by
        refine ⟨hraw, hrest.sameLetters, fun hne => (hword hne).1, fun hnumber => ?_⟩
        rw [hnumber] at hrest
        exact hrest.head?_eq
      have hsame : SameLetters (c :: text) (raw ++ rest) := by
        rw [← Lexeme.raw_append_rest hread]
        exact List.rel_append hraw hrest.sameLetters
      obtain ⟨c', text', hc', -, htext'⟩ := List.forall₂_cons_left_iff.mp hsame
      have hread' := Lexeme.read_recased hread hrecases htext'
      rw [htext', TokenStream.ofChars_append _ (hc'.isBlank_eq.symm.trans hc) _ hblanks, hread',
        TokenStream.ofChars_append _ hc _ hblanks, hread]
      simp only [Position.after_recased hraw, ih]
      rfl

/-- By induction on the length of the text. -/
theorem refl {position : Position} {tokens : List Token}
    (htext : (TokenStream.ofChars position text).toList = .ok tokens) :
    RecasesWords before text text := by
  induction hlength : text.length using Nat.strong_induction_on
    generalizing before text position tokens with
  | h length ih =>
  obtain ⟨blanks, rest, rfl, hblanks, rfl | ⟨c, more, rfl, hc⟩⟩ := exists_blanks text
  · rw [List.append_nil]
    exact .blanks hblanks
  · rw [TokenStream.ofChars_append _ hc _ hblanks] at htext
    cases hread : Lexeme.read c more with
    | error fault =>
        rw [hread] at htext
        contradiction
    | ok l =>
        rw [hread] at htext
        obtain ⟨tokens', htokens, -⟩ := bind_eq_ok.mp htext
        have hshorter : l.rest.length < length := by
          have hrest := Lexeme.length_rest_lt hread
          rw [List.length_append] at hlength
          omega
        have hrefl : RecasesWords before (blanks ++ c :: more) (blanks ++ (l.raw ++ l.rest)) :=
          .lexeme hblanks hc hread (SameLetters.refl l.raw) (fun hne => absurd rfl hne)
            (ih _ hshorter htokens rfl)
        rwa [Lexeme.raw_append_rest hread] at hrefl

end RecasesWords

/-- Words may be written in any case: the tokens of a text are those of every text that differs
in the case of its words alone, with the same kinds, positions and literals. -/
theorem tokens_of_recased_words {text : String} {tokens : List Token}
    (htext : tokenize text = .ok tokens) :
    RecasesWords none text.toList text.toList ∧
      ∀ text' : String, RecasesWords none text.toList text'.toList →
        tokenize text' = .ok tokens := by
  refine ⟨.refl htext, fun text' hrecases => ?_⟩
  rw [tokenize, TokenStream.ofString, hrecases.ofChars_eq]
  exact htext

/-- A keyword, a name that ends in a sigma, and a number with a word directly behind it that may
not become an exponent. -/
theorem tokens_of_shouted_words :
    tokenize "Select aΣ, 2E" = .ok
        [⟨.kwSelect, ⟨1, 0⟩, ""⟩, ⟨.identifier, ⟨1, 7⟩, "aς"⟩, ⟨.comma, ⟨1, 9⟩, ""⟩,
          ⟨.numberLiteral, ⟨1, 11⟩, "2"⟩, ⟨.identifier, ⟨1, 12⟩, "e"⟩, ⟨.eof, ⟨1, 13⟩, ""⟩] ∧
      RecasesWords none "Select aΣ, 2E".toList "sELECT AΣ, 2E".toList ∧
      tokenize "sELECT AΣ, 2E" = tokenize "Select aΣ, 2E" := by
  have htokens : tokenize "Select aΣ, 2E" = .ok
      [⟨.kwSelect, ⟨1, 0⟩, ""⟩, ⟨.identifier, ⟨1, 7⟩, "aς"⟩, ⟨.comma, ⟨1, 9⟩, ""⟩,
        ⟨.numberLiteral, ⟨1, 11⟩, "2"⟩, ⟨.identifier, ⟨1, 12⟩, "e"⟩, ⟨.eof, ⟨1, 13⟩, ""⟩] := by
    decide +kernel
  have hback : tokenize ", 2E" = .ok [⟨.comma, ⟨1, 0⟩, ""⟩, ⟨.numberLiteral, ⟨1, 2⟩, "2"⟩,
      ⟨.identifier, ⟨1, 3⟩, "e"⟩, ⟨.eof, ⟨1, 4⟩, ""⟩] := by
    decide +kernel
  have hname : RecasesWords (some .kwSelect) ([' '] ++ 'a' :: "Σ, 2E".toList)
      ([' '] ++ ("AΣ".toList ++ ", 2E".toList)) :=
    .lexeme (l := ⟨.identifier, "aς", "aΣ".toList, ", 2E".toList⟩)
      (List.all_eq_true.mp (by decide +kernel)) (by decide +kernel) (by decide +kernel)
      (by decide +kernel)
      (fun _ => ⟨.inl rfl, fun hnumber => nomatch hnumber⟩) (.refl hback)
  have hkeyword : RecasesWords none ([] ++ 'S' :: "elect aΣ, 2E".toList)
      ([] ++ ("sELECT".toList ++ ([' '] ++ ("AΣ".toList ++ ", 2E".toList)))) :=
    .lexeme (l := ⟨.kwSelect, "", "Select".toList, [' '] ++ 'a' :: "Σ, 2E".toList⟩)
      (List.forall_mem_nil _) (by decide +kernel) (by decide +kernel) (by decide +kernel)
      (fun _ => ⟨.inr (by decide), fun hnumber => nomatch hnumber⟩) hname
  have hrecases : RecasesWords none "Select aΣ, 2E".toList "sELECT AΣ, 2E".toList := by
    have htext : "Select aΣ, 2E".toList = [] ++ 'S' :: "elect aΣ, 2E".toList := by
      decide +kernel
    have htext' : "sELECT AΣ, 2E".toList =
        [] ++ ("sELECT".toList ++ ([' '] ++ ("AΣ".toList ++ ", 2E".toList))) := by
      decide +kernel
    rw [htext, htext']
    exact hkeyword
  exact ⟨htokens, hrecases, ((tokens_of_recased_words htokens).2 _ hrecases).trans htokens.symm⟩

end PocketSql
