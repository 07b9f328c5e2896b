import Mathlib
import PocketSql.Token.Stream

/-!
# Where lexemes end

A blank belongs to no lexeme but a string, and a string ends with a quote.  A semicolon
continues no lexeme but a string either, since no longer symbol has one.  So a lexeme that
has been read from a text is read the same in front of a blank, in front of a semicolon and
at the end of a text: what follows it plays no part any more.
-/

namespace PocketSql

/-! ## Classes of characters -/

namespace Text

/-- The code points of the ranges, one by one. -/
def CodeRanges.codes (ranges : CodeRanges) : List Nat :=
  ranges.flatMap fun range => List.range' range.1 (range.2 + 1 - range.1)

theorem CodeRanges.mem_codes_of_covers {ranges : CodeRanges} {code : Nat}
    (hcovers : ranges.covers code = true) : code ∈ ranges.codes := by
  induction ranges with
  | nil => contradiction
  | cons range rest ih =>
      rw [covers] at hcovers
      split at hcovers
      · contradiction
      · split at hcovers
        · refine List.mem_flatMap.mpr ⟨range, List.mem_cons_self, ?_⟩
          rw [List.mem_range'_1]
          omega
        · obtain ⟨other, hother, hcode⟩ := List.mem_flatMap.mp (ih hcovers)
          exact List.mem_flatMap.mpr ⟨other, List.mem_cons_of_mem _ hother, hcode⟩

/-- The characters that begin a symbol, a string or a number. -/
def marks : List Char :=
  ".'|><!,/=(-*+);0123456789".toList

def markCodes : List Nat :=
  marks.map Char.toNat

theorem not_alphabetic_of_mark : ∀ code ∈ markCodes, alphabetic.covers code = false := by
  decide +kernel

theorem word_of_blank : ∀ code ∈ whiteSpace.codes,
    alphabetic.covers code = false ∧ numeric.covers code = false ∧ code ≠ '_'.toNat ∧
      code ≠ 'e'.toNat ∧ code ∉ markCodes := by
  decide +kernel

section Classes

variable {c : Char}

theorem mark_of_isDigit (hc : c.isDigit = true) : c.toNat ∈ markCodes := by
  have hrange : 48 ≤ c.toNat ∧ c.toNat < 58 := by
    simp only [Char.isDigit, Bool.and_eq_true, decide_eq_true_eq, ge_iff_le,
      UInt32.le_iff_toNat_le] at hc
    exact ⟨hc.1, Nat.lt_succ_of_le hc.2⟩
  have hcodes : ∀ code < 58, 48 ≤ code → code ∈ markCodes := by
    decide
  exact hcodes c.toNat hrange.2 hrange.1

theorem not_wordPart_of_blank (hc : isBlank c = true) : isWordPart c = false := by
  obtain ⟨hletter, hnumeric, hline, -, -⟩ := word_of_blank _ (CodeRanges.mem_codes_of_covers hc)
  have hne : c ≠ '_' := fun heq => hline (congrArg Char.toNat heq)
  simp [isWordPart, isLetter, hletter, hnumeric, hne]

theorem not_mark_of_blank (hc : isBlank c = true) : c.toNat ∉ markCodes :=
  (word_of_blank _ (CodeRanges.mem_codes_of_covers hc)).2.2.2.2

theorem not_numberPart_of_blank (hc : isBlank c = true) : Lexeme.isNumberPart c = false := by
  have hmark := not_mark_of_blank hc
  have hdigit : c.isDigit = false := Bool.eq_false_iff.mpr fun h => hmark (mark_of_isDigit h)
  have hpoint : c ≠ '.' := by
    rintro rfl
    exact hmark (by decide)
  have hexponent : c ≠ 'e' := fun heq =>
    (word_of_blank _ (CodeRanges.mem_codes_of_covers hc)).2.2.2.1 (congrArg Char.toNat heq)
  simp [Lexeme.isNumberPart, hdigit, hpoint, hexponent]

theorem not_mark_of_wordStart (hc : isWordStart c = true) : c.toNat ∉ markCodes := by
  intro hmark
  rcases Bool.or_eq_true_iff.mp hc with hletter | hline
  · rw [isLetter, not_alphabetic_of_mark _ hmark] at hletter
    contradiction
  · rw [eq_of_beq hline] at hmark
    exact absurd hmark (by decide)

end Classes

end Text

/-! ## What follows a lexeme -/

/-- A text that does not go on where a lexeme ends. -/
def Detached (rest : List Char) : Prop :=
  ∀ c ∈ rest.head?, Text.isBlank c = true ∨ c = ';'

theorem detached_nil : Detached [] := by
  rintro c ⟨⟩

theorem detached_semicolon (rest : List Char) : Detached (';' :: rest) := by
  rintro c ⟨⟩
  exact .inr rfl

theorem Detached.head_ne {rest : List Char} (hrest : Detached rest) {c : Char}
    (hc : Text.isBlank c = false) (hsemicolon : c ≠ ';') : rest.head? ≠ some c := by
  intro hhead
  rcases hrest c hhead with hblank | heq
  · rw [hblank] at hc
    contradiction
  · exact hsemicolon heq

namespace Lexeme

section Classes

variable {c : Char} (text : List Char)

theorem startsNumber_of_not_mark (hc : c.toNat ∉ Text.markCodes) :
    startsNumber (c :: text) = false := by
  apply Bool.eq_false_iff.mpr
  intro hstart
  unfold startsNumber at hstart
  split at hstart
  · next heq =>
    obtain ⟨rfl, -⟩ := List.cons.inj heq
    exact hc (by decide)
  · next heq =>
    obtain ⟨rfl, -⟩ := List.cons.inj heq
    exact hc (Text.mark_of_isDigit hstart)
  · contradiction

theorem symbols_subset_marks : Kind.symbols.flatMap (·.text.toList) ⊆ Text.marks := by
  decide +kernel

theorem mark_of_mem_symbol {kind : Kind} (hkind : kind ∈ Kind.symbols) {d : Char}
    (hd : d ∈ kind.text.toList) : d.toNat ∈ Text.markCodes :=
  List.mem_map_of_mem (symbols_subset_marks (List.mem_flatMap_of_mem hkind hd))

theorem symbol?_of_not_mark (hc : c.toNat ∉ Text.markCodes) :
    Kind.symbol? (c :: text) = none := by
  rw [Kind.symbol?, List.find?_eq_none]
  intro kind hkind hbegins
  obtain ⟨d, others, htext⟩ := List.exists_cons_of_ne_nil (symbol_text_ne_nil hkind)
  rw [htext, List.isPrefixOf_iff_prefix, List.cons_prefix_cons] at hbegins
  apply hc
  rw [← hbegins.1]
  exact mark_of_mem_symbol hkind (by rw [htext]; exact List.mem_cons_self)

end Classes

/-- A run of characters that no blank and no semicolon belongs to does not reach into a
detached text. -/
theorem run_extend {p : Char → Bool} (hblank : ∀ c, Text.isBlank c = true → p c = false)
    (hsemicolon : p ';' = false) (text : List Char) {rest : List Char} (hrest : Detached rest) :
    (text ++ rest).takeWhile p = text.takeWhile p ∧
      (text ++ rest).dropWhile p = text.dropWhile p ++ rest := by
  induction text with
  | nil =>
      cases rest with
      | nil => simp
      | cons c rest =>
          have hc : p c = false := by
            rcases hrest c rfl with hc | rfl
            · exact hblank c hc
            · exact hsemicolon
          simp [hc]
  | cons c text ih =>
      cases hc : p c with
      | true => simp [hc, ih]
      | false => simp [hc]

theorem run_append {p : Char → Bool} (hblank : ∀ c, Text.isBlank c = true → p c = false)
    (hsemicolon : p ';' = false) {raw rest : List Char} (hraw : ∀ c ∈ raw, p c = true)
    (hrest : Detached rest) :
    (raw ++ rest).takeWhile p = raw ∧ (raw ++ rest).dropWhile p = rest := by
  obtain ⟨htake, hdrop⟩ := run_extend hblank hsemicolon raw hrest
  rw [List.takeWhile_eq_self_iff.mpr hraw] at htake
  rw [List.dropWhile_eq_nil_iff.mpr hraw, List.nil_append] at hdrop
  exact ⟨htake, hdrop⟩

/-! ### Strings -/

theorem getLast?_stringBody {text content raw rest : List Char}
    (hbody : stringBody text = some (content, raw, rest)) : raw.getLast? = some '\'' := by
  fun_induction stringBody text generalizing content raw rest with
  | case1 => contradiction
  | case2 text ih | case3 text ih | case5 _ text _ _ _ ih =>
      obtain ⟨⟨_, _, _⟩, hrest, hparts⟩ := Option.map_eq_some_iff.mp hbody
      cases hparts
      simp [List.getLast?_cons, ih hrest]
  | case4 text =>
      cases hbody
      rfl

/-- Away from the characters that are read in pairs. -/
theorem stringBody_cons {c : Char} {text : List Char}
    (hdouble : c = '\'' → text.head? ≠ some '\'') (hpair : c = '\r' → text.head? ≠ some '\n') :
    stringBody (c :: text) =
      if c = '\'' then some ([], ['\''], text)
      else (stringBody text).map fun (content, raw, rest) => (c :: content, c :: raw, rest) := by
  apply stringBody.eq_4
  · rintro rest rfl rfl
    exact hdouble rfl rfl
  · rintro rest rfl rfl
    exact hpair rfl rfl

/-- The contents of a string end at the same quote before any text that does not begin
with another one. -/
theorem stringBody_append {text content raw rest : List Char}
    (hbody : stringBody text = some (content, raw, rest)) {rest' : List Char}
    (hquote : rest'.head? ≠ some '\'') :
    stringBody (raw ++ rest') = some (content, raw, rest') := by
  fun_induction stringBody text generalizing content raw rest with
  | case1 => contradiction
  | case2 text ih | case3 text ih =>
      obtain ⟨⟨_, _, _⟩, hrest, hparts⟩ := Option.map_eq_some_iff.mp hbody
      cases hparts
      simp [stringBody, ih hrest]
  | case4 text =>
      cases hbody
      exact stringBody_cons (fun _ => hquote) fun heq => absurd heq (by decide)
  | case5 c text _ hpair hc ih =>
      obtain ⟨⟨_, raw', _⟩, hrest, hparts⟩ := Option.map_eq_some_iff.mp hbody
      cases hparts
      have hhead : (raw' ++ rest').head? = text.head? := by
        have hlast := getLast?_stringBody hrest
        rw [← raw_append_stringBody hrest]
        cases raw' with
        | nil => contradiction
        | cons d others => rfl
      rw [List.cons_append, stringBody_cons (fun hquote => absurd hquote hc), if_neg hc, ih hrest]
      · rfl
      · intro hreturn hfeed
        obtain ⟨others, htext⟩ := List.head?_eq_some_iff.mp (hhead ▸ hfeed)
        exact hpair others hreturn htext

/-- A quote behind the closing one would have been read with it. -/
theorem head?_of_stringBody {text content raw rest : List Char}
    (hbody : stringBody text = some (content, raw, rest)) : rest.head? ≠ some '\'' := by
  fun_induction stringBody text generalizing content raw rest with
  | case1 => contradiction
  | case2 text ih | case3 text ih | case5 _ text _ _ _ ih =>
      obtain ⟨⟨_, _, _⟩, hrest, hparts⟩ := Option.map_eq_some_iff.mp hbody
      cases hparts
      exact ih hrest
  | case4 text hdouble =>
      cases hbody
      intro hhead
      obtain ⟨others, htext⟩ := List.head?_eq_some_iff.mp hhead
      exact hdouble others rfl htext

/-! ### Symbols -/

theorem symbol?_text : ∀ kind ∈ Kind.symbols,
    Kind.symbol? kind.text.toList = some kind ∧ startsNumber kind.text.toList = false := by
  decide +kernel

theorem isPrefixOf_append {symbol text rest : List Char}
    (hsymbol : ∀ c ∈ symbol, Text.isBlank c = false ∧ c ≠ ';') (hrest : Detached rest) :
    symbol.isPrefixOf (text ++ rest) = symbol.isPrefixOf text := by
  induction symbol generalizing text with
  | nil => simp
  | cons c symbol ih =>
      obtain ⟨⟨hblank, hsemicolon⟩, hothers⟩ := List.forall_mem_cons.mp hsymbol
      cases text with
      | nil =>
          cases rest with
          | nil => rfl
          | cons d rest =>
              have hne : c ≠ d := fun heq =>
                hrest.head_ne hblank hsemicolon (congrArg some heq.symm)
              simp [List.isPrefixOf, hne]
      | cons d text => simp [List.isPrefixOf, ih hothers]

/-- A semicolon continues no symbol. -/
theorem symbol?_append {rest : List Char} (hrest : Detached rest) (c : Char) (text : List Char) :
    Kind.symbol? (c :: (text ++ rest)) = Kind.symbol? (c :: text) := by
  rw [Kind.symbol?, Kind.symbol?]
  apply List.find?_congr
  intro kind hkind
  have htail : ∀ kind ∈ Kind.symbols, ';' ∉ kind.text.toList.tail := by decide
  have hsemicolon := htail kind hkind
  obtain ⟨d, others, htext⟩ := List.exists_cons_of_ne_nil (symbol_text_ne_nil hkind)
  rw [htext] at hsemicolon ⊢
  rw [List.isPrefixOf, List.isPrefixOf, isPrefixOf_append _ hrest]
  intro e he
  constructor
  · apply Bool.eq_false_iff.mpr
    intro hblank
    have hmem : e ∈ kind.text.toList := htext ▸ List.mem_cons_of_mem d he
    exact Text.not_mark_of_blank hblank (mark_of_mem_symbol hkind hmem)
  · rintro rfl
    exact hsemicolon he

/-! ### Numbers -/

theorem startsNumber_cons (c : Char) (text : List Char) :
    startsNumber (c :: text) =
      if c = '.' then text.head?.any Char.isDigit else c.isDigit := by
  by_cases hpoint : c = '.'
  · subst hpoint
    cases text <;> rfl
  · rw [if_neg hpoint, startsNumber.eq_2]
    rintro d rest rfl
    exact absurd rfl hpoint

/-- Whether a number begins is settled before a detached text does. -/
theorem startsNumber_append {c : Char} {rest : List Char} (hrest : Detached rest)
    (more : List Char) : startsNumber (c :: (more ++ rest)) = startsNumber (c :: more) := by
  rw [startsNumber_cons, startsNumber_cons]
  cases more with
  | cons d more => rfl
  | nil =>
      cases rest with
      | nil => rfl
      | cons d rest =>
          have hdigit : d.isDigit = false := by
            rcases hrest d rfl with hblank | rfl
            · exact Bool.eq_false_iff.mpr fun hdigit =>
                Text.not_mark_of_blank hblank (Text.mark_of_isDigit hdigit)
            · rfl
          simp [hdigit]

theorem startsNumber_takeWhile {c : Char} {text : List Char}
    (hstart : startsNumber (c :: text) = true) :
    startsNumber (c :: text.takeWhile isNumberPart) = true := by
  rw [startsNumber_cons] at hstart ⊢
  by_cases hpoint : c = '.'
  · rw [if_pos hpoint] at hstart ⊢
    cases text with
    | nil => contradiction
    | cons d rest =>
        have hdigit : d.isDigit = true := hstart
        simp [isNumberPart, hdigit]
  · rwa [if_neg hpoint] at hstart ⊢

/-! ### All lexemes -/

section Read

variable {c : Char} {text : List Char} {l : Lexeme}

/-- What a text is read as, by its first character. -/
inductive ReadAs (c : Char) (text : List Char) (l : Lexeme) : Prop
  | number : startsNumber (c :: text) = true → readNumber (c :: text) = .ok l → ReadAs c text l
  | symbol {kind : Kind} : kind ∈ Kind.symbols → kind.text.toList <+: c :: text →
      l = readSymbol kind (c :: text) → ReadAs c text l
  | string : c = '\'' → readString text = .ok l → ReadAs c text l
  | word : Text.isWordStart c = true → l = readWord (c :: text) → ReadAs c text l

theorem readAs_of_read (hread : read c text = .ok l) : ReadAs c text l := by
  unfold read at hread
  split at hread
  · next hstart => exact .number hstart hread
  · split at hread
    · next kind hkind =>
      cases hread
      have hbegins := List.find?_some hkind
      exact .symbol (List.mem_of_find?_eq_some hkind)
        (List.isPrefixOf_iff_prefix.mp hbegins) rfl
    · split at hread
      · next hquote => exact .string hquote hread
      · split at hread
        · next hword =>
          cases hread
          exact .word hword rfl
        · contradiction

theorem read_number (hstart : startsNumber (c :: text) = true) :
    read c text = readNumber (c :: text) :=
  if_pos hstart

theorem read_string (text : List Char) : read '\'' text = readString text := by
  rfl

theorem read_word (hword : Text.isWordStart c = true) (text : List Char) :
    read c text = .ok (readWord (c :: text)) := by
  have hmark := Text.not_mark_of_wordStart hword
  have hquote : c ≠ '\'' := by
    rintro rfl
    exact hmark (by decide)
  rw [read, startsNumber_of_not_mark text hmark, symbol?_of_not_mark text hmark]
  simp [hquote, hword]

theorem read_symbol {kind : Kind} (hkind : kind ∈ Kind.symbols) {more rest : List Char}
    (htext : kind.text.toList = c :: more) (hrest : Detached rest) :
    read c (more ++ rest) = .ok ⟨kind, "", kind.text.toList, rest⟩ := by
  obtain ⟨hsymbol, hnumber⟩ := symbol?_text kind hkind
  rw [htext] at hsymbol hnumber
  have hread : Kind.symbol? (c :: (more ++ rest)) = some kind :=
    (symbol?_append hrest c more).trans hsymbol
  rw [read, startsNumber_append hrest more, hnumber, hread]
  simp [readSymbol, htext]

/-- Digits, points and letters `e` that make up a number. -/
theorem readNumber_append {raw rest rest' : List Char} (hraw : ∀ c ∈ raw, isNumberPart c = true)
    (hrest : Detached rest) (h : ofNumber raw rest' = .ok l) :
    readNumber (raw ++ rest) = .ok { l with rest := rest } := by
  obtain ⟨htake, hdrop⟩ := run_append (fun _ => Text.not_numberPart_of_blank) rfl hraw hrest
  rw [readNumber, htake, hdrop]
  unfold ofNumber at h ⊢
  split at h
  · next hvalid =>
    cases h
    rw [if_pos hvalid]
  · contradiction

theorem ofWord_withRest (raw rest rest' : List Char) :
    { ofWord raw rest with rest := rest' } = ofWord raw rest' := by
  unfold ofWord
  split <;> rfl

theorem readWord_append {raw rest : List Char} (hraw : ∀ c ∈ raw, Text.isWordPart c = true)
    (hrest : Detached rest) : readWord (raw ++ rest) = ofWord raw rest := by
  obtain ⟨htake, hdrop⟩ :=
    run_append (fun _ => Text.not_wordPart_of_blank) (by decide +kernel) hraw hrest
  rw [readWord, htake, hdrop]

/-- No lexeme ends in a carriage return. -/
theorem getLast?_raw (hread : read c text = .ok l) : l.raw.getLast? ≠ some '\r' := by
  cases readAs_of_read hread with
  | number hstart hnumber =>
      rw [(raw_of_ofNumber hnumber).1]
      intro hlast
      exact absurd (List.mem_takeWhile_imp (List.mem_of_getLast? hlast)) (by decide)
  | symbol hkind hbegins hl =>
      subst hl
      intro hlast
      exact absurd (mark_of_mem_symbol hkind (List.mem_of_getLast? hlast)) (by decide)
  | string hquote hstring =>
      unfold readString at hstring
      split at hstring
      · next hbody =>
        cases hstring
        rw [List.getLast?_cons, getLast?_stringBody hbody]
        decide
      · contradiction
  | word hword hl =>
      subst hl
      rw [readWord, ofWord_raw]
      intro hlast
      exact absurd (List.mem_takeWhile_imp (List.mem_of_getLast? hlast)) (by decide)

/-- A lexeme is read the same before every detached text. -/
theorem read_append (hread : read c text = .ok l) :
    ∃ more, l.raw = c :: more ∧
      ∀ rest, Detached rest → read c (more ++ rest) = .ok { l with rest := rest } := by
  cases readAs_of_read hread with
  | number hstart hnumber =>
      have htake := List.takeWhile_cons_of_pos (l := text) (isNumberPart_of_startsNumber hstart)
      refine ⟨_, (raw_of_ofNumber hnumber).1.trans htake, fun rest hrest => ?_⟩
      rw [read_number (by rw [startsNumber_append hrest, startsNumber_takeWhile hstart])]
      rw [readNumber, htake] at hnumber
      exact readNumber_append (htake ▸ fun _ => List.mem_takeWhile_imp) hrest hnumber
  | symbol hkind hbegins hl =>
      obtain ⟨d, more, htext⟩ := List.exists_cons_of_ne_nil (symbol_text_ne_nil hkind)
      rw [htext, List.cons_prefix_cons] at hbegins
      obtain ⟨rfl, -⟩ := hbegins
      subst hl
      exact ⟨more, htext, fun rest hrest => read_symbol hkind htext hrest⟩
  | string hquote hstring =>
      subst hquote
      unfold readString at hstring
      split at hstring
      · next content raw _ hbody =>
        cases hstring
        refine ⟨raw, rfl, fun rest hrest => ?_⟩
        rw [read_string, readString,
          stringBody_append hbody (hrest.head_ne (by decide) (by decide))]
      · contradiction
  | word hword hl =>
      subst hl
      have htake := List.takeWhile_cons_of_pos (l := text) (isWordPart_of_isWordStart hword)
      refine ⟨_, (ofWord_raw _ _).trans htake, fun rest hrest => ?_⟩
      rw [read_word hword, ← List.cons_append, ← htake,
        readWord_append (fun _ => List.mem_takeWhile_imp) hrest, readWord, ofWord_withRest]

end Read

/-! ### Longer texts -/

section Extend

variable {c : Char} {text : List Char} {l : Lexeme} {more : List Char} (hmore : Detached more)

include hmore

theorem readNumber_extend (hread : readNumber text = .ok l) :
    readNumber (text ++ more) = .ok { l with rest := l.rest ++ more } := by
  obtain ⟨htake, hdrop⟩ := run_extend (fun _ => Text.not_numberPart_of_blank) rfl text hmore
  rw [readNumber, htake, hdrop]
  rw [readNumber] at hread
  unfold ofNumber at hread ⊢
  split at hread
  · next hvalid =>
    cases hread
    rw [if_pos hvalid]
  · contradiction

theorem readWord_extend (text : List Char) :
    readWord (text ++ more) = { readWord text with rest := (readWord text).rest ++ more } := by
  obtain ⟨htake, hdrop⟩ :=
    run_extend (fun _ => Text.not_wordPart_of_blank) (by decide +kernel) text hmore
  rw [readWord, htake, hdrop, readWord, ofWord_rest, ofWord_withRest]

theorem readString_extend (hread : readString text = .ok l) :
    readString (text ++ more) = .ok { l with rest := l.rest ++ more } := by
  unfold readString at hread ⊢
  split at hread
  · next content raw rest hbody =>
    cases hread
    have hhead : (rest ++ more).head? ≠ some '\'' := by
      have hrest := head?_of_stringBody hbody
      cases rest with
      | nil => exact hmore.head_ne (by decide) (by decide)
      | cons d rest => exact hrest
    rw [← raw_append_stringBody hbody, List.append_assoc, stringBody_append hbody hhead]
  · contradiction

omit hmore in
theorem readSymbol_extend {kind : Kind} (hkind : Kind.symbol? text = some kind) :
    readSymbol kind (text ++ more) =
      { readSymbol kind text with rest := (readSymbol kind text).rest ++ more } := by
  have hbegins := List.find?_some hkind
  rw [List.isPrefixOf_iff_prefix] at hbegins
  rw [readSymbol, readSymbol, List.drop_append_of_le_length hbegins.length_le]

/-- A lexeme is read the same when a detached text is put behind all of the text. -/
theorem read_extend (hread : read c text = .ok l) :
    read c (text ++ more) = .ok { l with rest := l.rest ++ more } := by
  unfold read at hread ⊢
  rw [startsNumber_append hmore, symbol?_append hmore, ← List.cons_append]
  split at hread
  · next hstart => rw [if_pos hstart, readNumber_extend hmore hread]
  next hstart =>
  rw [if_neg hstart]
  split at hread
  · next hkind =>
    cases hread
    rw [readSymbol_extend hkind]
  split at hread
  · next hquote => rw [if_pos hquote, readString_extend hmore hread]
  next hquote =>
  rw [if_neg hquote]
  split at hread
  · next hword =>
    cases hread
    rw [if_pos hword, readWord_extend hmore]
  · contradiction

end Extend

end Lexeme

/-! ## Streams of lexemes -/

namespace TokenStream

theorem ofChars_eq (position : Position) (text : List Char) :
    ofChars position text =
      match Text.skipBlanks text with
      | [] => done (position.afterBlanks text)
      | c :: rest =>
        match Lexeme.read c rest with
        | .error fault => broken ⟨position.afterBlanks text, fault⟩
        | .ok lexeme => next (lexeme.token (position.afterBlanks text))
            (ofChars ((position.afterBlanks text).after lexeme.raw) lexeme.rest) := by
  rw [ofChars]
  split
  · next hskip => rw [hskip]
  · next hskip =>
    rw [hskip]
    split
    · next hread => simp only [hread]
    · next hread => simp only [hread]

/-- What is left of a text behind its blanks. -/
theorem exists_of_skipBlanks {text : List Char} {c : Char} {rest : List Char}
    (hskip : Text.skipBlanks text = c :: rest) :
    ∃ blanks, text = blanks ++ c :: rest ∧ (∀ d ∈ blanks, Text.isBlank d = true) ∧
      Text.isBlank c = false ∧ ∀ p : Position, p.afterBlanks text = p.after blanks := by
  rw [Text.skipBlanks] at hskip
  refine ⟨text.takeWhile Text.isBlank, ?_, fun _ => List.mem_takeWhile_imp, ?_, fun _ => rfl⟩
  · rw [← hskip, List.takeWhile_append_dropWhile]
  · have hhead := List.head?_dropWhile_not Text.isBlank text
    rwa [hskip] at hhead

section Blanks

variable (position : Position) {blanks : List Char}

theorem ofChars_blanks (hblanks : ∀ c ∈ blanks, Text.isBlank c = true) :
    ofChars position blanks = done (position.after blanks) := by
  rw [ofChars_eq, Text.skipBlanks, List.dropWhile_eq_nil_iff.mpr hblanks,
    Position.afterBlanks, List.takeWhile_eq_self_iff.mpr hblanks]

@[simp]
theorem ofChars_nil : ofChars position [] = done position :=
  ofChars_blanks position (by simp)

theorem ofChars_blank (text : List Char) :
    ofChars position (' ' :: text) = ofChars (position.after [' ']) text := by
  rw [ofChars_eq, ofChars_eq (position.after [' '])]
  rfl

variable {c : Char} (hc : Text.isBlank c = false) (rest : List Char)

include hc

/-- Blanks in front of a lexeme only move the position. -/
theorem ofChars_append (hblanks : ∀ c ∈ blanks, Text.isBlank c = true) :
    ofChars position (blanks ++ c :: rest) =
      match Lexeme.read c rest with
      | .error fault => broken ⟨position.after blanks, fault⟩
      | .ok lexeme => next (lexeme.token (position.after blanks))
          (ofChars ((position.after blanks).after lexeme.raw) lexeme.rest) := by
  have hskip : Text.skipBlanks (blanks ++ c :: rest) = c :: rest := by
    rw [Text.skipBlanks, List.dropWhile_append_of_pos hblanks,
      List.dropWhile_cons_of_neg (by simp [hc])]
  have hposition : position.afterBlanks (blanks ++ c :: rest) = position.after blanks := by
    rw [Position.afterBlanks, List.takeWhile_append_of_pos hblanks,
      List.takeWhile_cons_of_neg (by simp [hc]), List.append_nil]
  rw [ofChars_eq, hskip, hposition]

theorem ofChars_cons :
    ofChars position (c :: rest) =
      match Lexeme.read c rest with
      | .error fault => broken ⟨position, fault⟩
      | .ok lexeme =>
        next (lexeme.token position) (ofChars (position.after lexeme.raw) lexeme.rest) := by
  have hblanks : ∀ c ∈ ([] : List Char), Text.isBlank c = true := by simp
  exact ofChars_append position hc rest hblanks

end Blanks

end TokenStream

end PocketSql
