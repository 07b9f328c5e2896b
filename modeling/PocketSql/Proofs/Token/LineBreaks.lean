import Mathlib
import PocketSql.Proofs.Token.Lossless

/-!
# Line breaks

A carriage return in front of every line feed of a text changes none of its tokens, no
position of one, no contents of a string and no error.  The exception is a line feed that
already stands behind a carriage return: with one more return in front of it there would be
two line ends instead of one.
-/

namespace PocketSql

/-- The text with a carriage return in front of every line feed. -/
def withReturns (text : List Char) : List Char :=
  text.flatMap fun c => if c = '\n' then ['\r', '\n'] else [c]

/-- No line feed stands behind a carriage return. -/
def NoPair (text : List Char) : Prop :=
  ¬ ['\r', '\n'] <:+: text

instance (text : List Char) : Decidable (NoPair text) :=
  inferInstanceAs (Decidable (¬ _))

/-! ## Texts with returns -/

section WithReturns

variable {c : Char} (text more : List Char)

@[simp]
theorem withReturns_nil : withReturns [] = [] := by
  rfl

@[simp]
theorem withReturns_feed : withReturns ('\n' :: text) = '\r' :: '\n' :: withReturns text := by
  rfl

theorem withReturns_cons (hc : c ≠ '\n') : withReturns (c :: text) = c :: withReturns text := by
  simp [withReturns, hc]

theorem withReturns_append : withReturns (text ++ more) = withReturns text ++ withReturns more :=
  List.flatMap_append

variable {text}

theorem withReturns_eq_self (htext : '\n' ∉ text) : withReturns text = text := by
  induction text with
  | nil => rfl
  | cons c text ih =>
      rw [List.mem_cons, not_or] at htext
      rw [withReturns_cons text (Ne.symm htext.1), ih htext.2]

/-- The first character is the same, but for a line feed. -/
theorem head?_withReturns (hc : c ≠ '\r') (hhead : text.head? ≠ some c) :
    (withReturns text).head? ≠ some c := by
  cases text with
  | nil => simp
  | cons d text =>
      by_cases hd : d = '\n'
      · subst hd
        simpa using hc.symm
      · rwa [withReturns_cons text hd]

theorem head?_withReturns_ne_feed (text : List Char) : (withReturns text).head? ≠ some '\n' := by
  cases text with
  | nil => simp
  | cons d text =>
      by_cases hd : d = '\n'
      · simp [hd]
      · simpa [withReturns_cons text hd] using hd

/-- Runs of characters among which a return counts like a feed. -/
theorem run_withReturns {p : Char → Bool} (hp : p '\r' = p '\n') (text : List Char) :
    (withReturns text).takeWhile p = withReturns (text.takeWhile p) ∧
      (withReturns text).dropWhile p = withReturns (text.dropWhile p) := by
  induction text with
  | nil => simp
  | cons c text ih =>
      by_cases hc : c = '\n'
      · subst hc
        cases hfeed : p '\n' with
        | true => simp [hp, hfeed, ih]
        | false => simp [hp, hfeed]
      · rw [withReturns_cons text hc]
        cases hpc : p c with
        | true => simp [hpc, ih, withReturns_cons _ hc]
        | false => simp [hpc, withReturns_cons _ hc]

end WithReturns

namespace NoPair

variable {c : Char} {text part : List Char}

theorem of_infix (htext : NoPair text) (hpart : part <:+: text) : NoPair part :=
  fun hpair => htext (hpair.trans hpart)

theorem of_cons (htext : NoPair (c :: text)) : NoPair text :=
  htext.of_infix (List.suffix_cons c text).isInfix

theorem head?_ne (htext : NoPair ('\r' :: text)) : text.head? ≠ some '\n' := by
  intro hhead
  obtain ⟨others, rfl⟩ := List.head?_eq_some_iff.mp hhead
  exact htext (List.prefix_append ['\r', '\n'] others).isInfix

end NoPair

/-! ## Positions -/

/-- A text with returns ends at the same position. -/
theorem Position.after_withReturns (p : Position) {text : List Char} (htext : NoPair text) :
    p.after (withReturns text) = p.after text := by
  fun_induction after p text with
  | case1 p => rfl
  | case2 p rest => exact absurd rfl htext.head?_ne
  | case3 p c rest _ hc ih =>
      rw [← ih htext.of_cons]
      rcases hc with rfl | rfl
      · rfl
      · rw [withReturns_cons rest (by decide), after.eq_3]
        · rfl
        · intro others _ hrest
          exact head?_withReturns_ne_feed rest (congrArg List.head? hrest)
  | case4 p c rest _ hc ih =>
      rw [not_or] at hc
      rw [withReturns_cons rest hc.1, after.eq_3 _ _ _ fun _ heq => absurd heq hc.2,
        if_neg (not_or.mpr hc), ih htext.of_cons]

/-! ## Lexemes -/

namespace Lexeme

/-- The lexeme in a text with returns. -/
def addReturns (l : Lexeme) : Lexeme :=
  { l with raw := withReturns l.raw, rest := withReturns l.rest }

section Runs

variable {raw : List Char} (hraw : '\n' ∉ raw) (rest : List Char)

include hraw

theorem ofNumber_withReturns :
    ofNumber (withReturns raw) (withReturns rest) = (ofNumber raw rest).map addReturns := by
  rw [withReturns_eq_self hraw, ofNumber, ofNumber]
  split
  · simp [Except.map, addReturns, withReturns_eq_self hraw]
  · rfl

theorem ofWord_withReturns :
    ofWord (withReturns raw) (withReturns rest) = (ofWord raw rest).addReturns := by
  rw [withReturns_eq_self hraw, ofWord, ofWord]
  split <;> simp [addReturns, withReturns_eq_self hraw]

end Runs

theorem feed_not_mem_takeWhile {p : Char → Bool} (hp : p '\n' = false) (text : List Char) :
    '\n' ∉ text.takeWhile p := by
  intro hmem
  rw [List.mem_takeWhile_imp hmem] at hp
  contradiction

theorem readNumber_withReturns (text : List Char) :
    readNumber (withReturns text) = (readNumber text).map addReturns := by
  obtain ⟨htake, hdrop⟩ := run_withReturns (p := isNumberPart) rfl text
  rw [readNumber, htake, hdrop, ofNumber_withReturns (feed_not_mem_takeWhile rfl text), readNumber]

theorem readWord_withReturns (text : List Char) :
    readWord (withReturns text) = (readWord text).addReturns := by
  have hfeed : Text.isWordPart '\n' = false := by decide +kernel
  have hreturn : Text.isWordPart '\r' = Text.isWordPart '\n' := by decide +kernel
  obtain ⟨htake, hdrop⟩ := run_withReturns hreturn text
  rw [readWord, htake, hdrop, ofWord_withReturns (feed_not_mem_takeWhile hfeed text), readWord]

theorem startsNumber_withReturns (c : Char) (text : List Char) :
    startsNumber (c :: withReturns text) = startsNumber (c :: text) := by
  rw [startsNumber_cons, startsNumber_cons]
  cases text with
  | nil => rfl
  | cons d text =>
      by_cases hd : d = '\n'
      · subst hd
        rfl
      · rw [withReturns_cons text hd]
        rfl

/-! ### Symbols -/

theorem not_break_of_mem_symbol :
    ∀ kind ∈ Kind.symbols, '\n' ∉ kind.text.toList ∧ '\r' ∉ kind.text.toList := by
  decide +kernel

theorem isPrefixOf_withReturns {symbol : List Char} (hfeed : '\n' ∉ symbol)
    (hreturn : '\r' ∉ symbol) (text : List Char) :
    symbol.isPrefixOf (withReturns text) = symbol.isPrefixOf text := by
  induction symbol generalizing text with
  | nil => simp
  | cons c symbol ih =>
      rw [List.mem_cons, not_or] at hfeed hreturn
      cases text with
      | nil => rfl
      | cons d text =>
          by_cases hd : d = '\n'
          · subst hd
            have hne : (c == '\n') = false := beq_false_of_ne (Ne.symm hfeed.1)
            have hne' : (c == '\r') = false := beq_false_of_ne (Ne.symm hreturn.1)
            simp only [withReturns_feed, List.isPrefixOf, hne, hne', Bool.false_and]
          · simp [withReturns_cons text hd, List.isPrefixOf, ih hfeed.2 hreturn.2]

theorem symbol?_withReturns (text : List Char) :
    Kind.symbol? (withReturns text) = Kind.symbol? text := by
  apply List.find?_congr
  intro kind hkind
  obtain ⟨hfeed, hreturn⟩ := not_break_of_mem_symbol kind hkind
  exact isPrefixOf_withReturns hfeed hreturn text

theorem readSymbol_withReturns {kind : Kind} {text : List Char}
    (hkind : Kind.symbol? text = some kind) :
    readSymbol kind (withReturns text) = (readSymbol kind text).addReturns := by
  have hfeed := (not_break_of_mem_symbol kind (List.mem_of_find?_eq_some hkind)).1
  have hbegins := List.find?_some hkind
  rw [List.isPrefixOf_iff_prefix] at hbegins
  obtain ⟨rest, rfl⟩ := hbegins
  rw [withReturns_append, withReturns_eq_self hfeed]
  simp [readSymbol, addReturns, withReturns_eq_self hfeed]

/-! ### Strings -/

/-- A return with a feed inside a string is read as the feed alone. -/
theorem stringBody_withReturns {text : List Char} (htext : NoPair text) :
    stringBody (withReturns text) =
      (stringBody text).map fun (content, raw, rest) =>
        (content, withReturns raw, withReturns rest) := by
  fun_induction stringBody text with
  | case1 => rfl
  | case2 text ih =>
      have hquote : '\'' ≠ '\n' := by decide
      rw [withReturns_cons _ hquote, withReturns_cons _ hquote, stringBody,
        ih htext.of_cons.of_cons, Option.map_map, Option.map_map]
      simp [Function.comp_def, withReturns_cons _ hquote]
  | case3 text => exact absurd rfl htext.head?_ne
  | case4 text hdouble =>
      have hhead : text.head? ≠ some '\'' := by
        intro hhead
        obtain ⟨others, htext⟩ := List.head?_eq_some_iff.mp hhead
        exact hdouble others rfl htext
      rw [withReturns_cons _ (by decide),
        stringBody_cons (fun _ => head?_withReturns (by decide) hhead)
          fun heq => absurd heq (by decide)]
      rfl
  | case5 c text _ hpair hc ih =>
      by_cases hfeed : c = '\n'
      · subst hfeed
        rw [withReturns_feed, stringBody, ih htext.of_cons, Option.map_map, Option.map_map]
        rfl
      · rw [withReturns_cons _ hfeed,
          stringBody_cons (fun heq => absurd heq hc) fun _ => head?_withReturns_ne_feed text,
          if_neg hc, ih htext.of_cons, Option.map_map, Option.map_map]
        simp [Function.comp_def, withReturns_cons _ hfeed]

theorem readString_withReturns {text : List Char} (htext : NoPair text) :
    readString (withReturns text) = (readString text).map addReturns := by
  rw [readString, readString, stringBody_withReturns htext]
  cases stringBody text with
  | none => rfl
  | some parts =>
      simp [Except.map, addReturns, withReturns_cons (c := '\'') _ (by decide)]

/-! ### All lexemes -/

theorem read_withReturns {c : Char} {text : List Char} (hc : c ≠ '\n') (htext : NoPair text) :
    read c (withReturns text) = (read c text).map addReturns := by
  have hcons := withReturns_cons text hc
  rw [read, startsNumber_withReturns, ← hcons, symbol?_withReturns, readNumber_withReturns,
    readWord_withReturns, readString_withReturns htext, read]
  split
  · rfl
  split
  · next hkind =>
    rw [readSymbol_withReturns hkind]
    rfl
  split
  · rfl
  split
  · rfl
  · rfl

end Lexeme

/-! ## Tokens -/

section Blanks

variable {text : List Char} (htext : NoPair text)

theorem skipBlanks_withReturns (text : List Char) :
    Text.skipBlanks (withReturns text) = withReturns (Text.skipBlanks text) :=
  (run_withReturns rfl text).2

include htext

theorem Position.afterBlanks_withReturns (p : Position) :
    p.afterBlanks (withReturns text) = p.afterBlanks text := by
  have hblanks : NoPair (text.takeWhile Text.isBlank) :=
    htext.of_infix (List.takeWhile_prefix _).isInfix
  rw [afterBlanks, (run_withReturns rfl text).1, after_withReturns p hblanks, afterBlanks]

theorem NoPair.of_skipBlanks {c : Char} {rest : List Char}
    (hskip : Text.skipBlanks text = c :: rest) : c ≠ '\n' ∧ NoPair (c :: rest) := by
  obtain ⟨blanks, rfl, -, hc, -⟩ := TokenStream.exists_of_skipBlanks hskip
  exact ⟨ne_feed_of_not_blank hc, htext.of_infix (List.suffix_append blanks _).isInfix⟩

end Blanks

namespace TokenStream

/-- Every lexeme ends where it did, so the texts behind it are again a text and the same text
with returns. -/
theorem ofChars_withReturns (position : Position) {text : List Char} (htext : NoPair text) :
    ofChars position (withReturns text) = ofChars position text := by
  fun_induction ofChars position text with
  | case1 position text hskip =>
      rw [ofChars_eq, skipBlanks_withReturns, position.afterBlanks_withReturns htext, hskip]
      rfl
  | case2 position text c rest hskip fault hread =>
      obtain ⟨hc, hrest⟩ := htext.of_skipBlanks hskip
      rw [ofChars_eq, skipBlanks_withReturns, position.afterBlanks_withReturns htext, hskip,
        withReturns_cons rest hc]
      simp only [Lexeme.read_withReturns hc hrest.of_cons, hread, Except.map]
  | case3 position text c rest hskip lexeme hread ih =>
      obtain ⟨hc, hrest⟩ := htext.of_skipBlanks hskip
      have hlexeme : NoPair (lexeme.raw ++ lexeme.rest) :=
        (Lexeme.raw_append_rest hread).symm ▸ hrest
      have hraw := hlexeme.of_infix (List.prefix_append lexeme.raw lexeme.rest).isInfix
      have hbehind := hlexeme.of_infix (List.suffix_append lexeme.raw lexeme.rest).isInfix
      rw [ofChars_eq, skipBlanks_withReturns, position.afterBlanks_withReturns htext, hskip,
        withReturns_cons rest hc]
      simp only [Lexeme.read_withReturns hc hrest.of_cons, hread, Except.map, Lexeme.addReturns]
      rw [Position.after_withReturns _ hraw, ih hbehind]
      rfl

end TokenStream

/-- A text in which every line feed has been given a carriage return has the tokens of the text
itself, at the same positions and with the same literals, or the same error. -/
theorem tokenize_withReturns (text : String) (htext : NoPair text.toList) :
    tokenize (String.ofList (withReturns text.toList)) = tokenize text := by
  rw [tokenize, tokenize, TokenStream.ofString, TokenStream.ofString, String.toList_ofList,
    TokenStream.ofChars_withReturns _ htext]

/-- Feeds behind a lone return, in a string and between tokens. -/
theorem tokenize_quoted_break :
    NoPair "x\r'a\nb'\n;".toList ∧
      tokenize "x\r'a\r\nb'\r\n;" = tokenize "x\r'a\nb'\n;" ∧
      tokenize "x\r'a\nb'\n;" = .ok [⟨.identifier, ⟨1, 0⟩, "x"⟩, ⟨.stringLiteral, ⟨2, 0⟩, "a\nb"⟩,
        ⟨.semicolon, ⟨4, 0⟩, ""⟩, ⟨.eof, ⟨4, 1⟩, ""⟩] := by
  have hpair : NoPair "x\r'a\nb'\n;".toList := by decide
  exact ⟨hpair, tokenize_withReturns "x\r'a\nb'\n;" hpair, by cbv⟩

/-- Behind a return of its own, a feed would end a second line. -/
example : tokenize (String.ofList (withReturns "\r\n".toList)) ≠ tokenize "\r\n" := by
  have htwo : tokenize (String.ofList (withReturns "\r\n".toList)) = .ok [⟨.eof, ⟨3, 0⟩, ""⟩] := by
    cbv
  have hone : tokenize "\r\n" = .ok [⟨.eof, ⟨2, 0⟩, ""⟩] := by cbv
  rw [htwo, hone]
  decide

end PocketSql
