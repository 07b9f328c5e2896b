import Mathlib
import PocketSql.Proofs.Token.LineBreaks
import PocketSql.Proofs.Syntax.LazyLexing

/-!
# Texts on one line

Texts that have no line feed.  Numbers and times have no blanks at all, and quoting escapes a line
feed.  A name has none either, wherever its characters come from: no line feed continues a word,
and none is the lowercase form of another character.
-/

namespace PocketSql

/-- The text stays on its line. -/
def OnOneLine (text : String) : Prop :=
  '\n' ∉ text.toList

instance (text : String) : Decidable (OnOneLine text) :=
  inferInstanceAs (Decidable ('\n' ∉ text.toList))

namespace OnOneLine

theorem ofList {text : List Char} (htext : '\n' ∉ text) : OnOneLine (String.ofList text) := by
  rw [OnOneLine, String.toList_ofList]
  exact htext

theorem append {first second : String} (hfirst : OnOneLine first) (hsecond : OnOneLine second) :
    OnOneLine (first ++ second) := by
  rw [OnOneLine, String.toList_append, List.mem_append, not_or]
  exact ⟨hfirst, hsecond⟩

theorem enclose {front text back : String} (hfront : OnOneLine front) (htext : OnOneLine text)
    (hback : OnOneLine back) : OnOneLine (front ++ text ++ back) :=
  (hfront.append htext).append hback

theorem ite {condition : Bool} {first second : String} (hfirst : OnOneLine first)
    (hsecond : OnOneLine second) : OnOneLine (if condition then first else second) := by
  split
  · exact hfirst
  · exact hsecond

end OnOneLine

/-- Lines that are ended by a line feed each are found again between the line feeds. -/
theorem splitOn_lines {lines : List (List Char)} (hlines : ∀ line ∈ lines, '\n' ∉ line) :
    (lines.flatMap fun line => line ++ ['\n']).splitOn '\n' = lines ++ [[]] := by
  induction lines with
  | nil => rfl
  | cons line lines ih =>
      obtain ⟨hline, hothers⟩ := List.forall_mem_cons.mp hlines
      rw [List.flatMap_cons, List.append_assoc, List.singleton_append, List.splitOn,
        List.splitOnP_append_cons_of_forall_mem _ _ (by simp), ← List.splitOn, ih hothers]
      · rfl
      · intro c hc
        exact beq_eq_false_iff_ne.mpr fun heq => hline (heq ▸ hc)

/-! ## Words in small letters -/

namespace Text

/-- A code point that is moved to a line feed by no run is not moved to one. -/
theorem CaseRun.apply_ne_feed {runs : List CaseRun} (hruns : ∀ run ∈ runs, 10 < run.image)
    {code : Nat} (hcode : code ≠ 10) : CaseRun.apply runs code ≠ 10 := by
  induction runs with
  | nil => exact hcode
  | cons run runs ih =>
      obtain ⟨himage, hothers⟩ := List.forall_mem_cons.mp hruns
      rw [CaseRun.apply]
      split_ifs
      · exact hcode
      · omega
      · exact hcode
      · exact ih hothers

theorem lowercaseRuns_image : ∀ run ∈ lowercaseRuns, 10 < run.image := by
  decide +kernel

/-- A code point that is no character gives the null character. -/
theorem ofNat_ne_feed {code : Nat} (hcode : code ≠ 10) : Char.ofNat code ≠ '\n' := by
  intro heq
  have hfeed : (if code.isValidChar then code else 0) = 10 :=
    (Char.toNat_ofNat code).symm.trans (congrArg Char.toNat heq)
  split at hfeed
  · exact hcode hfeed
  · cases hfeed

theorem feed_not_mem_lowercaseChar {c : Char} (hc : c ≠ '\n') : '\n' ∉ lowercaseChar c := by
  rw [lowercaseChar]
  split
  · decide
  · rw [List.mem_singleton]
    have hcode : c.toNat ≠ 10 := fun heq => hc (Char.toNat_inj.mp heq)
    exact (ofNat_ne_feed (CaseRun.apply_ne_feed lowercaseRuns_image hcode)).symm

theorem lowercaseSigma_ne_feed (before after : List Char) : lowercaseSigma before after ≠ '\n' := by
  rw [lowercaseSigma]
  split <;> decide

theorem feed_not_mem_lowercaseAfter {text : List Char} (htext : '\n' ∉ text) (before : List Char) :
    '\n' ∉ lowercaseAfter before text := by
  induction text generalizing before with
  | nil => exact List.not_mem_nil
  | cons c rest ih =>
      obtain ⟨hc, hrest⟩ := not_or.mp (mt List.mem_cons.mpr htext)
      rw [lowercaseAfter, List.mem_append, not_or]
      refine ⟨?_, ih hrest (c :: before)⟩
      split
      · rw [List.mem_singleton]
        exact (lowercaseSigma_ne_feed before rest).symm
      · exact feed_not_mem_lowercaseChar (Ne.symm hc)

end Text

/-! ## Texts without blanks -/

/-- No character of the text is a blank. -/
def Solid (text : List Char) : Prop :=
  ∀ c ∈ text, Text.isBlank c = false

instance (text : List Char) : Decidable (Solid text) :=
  decidable_of_iff (text.all fun c => !Text.isBlank c) (by simp [Solid])

namespace Solid

variable {c : Char} {text more : List Char}

theorem cons (hc : Text.isBlank c = false) (htext : Solid text) : Solid (c :: text) :=
  List.forall_mem_cons.mpr ⟨hc, htext⟩

theorem append (htext : Solid text) (hmore : Solid more) : Solid (text ++ more) :=
  List.forall_mem_append.mpr ⟨htext, hmore⟩

theorem replicate (count : Nat) (hc : Text.isBlank c = false) : Solid (List.replicate count c) := by
  intro d hd
  rw [List.eq_of_mem_replicate hd]
  exact hc

theorem blank_not_mem (htext : Solid text) (hc : Text.isBlank c = true) : c ∉ text := by
  intro hmem
  rw [htext c hmem] at hc
  contradiction

theorem onOneLine (htext : Solid text) : OnOneLine (String.ofList text) :=
  .ofList (htext.blank_not_mem (by decide))

/-- Digits beyond those of base sixteen are all shown as one mark. -/
theorem digitChar (n : Nat) : Text.isBlank n.digitChar = false := by
  have hsmall : ∀ n < 16, Text.isBlank n.digitChar = false := by decide
  rcases lt_or_ge n 16 with hn | hn
  · exact hsmall n hn
  · have hlarge : n.digitChar = '*' := by
      simp (disch := omega) only [Nat.digitChar, if_neg]
    rw [hlarge]
    decide

theorem toDigits {base : Nat} (hbase : 1 < base) (n : Nat) : Solid (Nat.toDigits base n) := by
  induction n using Nat.strong_induction_on with
  | h n ih =>
      rw [Nat.toDigits_eq_if hbase]
      split
      · exact .cons (digitChar n) (List.forall_mem_nil _)
      · next hlarge =>
        have hshorter : n / base < n := Nat.div_lt_self (by omega) hbase
        exact (ih _ hshorter).append (.cons (digitChar _) (List.forall_mem_nil _))

end Solid

/-! ## Numbers and times -/

theorem Integer.solid_digits (value : Int) : Solid (digits value) := by
  rw [digits]
  split
  · exact .cons (by decide) (.toDigits (by decide) _)
  · exact .toDigits (by decide) _

namespace Number

theorem solid_insertPoint (places : Nat) {digits : List Char} (hdigits : Solid digits) :
    Solid (insertPoint places digits) := by
  have hpoint : Text.isBlank '.' = false := by decide
  have hzero : Text.isBlank '0' = false := by decide
  rw [insertPoint]
  split
  · exact .append (fun c hc => hdigits c (List.mem_of_mem_take hc))
      (.cons hpoint fun c hc => hdigits c (List.mem_of_mem_drop hc))
  · exact .append (.cons hzero (.cons hpoint (.replicate _ hzero))) hdigits

theorem solid_positional (x : Decimal) : Solid x.positional := by
  rw [Decimal.positional]
  split
  · exact .append (.toDigits (by decide) _) (.replicate _ (by decide))
  · exact solid_insertPoint _ (.toDigits (by decide) _)

theorem solid_chars (x : Float) : Solid (chars x) := by
  rw [chars]
  split
  · decide
  refine .append (by split <;> decide) ?_
  split
  · decide
  rw [magnitudeText]
  split
  · decide
  · exact solid_positional _

end Number

namespace Timestamp

theorem solid_padded (width n : Nat) : Solid (padded width n) :=
  .append (.replicate _ (by decide)) (.toDigits (by decide) n)

theorem solid_yearText (year : Int) : Solid (yearText year) := by
  rw [yearText]
  split
  · exact solid_padded _ _
  · exact .cons (by split <;> decide) (solid_padded _ _)

theorem solid_offsetText (offset : Int) : Solid (offsetText offset) := by
  rw [offsetText]
  split
  · decide
  · exact .append (.cons (by split <;> decide) (solid_padded _ _))
      (.cons (by decide) (solid_padded _ _))

theorem solid_textChars (t : Timestamp) : Solid t.textChars := by
  have hfield : ∀ (mark : Char) (n : Nat), Text.isBlank mark = false → Solid (mark :: padded 2 n) :=
    fun _ n hmark => .cons hmark (solid_padded 2 n)
  have hdate : Solid (yearText t.year ++ '-' :: padded 2 t.month ++ '-' :: padded 2 t.day) :=
    ((solid_yearText t.year).append (hfield '-' t.month (by decide))).append
      (hfield '-' t.day (by decide))
  exact (((hdate.append (hfield 'T' t.hour (by decide))).append
    (hfield ':' t.minute (by decide))).append
      (hfield ':' t.second (by decide))).append (solid_offsetText t.offset)

end Timestamp

/-! ## Quotes -/

theorem Text.feed_not_mem_escape (c : Char) : '\n' ∉ escape c := by
  rw [escape]
  split_ifs with _ _ _ hfeed
  iterate 6 decide
  · have hcode : Solid (escapeCode c) :=
      .append (.append (by decide) (.toDigits (by decide) _)) (by decide)
    exact hcode.blank_not_mem (by decide)
  · rw [List.mem_singleton]
    exact Ne.symm hfeed

theorem Text.onOneLine_quote (text : String) : OnOneLine (quote text) := by
  refine .ofList ?_
  rw [List.cons_append, List.mem_cons, List.mem_append, not_or, not_or]
  refine ⟨by decide, fun hmem => ?_, by decide⟩
  obtain ⟨c, -, hc⟩ := List.mem_flatMap.mp hmem
  exact feed_not_mem_escape c hc

/-! ## Names -/

namespace Lexeme

theorem onOneLine_of_read {c : Char} {text : List Char} {l : Lexeme}
    (hread : Lexeme.read c text = .ok l) (hkind : l.kind = .identifier) :
    OnOneLine l.literal := by
  cases readAs_of_read hread with
  | number _ hread =>
      rw [readNumber, ofNumber] at hread
      split at hread
      · cases hread
        cases hkind
      · cases hread
  | symbol hsymbol _ hl =>
      subst hl
      have hother : ∀ kind ∈ Kind.symbols, kind ≠ .identifier := by decide
      exact absurd hkind (hother _ hsymbol)
  | string _ hread =>
      rw [readString] at hread
      split at hread
      · cases hread
        cases hkind
      · cases hread
  | word _ hl =>
      subst hl
      rw [readWord, ofWord] at hkind ⊢
      split at hkind
      · next kind hkeyword =>
        have hother : ∀ kind ∈ Kind.keywords, kind ≠ .identifier := by decide
        exact absurd hkind (hother _ (List.mem_of_find?_eq_some hkeyword))
      · have hfeed : Text.isWordPart '\n' = false := by decide +kernel
        exact .ofList (Text.feed_not_mem_lowercaseAfter (feed_not_mem_takeWhile hfeed _) [])

end Lexeme

theorem TokenStream.onOneLine_ofChars (position : Position) (text : List Char) :
    ∀ t ∈ (ofChars position text).tokens, t.kind = .identifier → OnOneLine t.literal := by
  fun_induction ofChars position text with
  | case1 | case2 => exact List.forall_mem_nil _
  | case3 position text c rest _ l hread ih =>
      exact List.forall_mem_cons.mpr ⟨Lexeme.onOneLine_of_read hread, ih⟩

end PocketSql
