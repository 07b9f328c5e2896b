import Mathlib
import PocketSql.Proofs.Syntax.LazyLexing

/-!
# Scan after scan

A scan that finds a token reads at least one character of the text, so no more scans find one
than the text has characters.  The first scan that finds none leaves the scanner in a state that
no later scan changes, and the error in it is the one that the list of tokens fails with.
-/

namespace PocketSql

namespace Scanner

/-- The scanner after a number of scans. -/
def after (s : Scanner) (scans : Nat) : Scanner :=
  (fun s => s.scan.2)^[scans] s

/-- What is unread is the text from the offset on. -/
def StandsAt (text : String) (offset : Nat) (s : Scanner) : Prop :=
  offset ≤ text.length ∧ s.rest = text.toList.drop offset

/-! ## One scan -/

section Scan

variable {s : Scanner}

/-- What a scan finds stands in front of what it leaves, behind blanks. -/
theorem exists_of_scan (hs : s.scan.1 = true) :
    ∃ passed, passed ≠ [] ∧ s.rest = passed ++ s.scan.2.rest := by
  have hscan := s.scans_scan
  generalize s.scan = outcome at hs hscan
  cases hscan with
  | stuck | finish | fail => contradiction
  | find _ hskip hread =>
      obtain ⟨blanks, hrest, -⟩ := TokenStream.exists_of_skipBlanks hskip
      refine ⟨blanks ++ _, List.append_ne_nil_of_right_ne_nil _ (Lexeme.raw_ne_nil hread), ?_⟩
      rw [hrest, List.append_assoc, Lexeme.raw_append_rest hread]

theorem rest_scan_suffix (s : Scanner) : s.scan.2.rest <:+ s.rest := by
  have hscan := s.scans_scan
  generalize hs : s.scan = outcome at hscan
  cases hscan with
  | stuck => exact List.suffix_rfl
  | finish => exact List.nil_suffix
  | fail _ hskip =>
      obtain ⟨blanks, hrest, -⟩ := TokenStream.exists_of_skipBlanks hskip
      exact ⟨blanks, hrest.symm⟩
  | find =>
      obtain ⟨passed, -, hrest⟩ := exists_of_scan (congrArg Prod.fst hs)
      rw [hs] at hrest
      exact ⟨passed, hrest.symm⟩

/-- Neither the end nor an error is left again. -/
theorem scan_of_stopped (hs : s.scan.1 = false) : s.scan.2.scan = (false, s.scan.2) := by
  have hscan := s.scans_scan
  generalize houtcome : s.scan = outcome at hs hscan ⊢
  cases hscan with
  | stuck => exact houtcome
  | finish | fail => rfl
  | find => contradiction

/-- The error that the scanner has met or is going to meet. -/
def fate (s : Scanner) : Option LexError :=
  s.error.or (TokenStream.ofChars s.position s.rest).lexError?

theorem fate_of_error {e : LexError} (hs : s.error = some e) : s.fate = some e := by
  rw [fate, hs]
  rfl

theorem error_of_stopped (hs : s.scan.1 = false) : s.scan.2.error = s.fate := by
  have hscan := s.scans_scan
  generalize s.scan = outcome at hs hscan
  cases hscan with
  | stuck herror => rw [fate_of_error herror, herror]
  | finish herror hskip =>
      rw [fate, herror, TokenStream.ofChars_eq, hskip]
      rfl
  | fail herror hskip hread =>
      rw [fate, herror, TokenStream.ofChars_eq, hskip]
      simp only [hread]
      rfl
  | find => contradiction

theorem fate_scan (s : Scanner) : s.scan.2.fate = s.fate := by
  have hscan := s.scans_scan
  generalize hs : s.scan = outcome at hscan
  cases hscan with
  | stuck => rfl
  | finish =>
      rw [← error_of_stopped (congrArg Prod.fst hs), hs, fate, atEnd, TokenStream.ofChars_nil]
      rfl
  | fail =>
      rw [← error_of_stopped (congrArg Prod.fst hs), hs]
      exact fate_of_error rfl
  | find herror hskip hread =>
      rw [fate, fate, herror, TokenStream.ofChars_eq s.position, hskip]
      simp only [hread]
      rfl

end Scan

/-! ## Many scans -/

section After

variable (s : Scanner)

theorem after_succ (scans : Nat) : s.after (scans + 1) = (s.after scans).scan.2 :=
  Function.iterate_succ_apply' _ _ _

theorem fate_after (scans : Nat) : (s.after scans).fate = s.fate := by
  induction scans with
  | zero => rfl
  | succ scans ih => rw [after_succ, fate_scan, ih]

theorem rest_after_suffix (scans : Nat) : (s.after scans).rest <:+ s.rest := by
  induction scans with
  | zero => exact List.suffix_rfl
  | succ scans ih =>
      rw [after_succ]
      exact (rest_scan_suffix _).trans ih

/-- Every scan that finds a token takes a character away from those that are left. -/
theorem count_add_length_rest_le (scans : Nat) :
    Nat.count (fun k => (s.after k).scan.1 = true) scans + (s.after scans).rest.length ≤
      s.rest.length := by
  induction scans with
  | zero => exact (Nat.zero_add _).le
  | succ scans ih =>
      rw [Nat.count_succ, after_succ]
      split
      · next hfinds =>
        obtain ⟨passed, hpassed, hrest⟩ := exists_of_scan hfinds
        have hlength := congrArg List.length hrest
        have hpos := List.length_pos_iff.mpr hpassed
        rw [List.length_append] at hlength
        omega
      · have hshrinks := (rest_scan_suffix (s.after scans)).length_le
        omega

variable {s}

/-- Behind a scan that finds nothing the scanner stays as it is. -/
theorem after_of_stopped {scans : Nat} (hstop : (s.after scans).scan.1 = false) {later : Nat}
    (hlater : scans ≤ later) :
    (s.after later).scan.1 = false ∧ s.after (later + 1) = s.after (scans + 1) := by
  induction later, hlater using Nat.le_induction with
  | base => exact ⟨hstop, rfl⟩
  | succ later _ ih =>
      obtain ⟨hlast, hsame⟩ := ih
      have hstays : (s.after (later + 1)).scan = (false, s.after (later + 1)) := by
        rw [after_succ, scan_of_stopped hlast]
      rw [after_succ s (later + 1), hstays]
      exact ⟨rfl, hsame⟩

end After

/-! ## Scans of a text -/

section Text

variable (text : String)

theorem exists_standsAt (scans : Nat) :
    ∃ offset, StandsAt text offset ((ofString text).after scans) := by
  obtain ⟨before, hbefore⟩ := rest_after_suffix (ofString text) scans
  have hsplit : text.toList = before ++ ((ofString text).after scans).rest := hbefore.symm
  refine ⟨before.length, ?_, by rw [hsplit, List.drop_left]⟩
  have hlength := congrArg List.length hsplit
  rw [List.length_append, String.length_toList] at hlength
  omega

/-- Less is left behind a scan that finds a token, so the offset is a greater one. -/
theorem exists_standsAt_lt {scans : Nat} (hfinds : ((ofString text).after scans).scan.1 = true) :
    ∃ offset offset', offset < offset' ∧ StandsAt text offset ((ofString text).after scans) ∧
      StandsAt text offset' ((ofString text).after (scans + 1)) := by
  obtain ⟨offset, hoffset⟩ := exists_standsAt text scans
  obtain ⟨offset', hoffset'⟩ := exists_standsAt text (scans + 1)
  obtain ⟨passed, hpassed, hrest⟩ := exists_of_scan hfinds
  refine ⟨offset, offset', ?_, hoffset, hoffset'⟩
  have hlength := congrArg List.length hrest
  have hpos := List.length_pos_iff.mpr hpassed
  rw [← after_succ, List.length_append, hoffset.2, hoffset'.2, List.length_drop,
    List.length_drop, String.length_toList] at hlength
  have hoffset := hoffset.1
  have hoffset' := hoffset'.1
  omega

theorem fate_ofString (e : LexError) :
    (ofString text).fate = some e ↔ tokenize text = .error e := by
  have hfate : (ofString text).fate = (TokenStream.ofString text).lexError? := rfl
  rw [hfate, tokenize]
  cases hend : (TokenStream.ofString text).lexError? with
  | none =>
      obtain ⟨front, finish, -, htokens⟩ := TokenStream.exists_ofList hend
      simp [htokens]
  | some error =>
      rw [TokenStream.toList_of_lexError? hend]
      simp

end Text

/-- Of the scans of a text at most as many find a token as the text has characters, and each of
these goes on in the text by at least one of them.  Behind the first scan that finds none, no
scan finds one or changes the scanner, and its error is that of the list of all tokens. -/
theorem scans_come_to_rest (text : String) :
    (∀ scans, Nat.count (fun k => ((ofString text).after k).scan.1 = true) scans ≤ text.length) ∧
    (∀ k, ((ofString text).after k).scan.1 = true → ∃ offset offset', offset < offset' ∧
      StandsAt text offset ((ofString text).after k) ∧
      StandsAt text offset' ((ofString text).after (k + 1))) ∧
    ∀ k, ((ofString text).after k).scan.1 = false →
      (∀ later ≥ k, ((ofString text).after later).scan.1 = false ∧
        (ofString text).after (later + 1) = (ofString text).after (k + 1)) ∧
      ∀ e, ((ofString text).after (k + 1)).error = some e ↔ tokenize text = .error e := by
  refine ⟨fun scans => ?_, fun k => exists_standsAt_lt text, fun k hstop => ?_⟩
  · have hcount := (ofString text).count_add_length_rest_le scans
    have hlength : (ofString text).rest.length = text.length := String.length_toList
    omega
  · refine ⟨fun later => after_of_stopped hstop, fun e => ?_⟩
    rw [after_succ, error_of_stopped hstop, fate_after]
    exact fate_ofString text e

/-- One scan finds the name; the string behind it has no end. -/
theorem unclosed_comes_to_rest :
    ((ofString "a 'b").after 0).scan.1 = true ∧ ((ofString "a 'b").after 1).scan.1 = false ∧
      (∃ offset offset', offset < offset' ∧ StandsAt "a 'b" offset ((ofString "a 'b").after 0) ∧
        StandsAt "a 'b" offset' ((ofString "a 'b").after 1)) ∧
      (ofString "a 'b").after 7 = (ofString "a 'b").after 2 ∧
      ((ofString "a 'b").after 2).error = some ⟨⟨1, 2⟩, .unterminatedString⟩ := by
  obtain ⟨-, hfinds, hstops⟩ := scans_come_to_rest "a 'b"
  have hfirst : ((ofString "a 'b").after 0).scan.1 = true := by decide +kernel
  have hsecond : ((ofString "a 'b").after 1).scan.1 = false := by decide +kernel
  have hlist : tokenize "a 'b" = .error ⟨⟨1, 2⟩, .unterminatedString⟩ := by cbv
  obtain ⟨hlater, herror⟩ := hstops 1 hsecond
  exact ⟨hfirst, hsecond, hfinds 0 hfirst, (hlater 6 (by decide)).2, (herror _).mpr hlist⟩

end Scanner

end PocketSql
