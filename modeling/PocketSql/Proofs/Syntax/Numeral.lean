import Mathlib
import PocketSql.Proofs.Syntax.Reading
import PocketSql.Proofs.Syntax.LazyLexing
import PocketSql.Proofs.Token.Spelling
import PocketSql.Proofs.Number.Words

/-!
# Numerals

A number is taken from a text as the longest run of digits, points and letters `e`, and is read
by a reader that knows signs, names and capital letters as well.  Of these runs it accepts the
numerals: digits with an optional point in them, and an optional exponent of digits.  A numeral
of digits alone is an integer, if there is one with its value; all others are numbers.
-/

namespace PocketSql

/-! ## The grammar -/

/-- One or more decimal digits. -/
structure IsDigits (text : List Char) : Prop where
  ne_nil : text ≠ []
  isDigit : ∀ c ∈ text, c.isDigit = true

instance (text : List Char) : Decidable (IsDigits text) :=
  decidable_of_iff (text ≠ [] ∧ text.all Char.isDigit = true)
    ⟨fun ⟨hne, hdigits⟩ => ⟨hne, List.all_eq_true.mp hdigits⟩,
      fun h => ⟨h.ne_nil, List.all_eq_true.mpr h.isDigit⟩⟩

/-- Digits, with an optional point and any digits behind it, or a point and digits. -/
inductive IsMantissa : List Char → Prop
  | whole {digits : List Char} : IsDigits digits → IsMantissa digits
  | pointed {whole fraction : List Char} : IsDigits whole →
      (∀ c ∈ fraction, c.isDigit = true) → IsMantissa (whole ++ '.' :: fraction)
  | fraction {digits : List Char} : IsDigits digits → IsMantissa ('.' :: digits)

/-- Nothing, or the letter `e` and digits. -/
inductive IsExponent : List Char → Prop
  | absent : IsExponent []
  | digits {digits : List Char} : IsDigits digits → IsExponent ('e' :: digits)

def IsNumeral (text : List Char) : Prop :=
  ∃ mantissa exponent, text = mantissa ++ exponent ∧ IsMantissa mantissa ∧ IsExponent exponent

/-! ## Characters of numerals -/

/-- The longest run of a class of characters in front of a text. -/
theorem exists_run (p : Char → Bool) (text : List Char) :
    ∃ run rest, text = run ++ rest ∧ (∀ c ∈ run, p c = true) ∧ ∀ c ∈ rest.head?, p c = false := by
  refine ⟨text.takeWhile p, text.dropWhile p, List.takeWhile_append_dropWhile.symm,
    fun _ => List.mem_takeWhile_imp, fun c hc => ?_⟩
  have hhead := List.head?_dropWhile_not p text
  rw [Option.mem_def] at hc
  rwa [hc] at hhead

theorem ne_sign_of_isNumberPart {c : Char} (hc : Lexeme.isNumberPart c = true) :
    c ≠ '+' ∧ c ≠ '-' := by
  constructor <;>
    · rintro rfl
      contradiction

theorem IsDigits.isNumberPart {text : List Char} (htext : IsDigits text) :
    ∀ c ∈ text, Lexeme.isNumberPart c = true := fun c hc => by
  rw [Lexeme.isNumberPart, htext.isDigit c hc, Bool.true_or, Bool.true_or]

theorem IsExponent.isNumberPart {text : List Char} (htext : IsExponent text) :
    ∀ c ∈ text, Lexeme.isNumberPart c = true := by
  cases htext with
  | absent => exact List.forall_mem_nil _
  | digits hdigits => exact List.forall_mem_cons.mpr ⟨rfl, hdigits.isNumberPart⟩

theorem IsExponent.head {text : List Char} (htext : IsExponent text) :
    ∀ c ∈ text.head?, c.isDigit = false ∧ c ≠ '.' := by
  cases htext with
  | absent => exact fun _ hc => nomatch hc
  | digits =>
      rintro c ⟨⟩
      decide

/-- The text begins with no sign, and not with the name of a number. -/
theorem startsNumber_head {text : List Char} (hstart : Lexeme.startsNumber text = true) :
    ∃ c more, text = c :: more ∧ (c.isDigit = true ∨ c = '.') := by
  cases text with
  | nil => contradiction
  | cons c more =>
      rw [Lexeme.startsNumber_cons] at hstart
      split at hstart
      · next hpoint => exact ⟨c, more, rfl, .inr hpoint⟩
      · exact ⟨c, more, rfl, .inl hstart⟩

/-- Digits and points. -/
def figures : List Char :=
  "0123456789.".toList

theorem mem_figures {c : Char} (hc : c.isDigit = true ∨ c = '.') : c ∈ figures := by
  rcases hc with hdigit | rfl
  · rw [Char.isDigit_iff_toNat] at hdigit
    have hcodes : ∀ code ≤ 57, 48 ≤ code → Char.ofNat code ∈ figures := by decide
    have hmem := hcodes c.toNat hdigit.2 hdigit.1
    rwa [Char.ofNat_toNat] at hmem
  · decide

theorem figures_plain : figures.all fun c =>
    c != '+' && c != '-' && c.toLower != 'i' && c.toLower != 'n' := by
  decide

namespace Integer

theorem readSigned?_of_unsigned {text : List Char} (htext : ∀ c ∈ text.head?, c ≠ '+' ∧ c ≠ '-') :
    readSigned? text = (readDigits? text).map Int.ofNat := by
  rw [readSigned?]
  · rintro rest rfl
    exact (htext '+' rfl).1 rfl
  · rintro rest rfl
    exact (htext '-' rfl).2 rfl

theorem isSome_readDigits? {text : List Char} :
    (readDigits? text).isSome = true ↔ IsDigits text := by
  rw [readDigits?]
  split
  · next hdigits =>
    exact ⟨fun _ => ⟨hdigits.1, List.all_eq_true.mp hdigits.2⟩, fun _ => rfl⟩
  · next hother =>
    refine ⟨fun hsome => by contradiction, fun h => ?_⟩
    exact absurd ⟨h.ne_nil, List.all_eq_true.mpr h.isDigit⟩ hother

end Integer

namespace Number

/-- Behind a figure there is neither a sign nor a name to read. -/
theorem read?_of_startsNumber {text : List Char} (hstart : Lexeme.startsNumber text = true) :
    read? text = readUnsigned? text := by
  obtain ⟨c, more, rfl, hc⟩ := startsNumber_head hstart
  have hplain := List.all_eq_true.mp figures_plain c (mem_figures hc)
  simp only [Bool.and_eq_true, bne_iff_ne] at hplain
  obtain ⟨⟨⟨hplus, hminus⟩, hinf⟩, hnan⟩ := hplain
  have hname : readName? (c :: more) = none := by
    have hinf : (c :: more).map Char.toLower ∉ ["inf".toList, "infinity".toList] := by
      simp [hinf]
    have hnan : (c :: more).map Char.toLower ≠ "nan".toList := by
      simp [hnan]
    rw [readName?, if_neg hinf, if_neg hnan]
  rw [read?, readMagnitude?, hname, Option.none_or]
  · intro rest heq
    exact hplus (List.cons.inj heq).1
  · intro rest heq
    exact hminus (List.cons.inj heq).1

/-! ## The reader of numbers -/

section Parts

variable {whole exponent : List Char} (hwhole : ∀ c ∈ whole, c.isDigit = true)

include hwhole

theorem readUnsigned?_whole
    (hexponent : ∀ c ∈ exponent.head?, c.isDigit = false ∧ c ≠ '.') :
    readUnsigned? (whole ++ exponent) = ofParts? whole [] exponent := by
  obtain ⟨htake, hdrop⟩ := run_before hwhole fun c hc => (hexponent c hc).1
  have hpoint : ∀ rest, exponent ≠ '.' :: rest := by
    rintro rest rfl
    exact (hexponent '.' rfl).2 rfl
  rw [readUnsigned?, htake, hdrop, fractionDigits.eq_2 _ hpoint, afterFraction.eq_2 _ hpoint]

theorem readUnsigned?_pointed {fraction : List Char}
    (hfraction : ∀ c ∈ fraction, c.isDigit = true)
    (hexponent : ∀ c ∈ exponent.head?, c.isDigit = false) :
    readUnsigned? (whole ++ '.' :: (fraction ++ exponent)) = ofParts? whole fraction exponent := by
  have hpoint : ∀ c ∈ ('.' :: (fraction ++ exponent)).head?, c.isDigit = false := by
    rintro c ⟨⟩
    rfl
  obtain ⟨htake, hdrop⟩ := run_before hwhole hpoint
  obtain ⟨htake', hdrop'⟩ := run_before hfraction hexponent
  rw [readUnsigned?, htake, hdrop, fractionDigits, afterFraction, htake', hdrop']

end Parts

theorem isSome_ofParts? {whole fraction exponent : List Char} :
    (ofParts? whole fraction exponent).isSome = true ↔
      whole ++ fraction ≠ [] ∧ (readExponent? exponent).isSome = true := by
  rw [ofParts?]
  split
  · next hempty => simp [hempty]
  · next hsome => simp [hsome]

/-- No sign stands among digits, points and letters `e`. -/
theorem isSome_readExponent? {text : List Char}
    (hparts : ∀ c ∈ text, Lexeme.isNumberPart c = true) :
    (readExponent? text).isSome = true ↔ IsExponent text := by
  cases text with
  | nil => exact ⟨fun _ => .absent, fun _ => rfl⟩
  | cons c digits =>
      obtain ⟨hc, hdigits⟩ := List.forall_mem_cons.mp hparts
      have hcapital : c ≠ 'E' := by
        rintro rfl
        contradiction
      have hunsigned : ∀ d ∈ digits.head?, d ≠ '+' ∧ d ≠ '-' :=
        fun d hd => ne_sign_of_isNumberPart (hdigits d (List.mem_of_head? hd))
      rw [readExponent?]
      by_cases he : c = 'e'
      · subst he
        rw [if_pos (.inl rfl), Integer.readSigned?_of_unsigned hunsigned, Option.isSome_map,
          Integer.isSome_readDigits?]
        refine ⟨.digits, fun hexponent => ?_⟩
        cases hexponent with
        | digits hdigits => exact hdigits
      · rw [if_neg (not_or.mpr ⟨he, hcapital⟩)]
        refine ⟨fun hsome => by contradiction, fun hexponent => ?_⟩
        cases hexponent with
        | digits => exact absurd rfl he

/-- By the character behind the leading digits. -/
theorem isNumeral_of_isSome {text : List Char}
    (hparts : ∀ c ∈ text, Lexeme.isNumberPart c = true)
    (hsome : (readUnsigned? text).isSome = true) : IsNumeral text := by
  obtain ⟨whole, tail, rfl, hwhole, htail⟩ := exists_run Char.isDigit text
  have hparts := (List.forall_mem_append.mp hparts).2
  by_cases hpoint : tail.head? = some '.'
  · obtain ⟨rest, rfl⟩ := List.head?_eq_some_iff.mp hpoint
    obtain ⟨fraction, exponent, rfl, hfraction, hexponent⟩ := exists_run Char.isDigit rest
    have hparts := (List.forall_mem_append.mp (List.forall_mem_cons.mp hparts).2).2
    rw [readUnsigned?_pointed hwhole hfraction hexponent, isSome_ofParts?,
      isSome_readExponent? hparts] at hsome
    obtain ⟨hne, hexponent⟩ := hsome
    cases whole with
    | nil => exact ⟨'.' :: fraction, exponent, rfl, .fraction ⟨hne, hfraction⟩, hexponent⟩
    | cons c whole =>
        have hdigits : IsDigits (c :: whole) := ⟨List.cons_ne_nil c whole, hwhole⟩
        exact ⟨(c :: whole) ++ '.' :: fraction, exponent, by simp, .pointed hdigits hfraction,
          hexponent⟩
  · have hhead : ∀ c ∈ tail.head?, c.isDigit = false ∧ c ≠ '.' :=
      fun c hc => ⟨htail c hc, fun heq => hpoint (heq ▸ hc)⟩
    rw [readUnsigned?_whole hwhole hhead, isSome_ofParts?, isSome_readExponent? hparts,
      List.append_nil] at hsome
    exact ⟨whole, tail, rfl, .whole ⟨hsome.1, hwhole⟩, hsome.2⟩

theorem isSome_of_isNumeral {text : List Char} (htext : IsNumeral text) :
    (readUnsigned? text).isSome = true := by
  obtain ⟨mantissa, exponent, rfl, hmantissa, hexponent⟩ := htext
  have hhead := hexponent.head
  have hread := (isSome_readExponent? hexponent.isNumberPart).mpr hexponent
  cases hmantissa with
  | whole hdigits =>
      rw [readUnsigned?_whole hdigits.isDigit hhead, isSome_ofParts?, List.append_nil]
      exact ⟨hdigits.ne_nil, hread⟩
  | pointed hwhole hfraction =>
      rw [List.append_assoc, List.cons_append,
        readUnsigned?_pointed hwhole.isDigit hfraction fun c hc => (hhead c hc).1, isSome_ofParts?]
      exact ⟨List.append_ne_nil_of_left_ne_nil hwhole.ne_nil _, hread⟩
  | fraction hdigits =>
      have hread' := readUnsigned?_pointed (List.forall_mem_nil _) hdigits.isDigit
        fun c hc => (hhead c hc).1
      rw [List.nil_append] at hread'
      rw [List.cons_append, hread', isSome_ofParts?]
      exact ⟨hdigits.ne_nil, hread⟩

end Number

theorem IsDigits.startsNumber {text : List Char} (htext : IsDigits text) (more : List Char) :
    Lexeme.startsNumber (text ++ more) = true := by
  obtain ⟨c, rest, rfl⟩ := List.exists_cons_of_ne_nil htext.ne_nil
  have hc := htext.isDigit c List.mem_cons_self
  have hpoint : c ≠ '.' := by
    rintro rfl
    contradiction
  rwa [List.cons_append, Lexeme.startsNumber_cons, if_neg hpoint]

theorem IsNumeral.startsNumber {text : List Char} (htext : IsNumeral text) :
    Lexeme.startsNumber text = true := by
  obtain ⟨mantissa, exponent, rfl, hmantissa, -⟩ := htext
  cases hmantissa with
  | whole hdigits => exact hdigits.startsNumber exponent
  | pointed hdigits =>
      rw [List.append_assoc]
      exact hdigits.startsNumber _
  | fraction hdigits =>
      obtain ⟨c, rest, rfl⟩ := List.exists_cons_of_ne_nil hdigits.ne_nil
      exact hdigits.isDigit c List.mem_cons_self

theorem IsDigits.isNumeral {text : List Char} (htext : IsDigits text) : IsNumeral text :=
  ⟨text, [], (List.append_nil text).symm, .whole htext, .absent⟩

theorem Number.isSome_read? {text : List Char} (htext : IsNumeral text) :
    (read? text).isSome = true := by
  rw [read?_of_startsNumber htext.startsNumber]
  exact isSome_of_isNumeral htext

/-! ## Numbers in a text -/

namespace Lexeme

section Run

variable {run : List Char} (rest : List Char)

theorem ofNumber_of_isNumeral (hrun : IsNumeral run) :
    ofNumber run rest = .ok ⟨.numberLiteral, String.ofList run, run, rest⟩ :=
  if_pos (Number.isSome_read? hrun)

theorem ofNumber_of_not_isNumeral (hstart : startsNumber run = true)
    (hparts : ∀ c ∈ run, isNumberPart c = true) (hrun : ¬IsNumeral run) :
    ofNumber run rest = .error (.invalidNumber (String.ofList run)) := by
  rw [ofNumber, Number.read?_of_startsNumber hstart]
  exact if_neg (mt (Number.isNumeral_of_isSome hparts) hrun)

end Run

/-- What begins a number is read as a number, up to the end of the run. -/
theorem read_run {c : Char} {text run rest : List Char} (hstart : startsNumber (c :: text) = true)
    (hsplit : c :: text = run ++ rest) (hrun : ∀ d ∈ run, isNumberPart d = true)
    (hrest : ∀ d ∈ rest.head?, isNumberPart d = false) :
    read c text = ofNumber run rest ∧ startsNumber run = true := by
  obtain ⟨htake, hdrop⟩ := run_before hrun hrest
  have hpart := isNumberPart_of_startsNumber hstart
  rw [← hsplit] at htake hdrop
  refine ⟨by rw [read_number hstart, readNumber, htake, hdrop], ?_⟩
  rw [← htake, List.takeWhile_cons_of_pos hpart]
  exact startsNumber_takeWhile hstart

end Lexeme

/-! ## Numerals as literals -/

theorem Integer.read?_of_isDigits {digits : List Char} (hdigits : IsDigits digits) :
    Integer.read? digits = Integer.ofInt? (Nat.ofDigitChars 10 digits 0) := by
  have hunsigned : ∀ c ∈ digits.head?, c ≠ '+' ∧ c ≠ '-' :=
    fun c hc => ne_sign_of_isNumberPart (hdigits.isNumberPart c (List.mem_of_head? hc))
  rw [Integer.read?, Integer.readSigned?_of_unsigned hunsigned, Integer.readDigits?,
    if_pos ⟨hdigits.ne_nil, List.all_eq_true.mpr hdigits.isDigit⟩]
  rfl

section Digits

variable {t : Token} (ht : IsDigits t.literal.toList)

include ht

theorem numberLiteral_of_hasWord
    (hword : Integer.HasWord (Nat.ofDigitChars 10 t.literal.toList 0)) :
    ∃ value : Int64, value.toInt = Nat.ofDigitChars 10 t.literal.toList 0 ∧
      numberLiteral t = .ok (.integer value) := by
  obtain ⟨value, hread, hvalue⟩ := Integer.ofInt?_of_hasWord hword
  refine ⟨value, hvalue, ?_⟩
  rw [numberLiteral, if_pos (List.all_eq_true.mpr ht.isDigit), Integer.read?_of_isDigits ht, hread]

theorem numberLiteral_of_not_hasWord
    (hword : ¬Integer.HasWord (Nat.ofDigitChars 10 t.literal.toList 0)) :
    numberLiteral t = .error (.grammatical ⟨t.position, .integerOutOfRange t.literal⟩) := by
  rw [numberLiteral, if_pos (List.all_eq_true.mpr ht.isDigit), Integer.read?_of_isDigits ht,
    Integer.ofInt?_of_not_hasWord hword]

end Digits

theorem numberLiteral_of_not_isDigits {t : Token} (ht : IsNumeral t.literal.toList)
    (hdigits : ¬IsDigits t.literal.toList) :
    ∃ x, Number.read? t.literal.toList = some x ∧ numberLiteral t = .ok (.number x) := by
  obtain ⟨x, hx⟩ := Option.isSome_iff_exists.mp (Number.isSome_read? ht)
  have hother : ¬t.literal.toList.all Char.isDigit = true := by
    obtain ⟨c, rest, hne, -⟩ := startsNumber_head ht.startsNumber
    refine fun hall => hdigits ⟨?_, List.all_eq_true.mp hall⟩
    exact hne ▸ List.cons_ne_nil c rest
  refine ⟨x, hx, ?_⟩
  rw [numberLiteral, if_neg hother, hx]

/-- A scanner that comes to a number takes the longest run of the characters of numbers.  The run
is a token if it is a numeral, and an error at the position of its first character otherwise.  As
a literal, a numeral of digits is the integer with its value, if there is one, and an error if
there is none; any other numeral is a number. -/
theorem numerals_read_exactly :
    (∀ (s : Scanner) (text : List Char), s.error = none → Text.skipBlanks s.rest = text →
      Lexeme.startsNumber text = true →
      ∃ run rest, text = run ++ rest ∧ (∀ c ∈ run, Lexeme.isNumberPart c = true) ∧
        (∀ c ∈ rest.head?, Lexeme.isNumberPart c = false) ∧
        (IsNumeral run → s.scan = (true, ⟨(s.position.afterBlanks s.rest).after run, rest,
          ⟨.numberLiteral, s.position.afterBlanks s.rest, String.ofList run⟩, none⟩)) ∧
        (¬IsNumeral run → s.scan = (false, .failed
          ⟨s.position.afterBlanks s.rest, .invalidNumber (String.ofList run)⟩ text))) ∧
    ∀ t : Token, IsNumeral t.literal.toList →
      (IsDigits t.literal.toList → Integer.HasWord (Nat.ofDigitChars 10 t.literal.toList 0) →
        ∃ value : Int64, value.toInt = Nat.ofDigitChars 10 t.literal.toList 0 ∧
          numberLiteral t = .ok (.integer value)) ∧
      (IsDigits t.literal.toList → ¬Integer.HasWord (Nat.ofDigitChars 10 t.literal.toList 0) →
        numberLiteral t = .error (.grammatical ⟨t.position, .integerOutOfRange t.literal⟩)) ∧
      (¬IsDigits t.literal.toList →
        ∃ x, Number.read? t.literal.toList = some x ∧ numberLiteral t = .ok (.number x)) := by
  refine ⟨fun s text herror hskip hstart => ?_, fun t ht => ⟨numberLiteral_of_hasWord,
    numberLiteral_of_not_hasWord, numberLiteral_of_not_isDigits ht⟩⟩
  obtain ⟨run, rest, hsplit, hrun, hrest⟩ := exists_run Lexeme.isNumberPart text
  refine ⟨run, rest, hsplit, hrun, hrest, fun hnumeral => ?_, fun hother => ?_⟩
  all_goals
    obtain ⟨c, more, rfl, -⟩ := startsNumber_head hstart
    obtain ⟨hread, hbegins⟩ := Lexeme.read_run hstart hsplit hrun hrest
  · rw [Lexeme.ofNumber_of_isNumeral rest hnumeral] at hread
    exact Scanner.scan_of_lexeme herror hskip hread
  · rw [Lexeme.ofNumber_of_not_isNumeral rest hbegins hrun hother] at hread
    exact Scanner.scan_of_fault herror hskip hread

/-- A second point is no part of a numeral, but part of the run; a point behind the digits is
part of both.  Leading zeros do not count, and the first integer without a word is out of range. -/
theorem pointedNumerals_read :
    (Scanner.ofString " 1.5.2+").scan =
        (false, .failed ⟨⟨1, 1⟩, .invalidNumber "1.5.2"⟩ "1.5.2+".toList) ∧
      (Scanner.ofString " 12.e3+").scan =
        (true, ⟨⟨1, 6⟩, ['+'], ⟨.numberLiteral, ⟨1, 1⟩, "12.e3"⟩, none⟩) ∧
      (∃ value : Int64, value.toInt = 7 ∧
        numberLiteral ⟨.numberLiteral, .start, "007"⟩ = .ok (.integer value)) ∧
      numberLiteral ⟨.numberLiteral, .start, "9223372036854775808"⟩ =
        .error (.grammatical ⟨.start, .integerOutOfRange "9223372036854775808"⟩) := by
  obtain ⟨hscan, hliteral⟩ := numerals_read_exactly
  refine ⟨?_, ?_, ?_, ?_⟩
  · obtain ⟨run, rest, hsplit, hrun, hrest, -, hreject⟩ :=
      hscan (.ofString " 1.5.2+") "1.5.2+".toList rfl (by decide +kernel) rfl
    obtain ⟨htake, -⟩ := run_before hrun hrest
    rw [← hsplit] at htake
    obtain rfl : "1.5.2".toList = run := htake
    exact hreject fun hnumeral => absurd (Number.isSome_read? hnumeral) (by decide +kernel)
  · obtain ⟨run, rest, hsplit, hrun, hrest, haccept, -⟩ :=
      hscan (.ofString " 12.e3+") "12.e3+".toList rfl (by decide +kernel) rfl
    obtain ⟨htake, hdrop⟩ := run_before hrun hrest
    rw [← hsplit] at htake hdrop
    obtain rfl : "12.e3".toList = run := htake
    obtain rfl : ['+'] = rest := hdrop
    have hwhole : IsDigits "12".toList := by decide
    have hexponent : IsDigits "3".toList := by decide
    exact haccept ⟨"12.".toList, "e3".toList, rfl, .pointed hwhole (List.forall_mem_nil _),
      .digits hexponent⟩
  · have hdigits : IsDigits "007".toList := by decide
    exact (hliteral ⟨.numberLiteral, .start, "007"⟩ hdigits.isNumeral).1 hdigits (by decide)
  · have hdigits : IsDigits "9223372036854775808".toList := by decide
    exact (hliteral ⟨.numberLiteral, .start, "9223372036854775808"⟩ hdigits.isNumeral).2.1
      hdigits (by decide)

end PocketSql
