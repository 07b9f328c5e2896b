import Mathlib
import PocketSql.Proofs.Timestamp.Calendar
import PocketSql.Value.Cast

/-!
# Timestamps that are written and read back

The text of a timestamp is read in the first of the layouts, and what is read has the same
instant and the same offset, without the fraction of a second that the text does not show.
-/

namespace PocketSql.Timestamp

open Reader

/-! ## Fields -/

section Fields

variable {α β : Type} {text rest : List Char}

/-- A reader goes on with what the one in front of it leaves. -/
theorem run_bind {r : Reader α} {k : α → Reader β} {a : α} {result : Option (β × List Char)}
    (hr : r text = some (a, rest)) (hk : k a rest = result) : (r >>= k) text = result := by
  subst hk
  exact congrArg (· >>= fun (a, rest) => k a rest) hr

theorem length_padded {width n : Nat} (hwidth : 0 < width) (hn : n < 10 ^ width) :
    (padded width n).length = width := by
  have hdigits := (Nat.length_toDigits_le_iff (by decide) hwidth).mpr hn
  rw [padded, List.length_append, List.length_replicate]
  omega

theorem isDigit_of_mem_padded {width n : Nat} : ∀ c ∈ padded width n, c.isDigit = true := by
  intro c hc
  rcases List.mem_append.mp hc with hc | hc
  · rw [List.eq_of_mem_replicate hc]
    rfl
  · exact Nat.isDigit_of_mem_toDigits (by decide) (by decide) hc

theorem valueOf_padded (width n : Nat) : valueOf (padded width n) = n := by
  rw [valueOf, padded, Nat.ofDigitChars_append, Nat.ofDigitChars_replicate_zero, Nat.mul_zero,
    Nat.ofDigitChars_ten_toDigits]

theorem fixed_padded {width n : Nat} (hwidth : 0 < width) (hn : n < 10 ^ width)
    (rest : List Char) : fixed width (padded width n ++ rest) = some (n, rest) := by
  have hlength := length_padded hwidth hn
  have hfront : ((padded width n ++ rest).take width).takeWhile Char.isDigit = padded width n := by
    rw [List.take_left' hlength, List.takeWhile_eq_self_iff]
    exact isDigit_of_mem_padded
  have hdigits : digitsUpTo width width (padded width n ++ rest) = some (padded width n, rest) := by
    rw [digitsUpTo, hfront, if_neg (by omega), List.drop_left' rfl]
  change (digitsUpTo width width (padded width n ++ rest) >>= fun (digits, rest) =>
    pure (valueOf digits, rest)) = some (n, rest)
  rw [hdigits]
  exact congrArg (fun value => some (value, rest)) (valueOf_padded width n)

theorem char_cons (c : Char) (rest : List Char) : Reader.char c (c :: rest) = some ((), rest) :=
  if_pos rfl

theorem skips_cons {chars : List Char} {c : Char} (hc : c ∈ chars) (rest : List Char) :
    skips chars (c :: rest) = some (true, rest) :=
  if_pos hc

theorem skips_cons_of_notMem {chars : List Char} {c : Char} (hc : c ∉ chars)
    (rest : List Char) : skips chars (c :: rest) = some (false, c :: rest) :=
  if_neg hc

theorem fraction_cons {c : Char} (hc : c ∉ ['.']) (rest : List Char) :
    fraction (c :: rest) = some (0, c :: rest) :=
  run_bind (skips_cons_of_notMem hc rest) rfl

end Fields

/-! ## Offsets -/

/-- The sign of an offset that is not zero. -/
def signOf (offset : Int) : Char :=
  if offset < 0 then '-' else '+'

theorem offsetSign_signOf (offset : Int) (rest : List Char) :
    offsetSign true (signOf offset :: rest) = some (decide (offset < 0), rest) := by
  rw [signOf]
  split <;> simp [offsetSign, *]

theorem signOf_notMem (offset : Int) {chars : List Char} (hplus : '+' ∉ chars)
    (hminus : '-' ∉ chars) : signOf offset ∉ chars := by
  rw [signOf]
  split
  · exact hminus
  · exact hplus

theorem offsetText_eq {offset : Int} (hne : offset ≠ 0) :
    offsetText offset = signOf offset :: (padded 2 (offset.natAbs / 3600) ++
      ':' :: (padded 2 (offset.natAbs / 60 % 60) ++ [])) := by
  simp only [offsetText, if_neg hne, signOf, List.cons_append, List.append_nil]

/-- A whole number of minutes below a day. -/
theorem offset_offsetText {offset : Int} (hminutes : offset % 60 = 0)
    (hday : -86400 < offset ∧ offset < 86400) (hne : offset ≠ 0) :
    Reader.offset (Reader.char ':') true (offsetText offset) = some (offset, []) := by
  rw [offsetText_eq hne]
  refine run_bind (offsetSign_signOf _ _) ?_
  refine run_bind (fixed_padded (by decide) (by omega) _) ?_
  refine run_bind (char_cons _ _) ?_
  refine run_bind (fixed_padded (by decide) (by omega) _) ?_
  rw [if_pos (by omega)]
  refine congrArg (fun value => some (value, [])) ?_
  simp only [decide_eq_true_eq]
  split_ifs <;> omega

/-! ## Whole texts -/

theorem internetDate_textChars (t : Timestamp) (hyear : 0 ≤ t.year ∧ t.year ≤ 9999) :
    internetDate t.textChars = some ({ t.toCivilTime with nanosecond := 0 }, []) := by
  obtain ⟨-, hmonth, hday, hhour, hminute, hsecond, -, ⟨hminutes, hoffset⟩, -⟩ := t.valid
  have hlast := CivilTime.daysInMonth_le t.year t.month
  have htext : t.textChars = padded 4 t.year.toNat ++ '-' :: (padded 2 t.month ++ '-' ::
      (padded 2 t.day ++ 'T' :: (padded 2 t.hour ++ ':' :: (padded 2 t.minute ++ ':' ::
        (padded 2 t.second ++ offsetText t.offset))))) := by
    rw [textChars, yearText, if_pos hyear]
    simp only [List.append_assoc, List.cons_append]
  have hyear' : ((t.year.toNat : Nat) : Int) = t.year := Int.toNat_of_nonneg hyear.1
  rw [htext]
  refine run_bind (fixed_padded (by decide) (by omega) _) ?_
  refine run_bind (char_cons _ _) ?_
  refine run_bind (fixed_padded (by decide) (by omega) _) ?_
  refine run_bind (char_cons _ _) ?_
  refine run_bind (fixed_padded (by decide) (by omega) _) ?_
  refine run_bind (skips_cons (by decide) _) ?_
  rw [if_pos rfl, hyear']
  refine run_bind (fixed_padded (by decide) (by omega) _) ?_
  refine run_bind (char_cons _ _) ?_
  refine run_bind (fixed_padded (by decide) (by omega) _) ?_
  refine run_bind (char_cons _ _) ?_
  refine run_bind (fixed_padded (by decide) (by omega) _) ?_
  by_cases hzero : t.offset = 0
  · have hutc : offsetText t.offset = ['Z'] := if_pos hzero
    rw [hutc]
    refine run_bind (fraction_cons (by decide) _) ?_
    refine run_bind (skips_cons (by decide) _) ?_
    rw [if_pos rfl, ← hzero]
    rfl
  · have hread := offset_offsetText hminutes hoffset hzero
    rw [offsetText_eq hzero] at hread ⊢
    refine run_bind (fraction_cons (signOf_notMem _ (by decide) (by decide)) _) ?_
    refine run_bind (skips_cons_of_notMem (signOf_notMem _ (by decide) (by decide)) _) ?_
    rw [if_neg Bool.false_ne_true]
    refine run_bind hread ?_
    rfl

/-- The timestamp without the fraction of its second. -/
def wholeSecond (t : Timestamp) : Timestamp where
  toCivilTime := { t.toCivilTime with nanosecond := 0 }
  valid := by
    obtain ⟨hyear, hmonth, hday, hhour, hminute, hsecond, -, hoffset, hinstant⟩ := t.valid
    exact ⟨hyear, hmonth, hday, hhour, hminute, hsecond, Nat.succ_pos _, hoffset, hinstant⟩

/-- The instant of `u` is the one of `t` without its fraction of a second, and the offsets are
the same.  A leap second stays one. -/
structure IsWholeSecondOf (u t : Timestamp) : Prop where
  unixSeconds : u.unixSeconds = t.unixSeconds
  subsecond : u.subsecond = t.subsecond / 1000000000 * 1000000000
  offset : u.offset = t.offset

theorem isWholeSecondOf_wholeSecond (t : Timestamp) : t.wholeSecond.IsWholeSecondOf t where
  unixSeconds := rfl
  subsecond := by
    obtain ⟨-, -, -, -, -, -, hnanosecond, -, -⟩ := t.valid
    change 0 + (if t.second = 60 then 1000000000 else 0) =
      (t.nanosecond + if t.second = 60 then 1000000000 else 0) / 1000000000 * 1000000000
    split <;> omega
  offset := rfl

theorem IsWholeSecondOf.unique {t u v : Timestamp} (hu : u.IsWholeSecondOf t)
    (hv : v.IsWholeSecondOf t) : u = v :=
  eq_of_instant (hu.unixSeconds.trans hv.unixSeconds.symm) (hu.subsecond.trans hv.subsecond.symm)
    (hu.offset.trans hv.offset.symm)

theorem parse?_textChars (t : Timestamp) (hyear : 0 ≤ t.year ∧ t.year ≤ 9999) :
    parse? t.textChars = some t.wholeSecond := by
  have hvalid : ofCivil? { t.toCivilTime with nanosecond := 0 } = some t.wholeSecond :=
    dif_pos t.wholeSecond.valid
  have hfirst : readWhole internetDate List.isEmpty t.textChars = some t.wholeSecond := by
    rw [readWhole, internetDate_textChars t hyear]
    exact hvalid
  rw [parse?, hfirst]
  rfl

/-- The text of a timestamp in the years of four digits is read as the one timestamp with the
same offset at the same instant, up to the fraction of its second.  It has the same text, and
casting to a string and back gives it too. -/
theorem text_reads_back (t : Timestamp) (hyear : 0 ≤ t.year ∧ t.year ≤ 9999) :
    ∃ u, parse? t.text.toList = some u ∧ u.text = t.text ∧
      (∀ v : Timestamp, v.IsWholeSecondOf t ↔ v = u) ∧
      (Value.timestamp t).cast .string = .ok (.string t.text) ∧
      (Value.string t.text).cast .timestamp = .ok (.timestamp u) := by
  have hread : parse? t.text.toList = some t.wholeSecond := by
    rw [text, String.toList_ofList]
    exact parse?_textChars t hyear
  refine ⟨t.wholeSecond, hread, rfl, fun v => ⟨fun hv => ?_, ?_⟩, rfl, ?_⟩
  · exact hv.unique t.isWholeSecondOf_wholeSecond
  · rintro rfl
    exact t.isWholeSecondOf_wholeSecond
  · rw [Value.cast, Value.toTimestamp, Value.readAs, hread]
    rfl

/-- Half a second into a leap second, on a day that ends later in the west. -/
def westernLeapSecond : Timestamp :=
  ⟨⟨2016, 12, 31, 23, 59, 60, 500000000, -27000⟩, by decide⟩

theorem westernLeapSecond_reads_back :
    parse? "2016-12-31T23:59:60.5-07:30".toList = some westernLeapSecond ∧
      (0 ≤ westernLeapSecond.year ∧ westernLeapSecond.year ≤ 9999) ∧
      ∃ u, parse? "2016-12-31T23:59:60-07:30".toList = some u ∧
        u.IsWholeSecondOf westernLeapSecond ∧ u.unixSeconds = 1483255799 := by
  have htext : westernLeapSecond.text = "2016-12-31T23:59:60-07:30" := by rfl
  obtain ⟨u, hread, -, hunique, -⟩ := text_reads_back westernLeapSecond (by decide)
  have hu := (hunique u).mpr rfl
  exact ⟨by rfl, by decide, u, htext ▸ hread, hu, hu.unixSeconds.trans (by decide)⟩

end PocketSql.Timestamp
