import Mathlib
import PocketSql.Proofs.Number.Places

/-!
# The double nearest to an integer

Rounding an integer to 53 binary digits keeps the order: as long as the number of digits stays,
a greater integer has a greater significand or the same one, and where it grows, the exponent
grows with it.  A significand that rounding makes one digit too long carries into the exponent,
so exponent and significand are compared as one number.
-/

namespace PocketSql.Number

open Float.Model UnpackedFloat

/-! ## Digits that are cut off -/

namespace Digits

/-- A significand with a digit and a trace of all digits behind it, as one number. -/
def value (x : ExtendedMantissa) : ℕ :=
  4 * x.mantissa + 2 * x.roundBit.toNat + x.stickyBit.toNat

theorem value_shiftRightOne_le {x y : ExtendedMantissa} (hxy : value x ≤ value y) :
    value x.shiftRightOne ≤ value y.shiftRightOne := by
  obtain ⟨m, r, s⟩ := x
  obtain ⟨m', r', s'⟩ := y
  simp only [value, ExtendedMantissa.shiftRightOne] at hxy ⊢
  rcases Nat.mod_two_eq_zero_or_one m with hm | hm <;>
    rcases Nat.mod_two_eq_zero_or_one m' with hm' | hm' <;>
    cases r <;> cases s <;> cases r' <;> cases s' <;> simp [hm, hm'] at hxy ⊢ <;> omega

theorem mantissa_le_roundedMantissa (x : ExtendedMantissa) :
    x.mantissa ≤ x.roundedMantissa ∧ x.roundedMantissa ≤ x.mantissa + 1 := by
  obtain ⟨m, r, s⟩ := x
  cases r <;> cases s <;>
    simp [ExtendedMantissa.roundedMantissa, ExtendedMantissa.accuracy,
      Accuracy.roundToNearestEven]
  omega

theorem roundedMantissa_le {x y : ExtendedMantissa} (hxy : value x ≤ value y) :
    x.roundedMantissa ≤ y.roundedMantissa := by
  have hmantissa : x.mantissa ≤ y.mantissa := by
    have hr := y.roundBit.toNat_le
    have hs := y.stickyBit.toNat_le
    rw [value, value] at hxy
    omega
  rcases hmantissa.lt_or_eq with hlt | heq
  · have hx := (mantissa_le_roundedMantissa x).2
    have hy := (mantissa_le_roundedMantissa y).1
    omega
  · obtain ⟨m, r, s⟩ := x
    obtain ⟨m', r', s'⟩ := y
    cases heq
    cases r <;> cases s <;> cases r' <;> cases s' <;>
      simp [value, ExtendedMantissa.roundedMantissa, ExtendedMantissa.accuracy,
        Accuracy.roundToNearestEven] at hxy ⊢
    omega

theorem shiftRight_succ (x : ExtendedMantissa) (k : ℕ) :
    x >>> (k + 1) = (x >>> k).shiftRightOne := by
  rfl

theorem value_shiftRight_le {x y : ExtendedMantissa} (hxy : value x ≤ value y) (k : ℕ) :
    value (x >>> k) ≤ value (y >>> k) := by
  induction k with
  | zero => exact hxy
  | succ k ih => exact value_shiftRightOne_le ih

theorem mantissa_shiftRight (x : ExtendedMantissa) (k : ℕ) :
    (x >>> k).mantissa = x.mantissa / 2 ^ k := by
  induction k with
  | zero => exact (Nat.div_one _).symm
  | succ k ih =>
      rw [shiftRight_succ, ExtendedMantissa.shiftRightOne, ih, Nat.div_div_eq_div_mul, pow_succ]

end Digits

/-- The 53 first binary digits of a positive integer, rounded by those behind them. -/
def roundedDigits (n : ℕ) : ℕ :=
  ((ExtendedMantissa.ofMantissaAndAccuracy (n <<< (52 - n.log2)) .exact) >>>
    (n.log2 - 52)).roundedMantissa

theorem roundedDigits_le {n m : ℕ} (hlog : n.log2 = m.log2) (hnm : n ≤ m) :
    roundedDigits n ≤ roundedDigits m := by
  rw [roundedDigits, roundedDigits, hlog]
  refine Digits.roundedMantissa_le (Digits.value_shiftRight_le ?_ _)
  have hshifted : n <<< (52 - m.log2) ≤ m <<< (52 - m.log2) := by
    rw [Nat.shiftLeft_eq, Nat.shiftLeft_eq]
    exact Nat.mul_le_mul_right _ hnm
  simp only [Digits.value, ExtendedMantissa.ofMantissaAndAccuracy]
  omega

/-- Rounding up may make one digit more. -/
theorem roundedDigits_bounds {n : ℕ} (hn : n ≠ 0) :
    2 ^ 52 ≤ roundedDigits n ∧ roundedDigits n ≤ 2 ^ 53 := by
  have hlow := Nat.log2_self_le hn
  have hhigh := Nat.lt_log2_self (n := n)
  have hdigits : 2 ^ 52 ≤ (n <<< (52 - n.log2)) / 2 ^ (n.log2 - 52) ∧
      (n <<< (52 - n.log2)) / 2 ^ (n.log2 - 52) < 2 ^ 53 := by
    have hlength : 52 + (n.log2 - 52) = n.log2 + (52 - n.log2) := by omega
    have hlength' : 53 + (n.log2 - 52) = n.log2 + 1 + (52 - n.log2) := by omega
    rw [Nat.shiftLeft_eq, Nat.le_div_iff_mul_le (Nat.two_pow_pos _),
      Nat.div_lt_iff_lt_mul (Nat.two_pow_pos _), ← pow_add, ← pow_add, hlength, hlength',
      pow_add, pow_add 2 (n.log2 + 1)]
    exact ⟨Nat.mul_le_mul_right _ hlow, Nat.mul_lt_mul_of_pos_right hhigh (Nat.two_pow_pos _)⟩
  have hround := Digits.mantissa_le_roundedMantissa
    (ExtendedMantissa.ofMantissaAndAccuracy (n <<< (52 - n.log2)) .exact >>> (n.log2 - 52))
  rw [Digits.mantissa_shiftRight] at hround
  rw [roundedDigits]
  simp only [ExtendedMantissa.ofMantissaAndAccuracy] at hround ⊢
  omega

/-! ## Rounding -/

/-- A significand of 53 digits, and with its exponent one number that orders such pairs. -/
structure Normal (significand : ℕ) (exponent code : ℤ) : Prop where
  low : 2 ^ 52 ≤ significand
  high : significand < 2 ^ 53
  code_eq : exponent * 2 ^ 52 + significand = code

/-- The exponent and the significand of the double nearest to a positive integer as one number. -/
def code (n : ℕ) : ℤ :=
  (n.log2 - 52) * 2 ^ 52 + roundedDigits n

theorem code_le {n m : ℕ} (hn : n ≠ 0) (hnm : n ≤ m) : code n ≤ code m := by
  have hm : m ≠ 0 := by omega
  have hlog : n.log2 ≤ m.log2 := (Nat.le_log2 hm).mpr ((Nat.log2_self_le hn).trans hnm)
  rw [code, code]
  rcases hlog.lt_or_eq with hlt | heq
  · have hbound := (roundedDigits_bounds hn).2
    have hbound' := (roundedDigits_bounds hm).1
    omega
  · have hdigits := roundedDigits_le heq hnm
    rw [heq]
    omega

theorem targetExponent_eq (m : ℕ) (e : ℤ) :
    Format.binary64.targetExponent (totalExponent m e) = max (m.log2 - 52 + e) (-1074) := by
  change max ((m.log2 + 1 + e : ℤ) - 53) (-1074) = _
  congr 1
  omega

/-- Above the range of the smallest doubles, everything behind the 53 first digits is cut off. -/
theorem shiftToTargetExponent_eq {m : ℕ} {e : ℤ} (accuracy : Accuracy)
    (hrange : -1074 ≤ m.log2 - 52 + e) :
    shiftToTargetExponent .binary64 m e accuracy =
      (ExtendedMantissa.ofMantissaAndAccuracy m accuracy >>> (m.log2 - 52),
        e + (m.log2 - 52 : ℕ)) := by
  have htarget : Format.binary64.targetExponent (totalExponent m e) = m.log2 - 52 + e :=
    (targetExponent_eq m e).trans (max_eq_left hrange)
  have hshift : ((m.log2 - 52 + e : ℤ) - e).toNat = m.log2 - 52 := by omega
  simp only [shiftToTargetExponent, shiftToExponent, htarget, hshift]

theorem log2_shiftLeft {n : ℕ} (hn : n ≠ 0) (k : ℕ) : (n <<< k).log2 = n.log2 + k := by
  have hlow := Nat.log2_self_le hn
  have hhigh := Nat.lt_log2_self (n := n)
  rw [Nat.shiftLeft_eq, Nat.log2_eq_iff (by positivity), pow_add, Nat.add_right_comm, pow_add]
  exact ⟨Nat.mul_le_mul_right _ hlow, Nat.mul_lt_mul_of_pos_right hhigh (Nat.two_pow_pos _)⟩

/-- One digit at most is left to cut off after the rounding, and it is a zero. -/
theorem normal_roundedDigits {n : ℕ} (hn : n ≠ 0) :
    Normal (roundedDigits n / 2 ^ ((roundedDigits n).log2 - 52))
      (n.log2 - 52 + ((roundedDigits n).log2 - 52 : ℕ)) (code n) := by
  obtain ⟨hlow, hhigh⟩ := roundedDigits_bounds hn
  rcases hhigh.lt_or_eq with hlt | heq
  · have hlog : (roundedDigits n).log2 = 52 := (Nat.log2_eq_iff (by omega)).mpr ⟨hlow, hlt⟩
    rw [hlog]
    constructor
    · simpa using hlow
    · simpa using hlt
    · simp [code]
  · rw [heq, Nat.log2_two_pow]
    constructor
    · decide
    · decide
    · rw [code, heq]
      norm_num
      ring

/-- The first shift of the rounding takes the 53 first digits. -/
theorem firstShift_eq {n : ℕ} (hn : n ≠ 0) :
    shiftToTargetExponent .binary64 (n <<< (52 - n.log2)) (0 - (52 - n.log2 : ℕ)) .exact =
      (ExtendedMantissa.ofMantissaAndAccuracy (n <<< (52 - n.log2)) .exact >>> (n.log2 - 52),
        (n.log2 : ℤ) - 52) := by
  have hlog := log2_shiftLeft hn (52 - n.log2)
  have hlength : n.log2 + (52 - n.log2) - 52 = n.log2 - 52 := by omega
  have hexponent : (0 - (52 - n.log2 : ℕ) + (n.log2 - 52 : ℕ) : ℤ) = n.log2 - 52 := by omega
  rw [shiftToTargetExponent_eq .exact (by omega), hlog, hlength, hexponent]

/-- The double nearest to a positive integer has the rounded digits as its significand. -/
theorem round_eq {n : ℕ} (hn : n ≠ 0) :
    ∃ significand exponent, ∃ hpos : 0 < significand, Normal significand exponent (code n) ∧
      ∀ s, UnpackedFloat.round .binary64 s n 0 = .finite s significand exponent hpos := by
  have hnormal := normal_roundedDigits hn
  have hpos := (Nat.two_pow_pos 52).trans_le hnormal.low
  refine ⟨_, _, hpos, hnormal, fun s => ?_⟩
  have htarget : Format.binary64.targetExponent (totalExponent n 0) = n.log2 - 52 := by
    rw [targetExponent_eq]
    omega
  have hshift : (0 - (n.log2 - 52 : ℤ)).toNat = 52 - n.log2 := by omega
  have hrounded : (ExtendedMantissa.ofMantissaAndAccuracy (n <<< (52 - n.log2)) .exact >>>
      (n.log2 - 52)).roundedMantissa = roundedDigits n := by
    rfl
  have hdigits : 52 ≤ (roundedDigits n).log2 := by
    have hlow := (roundedDigits_bounds hn).1
    exact (Nat.le_log2 (by omega)).mpr hlow
  have hlast := shiftToTargetExponent_eq (m := roundedDigits n) (e := n.log2 - 52) .exact
    (by omega)
  have hcut := Digits.mantissa_shiftRight
    (ExtendedMantissa.ofMantissaAndAccuracy (roundedDigits n) .exact)
    ((roundedDigits n).log2 - 52)
  rw [UnpackedFloat.round, htarget, decreaseExponent, hshift]
  simp only [roundWithAccuracy, firstShift_eq hn, hrounded, hlast, hcut]
  exact dif_neg hpos.ne'

/-! ## Packing -/

theorem unpackSign_packComponents {spec : Format} (s : Sign) (exponent : BitVec spec.exponentBits)
    (significand : BitVec spec.mantissaBitsWithoutImplicit) :
    unpackSign (packComponents spec s exponent significand) = s.toBitVec := by
  ext i hi
  cases Nat.lt_one_iff.mp hi
  have hbit : (s.toBitVec ++ exponent)[spec.exponentBits] = s.toBitVec[0] := by
    rw [BitVec.getElem_append, dif_neg (lt_irrefl _)]
    simp only [Nat.sub_self]
  simpa [unpackSign, packComponents, BitVec.getLsbD_append] using hbit

theorem ofBitVec_toBitVec (s : Sign) : Sign.ofBitVec s.toBitVec = s := by
  cases s <;> rfl

theorem unpack_pack_zero (s : Sign) : (Float.Model.pack (.zero s)).unpack = .zero s := by
  change UnpackedFloat.unpack .binary64 (packedZero .binary64 s) = _
  simp [UnpackedFloat.unpack, packedZero]

theorem toNat_one_append {significand : ℕ} (hlow : 2 ^ 52 ≤ significand)
    (hhigh : significand < 2 ^ 53) :
    (1#1 ++ BitVec.ofNat 52 significand).toNat = significand := by
  rw [BitVec.toNat_append, ← Nat.shiftLeft_add_eq_or_of_lt (BitVec.isLt _), BitVec.toNat_ofNat,
    Nat.shiftLeft_eq]
  simp
  omega

/-- A significand of 53 digits and an exponent in range come back from their bits. -/
theorem unpack_pack_finite (s : Sign) {significand : ℕ} {exponent c : ℤ} (hpos : 0 < significand)
    (hnormal : Normal significand exponent c) (hlow : -1074 ≤ exponent) (hhigh : exponent ≤ 971) :
    (Float.Model.pack (.finite s significand exponent hpos)).unpack =
      .finite s significand exponent hpos := by
  have hlog : significand.log2 = 52 :=
    (Nat.log2_eq_iff hpos.ne').mpr ⟨hnormal.low, hnormal.high⟩
  obtain ⟨biased, hbiased⟩ : ∃ biased : ℕ, exponent + 1075 = biased :=
    Int.eq_ofNat_of_zero_le (by omega)
  have hexponent : (BitVec.ofNat 11 biased).toNat = biased := by
    rw [BitVec.toNat_ofNat, Nat.mod_eq_of_lt (by omega)]
  have hordinary : BitVec.ofNat 11 biased ≠ -1#11 := by
    intro heq
    have hall := congrArg BitVec.toNat heq
    rw [hexponent] at hall
    have : (-1#11).toNat = 2047 := rfl
    omega
  have hnonzero : BitVec.ofNat 11 biased ≠ 0#11 := by
    intro heq
    have hzero := congrArg BitVec.toNat heq
    rw [hexponent, BitVec.toNat_zero] at hzero
    omega
  have hpack : UnpackedFloat.pack .binary64 (.finite s significand exponent hpos) =
      packComponents .binary64 s (BitVec.ofNat 11 biased) (BitVec.ofNat 52 significand) := by
    have htoNat : (exponent + (1023 : ℕ) + (52 : ℕ)).toNat = biased := by omega
    change (if 2 ^ 11 ≤ (exponent + (1023 : ℕ) + (52 : ℕ)).toNat + 1 then _ else
      if significand.log2 + 1 = 53 then
        packComponents .binary64 s (BitVec.ofNat 11 (exponent + (1023 : ℕ) + (52 : ℕ)).toNat)
          (BitVec.ofNat 52 significand)
      else _) = _
    rw [htoNat, if_neg (by omega), if_pos (by omega)]
  change UnpackedFloat.unpack .binary64 (UnpackedFloat.pack .binary64 _) = _
  rw [hpack, UnpackedFloat.unpack]
  simp only [unpackMantissa_packComponents, unpackExponent_packComponents,
    unpackSign_packComponents, ofBitVec_toBitVec, hordinary, hnonzero, if_false, hexponent,
    toNat_one_append hnormal.low hnormal.high]
  congr 1
  change (biased : ℤ) - ((1023 : ℕ) + (52 : ℕ)) = exponent
  omega

/-! ## Integers as doubles -/

/-- The places of the doubles nearest to integers. -/
inductive IntegerPlace : ℤ → Place → Prop
  | zero : IntegerPlace 0 (.of 0 0 0)
  | positive {n significand : ℕ} {exponent : ℤ} :
      n ≠ 0 → Normal significand exponent (code n) → IntegerPlace n (.of 1 exponent significand)
  | negative {n significand : ℕ} {exponent : ℤ} :
      n ≠ 0 → Normal significand exponent (code n) →
      IntegerPlace (-n) (.of (-1) (-exponent) (-significand))

theorem Place.of_lt_of {kind kind' : ℤ} (hkind : kind < kind') (e m e' m' : ℤ) :
    Place.of kind e m < Place.of kind' e' m' := by
  rw [← compare_lt_iff_lt, Place.compare_of, compare_lt_iff_lt.mpr hkind]
  rfl

theorem Place.of_le_of_iff {kind e m e' m' : ℤ} :
    Place.of kind e m ≤ Place.of kind e' m' ↔ e < e' ∨ e = e' ∧ m ≤ m' := by
  simp [Place.of, Prod.Lex.le_iff]

/-- Greater integers do not have lesser doubles. -/
theorem IntegerPlace.le {a b : ℤ} {p q : Place} (ha : IntegerPlace a p) (hb : IntegerPlace b q)
    (hab : a ≤ b) : p ≤ q := by
  cases ha with
  | zero =>
      cases hb with
      | zero => exact le_rfl
      | positive => exact (Place.of_lt_of (by decide) ..).le
      | negative hn => omega
  | positive hn hnormal =>
      cases hb with
      | zero | negative => omega
      | positive _ hnormal' =>
          have hcode := code_le hn (Int.ofNat_le.mp hab)
          obtain ⟨hlow, hhigh, heq⟩ := hnormal
          obtain ⟨hlow', hhigh', heq'⟩ := hnormal'
          rw [Place.of_le_of_iff]
          omega
  | negative hn hnormal =>
      cases hb with
      | zero | positive => exact (Place.of_lt_of (by decide) ..).le
      | negative hm hnormal' =>
          have hcode := code_le hm (Int.ofNat_le.mp (Int.neg_le_neg_iff.mp hab))
          obtain ⟨hlow, hhigh, heq⟩ := hnormal
          obtain ⟨hlow', hhigh', heq'⟩ := hnormal'
          rw [Place.of_le_of_iff]
          omega

/-- The double nearest to a positive integer below 2 ^ 64 is finite. -/
theorem unpack_pack_round {n : ℕ} (hn : n ≠ 0) (hword : n < 2 ^ 64) :
    ∃ significand exponent, ∃ hpos : 0 < significand, Normal significand exponent (code n) ∧
      ∀ s, (Float.Model.pack (UnpackedFloat.round .binary64 s n 0)).unpack =
        .finite s significand exponent hpos := by
  obtain ⟨significand, exponent, hpos, hnormal, hround⟩ := round_eq hn
  refine ⟨significand, exponent, hpos, hnormal, fun s => ?_⟩
  have hlog : n.log2 < 64 := (Nat.log2_lt hn).mpr hword
  have hrange : -1074 ≤ exponent ∧ exponent ≤ 971 := by
    obtain ⟨hlow, hhigh⟩ := roundedDigits_bounds hn
    obtain ⟨hdigits, hdigits', hcode⟩ := hnormal
    rw [code] at hcode
    omega
  rw [hround]
  exact unpack_pack_finite s hpos hnormal hrange.1 hrange.2

theorem place?_ofInteger (i : Int64) :
    ∃ p, place? (ofInteger i) = some p ∧ IntegerPlace i.toInt p := by
  have hword := i.le_toInt
  have hword' := i.toInt_lt
  have hplace : place? (ofInteger i) =
      placeOf? (Float.Model.pack (normalize .binary64 i.toInt 0 .positive)).unpack := by
    rfl
  rw [hplace, UnpackedFloat.normalize]
  rcases lt_trichotomy i.toInt 0 with hneg | hzero | hpos
  · have hn : (-i.toInt).toNat ≠ 0 := by omega
    obtain ⟨significand, exponent, hs, hnormal, hround⟩ := unpack_pack_round hn (by omega)
    rw [compare_lt_iff_lt.mpr hneg, hround .negative]
    have hplace := IntegerPlace.negative hn hnormal
    rw [Int.toNat_of_nonneg (by omega), neg_neg] at hplace
    exact ⟨_, rfl, hplace⟩
  · rw [hzero]
    exact ⟨_, congrArg placeOf? (unpack_pack_zero .positive), .zero⟩
  · have hn : i.toInt.toNat ≠ 0 := by omega
    obtain ⟨significand, exponent, hs, hnormal, hround⟩ := unpack_pack_round hn (by omega)
    rw [compare_gt_iff_gt.mpr hpos, hround .positive]
    have hplace := IntegerPlace.positive hn hnormal
    rw [Int.toNat_of_nonneg (by omega)] at hplace
    exact ⟨_, rfl, hplace⟩

/-- The doubles nearest to two integers are in the order of the integers. -/
theorem place?_ofInteger_le {a b : Int64} {p q : Place} (ha : place? (ofInteger a) = some p)
    (hb : place? (ofInteger b) = some q) (hab : a.toInt ≤ b.toInt) : p ≤ q := by
  obtain ⟨p', hp, hplace⟩ := place?_ofInteger a
  obtain ⟨q', hq, hplace'⟩ := place?_ofInteger b
  cases ha.symm.trans hp
  cases hb.symm.trans hq
  exact hplace.le hplace' hab

end PocketSql.Number
