import Mathlib

/-!
# Doubles that are numbers

A double stands for a number if it is zero or normal (`IsDouble`). Such
doubles are compared as the numbers are (`IsDouble.le_iff`,
`IsDouble.beq_iff`). Natural numbers below `2 ^ 53` are doubles, and whole
numbers of this size are subtracted without loss (`IsDouble.ofNat`,
`IsDouble.sub`).

A quotient is rounded, so it can only be told from a bound with some care.
Rounding a mantissa of 53 bits loses less than one unit of its last bit, and
a power of two is a whole number of these units (`roundedQuotient_bounds`).
So a quotient does not come out above a power of two if it is not, and does
come out above if it exceeds it by more than one part in `2 ^ 52`
(`Double.div_denotes`). Shares of counts below `2 ^ 52` are told from one
half in this way (`IsDouble.div_le_half_iff`).
-/

namespace CodeProfile

open Float.Model Float.Model.UnpackedFloat

namespace Double

/-- The unpacked double is the number: zero, or a mantissa of 53 bits times a
power of two in the range of normal doubles. -/
inductive Denotes : UnpackedFloat → ℚ → Prop
  | zero (s : Sign) : Denotes (.zero s) 0
  | finite (s : Sign) {m : ℕ} {e : ℤ} (hm : 2 ^ 52 ≤ m) (hm' : m < 2 ^ 53) (he : -1074 ≤ e)
      (he' : e ≤ 971) (hpos : 0 < m) : Denotes (.finite s m e hpos) (s.apply m * 2 ^ e)

variable {u v : UnpackedFloat} {q r : ℚ} {s : Sign} {m j : ℕ} {e : ℤ} {accuracy : Accuracy}

theorem apply_positive (m : ℕ) (e : ℤ) :
    ((Sign.positive.apply m : ℤ) : ℚ) * 2 ^ e = m * 2 ^ e := by
  rw [Sign.apply, Int.cast_natCast]

theorem apply_negative (m : ℕ) (e : ℤ) :
    ((Sign.negative.apply m : ℤ) : ℚ) * 2 ^ e = -(m * 2 ^ e) := by
  rw [Sign.apply, Int.cast_neg, Int.cast_natCast, neg_mul]

/-! ## Packing -/

theorem toNat_leadingBit (hm : 2 ^ 52 ≤ m) (hm' : m < 2 ^ 53) :
    (1#1 ++ BitVec.ofNat 52 m).toNat = m := by
  have hrest : m % 2 ^ 52 = m - 2 ^ 52 := by omega
  have hbit := Nat.two_pow_add_eq_or_of_lt (Nat.mod_lt m (Nat.two_pow_pos 52)) 1
  rw [BitVec.toNat_append, BitVec.toNat_ofNat, BitVec.toNat_ofNat, Nat.shiftLeft_eq, Nat.mul_comm,
    show 1 % 2 ^ 1 = 1 from rfl, ← hbit, hrest]
  omega

/-- The exponent is stored as a positive number. -/
theorem pack_finite {b : ℕ} (hm : 2 ^ 52 ≤ m) (hm' : m < 2 ^ 53) (hpos : 0 < m)
    (hb : (b : ℤ) = e + 1075) (hb' : b ≤ 2046) : UnpackedFloat.pack .binary64 (.finite s m e hpos)
      = packComponents .binary64 s (BitVec.ofNat 11 b) (BitVec.ofNat 52 m) := by
  have hlog : m.log2 = 52 := (Nat.log2_eq_iff hpos.ne').mpr ⟨hm, hm'⟩
  have hbiased : (e + (Format.exponentBias .binary64 : ℕ) + (52 : ℕ)).toNat = b := by
    show (e + 1023 + 52).toNat = b
    omega
  rw [UnpackedFloat.pack]
  simp only [hbiased, hlog]
  rw [if_neg (by omega), if_pos (by decide)]

/-- What is packed is found again. -/
theorem unpack_pack (h : Denotes u q) : (Float.Model.pack u).unpack = u := by
  show unpack .binary64 (pack .binary64 u) = u
  cases h with
  | zero s => cases s <;> rfl
  | @finite s m e hm hm' he he' hpos =>
      obtain ⟨b, hb, hb1, hb2⟩ : ∃ b : ℕ, (b : ℤ) = e + 1075 ∧ 1 ≤ b ∧ b ≤ 2046 :=
        ⟨(e + 1075).toNat, by omega, by omega, by omega⟩
      have hexponent : (BitVec.ofNat 11 b).toNat = b := by
        rw [BitVec.toNat_ofNat, Nat.mod_eq_of_lt (by omega)]
      have hnormal : BitVec.ofNat 11 b ≠ -1#11 ∧ BitVec.ofNat 11 b ≠ 0#11 := by
        constructor <;> intro hb' <;> rw [hb'] at hexponent <;> simp at hexponent <;> omega
      have hvalue : (b : ℤ) - ((1023 : ℕ) + (52 : ℕ)) = e := by omega
      rw [pack_finite hm hm' hpos hb hb2, UnpackedFloat.unpack]
      simp only [unpackExponent_packComponents, unpackMantissa_packComponents,
        unpackSign_packComponents, Sign.ofBitVec_toBitVec]
      rw [if_neg hnormal.1, if_neg hnormal.2]
      simp only [toNat_leadingBit hm hm', hexponent]
      exact congrArg (UnpackedFloat.finite s m · hpos) hvalue

/-! ## Rounding -/

theorem mantissa_shiftRight (em : ExtendedMantissa) (j : ℕ) :
    (em >>> j).mantissa = em.mantissa / 2 ^ j := by
  induction j with
  | zero => simp [HShiftRight.hShiftRight, Nat.repeat]
  | succ j ih =>
      show (em >>> j).mantissa / 2 = em.mantissa / 2 ^ (j + 1)
      rw [ih, Nat.div_div_eq_div_mul, pow_succ]

theorem shiftRight_exact (k j : ℕ) :
    (⟨k * 2 ^ j, false, false⟩ : ExtendedMantissa) >>> j = ⟨k, false, false⟩ := by
  induction j generalizing k with
  | zero => simp [HShiftRight.hShiftRight, Nat.repeat]
  | succ j ih =>
      have htwice : k * 2 ^ (j + 1) = (k * 2) * 2 ^ j := by ring
      show ((⟨k * 2 ^ (j + 1), false, false⟩ : ExtendedMantissa) >>> j).shiftRightOne = _
      rw [htwice, ih]
      simp [ExtendedMantissa.shiftRightOne]

theorem roundedMantissa_bounds (em : ExtendedMantissa) :
    em.mantissa ≤ em.roundedMantissa ∧ em.roundedMantissa ≤ em.mantissa + 1 := by
  obtain ⟨m, _ | _, _ | _⟩ := em
  all_goals
    simp only [ExtendedMantissa.roundedMantissa, ExtendedMantissa.accuracy,
      Accuracy.roundToNearestEven]
    omega

theorem shiftToTargetExponent_eq (accuracy : Accuracy) (hm : 2 ^ (52 + j) ≤ m)
    (hm' : m < 2 ^ (53 + j)) (he : -1074 ≤ e + j) : shiftToTargetExponent .binary64 m e accuracy
      = (ExtendedMantissa.ofMantissaAndAccuracy m accuracy >>> j, e + j) := by
  have hpos : m ≠ 0 := (Nat.lt_of_lt_of_le (Nat.two_pow_pos _) hm).ne'
  have hlog : m.log2 = 52 + j := (Nat.log2_eq_iff hpos).mpr ⟨hm, by rwa [Nat.add_right_comm]⟩
  have htarget : Format.targetExponent .binary64 (totalExponent m e) = e + j := by
    show max ((m.log2 : ℤ) + 1 + e - 53) (-1074) = e + j
    rw [hlog]
    omega
  rw [shiftToTargetExponent, htarget, shiftToExponent, add_sub_cancel_left, Int.toNat_natCast]

/-- Zeros behind a number make it longer by as many bits. -/
theorem width_mul_two_pow {a n : ℕ} (h : 2 ^ a ≤ n) (h' : n < 2 ^ (a + 1)) (i : ℕ) :
    2 ^ (a + i) ≤ n * 2 ^ i ∧ n * 2 ^ i < 2 ^ (a + 1 + i) := by
  rw [pow_add, pow_add]
  exact ⟨Nat.mul_le_mul_right _ h, Nat.mul_lt_mul_of_pos_right h' (Nat.two_pow_pos i)⟩

theorem shiftToTargetExponent_exact {k : ℕ} (hk : 2 ^ 52 ≤ k) (hk' : k < 2 ^ 53)
    (he : -1074 ≤ e + j) : shiftToTargetExponent .binary64 (k * 2 ^ j) e .exact
      = (⟨k, false, false⟩, e + j) := by
  obtain ⟨hlow, hhigh⟩ := width_mul_two_pow hk hk' j
  rw [shiftToTargetExponent_eq _ hlow hhigh he, ExtendedMantissa.ofMantissaAndAccuracy,
    shiftRight_exact]

theorem roundWithAccuracy_of_shifts {em : ExtendedMantissa} {k : ℕ} {e₁ e₂ : ℤ} (s : Sign)
    (hfirst : shiftToTargetExponent .binary64 m e accuracy = (em, e₁))
    (hsecond : shiftToTargetExponent .binary64 em.roundedMantissa e₁ .exact
      = (⟨k, false, false⟩, e₂)) (hk : 0 < k) :
    roundWithAccuracy .binary64 s m e accuracy = .finite s k e₂ hk := by
  simp only [roundWithAccuracy, hfirst, hsecond]
  rw [dif_neg hk.ne']

/-- A mantissa that fits is kept, however many zeros stand behind it. -/
theorem roundWithAccuracy_exact {k : ℕ} (s : Sign) (hk : 2 ^ 52 ≤ k) (hk' : k < 2 ^ 53)
    (he : -1074 ≤ e + j) : roundWithAccuracy .binary64 s (k * 2 ^ j) e .exact
      = .finite s k (e + j) (by omega) := by
  have hsecond : shiftToTargetExponent .binary64 k (e + j) .exact = (⟨k, false, false⟩, e + j) := by
    simpa using shiftToTargetExponent_exact (e := e + j) (j := 0) hk hk' (by simpa)
  exact roundWithAccuracy_of_shifts s (shiftToTargetExponent_exact hk hk' he) hsecond _

/-- Rounding a mantissa that may be too long by `j` bits drops these bits, and
loses nothing if nothing stands in them. -/
theorem roundWithAccuracy_denotes (accuracy : Accuracy) (s : Sign) (hm : 2 ^ (52 + j) ≤ m)
    (hm' : m < 2 ^ (53 + j)) (he : -1074 ≤ e + j) (he' : e + j ≤ 970) :
    ∃ n : ℕ, m / 2 ^ j ≤ n ∧ n ≤ m / 2 ^ j + 1
      ∧ (accuracy = .exact → 2 ^ j ∣ m → n = m / 2 ^ j)
      ∧ Denotes (roundWithAccuracy .binary64 s m e accuracy) (s.apply n * 2 ^ (e + j)) := by
  have hlow : 2 ^ 52 ≤ m / 2 ^ j := by
    rw [Nat.le_div_iff_mul_le (Nat.two_pow_pos _), ← pow_add]
    exact hm
  have hhigh : m / 2 ^ j < 2 ^ 53 := by
    rw [Nat.div_lt_iff_lt_mul (Nat.two_pow_pos _), ← pow_add]
    exact hm'
  have hfirst := shiftToTargetExponent_eq accuracy hm hm' he
  have hmantissa : (ExtendedMantissa.ofMantissaAndAccuracy m accuracy >>> j).mantissa
      = m / 2 ^ j := by
    rw [mantissa_shiftRight]
    cases accuracy with
    | exact => rfl
    | inexact o => cases o <;> rfl
  have hexact (haccuracy : accuracy = .exact) (hdvd : 2 ^ j ∣ m) :
      (ExtendedMantissa.ofMantissaAndAccuracy m accuracy >>> j).roundedMantissa = m / 2 ^ j := by
    obtain ⟨k, rfl⟩ := hdvd
    rw [haccuracy, ExtendedMantissa.ofMantissaAndAccuracy, Nat.mul_comm, shiftRight_exact,
      Nat.mul_div_cancel _ (Nat.two_pow_pos _)]
    rfl
  generalize ExtendedMantissa.ofMantissaAndAccuracy m accuracy >>> j = em at hfirst hmantissa hexact
  obtain ⟨hle, hle'⟩ := roundedMantissa_bounds em
  rw [hmantissa] at hle hle'
  refine ⟨em.roundedMantissa, hle, hle', hexact, ?_⟩
  rcases Nat.lt_or_ge em.roundedMantissa (2 ^ 53) with hfits | hover
  · have hsecond : shiftToTargetExponent .binary64 em.roundedMantissa (e + j) .exact
        = (⟨em.roundedMantissa, false, false⟩, e + j) := by
      simpa using shiftToTargetExponent_exact (e := e + j) (j := 0) (hlow.trans hle) hfits
        (by simpa)
    rw [roundWithAccuracy_of_shifts s hfirst hsecond (by omega)]
    exact .finite s (hlow.trans hle) hfits he (by omega) _
  · -- The mantissa has grown by a bit.
    have hfull : em.roundedMantissa = 2 ^ 52 * 2 ^ 1 := by omega
    have hsecond := shiftToTargetExponent_exact (k := 2 ^ 52) (j := 1) (e := e + j) le_rfl
      (by decide) (by omega)
    rw [← hfull] at hsecond
    rw [roundWithAccuracy_of_shifts s hfirst hsecond (by decide), hfull]
    have hvalue : ((s.apply (2 ^ 52 * 2 ^ 1 : ℕ) : ℤ) : ℚ) * 2 ^ (e + j)
        = (s.apply (2 ^ 52 : ℕ) : ℤ) * 2 ^ (e + j + (1 : ℕ)) := by
      have hpower : (2 : ℚ) ^ (e + j + (1 : ℕ)) = 2 ^ (e + j) * 2 := by
        rw [Nat.cast_one, zpow_add_one₀ two_ne_zero]
      rw [hpower]
      cases s <;> simp only [Sign.apply] <;> push_cast <;> ring
    rw [hvalue]
    exact .finite s le_rfl (by decide) (by omega) (by omega) _

/-! ## Whole numbers -/

/-- Rounding a natural number that fits, with zeros behind it, is exact. -/
theorem round_denotes {n : ℕ} (s : Sign) (hn : 0 < n) (hn' : n < 2 ^ 53) (i : ℕ) :
    Denotes (round .binary64 s (n * 2 ^ i) (-i)) (s.apply n) := by
  obtain ⟨hlow, hhigh⟩ := (Nat.log2_eq_iff hn.ne').mp rfl
  have hl : n.log2 ≤ 52 := Nat.lt_succ_iff.mp ((Nat.log2_lt hn.ne').mpr hn')
  obtain ⟨k, hk⟩ : ∃ k, n.log2 + k = 52 := ⟨52 - n.log2, by omega⟩
  have hlog : (n * 2 ^ i).log2 = n.log2 + i := by
    rw [Nat.log2_eq_iff (by positivity), Nat.add_right_comm]
    exact width_mul_two_pow hlow hhigh i
  have htarget : Format.targetExponent .binary64 (totalExponent (n * 2 ^ i) (-i)) = -k := by
    show max (((n * 2 ^ i).log2 : ℤ) + 1 + -i - 53) (-1074) = -k
    rw [hlog]
    omega
  have hwidth : 2 ^ 52 ≤ n * 2 ^ k ∧ n * 2 ^ k < 2 ^ 53 := by
    rw [← hk, show 53 = n.log2 + 1 + k by omega]
    exact width_mul_two_pow hlow hhigh k
  -- The mantissa gets `k` zeros, of which `i` are there, or has more than it needs.
  have hround : round .binary64 s (n * 2 ^ i) (-i)
      = roundWithAccuracy .binary64 s (n * 2 ^ k * 2 ^ (i - k)) (-(k + (i - k : ℕ))) .exact := by
    have hzeros : i + (k - i) = k + (i - k) := by omega
    have hshift : ((-i : ℤ) - -k).toNat = k - i := by omega
    have hexponent : (-i : ℤ) - (k - i : ℕ) = -(k + (i - k : ℕ)) := by omega
    rw [UnpackedFloat.round, htarget]
    simp only [decreaseExponent, hshift, hexponent, Nat.shiftLeft_eq, Nat.mul_assoc, ← pow_add,
      hzeros]
  have hvalue : ((s.apply n : ℤ) : ℚ)
      = (s.apply (n * 2 ^ k : ℕ) : ℤ) * 2 ^ (-(k + (i - k : ℕ)) + (i - k : ℕ) : ℤ) := by
    rw [neg_add, neg_add_cancel_right, zpow_neg, zpow_natCast]
    cases s <;> simp only [Sign.apply] <;> push_cast <;> field_simp
  rw [hround, roundWithAccuracy_exact s hwidth.1 hwidth.2 (by omega), hvalue]
  exact .finite s hwidth.1 hwidth.2 (by omega) (by omega) _

/-- So is a whole number. -/
theorem normalize_denotes {z : ℤ} (hz : |z| < 2 ^ 53) (i : ℕ) :
    Denotes (UnpackedFloat.normalize .binary64 (z * 2 ^ i) (-i) .positive) z := by
  have hpow : (0 : ℤ) < 2 ^ i := by positivity
  rw [abs_lt] at hz
  rcases lt_trichotomy z 0 with hneg | rfl | hpos
  · obtain ⟨n, rfl⟩ : ∃ n : ℕ, z = -n := ⟨z.natAbs, by omega⟩
    have hcompare : compare (-(n : ℤ) * 2 ^ i) 0 = .lt :=
      compare_lt_iff_lt.mpr (mul_neg_of_neg_of_pos hneg hpow)
    have hmantissa : (-(-(n : ℤ) * 2 ^ i)).toNat = n * 2 ^ i := by
      rw [neg_mul, neg_neg]
      exact_mod_cast Int.toNat_natCast (n * 2 ^ i)
    rw [UnpackedFloat.normalize, hcompare]
    simp only [hmantissa]
    exact round_denotes .negative (by omega) (by omega) i
  · rw [zero_mul, Int.cast_zero]
    exact .zero .positive
  · obtain ⟨n, rfl⟩ : ∃ n : ℕ, z = n := ⟨z.natAbs, by omega⟩
    have hcompare : compare ((n : ℤ) * 2 ^ i) 0 = .gt :=
      compare_gt_iff_gt.mpr (mul_pos hpos hpow)
    have hmantissa : ((n : ℤ) * 2 ^ i).toNat = n * 2 ^ i := by
      exact_mod_cast Int.toNat_natCast (n * 2 ^ i)
    rw [UnpackedFloat.normalize, hcompare]
    simp only [hmantissa]
    exact round_denotes .positive (by omega) (by omega) i

/-- The size of a number is that of the mantissa with its exponent. -/
theorem abs_apply (s : Sign) (m : ℕ) (e : ℤ) : |((s.apply m : ℤ) : ℚ) * 2 ^ e| = m * 2 ^ e := by
  rw [abs_mul, abs_of_pos (show (0 : ℚ) < 2 ^ e by positivity)]
  cases s <;> simp [Sign.apply]

/-- A number below `2 ^ 53` has no exponent above zero. -/
theorem exponent_nonpos (hm : 2 ^ 52 ≤ m) (h : (m : ℚ) * 2 ^ e < 2 ^ 53) : e ≤ 0 := by
  by_contra hpos
  have hm' : (2 : ℚ) ^ 52 ≤ m := by exact_mod_cast hm
  have hpow : (2 : ℚ) ^ (1 : ℤ) ≤ 2 ^ e := zpow_le_zpow_right₀ one_le_two (by omega)
  have hbig : (2 : ℚ) ^ 52 * 2 ^ (1 : ℤ) ≤ m * 2 ^ e := by gcongr
  norm_num at hbig h
  linarith

/-- A number from one on has no exponent below `-52`. -/
theorem le_exponent (hm : m < 2 ^ 53) (h : 1 ≤ (m : ℚ) * 2 ^ e) : -52 ≤ e := by
  by_contra hneg
  have hm' : (m : ℚ) < 2 ^ 53 := by exact_mod_cast hm
  have hpow : (2 : ℚ) ^ e ≤ 2 ^ (-53 : ℤ) := zpow_le_zpow_right₀ one_le_two (by omega)
  have hsmall : (m : ℚ) * 2 ^ e < 1 :=
    calc (m : ℚ) * 2 ^ e < 2 ^ 53 * 2 ^ e := by gcongr
      _ ≤ 2 ^ 53 * 2 ^ (-53 : ℤ) := mul_le_mul_of_nonneg_left hpow (by positivity)
      _ = 1 := by norm_num
  linarith

/-- A product with one is the other factor. -/
theorem mul_one_denotes (hu : Denotes u q) :
    Denotes (u.mul .binary64 (.finite .positive (2 ^ 52) (-52) (by decide))) q := by
  cases hu with
  | zero s => exact .zero _
  | @finite s m e hm hm' he he' hpos =>
      have hsign : s * .positive = s := by cases s <;> rfl
      have hproduct : roundWithAccuracy .binary64 s (m * 2 ^ 52) (e + -52) .exact
          = .finite s m e hpos := by
        rw [roundWithAccuracy_exact s hm hm' (by omega)]
        exact congrArg (UnpackedFloat.finite s m · hpos) (neg_add_cancel_right e 52)
      rw [UnpackedFloat.mul, hsign, hproduct]
      exact .finite s hm hm' he he' hpos

/-- A mantissa may be written with a lower exponent. -/
theorem apply_shift (s : Sign) (m : ℕ) {e f : ℤ} (h : f ≤ e) :
    ((s.apply (m <<< (e - f).toNat : ℕ) : ℤ) : ℚ) * 2 ^ f = (s.apply m : ℤ) * 2 ^ e := by
  have hpower : (2 : ℚ) ^ e = 2 ^ (e - f).toNat * 2 ^ f := by
    rw [← zpow_natCast, ← zpow_add₀ two_ne_zero, Int.toNat_of_nonneg (by omega), sub_add_cancel]
  rw [hpower, Nat.shiftLeft_eq]
  cases s <;> simp only [Sign.apply] <;> push_cast <;> ring

/-- The difference of whole numbers below `2 ^ 53` is exact. -/
theorem sub_denotes {a b : ℤ} (ha : |a| < 2 ^ 53) (hab : |a - b| < 2 ^ 53)
    (hu : Denotes u a) (hv : Denotes v b) : Denotes (u.sub .binary64 v) (a - b : ℤ) := by
  have ha' : |(a : ℚ)| < 2 ^ 53 := by exact_mod_cast ha
  rw [Int.cast_sub]
  generalize hq : (a : ℚ) = q at hu ha'
  generalize hr : (b : ℚ) = r at hv
  cases hu with
  | zero s =>
      cases hv with
      | zero t =>
          rw [sub_zero]
          cases s <;> cases t <;> exact .zero _
      | @finite t n f hn hn' hf hf' hnpos =>
          have hneg : (0 : ℚ) - (t.apply n : ℤ) * 2 ^ f = ((-t).apply n : ℤ) * 2 ^ f := by
            cases t with
            | positive =>
                rw [apply_positive, zero_sub]
                exact (apply_negative n f).symm
            | negative =>
                rw [apply_negative, sub_neg_eq_add, zero_add]
                exact (apply_positive n f).symm
          rw [hneg]
          exact .finite _ hn hn' hf hf' hnpos
  | @finite s m e hm hm' he he' hmpos =>
      cases hv with
      | zero t =>
          rw [sub_zero]
          exact .finite s hm hm' he he' hmpos
      | @finite t n f hn hn' hf hf' hnpos =>
          have hmin : min e f ≤ 0 :=
            (min_le_left e f).trans (exponent_nonpos hm (abs_apply s m e ▸ ha'))
          obtain ⟨i, hi⟩ : ∃ i : ℕ, min e f = -i := ⟨(-min e f).toNat, by omega⟩
          have hmantissa : s.apply (m <<< (e - min e f).toNat : ℕ)
              - t.apply (n <<< (f - min e f).toNat : ℕ) = (a - b) * 2 ^ i := by
            have hleft := apply_shift s m (min_le_left e f)
            have hright := apply_shift t n (min_le_right e f)
            rw [← hq, hi, zpow_neg, zpow_natCast, mul_inv_eq_iff_eq_mul₀ (by positivity)] at hleft
            rw [← hr, hi, zpow_neg, zpow_natCast, mul_inv_eq_iff_eq_mul₀ (by positivity)] at hright
            rw [sub_mul, hi]
            exact_mod_cast congrArg₂ (· - ·) hleft hright
          rw [UnpackedFloat.sub]
          simp only [decreaseExponent]
          rw [hmantissa, hi, ← hq, ← hr, ← Int.cast_sub]
          exact normalize_denotes hab i

/-! ## Order -/

theorem compare_mantissas {m n : ℕ} {e f : ℤ} (hm : 2 ^ 52 ≤ m) (hm' : m < 2 ^ 53)
    (hn : 2 ^ 52 ≤ n) (hn' : n < 2 ^ 53) :
    (compare e f).then (compare m n) = cmp ((m : ℚ) * 2 ^ e) (n * 2 ^ f) := by
  have hless {m n : ℕ} {e f : ℤ} (hm' : m < 2 ^ 53) (hn : 2 ^ 52 ≤ n) (h : e < f) :
      (m : ℚ) * 2 ^ e < n * 2 ^ f := by
    have hm : (m : ℚ) < 2 ^ 53 := by exact_mod_cast hm'
    have hn : (2 : ℚ) ^ 52 ≤ n := by exact_mod_cast hn
    calc (m : ℚ) * 2 ^ e < 2 ^ 53 * 2 ^ e := by gcongr
      _ = 2 ^ 52 * 2 ^ (e + 1) := by rw [zpow_add_one₀ two_ne_zero]; ring
      _ ≤ n * 2 ^ f := by
          gcongr
          · exact one_le_two
          · exact h
  rcases lt_trichotomy e f with h | rfl | h
  · rw [compare_lt_iff_lt.mpr h, (cmp_eq_lt_iff _ _).mpr (hless hm' hn h)]
    rfl
  · have hpos : (0 : ℚ) < 2 ^ e := by positivity
    rw [compare_eq_iff_eq.mpr rfl]
    rcases lt_trichotomy m n with h | rfl | h
    · rw [compare_lt_iff_lt.mpr h, (cmp_eq_lt_iff _ _).mpr]
      · rfl
      · gcongr
    · rw [compare_eq_iff_eq.mpr rfl, (cmp_eq_eq_iff _ _).mpr rfl]
      rfl
    · rw [compare_gt_iff_gt.mpr h, (cmp_eq_gt_iff _ _).mpr]
      · rfl
      · gcongr
  · rw [compare_gt_iff_gt.mpr h, (cmp_eq_gt_iff _ _).mpr (hless hn' hm h)]
    rfl

/-- Doubles are compared like the numbers. -/
theorem compare_eq (hu : Denotes u q) (hv : Denotes v r) : u.compare v = some (cmp q r) := by
  have hpos {m : ℕ} (hm : 0 < m) (e : ℤ) : (0 : ℚ) < m * 2 ^ e := by
    have hm' : (0 : ℚ) < m := by exact_mod_cast hm
    positivity
  have hlt {q r : ℚ} (h : q < r) : some Ordering.lt = some (cmp q r) := by
    rw [(cmp_eq_lt_iff q r).mpr h]
  have hgt {q r : ℚ} (h : r < q) : some Ordering.gt = some (cmp q r) := by
    rw [(cmp_eq_gt_iff q r).mpr h]
  cases hu with
  | zero s =>
      cases hv with
      | zero t => rw [cmp_self_eq_eq]; rfl
      | @finite t n f hn hn' hf hf' hnpos =>
          have hr := hpos hnpos f
          cases t with
          | positive => rw [apply_positive]; exact hlt hr
          | negative => rw [apply_negative]; exact hgt (neg_lt_zero.mpr hr)
  | @finite s m e hm hm' he he' hmpos =>
      have hq := hpos hmpos e
      cases hv with
      | zero t =>
          cases s with
          | positive => rw [apply_positive]; exact hgt hq
          | negative => rw [apply_negative]; exact hlt (neg_lt_zero.mpr hq)
      | @finite t n f hn hn' hf hf' hnpos =>
          have hr := hpos hnpos f
          have hcompare := compare_mantissas (e := e) (f := f) hm hm' hn hn'
          cases s <;> cases t
          case positive.positive =>
            rw [apply_positive, apply_positive, ← hcompare]
            rfl
          case positive.negative =>
            rw [apply_positive, apply_negative]
            exact hgt (by linarith)
          case negative.positive =>
            rw [apply_negative, apply_positive]
            exact hlt (by linarith)
          case negative.negative =>
            have hneg : cmp (-((m : ℚ) * 2 ^ e)) (-(n * 2 ^ f))
                = (cmp ((m : ℚ) * 2 ^ e) (n * 2 ^ f)).swap := by
              rw [cmp_swap]
              simp [cmp, cmpUsing]
            rw [apply_negative, apply_negative, hneg, ← hcompare]
            rfl

theorem abs_denotes (h : Denotes u q) : Denotes u.abs |q| := by
  cases h with
  | zero s =>
      rw [abs_zero]
      exact .zero _
  | @finite s m e hm hm' he he' hpos =>
      rw [abs_apply, ← apply_positive]
      exact .finite .positive hm hm' he he' hpos

/-! ## Quotients -/

theorem divCore_eq {m n : ℕ} {e f : ℤ} (hm : 2 ^ 52 ≤ m) (hm' : m < 2 ^ 53) (hn : 2 ^ 52 ≤ n)
    (hn' : n < 2 ^ 53) (hef : -1000 ≤ e - f) : divCore .binary64 m e n f
      = (m * 2 ^ 53 / n, e - f - 53, accuracyOfFraction (m * 2 ^ 53 % n) n) := by
  have hlog {k : ℕ} (hk : 2 ^ 52 ≤ k) (hk' : k < 2 ^ 53) : k.log2 = 52 :=
    (Nat.log2_eq_iff (by omega)).mpr ⟨hk, hk'⟩
  have htarget : Format.targetExponent .binary64 (totalExponent m e - totalExponent n f)
      = e - f - 53 := by
    show max ((m.log2 : ℤ) + 1 + e - (n.log2 + 1 + f) - 53) (-1074) = e - f - 53
    rw [hlog hm hm', hlog hn hn']
    omega
  have hmin : min (e - f) (e - f - 53) = e - f - 53 := by omega
  have hshift : (e - f - (e - f - 53)).toNat = 53 := by omega
  simp only [divCore, htarget, hmin, hshift, Nat.shiftLeft_eq]

/-- The mantissa of a quotient, rounded or not, is next to the exact one, and
does not pass a power of two that the exact one does not pass. -/
theorem roundedQuotient_bounds {m n j N c : ℕ} (hn : 0 < n)
    (hlow : m / n / 2 ^ j ≤ N) (hhigh : N ≤ m / n / 2 ^ j + 1)
    (hexact : accuracyOfFraction (m % n) n = .exact → 2 ^ j ∣ m / n → N = m / n / 2 ^ j) :
    m < (N + 1) * 2 ^ j * n ∧ (m ≤ 2 ^ c * 2 ^ j * n → N ≤ 2 ^ c) := by
  constructor
  · rw [← Nat.div_lt_iff_lt_mul hn, ← Nat.div_lt_iff_lt_mul (Nat.two_pow_pos j)]
    omega
  · intro hm
    have hM : m / n ≤ 2 ^ c * 2 ^ j := Nat.div_le_of_le_mul (by rwa [Nat.mul_comm])
    rcases hM.lt_or_eq with hless | hsame
    · have hless' := (Nat.div_lt_iff_lt_mul (Nat.two_pow_pos j)).mpr hless
      omega
    · have hmod : m % n = 0 := by
        have hdiv := Nat.div_add_mod m n
        rw [hsame, Nat.mul_comm] at hdiv
        omega
      have haccuracy : accuracyOfFraction (m % n) n = .exact := by
        rw [accuracyOfFraction, if_pos hmod]
      rw [hexact haccuracy ⟨2 ^ c, by rw [hsame, Nat.mul_comm]⟩, hsame,
        Nat.mul_div_cancel _ (Nat.two_pow_pos j)]

theorem zero_div_denotes (hu : Denotes u 0) (hv : Denotes v r) (hr : r ≠ 0) :
    Denotes (u.div .binary64 v) 0 := by
  generalize hq : (0 : ℚ) = q at hu ⊢
  cases hu with
  | @finite s m e hm _ _ _ hpos =>
      have habs : (0 : ℚ) = m * 2 ^ e := by rw [← abs_apply s m e, ← hq, abs_zero]
      have hm0 : (0 : ℚ) < m := by exact_mod_cast hpos
      have hvalue : (0 : ℚ) < m * 2 ^ e := by positivity
      exact absurd habs hvalue.ne
  | zero s =>
      cases hv with
      | zero t => exact absurd rfl hr
      | finite t => exact .zero _

/-- A quotient in units of the last bit of its mantissa. -/
theorem quotient_eq_units {n : ℕ} (hn : 0 < n) (m j : ℕ) (e f : ℤ) :
    (m : ℚ) * 2 ^ e / (n * 2 ^ f) = m * 2 ^ 53 / (2 ^ j * n) * 2 ^ (e - f - 53 + j) := by
  have hn' : (n : ℚ) ≠ 0 := by exact_mod_cast hn.ne'
  have h53 : (2 : ℚ) ^ (53 : ℤ) = 2 ^ 53 := by norm_num
  rw [zpow_add₀ two_ne_zero, zpow_sub₀ two_ne_zero, zpow_sub₀ two_ne_zero, zpow_natCast, h53]
  field_simp

/-- A mantissa less than one unit below the exact one loses little. -/
theorem mul_lt_of_lt_add_one {x unit N : ℚ} (hx : 2 ^ 52 ≤ x) (hN : x < N + 1) (hunit : 0 < unit) :
    x * unit * (1 - 1 / 2 ^ 52) < N * unit := by
  have hloss : x * (1 - 1 / 2 ^ 52) < N := by
    norm_num at hx ⊢
    linarith
  rw [mul_right_comm]
  exact mul_lt_mul_of_pos_right hloss hunit

/-- A power of two that a quotient of 53 bits does not pass is a whole number
of units. -/
theorem mul_le_power {x N : ℚ} (hx : 2 ^ 52 ≤ x) (hN : ∀ c : ℕ, x ≤ 2 ^ c → N ≤ 2 ^ c) {t : ℤ}
    (h : x * 2 ^ e ≤ 2 ^ t) : N * 2 ^ e ≤ 2 ^ t := by
  have hunit : (0 : ℚ) < 2 ^ e := by positivity
  have hpower : (2 : ℚ) ^ t = 2 ^ (t - e) * 2 ^ e := by
    rw [← zpow_add₀ two_ne_zero, sub_add_cancel]
  rw [hpower] at h ⊢
  have hxt := le_of_mul_le_mul_right h hunit
  refine mul_le_mul_of_nonneg_right ?_ hunit.le
  have hnonneg : 0 ≤ t - e := by
    by_contra hneg
    have hsmall : (2 : ℚ) ^ (t - e) ≤ 1 := zpow_le_one_of_nonpos₀ one_le_two (by omega)
    norm_num at hx
    linarith
  obtain ⟨c, hc⟩ := Int.eq_ofNat_of_zero_le hnonneg
  rw [hc, zpow_natCast] at hxt ⊢
  exact hN c hxt

theorem eq_positive_of_one_le {t : Sign} (h : 1 ≤ ((t.apply m : ℤ) : ℚ) * 2 ^ e) :
    t = .positive := by
  cases t with
  | positive => rfl
  | negative =>
      have hnonneg : (0 : ℚ) ≤ m * 2 ^ e := by positivity
      rw [apply_negative] at h
      linarith

/-- A quotient of doubles of middle size loses little, and does not pass a
power of two that the exact one does not pass. -/
theorem div_denotes (hu : Denotes u q) (hv : Denotes v r) (hq : 1 ≤ q) (hq' : q < 2 ^ 53)
    (hr : 1 ≤ r) (hr' : r < 2 ^ 53) : ∃ d, Denotes (u.div .binary64 v) d
      ∧ q / r * (1 - 1 / 2 ^ 52) < d ∧ ∀ t : ℤ, q / r ≤ 2 ^ t → d ≤ 2 ^ t := by
  cases hu with
  | zero s => norm_num at hq
  | @finite s m e hm hm' he he' hmpos =>
  cases hv with
  | zero t => norm_num at hr
  | @finite t n f hn hn' hf hf' hnpos =>
  obtain rfl := eq_positive_of_one_le hq
  obtain rfl := eq_positive_of_one_le hr
  rw [apply_positive] at hq hq' hr hr'
  rw [apply_positive, apply_positive]
  have he0 := exponent_nonpos hm hq'
  have hf0 := exponent_nonpos hn hr'
  have he52 := le_exponent hm' hq
  have hf52 := le_exponent hn' hr
  -- The quotient has 53 bits or one more.
  obtain ⟨j, hj, hwide, hwide'⟩ : ∃ j ≤ 1, 2 ^ (52 + j) ≤ m * 2 ^ 53 / n
      ∧ m * 2 ^ 53 / n < 2 ^ (53 + j) := by
    have hlow : 2 ^ 52 ≤ m * 2 ^ 53 / n := (Nat.le_div_iff_mul_le hnpos).mpr (by omega)
    have hhigh : m * 2 ^ 53 / n < 2 ^ 54 := (Nat.div_lt_iff_lt_mul hnpos).mpr (by omega)
    rcases Nat.lt_or_ge (m * 2 ^ 53 / n) (2 ^ 53) with hless | hmore
    · exact ⟨0, by decide, hlow, hless⟩
    · exact ⟨1, le_rfl, hmore, hhigh⟩
  obtain ⟨N, hN, hN', hexact, hdenotes⟩ := roundWithAccuracy_denotes (e := e - f - 53)
    (accuracyOfFraction (m * 2 ^ 53 % n) n) .positive hwide hwide' (by omega) (by omega)
  have hbounds (c : ℕ) := roundedQuotient_bounds (c := c) hnpos hN hN' hexact
  have hn0 : (0 : ℚ) < 2 ^ j * n := by
    have hn0' : (0 : ℚ) < n := by exact_mod_cast hnpos
    positivity
  have hx : (2 : ℚ) ^ 52 ≤ m * 2 ^ 53 / (2 ^ j * n) := by
    rw [le_div_iff₀ hn0, ← mul_assoc, ← pow_add]
    exact_mod_cast (Nat.le_div_iff_mul_le hnpos).mp hwide
  have hxN : (m : ℚ) * 2 ^ 53 / (2 ^ j * n) < N + 1 := by
    rw [div_lt_iff₀ hn0, ← mul_assoc]
    exact_mod_cast (hbounds 0).1
  have hpower (c : ℕ) (hc : (m : ℚ) * 2 ^ 53 / (2 ^ j * n) ≤ 2 ^ c) : (N : ℚ) ≤ 2 ^ c := by
    rw [div_le_iff₀ hn0, ← mul_assoc] at hc
    exact_mod_cast (hbounds c).2 (by exact_mod_cast hc)
  rw [quotient_eq_units hnpos m j e f]
  refine ⟨N * 2 ^ (e - f - 53 + j), ?_, mul_lt_of_lt_add_one hx hxN (by positivity),
    fun t ht => mul_le_power hx hpower ht⟩
  rw [UnpackedFloat.div, divCore_eq hm hm' hn hn' (by omega), ← apply_positive]
  exact hdenotes

end Double

/-- The double is the number. -/
def IsDouble (x : Float) (q : ℚ) : Prop := Double.Denotes x.toModel.unpack q

namespace IsDouble

open Double

variable {x y : Float} {q r : ℚ}

theorem ofUnpacked {u : UnpackedFloat} (h : Denotes u q) : IsDouble ⟨Float.Model.pack u⟩ q := by
  rw [IsDouble, unpack_pack h]
  exact h

theorem le_iff (hx : IsDouble x q) (hy : IsDouble y r) : x ≤ y ↔ q ≤ r := by
  show decide (x.toModel.unpack.le y.toModel.unpack = true) = true ↔ q ≤ r
  rw [decide_eq_true_iff, UnpackedFloat.le, compare_eq hx hy, Option.any_some, ← not_lt,
    ← cmp_eq_gt_iff]
  cases cmp q r <;> simp [Ordering.isLE]

theorem beq_iff (hx : IsDouble x q) (hy : IsDouble y r) : (x == y) = true ↔ q = r := by
  show (x.toModel.unpack.compare y.toModel.unpack == some .eq) = true ↔ q = r
  rw [compare_eq hx hy, beq_iff_eq, Option.some.injEq, cmp_eq_eq_iff]

protected theorem abs (hx : IsDouble x q) : IsDouble x.abs |q| := ofUnpacked (abs_denotes hx)

/-! ## Constants -/

protected theorem zero : IsDouble 0.0 0 := Denotes.zero .positive

theorem powerOfTwo {e : ℤ} (he : -1022 ≤ e) (he' : e ≤ 1023)
    (hx : x.toModel.unpack = .finite .positive (2 ^ 52) (e - 52) (by decide)) :
    IsDouble x (2 ^ e) := by
  have hvalue : (2 : ℚ) ^ e = (Sign.positive.apply (2 ^ 52 : ℕ) : ℤ) * 2 ^ (e - 52) := by
    rw [apply_positive, zpow_sub₀ two_ne_zero]
    norm_num
    ring
  rw [IsDouble, hx, hvalue]
  exact .finite .positive le_rfl (by decide) (by omega) (by omega) _

protected theorem one : IsDouble 1.0 1 := powerOfTwo (e := 0) (by decide) (by decide) rfl

theorem two : IsDouble 2.0 2 := powerOfTwo (e := 1) (by decide) (by decide) rfl

theorem half : IsDouble 0.5 (1 / 2) := by
  simpa using powerOfTwo (x := 0.5) (e := -1) (by decide) (by decide) rfl

/-! ## Counts -/

protected theorem ofNat {n : ℕ} (hn : n < 2 ^ 53) : IsDouble (Float.ofNat n) n := by
  have hunpacked : Denotes (UnpackedFloat.ofUInt64 .binary64 n.toUInt64) n := by
    have htoNat : n.toUInt64.toNat = n := Nat.mod_eq_of_lt (by omega)
    have hnormal := normalize_denotes (z := n) (by rw [Nat.abs_cast]; exact_mod_cast hn) 0
    rw [UnpackedFloat.ofUInt64, UnpackedFloat.ofNat, UnpackedFloat.ofInt, htoNat]
    simpa using hnormal
  have hone : (Float.ofBits 0x3FF0000000000000).toModel.unpack
      = .finite .positive (2 ^ 52) (-52) (by decide) := rfl
  have hproduct : Float.ofNat n = n.toUInt64.toFloat * Float.ofBits 0x3FF0000000000000 := by
    show Float.ofScientific n false 0 = _
    rw [Float.ofScientific, dif_pos ⟨hn, by decide⟩]
    rfl
  rw [hproduct]
  refine ofUnpacked ?_
  rw [hone]
  exact mul_one_denotes (ofUnpacked hunpacked)

theorem sub {a b : ℤ} (ha : |a| < 2 ^ 53) (hab : |a - b| < 2 ^ 53)
    (hx : IsDouble x a) (hy : IsDouble y b) : IsDouble (x - y) (a - b : ℤ) :=
  ofUnpacked (sub_denotes ha hab hx hy)

/-- A share of a count below `2 ^ 52` is told from one half. -/
theorem div_le_half_iff {a b : ℕ} (ha : a < 2 ^ 53) (hb : 1 ≤ b) (hb' : b < 2 ^ 52)
    (hx : IsDouble x a) (hy : IsDouble y b) : x / y ≤ 0.5 ↔ 2 * a ≤ b := by
  have hb0 : (1 : ℚ) ≤ b := by exact_mod_cast hb
  rcases Nat.eq_zero_or_pos a with rfl | ha0
  · have hzero : IsDouble (x / y) 0 :=
      ofUnpacked (zero_div_denotes (by simpa [IsDouble] using hx) hy (by linarith))
    rw [hzero.le_iff half]
    exact iff_of_true (by norm_num) (Nat.zero_le b)
  have ha1 : (1 : ℚ) ≤ a := by exact_mod_cast ha0
  obtain ⟨d, hd, hmore, hless⟩ := div_denotes hx hy ha1 (by exact_mod_cast ha) hb0
    (by exact_mod_cast hb'.trans (by decide))
  have hquotient : IsDouble (x / y) d := ofUnpacked hd
  have hhalf : (2 : ℚ) ^ (-1 : ℤ) = 1 / 2 := by norm_num
  have hshare : (a : ℚ) / b ≤ 1 / 2 ↔ 2 * a ≤ b := by
    rw [div_le_div_iff₀ (by linarith) two_pos, one_mul, mul_comm]
    exact_mod_cast Iff.rfl
  rw [hquotient.le_iff half, ← hshare]
  constructor
  · intro hd'
    by_contra hbig
    rw [hshare] at hbig
    -- Above one half the share exceeds it by more than is lost.
    have hover : (b : ℚ) + 1 ≤ 2 * a := by exact_mod_cast Nat.lt_of_not_le hbig
    have hsmall : (b : ℚ) + 1 ≤ 2 ^ 52 := by exact_mod_cast hb'
    have hlower : 1 / 2 ≤ (a : ℚ) / b * (1 - 1 / 2 ^ 52) := by
      rw [div_mul_eq_mul_div, le_div_iff₀ (by linarith)]
      norm_num at hsmall ⊢
      linarith
    linarith
  · intro hle
    exact hhalf ▸ hless (-1) (hhalf ▸ hle)

end IsDouble

end CodeProfile
