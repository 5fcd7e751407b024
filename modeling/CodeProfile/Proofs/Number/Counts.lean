import CodeProfile.Proofs.Number.Doubles

/-!
# Counts in doubles

Whole numbers that are added up one by one stay exact below `2 ^ 53`
(`IsDouble.foldl_count`). However large a natural number is, its double is not
negative and not a failure (`notNegative_ofNat`), and such doubles are ranked
by exponent and mantissa (`le_iff_rank_le`). So the doubles of natural numbers
can be sorted: of two of them one is at most the other (`ofNat_le_total`), and
the order is transitive (`ofNat_le_trans`).
-/

namespace CodeProfile

open Float.Model Float.Model.UnpackedFloat

namespace Double

variable {u v : UnpackedFloat} {q r : ℚ} {m n : ℕ} {e : ℤ}

/-! ## Counting up -/

theorem neg_denotes (h : Denotes v r) : Denotes v.neg (-r) := by
  cases h with
  | zero s =>
      rw [neg_zero]
      exact .zero _
  | @finite s m e hm hm' he he' hpos =>
      have hneg : -(((s.apply m : ℤ) : ℚ) * 2 ^ e) = ((-s).apply m : ℤ) * 2 ^ e := by
        cases s with
        | positive =>
            rw [apply_positive]
            exact (apply_negative m e).symm
        | negative =>
            rw [apply_negative, neg_neg]
            exact (apply_positive m e).symm
      rw [hneg]
      exact .finite _ hm hm' he he' hpos

theorem add_eq_sub_neg (hv : Denotes v r) : u.add .binary64 v = u.sub .binary64 v.neg := by
  have hneg (s : Sign) : - -s = s := by cases s <;> rfl
  have hminus (s t : Sign) (m n : ℕ) : s.apply m + t.apply n = s.apply m - (-t).apply n := by
    cases t with
    | positive => exact (sub_neg_eq_add (s.apply m) n).symm
    | negative => rfl
  cases hv <;> cases u <;>
    simp only [UnpackedFloat.add, UnpackedFloat.sub, UnpackedFloat.neg, hneg, hminus]

/-- The sum of whole numbers below `2 ^ 53` is exact. -/
theorem add_denotes {a b : ℤ} (ha : |a| < 2 ^ 53) (hab : |a + b| < 2 ^ 53)
    (hu : Denotes u a) (hv : Denotes v b) : Denotes (u.add .binary64 v) (a + b : ℤ) := by
  have hneg : Denotes v.neg (-b : ℤ) := by
    rw [Int.cast_neg]
    exact neg_denotes hv
  rw [add_eq_sub_neg hv, ← sub_neg_eq_add]
  exact sub_denotes ha (by rwa [sub_neg_eq_add]) hu hneg

/-! ## Doubles that are not negative -/

/-- Zero, a positive number, or infinity. -/
inductive NotNegative : UnpackedFloat → Prop
  | zero (s : Sign) : NotNegative (.zero s)
  | finite (m : ℕ) (e : ℤ) (hpos : 0 < m) : NotNegative (.finite .positive m e hpos)
  | infinity : NotNegative (.infinity .positive)

theorem notNegative_roundWithAccuracy (m : ℕ) (e : ℤ) (accuracy : Accuracy) :
    NotNegative (roundWithAccuracy .binary64 .positive m e accuracy) := by
  simp only [roundWithAccuracy]
  split
  · exact .zero _
  · exact .finite _ _ _

theorem notNegative_mul {f : ℤ} (hm : 0 < m) (hn : 0 < n) : NotNegative
    (UnpackedFloat.mul .binary64 (.finite .positive m e hm) (.finite .positive n f hn)) :=
  notNegative_roundWithAccuracy (m * n) (e + f) .exact

/-- Packing loses no sign, and makes no failure. -/
theorem notNegative_unpack_pack (h : NotNegative u) :
    NotNegative (Float.Model.pack u).unpack := by
  show NotNegative (unpack .binary64 (pack .binary64 u))
  cases h with
  | zero s => cases s <;> exact .zero _
  | infinity => exact .infinity
  | finite m e hpos =>
      -- an exponent of ones is infinity, and is not given to a number
      have hunpack (b : ℕ) (hb : b + 1 < 2 ^ 11) (mantissa : BitVec 52) :
          NotNegative (unpack .binary64
            (packComponents .binary64 .positive (BitVec.ofNat 11 b) mantissa)) := by
        have hnumber : BitVec.ofNat 11 b ≠ -1#11 := by
          intro heq
          have htoNat := congrArg BitVec.toNat heq
          rw [BitVec.toNat_ofNat, Nat.mod_eq_of_lt (by omega)] at htoNat
          simp at htoNat
          omega
        rw [UnpackedFloat.unpack]
        simp only [unpackExponent_packComponents, unpackMantissa_packComponents,
          unpackSign_packComponents, Sign.ofBitVec_toBitVec]
        rw [if_neg hnumber]
        split
        · split
          · exact .zero _
          · exact .finite _ _ _
        · exact .finite _ _ _
      simp only [UnpackedFloat.pack]
      split
      · exact .infinity
      · split
        next hsmall _ => exact hunpack _ (Nat.lt_of_not_le hsmall) _
        · exact hunpack 0 (by decide) _

theorem notNegative_of_denotes (h : Denotes u q) (hq : 0 ≤ q) : NotNegative u := by
  cases h with
  | zero s => exact .zero s
  | @finite s m e hm hm' he he' hpos =>
      cases s with
      | positive => exact .finite m e hpos
      | negative =>
          have hm0 : (0 : ℚ) < m := by exact_mod_cast hpos
          have hvalue : (0 : ℚ) < m * 2 ^ e := by positivity
          rw [apply_negative] at hq
          linarith

/-- The double of a natural number, which is infinite if the number is too large. -/
theorem notNegative_ofNat (n : ℕ) : NotNegative (Float.ofNat n).toModel.unpack := by
  rcases Nat.lt_or_ge n (2 ^ 53) with hn | hn
  · exact notNegative_of_denotes (IsDouble.ofNat hn) (by positivity)
  · have hn0 : n ≠ 0 := by omega
    have hscientific : Float.ofNat n
        = ⟨Float.Model.pack (UnpackedFloat.ofScientific .binary64 n 0)⟩ := by
      show Float.ofScientific n false 0 = _
      rw [Float.ofScientific, dif_neg fun h => absurd h.1 hn.not_gt]
      rfl
    rw [hscientific]
    refine notNegative_unpack_pack ?_
    have hlarge : ¬ (0 : ℤ) < -(2 ^ Format.binary64.exponentBits + n.log2) := by
      have hpow : (0 : ℤ) ≤ 2 ^ Format.binary64.exponentBits := by positivity
      omega
    rw [UnpackedFloat.ofScientific, dif_neg hn0, if_neg (by decide), if_neg hlarge, if_pos le_rfl]
    exact notNegative_mul _ _

/-! ## Their order -/

/-- The place of a double that is not negative among all of them. -/
def rank : UnpackedFloat → WithBot (WithTop (ℤ ×ₗ ℕ))
  | .finite _ m e _ =>
      (((toLex (e, m) : ℤ ×ₗ ℕ) : WithTop (ℤ ×ₗ ℕ)) : WithBot (WithTop (ℤ ×ₗ ℕ)))
  | .infinity _ => ((⊤ : WithTop (ℤ ×ₗ ℕ)) : WithBot (WithTop (ℤ ×ₗ ℕ)))
  | .zero _ => ⊥
  | .notANumber => ⊥

theorem le_iff_rank_le (hu : NotNegative u) (hv : NotNegative v) :
    u.le v = true ↔ rank u ≤ rank v := by
  cases hu with
  | zero s => cases hv <;> simp [UnpackedFloat.le, UnpackedFloat.compare, rank]
  | infinity =>
      cases hv with
      | zero s => simp [UnpackedFloat.le, UnpackedFloat.compare, rank]
      | infinity => exact iff_of_true rfl le_rfl
      | finite n f hn => simp [UnpackedFloat.le, UnpackedFloat.compare, rank]
  | finite m e hm =>
      cases hv with
      | zero s => simp [UnpackedFloat.le, UnpackedFloat.compare, rank]
      | infinity => simp [UnpackedFloat.le, UnpackedFloat.compare, rank]
      | finite n f hn =>
          simp only [UnpackedFloat.le, UnpackedFloat.compare, rank, Option.any_some,
            Ordering.isLE_then_iff_or, WithBot.coe_le_coe, WithTop.coe_le_coe,
            Prod.Lex.toLex_le_toLex, compare_lt_iff_lt, compare_eq_iff_eq]
          rw [Nat.isLE_compare]

end Double

namespace IsDouble

open Double

variable {x y : Float}

theorem add {a b : ℕ} (hab : a + b < 2 ^ 53) (hx : IsDouble x a) (hy : IsDouble y b) :
    IsDouble (x + y) (a + b : ℕ) := by
  have ha : |(a : ℤ)| < 2 ^ 53 := by
    rw [Nat.abs_cast]
    omega
  have hsum : |(a : ℤ) + b| < 2 ^ 53 := by
    rw [← Nat.cast_add, Nat.abs_cast]
    exact_mod_cast hab
  have hdouble := add_denotes ha hsum (by exact_mod_cast hx) (by exact_mod_cast hy)
  exact ofUnpacked (by exact_mod_cast hdouble)

/-- Each time a weight is added, none of it is lost. -/
theorem foldl_count {α : Type} {weight : Float} {n k : ℕ} (counts : α → Bool) {as : List α}
    (hweight : IsDouble weight k) (hx : IsDouble x n) (hsum : n + k * as.countP counts < 2 ^ 53) :
    IsDouble (as.foldl (fun s a => if counts a then s + weight else s) x)
      (n + k * as.countP counts : ℕ) := by
  induction as generalizing n x with
  | nil => simpa using hx
  | cons a as ih =>
      rw [List.foldl_cons]
      rw [List.countP_cons] at hsum ⊢
      cases ha : counts a with
      | false =>
          simp only [ha, Bool.false_eq_true, if_false, Nat.add_zero] at hsum ⊢
          exact ih hx hsum
      | true =>
          have hmore : n + k * (as.countP counts + 1) = n + k + k * as.countP counts := by ring
          simp only [ha, if_true, hmore] at hsum ⊢
          exact ih (add (by omega) hx hweight) hsum

end IsDouble

namespace Double

/-! ## The order of counts -/

theorem ofNat_le_iff (m n : ℕ) : Float.ofNat m ≤ Float.ofNat n
    ↔ rank (Float.ofNat m).toModel.unpack ≤ rank (Float.ofNat n).toModel.unpack := by
  rw [← le_iff_rank_le (notNegative_ofNat m) (notNegative_ofNat n)]
  exact decide_eq_true_iff

theorem ofNat_le_total (m n : ℕ) :
    Float.ofNat m ≤ Float.ofNat n ∨ Float.ofNat n ≤ Float.ofNat m := by
  rw [ofNat_le_iff, ofNat_le_iff]
  exact le_total _ _

theorem ofNat_le_trans {m n k : ℕ} (h : Float.ofNat m ≤ Float.ofNat n)
    (h' : Float.ofNat n ≤ Float.ofNat k) : Float.ofNat m ≤ Float.ofNat k := by
  rw [ofNat_le_iff] at h h' ⊢
  exact h.trans h'

end Double

end CodeProfile
