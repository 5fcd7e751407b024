import CodeProfile.Proofs.Complexity.Monomial
import Mathlib.Analysis.Asymptotics.SpecificAsymptotics
import Mathlib.Analysis.SpecialFunctions.Log.Base
import Mathlib.Analysis.SpecialFunctions.Pow.Asymptotics
import Mathlib.Analysis.SpecialFunctions.Log.Deriv

/-!
# How costs grow

`Cost.growth` is the function that a cost stands for, when all sizes grow
alike. A monomial stands for `x ^ a * (log x) ^ b` (`growth_monomial`),
and monomials grow in the lexicographic order of their two degrees
(`isLittleO_growth_monomial`), below every exponential
(`isBigO_growth_monomial_exponential`).
-/

namespace CodeProfile

namespace Cost

open Asymptotics Filter

mutual

/-- The value of a cost, for given sizes. A cost known by name only has the size of that name. -/
noncomputable def value (size : String → ℝ) : Cost → ℝ
  | constant v => v.toNat
  | logarithmic base name => Real.logb base.toNat (size name)
  | linear name => size name
  | polynomial degree name => size name ^ degree.toNat
  | exponential base name => (base.toNat : ℝ) ^ size name
  | multiply fs => valueProduct size fs
  | add ts => valueSum size ts
  | symbolic name _ => size name

/-- The product of several values. -/
noncomputable def valueProduct (size : String → ℝ) : List Cost → ℝ
  | [] => 1
  | c :: cs => value size c * valueProduct size cs

/-- The sum of several values. -/
noncomputable def valueSum (size : String → ℝ) : List Cost → ℝ
  | [] => 0
  | c :: cs => value size c + valueSum size cs

end

/-- The function that a cost stands for, when all sizes grow alike. -/
noncomputable def growth (c : Cost) (x : ℝ) : ℝ := c.value fun _ => x

theorem value_ofFactors (size : String → ℝ) (fs : List Cost) :
    (ofFactors fs).value size = valueProduct size fs := by
  match fs with
  | [] =>
      rw [ofFactors, one, value, valueProduct, UInt64.toNat_one, Nat.cast_one]
  | [f] => rw [ofFactors, valueProduct, valueProduct, mul_one]
  | f :: g :: fs =>
      have hmany : ofFactors (f :: g :: fs) = multiply (f :: g :: fs) := rfl
      rw [hmany, value]

theorem value_ofTerms (size : String → ℝ) (ts : List Cost) :
    (ofTerms ts).value size = valueSum size ts := by
  match ts with
  | [] => rfl
  | [t] => rw [ofTerms, valueSum, valueSum, add_zero]
  | t :: u :: ts =>
      have hmany : ofTerms (t :: u :: ts) = add (t :: u :: ts) := rfl
      rw [hmany, value]

theorem value_power (size : String → ℝ) (name : String) (degree : UInt32) :
    (power name degree).value size = size name ^ degree.toNat := by
  unfold power
  split
  · next h => rw [h, value, UInt32.toNat_one, pow_one]
  · rw [value]

theorem valueProduct_replicate (size : String → ℝ) (b : Nat) (c : Cost) :
    valueProduct size (List.replicate b c) = c.value size ^ b := by
  induction b with
  | zero => rw [List.replicate_zero, valueProduct, pow_zero]
  | succ b ih => rw [List.replicate_succ, valueProduct, ih, pow_succ']

theorem toNat_two : (2 : UInt32).toNat = 2 := rfl

theorem growth_monomial (a b : Nat) (x : ℝ) :
    (monomial a b).growth x = x ^ min a maxWord32 * Real.logb 2 x ^ b := by
  have hlog : logN.value (fun _ => x) = Real.logb 2 x := by
    rw [logN, value, toNat_two, Nat.cast_ofNat]
  rw [growth, monomial, value_ofFactors]
  by_cases ha : a = 0
  · subst ha
    have hfactors : (monomialParts 0 b).factors = List.replicate b logN := rfl
    rw [hfactors, valueProduct_replicate, hlog, Nat.zero_min, pow_zero, one_mul]
  · have hfactors : (monomialParts a b).factors =
        power inputSize (degreeWord a) :: List.replicate b logN := by
      simp [ProductParts.factors, monomialParts, ha]
    rw [hfactors, valueProduct, valueProduct_replicate, hlog, value_power, toNat_degreeWord]

/-! ## Comparing growths -/

theorem one_le_logb {x : ℝ} (hx : 2 ≤ x) : 1 ≤ Real.logb 2 x := by
  have hone : Real.logb 2 2 = 1 := Real.logb_self_eq_one one_lt_two
  rw [← hone]
  exact Real.logb_le_logb_of_le one_lt_two two_pos hx

/-- Any power of the logarithm grows more slowly than one more factor `x`. -/
theorem isLittleO_pow_mul_logb (a b : Nat) :
    (fun x : ℝ => x ^ a * Real.logb 2 x ^ b) =o[atTop] fun x => x ^ (a + 1) := by
  have hlog : (fun x : ℝ => Real.logb 2 x ^ b) =o[atTop] fun x => x :=
    Real.isLittleO_pow_logb_id_atTop
  simpa only [pow_succ] using (isBigO_refl (fun x : ℝ => x ^ a) atTop).mul_isLittleO hlog

theorem isBigO_pow_of_le {a a' : Nat} (h : a ≤ a') (b : Nat) :
    (fun x : ℝ => x ^ a) =O[atTop] fun x => x ^ a' * Real.logb 2 x ^ b := by
  refine IsBigO.of_bound' ?_
  filter_upwards [eventually_ge_atTop (2 : ℝ)] with x hx
  have hone : (1 : ℝ) ≤ x := le_trans one_le_two hx
  have hlog : (1 : ℝ) ≤ Real.logb 2 x ^ b := one_le_pow₀ (one_le_logb hx)
  have hpow : x ^ a ≤ x ^ a' := pow_le_pow_right₀ hone h
  have hpos : (0 : ℝ) ≤ x ^ a' := by positivity
  rw [Real.norm_of_nonneg (by positivity), Real.norm_of_nonneg (mul_nonneg hpos (by linarith))]
  calc x ^ a ≤ x ^ a' := hpow
    _ = x ^ a' * 1 := (mul_one _).symm
    _ ≤ x ^ a' * Real.logb 2 x ^ b := mul_le_mul_of_nonneg_left hlog hpos

theorem isLittleO_logb_pow {b b' : Nat} (h : b < b') :
    (fun x : ℝ => Real.logb 2 x ^ b) =o[atTop] fun x => Real.logb 2 x ^ b' :=
  (isLittleO_pow_pow_atTop_of_lt h).comp_tendsto (Real.tendsto_logb_atTop one_lt_two)

/-- Products of powers of `x` and its logarithm grow in the lexicographic order of their degrees. -/
theorem isLittleO_pow_mul_logb_of_lex {a b a' b' : Nat} (h : a < a' ∨ a = a' ∧ b < b') :
    (fun x : ℝ => x ^ a * Real.logb 2 x ^ b) =o[atTop] fun x => x ^ a' * Real.logb 2 x ^ b' := by
  rcases h with hlt | ⟨rfl, hlt⟩
  · exact (isLittleO_pow_mul_logb a b).trans_isBigO (isBigO_pow_of_le hlt b')
  · exact (isBigO_refl _ _).mul_isLittleO (isLittleO_logb_pow hlt)

theorem isLittleO_growth_monomial {a b a' b' : Nat} (ha : a < maxWord32)
    (h : a < a' ∨ a = a' ∧ b < b') :
    (monomial a b).growth =o[atTop] (monomial a' b').growth := by
  rw [funext (growth_monomial a b), funext (growth_monomial a' b')]
  refine isLittleO_pow_mul_logb_of_lex ?_
  omega

theorem growth_monomial_nonneg (a b : Nat) {x : ℝ} (hx : 1 ≤ x) : 0 ≤ (monomial a b).growth x := by
  rw [growth_monomial]
  exact mul_nonneg (pow_nonneg (by linarith) _) (pow_nonneg (Real.logb_nonneg one_lt_two hx) _)

theorem growth_exponential (x : ℝ) :
    (exponential 2 inputSize).growth x = Real.exp (Real.log 2 * x) := by
  rw [growth, value, toNat_two, Nat.cast_ofNat, Real.rpow_def_of_pos two_pos]

theorem isBigO_growth_monomial_exponential (a b : Nat) :
    (monomial a b).growth =O[atTop] (exponential 2 inputSize).growth := by
  have hexp : (fun x : ℝ => x ^ (min a maxWord32 + 1)) =o[atTop]
      fun x => Real.exp (Real.log 2 * x) :=
    isLittleO_pow_exp_pos_mul_atTop _ (Real.log_pos one_lt_two)
  rw [funext (growth_monomial a b), funext growth_exponential]
  exact ((isLittleO_pow_mul_logb _ b).trans hexp).isBigO

/-! ## Sums -/

theorem growth_ofTerms (ts : List Cost) (x : ℝ) :
    (ofTerms ts).growth x = (ts.map fun t => t.growth x).sum := by
  rw [growth, value_ofTerms]
  induction ts with
  | nil => rw [valueSum, List.map_nil, List.sum_nil]
  | cons t ts ih => rw [valueSum, ih, List.map_cons, List.sum_cons, growth]

/-- A sum of non-negative terms grows at least as fast as each of them. -/
theorem isBigO_growth_ofTerms {ts : List Cost} {t : Cost} (ht : t ∈ ts)
    (h : ∀ u ∈ ts, ∀ x : ℝ, 1 ≤ x → 0 ≤ u.growth x) :
    t.growth =O[atTop] (ofTerms ts).growth := by
  refine IsBigO.of_bound' ?_
  filter_upwards [eventually_ge_atTop (1 : ℝ)] with x hx
  have hnonneg : ∀ r ∈ ts.map fun u => u.growth x, 0 ≤ r :=
    List.forall_mem_map.mpr fun u hu => h u hu x hx
  rw [growth_ofTerms, Real.norm_of_nonneg (h t ht x hx),
    Real.norm_of_nonneg (List.sum_nonneg hnonneg)]
  exact List.single_le_sum hnonneg _ (List.mem_map_of_mem ht)

end Cost

end CodeProfile
