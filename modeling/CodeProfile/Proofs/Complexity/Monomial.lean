import CodeProfile.Proofs.Complexity.Nesting
import CodeProfile.Proofs.Cost.Grouping
import CodeProfile.Proofs.Cost.Subexponential
import CodeProfile.Proofs.Text.Words

/-!
# The time of a block as a monomial

`Cost.monomial a b` is the canonical form of a power of the input size and
of its logarithm. The time of a block is the monomial with a factor `n`
for each linear level and a factor `log n` for each logarithmic one
(`time_eq_monomial`). Monomials are told apart by their growth terms
(`growthTerm_monomial_inj`), though not always by their ranks.
-/

namespace CodeProfile

namespace Cost

/-- A degree as a word: degrees beyond the largest word are cut to it. -/
def degreeWord (a : Nat) : UInt32 := UInt32.ofNat (min a maxWord32)

/-- The parts of a product of `a` factors `n` and `b` factors `log n`. -/
def monomialParts (a b : Nat) : ProductParts where
  coefficient := 1
  powers := if a = 0 then [] else [(inputSize, degreeWord a)]
  others := List.replicate b logN

/-- The product of `a` factors `n` and `b` factors `log n`. -/
def monomial (a b : Nat) : Cost := ofFactors (monomialParts a b).factors

theorem toNat_degreeWord (a : Nat) : (degreeWord a).toNat = min a maxWord32 := by
  rw [degreeWord, UInt32.toNat_ofNat']
  exact Nat.mod_eq_of_lt (by simp only [maxWord32]; omega)

theorem degreeWord_ne_zero {a : Nat} (h : a ≠ 0) : degreeWord a ≠ 0 := by
  rw [Ne, ← UInt32.toNat_inj, toNat_degreeWord, UInt32.toNat_zero, maxWord32]
  omega

theorem addSaturating32_degreeWord (a : Nat) :
    addSaturating32 (degreeWord a) 1 = degreeWord (a + 1) := by
  rw [← UInt32.toNat_inj, toNat_addSaturating32, toNat_degreeWord, toNat_degreeWord,
    UInt32.toNat_one]
  omega

theorem settled_monomialParts (a b : Nat) : (monomialParts a b).Settled where
  sizes := by
    unfold monomialParts
    split
    · exact List.nodup_nil
    · exact List.nodup_singleton _
  degrees := by
    intro q hq
    unfold monomialParts at hq
    split at hq
    · cases hq
    · next h =>
        rw [List.mem_singleton.mp hq]
        exact degreeWord_ne_zero h
  others := by
    intro c hc
    rw [List.eq_of_mem_replicate hc]
    rfl

theorem canonical_monomial (a b : Nat) : (monomial a b).Canonical :=
  canonical_ofFactors (settled_monomialParts a b) fun c hc => by
    rw [List.eq_of_mem_replicate hc]
    exact .logarithmic 2 inputSize

theorem insert_monomialParts (a b : Nat) (g : LoopGrowth) :
    (monomialParts a b).insert g.cost =
      monomialParts (a + [g].count .linear) (b + [g].count .logarithmic) := by
  cases g with
  | constant => rfl
  | logarithmic =>
      have hothers : List.replicate b logN ++ [logN] = List.replicate (b + 1) logN :=
        List.replicate_succ'.symm
      simp only [monomialParts, LoopGrowth.cost, logN, ProductParts.insert] at hothers ⊢
      rw [hothers]
      rfl
  | linear =>
      have hsum : a + [LoopGrowth.linear].count .linear = a + 1 := rfl
      rw [hsum]
      by_cases h : a = 0
      · subst h
        rfl
      · simp [monomialParts, LoopGrowth.cost, n, ProductParts.insert, addPower, h,
          addSaturating32_degreeWord]

/-- The factors of the levels, sorted into parts. -/
theorem parts_map_cost (gs : List LoopGrowth) :
    parts (gs.map LoopGrowth.cost) = monomialParts (gs.count .linear) (gs.count .logarithmic) := by
  induction gs using List.reverseRecOn with
  | nil => rfl
  | append_singleton gs g ih =>
      have hstep : parts ((gs ++ [g]).map LoopGrowth.cost) =
          (parts (gs.map LoopGrowth.cost)).insert g.cost := by
        rw [List.map_append, parts, List.foldl_append]
        rfl
      rw [hstep, ih, insert_monomialParts, List.count_append, List.count_append]

theorem canonical_cost (g : LoopGrowth) : g.cost.Canonical := by
  cases g with
  | constant => exact .constant 1
  | logarithmic => exact .logarithmic 2 inputSize
  | linear => exact .linear inputSize

theorem isProduct_cost (g : LoopGrowth) : g.cost.isProduct = false := by
  cases g <;> rfl

theorem reduce_product_map_cost (gs : List LoopGrowth) :
    (product (gs.map LoopGrowth.cost)).reduce =
      monomial (gs.count .linear) (gs.count .logarithmic) := by
  rw [reduce_product_of_canonical (List.forall_mem_map.mpr fun g _ => canonical_cost g),
    combineProduct_eq,
    flatMap_factorsOf_eq_self (List.forall_mem_map.mpr fun g _ => isProduct_cost g),
    parts_map_cost, monomial]

/-! ## Rank -/

theorem not_isSum_monomial (a b : Nat) : (monomial a b).isSum = false := by
  match hfs : (monomialParts a b).factors with
  | [] =>
      rw [monomial, hfs]
      rfl
  | [f] =>
      rw [monomial, hfs]
      refine ProductParts.forall_mem_factors (p := monomialParts a b)
        (motive := fun c => c.isSum = false) (fun h => absurd rfl h) (fun q _ => ?_)
        (fun c hc => ?_) f (hfs ▸ List.mem_singleton_self f)
      · unfold power
        split <;> rfl
      · rw [List.eq_of_mem_replicate hc]
        rfl
  | f :: g :: fs =>
      rw [monomial, hfs]
      rfl

/-- A linear level counts ten and a logarithmic one counts one, up to the ceiling. -/
theorem rank_monomial (a b : Nat) :
    (monomial a b).rank = min (10 * a + b) (exponentialRank - 1) := by
  have hlt : ∀ f ∈ (monomialParts a b).factors, f.rank < exponentialRank := by
    refine ProductParts.forall_mem_factors (fun _ => Nat.zero_lt_succ _) (fun q _ => ?_) ?_
    · rw [rank_power, exponentialRank]
      omega
    · intro c hc
      rw [List.eq_of_mem_replicate hc]
      decide
  have hlogs : ((List.replicate b logN).map rank).sum = b := by
    rw [List.map_replicate, List.sum_replicate]
    exact Nat.mul_one b
  rw [monomial, rank_ofFactors_of_lt hlt, sum_map_rank_factors, ProductParts.ranks, monomialParts,
    hlogs]
  split
  · next h => simp [h]
  · simp only [List.map_singleton, List.sum_singleton, rank_power, toNat_degreeWord,
      exponentialRank, maxWord32]
    omega

/-! ## Growth term -/

/-- The text of `b` factors `log n`. -/
def logsText (b : Nat) : String := String.intercalate " " (List.replicate b logN.growthTerm)

/-- The text of a power of `n`. -/
def powerText (a : Nat) : String := (power inputSize (degreeWord a)).growthTerm

theorem growthTerm_monomial_zero {b : Nat} (hb : b ≠ 0) :
    (monomial 0 b).growthTerm = logsText b := by
  have hfactors : (monomialParts 0 b).factors = List.replicate b logN := rfl
  obtain ⟨b, rfl⟩ := Nat.exists_eq_succ_of_ne_zero hb
  rw [monomial, hfactors, logsText]
  cases b with
  | zero => exact String.intercalate_singleton.symm
  | succ b =>
      have hmany :
          ofFactors (List.replicate (b + 2) logN) = multiply (List.replicate (b + 2) logN) := rfl
      rw [hmany, growthTerm, growthTerms_eq, List.map_replicate, productText]
      simp [logN]

theorem power_eq_or (size : String) (degree : UInt32) :
    power size degree = linear size ∨ power size degree = polynomial degree size := by
  unfold power
  split
  · exact Or.inl rfl
  · exact Or.inr rfl

theorem growthTerm_monomial {a : Nat} (ha : a ≠ 0) (b : Nat) :
    (monomial a b).growthTerm =
      if b = 0 then powerText a else powerText a ++ " " ++ logsText b := by
  have hfactors : (monomialParts a b).factors =
      power inputSize (degreeWord a) :: List.replicate b logN := by
    simp [ProductParts.factors, monomialParts, ha]
  rw [monomial, hfactors]
  cases b with
  | zero => rfl
  | succ b =>
      have hmany : ofFactors (power inputSize (degreeWord a) :: List.replicate (b + 1) logN) =
          multiply (power inputSize (degreeWord a) :: List.replicate (b + 1) logN) := rfl
      rw [hmany, growthTerm, growthTerms_eq, List.map_cons, List.map_replicate, productText,
        if_neg (Nat.succ_ne_zero b), powerText, logsText]
      rcases power_eq_or inputSize (degreeWord a) with h | h <;> simp [h, logN]

theorem logsText_succ (b : Nat) :
    logsText (b + 1) = if b = 0 then "log n" else "log n" ++ " " ++ logsText b := by
  rw [logsText, List.replicate_succ]
  split
  · next h =>
      rw [h]
      exact String.intercalate_singleton
  · next h =>
      have hne : List.replicate b logN.growthTerm ≠ [] := fun hnil =>
        h (by simpa using congrArg List.length hnil)
      rw [String.intercalate_cons_of_ne_nil hne, logsText]
      rfl

/-- Each logarithm is written with one letter `l`. -/
theorem count_logsText (b : Nat) : (logsText b).toList.count 'l' = b := by
  induction b with
  | zero => rfl
  | succ b ih =>
      rw [logsText_succ]
      split
      · next h =>
          rw [h]
          rfl
      · rw [String.toList_append, String.toList_append, List.count_append, List.count_append, ih]
        exact Nat.add_comm 1 b

theorem head?_logsText {b : Nat} (h : b ≠ 0) : (logsText b).toList.head? = some 'l' := by
  obtain ⟨b, rfl⟩ := Nat.exists_eq_succ_of_ne_zero h
  rw [logsText_succ]
  split
  · rfl
  · rw [String.toList_append, String.toList_append]
    rfl

theorem powerText_eq (a : Nat) :
    powerText a =
      if degreeWord a = 1 then "n" else "n" ++ "^" ++ toString (degreeWord a).toNat := by
  rw [powerText, power]
  split <;> rfl

theorem head?_powerText (a : Nat) : (powerText a).toList.head? = some 'n' := by
  rw [powerText_eq]
  split
  · rfl
  · rw [String.toList_append, String.toList_append]
    rfl

theorem count_powerText (a : Nat) : (powerText a).toList.count 'l' = 0 := by
  rw [powerText_eq]
  split
  · rfl
  · have hdigits : 'l' ∉ (toString (degreeWord a).toNat).toList :=
      (Text.isNumeral_toString _).not_mem (by decide)
    rw [String.toList_append, String.toList_append, List.count_append, List.count_append,
      List.count_eq_zero_of_not_mem hdigits]
    rfl

theorem toString_injective {m k : Nat} (h : toString m = toString k) : m = k := by
  rw [Nat.toString_eq_ofList_toDigits, Nat.toString_eq_ofList_toDigits, String.ofList_inj] at h
  have := congrArg (Nat.ofDigitChars 10 · 0) h
  rwa [Nat.ofDigitChars_ten_toDigits, Nat.ofDigitChars_ten_toDigits] at this

/-- A power is written in its own way. -/
theorem degreeWord_eq_of_powerText_eq {a a' : Nat} (h : powerText a = powerText a') :
    degreeWord a = degreeWord a' := by
  have hlength (d : Nat) : "n" ≠ "n" ++ "^" ++ toString d := by
    intro heq
    have := congrArg (fun s => s.toList.length) heq
    simp only [String.toList_append, List.length_append] at this
    have hn : "n".toList.length = 1 := rfl
    have hc : "^".toList.length = 1 := rfl
    omega
  rw [powerText_eq, powerText_eq] at h
  by_cases ha : degreeWord a = 1 <;> by_cases ha' : degreeWord a' = 1 <;>
    simp only [ha, ha', if_true, if_false] at h
  · rw [ha, ha']
  · exact absurd h (hlength _)
  · exact absurd h.symm (hlength _)
  · rw [String.append_right_inj] at h
    exact UInt32.toNat_inj.mp (toString_injective h)

theorem degreeWord_eq_zero_iff {a : Nat} : degreeWord a = 0 ↔ a = 0 := by
  refine ⟨fun h => Decidable.not_not.mp fun ha => degreeWord_ne_zero ha h, ?_⟩
  rintro rfl
  rfl

theorem monomial_congr {a a' b : Nat} (h : degreeWord a = degreeWord a') :
    monomial a b = monomial a' b := by
  simp only [monomial, monomialParts, ← degreeWord_eq_zero_iff, h]

theorem count_growthTerm_monomial (a b : Nat) :
    (monomial a b).growthTerm.toList.count 'l' = b := by
  by_cases ha : a = 0
  · subst ha
    by_cases hb : b = 0
    · subst hb
      rfl
    · rw [growthTerm_monomial_zero hb, count_logsText]
  · rw [growthTerm_monomial ha]
    split
    · next hb => rw [count_powerText, hb]
    · rw [String.toList_append, String.toList_append, List.count_append, List.count_append,
        count_powerText, count_logsText]
      exact Nat.zero_add b

theorem head?_growthTerm_monomial (a b : Nat) :
    (monomial a b).growthTerm.toList.head? = some 'n' ↔ a ≠ 0 := by
  by_cases ha : a = 0
  · subst ha
    by_cases hb : b = 0
    · subst hb
      decide
    · rw [growthTerm_monomial_zero hb, head?_logsText hb]
      decide
  · rw [growthTerm_monomial ha]
    split
    · simp [head?_powerText, ha]
    · rw [String.toList_append, String.toList_append, List.append_assoc, List.head?_append,
        head?_powerText]
      simp [ha]

/-- What a monomial is written like tells its degree, as far as a word holds it. -/
theorem degreeWord_eq_of_growthTerm_eq {a b a' b' : Nat}
    (h : (monomial a b).growthTerm = (monomial a' b').growthTerm) :
    degreeWord a = degreeWord a' := by
  have hb : b = b' := by rw [← count_growthTerm_monomial a b, h, count_growthTerm_monomial]
  have hzero : a ≠ 0 ↔ a' ≠ 0 := by
    rw [← head?_growthTerm_monomial a b, h, head?_growthTerm_monomial]
  subst hb
  by_cases ha : a = 0
  · have ha' : a' = 0 := Decidable.not_not.mp fun hne => hzero.mpr hne ha
    rw [ha, ha']
  · refine degreeWord_eq_of_powerText_eq ?_
    rw [growthTerm_monomial ha, growthTerm_monomial (hzero.mp ha)] at h
    split at h
    · exact h
    · rwa [String.append_assoc, String.append_assoc, String.append_left_inj] at h

/-- Monomials that are written alike are the same. -/
theorem growthTerm_monomial_inj {a b a' b' : Nat}
    (h : (monomial a b).growthTerm = (monomial a' b').growthTerm) :
    monomial a b = monomial a' b' := by
  have hb : b = b' := by rw [← count_growthTerm_monomial a b, h, count_growthTerm_monomial]
  rw [hb]
  exact monomial_congr (degreeWord_eq_of_growthTerm_eq h)

end Cost

namespace Block

def linearLevels (b : Block) : Nat := Statement.linearLevels b.statements

def logarithmicLevels (b : Block) : Nat := Statement.logarithmicLevels b.statements

/-- The time of a block has a factor for each level that grows with the input. -/
theorem time_eq_monomial (b : Block) :
    b.time = Cost.monomial b.linearLevels b.logarithmicLevels := by
  rw [time, Cost.reduce_product_map_cost, Statement.count_linear_levelsAll,
    Statement.count_logarithmic_levelsAll, linearLevels, logarithmicLevels]

end Block

end CodeProfile
