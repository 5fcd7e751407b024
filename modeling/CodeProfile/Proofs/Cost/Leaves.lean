import CodeProfile.Proofs.Cost.Grouping
import CodeProfile.Proofs.Cost.Subexponential

/-!
# What a reduced cost tells of its leaves

Reduction merges factors and drops terms, but two questions about the
leaves of a cost can still be asked of the reduced one. It is exponential
exactly if a leaf is (`exponentialRank_le_rank_reduce_iff`), since a
product keeps every exponential factor and a sum drops terms only for one
of greater rank. It is a constant exactly if no leaf grows
(`rank_reduce_eq_zero_iff`), since saturation and the ceiling of a product
never take a rank back to zero.

So an exponential cost absorbs every other one (`absorbed_of_lt`). The
headline `reduced_tells_leaves` puts the two answers and the absorption
together.
-/

namespace CodeProfile

namespace Cost

/-- What is in the expression apart from products and sums. -/
def leaves (c : Cost) : List Cost := c.within.filter fun d => !(d.isProduct || d.isSum)

/-- A constant, or a power of degree zero. -/
def isFlat : Cost → Bool
  | constant _ => true
  | polynomial degree _ => degree == 0
  | _ => false

theorem leaves_multiply (fs : List Cost) : (multiply fs).leaves = fs.flatMap leaves := by
  rw [leaves, within, withinAll_eq, List.filter_cons_of_neg (by simp [isProduct]),
    List.filter_flatMap]
  rfl

theorem leaves_add (ts : List Cost) : (add ts).leaves = ts.flatMap leaves := by
  rw [leaves, within, withinAll_eq, List.filter_cons_of_neg (by simp [isSum]),
    List.filter_flatMap]
  rfl

theorem hasExponential_iff_mem_leaves {c : Cost} :
    c.HasExponential ↔ ∃ base size, exponential base size ∈ c.leaves := by
  simp [HasExponential, leaves, isProduct, isSum]

theorem isFlat_iff {c : Cost} :
    c.isFlat = true ↔ (∃ v, c = constant v) ∨ ∃ size, c = polynomial 0 size := by
  cases c <;> simp [isFlat]

/-! ## Exponentials -/

theorem exponentialRank_le_rank_ofFactors_iff {fs : List Cost} :
    exponentialRank ≤ (ofFactors fs).rank ↔ ∃ f ∈ fs, exponentialRank ≤ f.rank := by
  match fs with
  | [] => simp [ofFactors, one, rank, exponentialRank]
  | [f] => simp [ofFactors]
  | f :: g :: fs =>
      have hmany : ofFactors (f :: g :: fs) = multiply (f :: g :: fs) := rfl
      rw [hmany, rank_multiply, exponentialRank_le_productRank_iff]
      simp only [List.mem_map, exists_exists_and_eq_and]

theorem exponentialRank_le_rank_factorsOf_iff {c : Cost} :
    exponentialRank ≤ c.rank ↔ ∃ f ∈ c.factorsOf, exponentialRank ≤ f.rank := by
  cases c with
  | multiply fs =>
      rw [rank_multiply, exponentialRank_le_productRank_iff]
      simp only [factorsOf, List.mem_map, exists_exists_and_eq_and]
  | _ => simp [factorsOf]

/-- Constants and powers stay below the exponentials. -/
theorem isOther_of_exponentialRank_le {f : Cost} (h : exponentialRank ≤ f.rank) :
    f.isOther = true := by
  cases f with
  | constant v => simp [rank, exponentialRank] at h
  | linear size => simp [rank, exponentialRank] at h
  | polynomial degree size =>
      simp only [rank, exponentialRank] at h
      omega
  | _ => rfl

theorem exponentialRank_le_rank_combineProduct_iff {cs : List Cost} :
    exponentialRank ≤ (combineProduct cs).rank ↔ ∃ c ∈ cs, exponentialRank ≤ c.rank := by
  constructor
  · intro h
    by_contra hnone
    have hlt : ∀ c ∈ cs, c.rank < exponentialRank := fun c hc =>
      Nat.lt_of_not_le fun hle => hnone ⟨c, hc, hle⟩
    rw [rank_combineProduct_of_lt hlt, exponentialRank] at h
    omega
  · rintro ⟨c, hc, hle⟩
    obtain ⟨f, hf, hle⟩ := exponentialRank_le_rank_factorsOf_iff.mp hle
    have hmem : f ∈ cs.flatMap factorsOf := List.mem_flatMap.mpr ⟨c, hc, hf⟩
    have hother : f ∈ (parts (cs.flatMap factorsOf)).others := by
      rw [parts_eq]
      exact List.mem_filter.mpr ⟨hmem, isOther_of_exponentialRank_le hle⟩
    rw [combineProduct_eq, exponentialRank_le_rank_ofFactors_iff]
    exact ⟨f, List.mem_append_right _ hother, hle⟩

/-- Reduction neither loses the exponentials of an expression nor invents one. -/
theorem exponentialRank_le_rank_reduce_iff (c : Cost) :
    exponentialRank ≤ c.reduce.rank ↔ c.HasExponential := by
  induction c using Cost.induction with
  | multiply fs ih =>
      rw [reduce_multiply, exponentialRank_le_rank_combineProduct_iff, hasExponential_multiply]
      simp only [List.mem_map, exists_exists_and_eq_and]
      exact exists_congr fun f => and_congr_right fun hf => ih f hf
  | add ts ih =>
      rw [reduce_add, rank_combineSum, exponentialRank_le_sumRank_iff, hasExponential_add]
      simp only [List.mem_map, exists_exists_and_eq_and]
      exact exists_congr fun t => and_congr_right fun ht => ih t ht
  | polynomial degree size =>
      rw [rank_reduce
        (productsSubexponential_of_not_hasExponential (by simp [HasExponential, within]))]
      exact exponentialRank_le_rank_iff _
  | _ => exact exponentialRank_le_rank_iff _

/-! ## Constants -/

theorem rank_combineProduct_eq_zero_iff {cs : List Cost} :
    (combineProduct cs).rank = 0 ↔ ∀ c ∈ cs, c.rank = 0 := by
  constructor
  · intro h
    have hlt : ∀ c ∈ cs, c.rank < exponentialRank := by
      intro c hc
      refine Nat.lt_of_not_le fun hle => ?_
      have := exponentialRank_le_rank_combineProduct_iff.mpr ⟨c, hc, hle⟩
      simp only [exponentialRank] at this
      omega
    rw [rank_combineProduct_of_lt hlt, exponentialRank] at h
    have hsum : (cs.map rank).sum = 0 := by omega
    simpa using List.sum_eq_zero_iff_forall_eq_nat.mp hsum
  · intro h
    have hlt : ∀ c ∈ cs, c.rank < exponentialRank := fun c hc => by
      rw [h c hc]
      decide
    have hsum : (cs.map rank).sum = 0 :=
      List.sum_eq_zero_iff_forall_eq_nat.mpr (List.forall_mem_map.mpr h)
    rw [rank_combineProduct_of_lt hlt, hsum, Nat.zero_min]

theorem sumRank_eq_zero_iff {rs : List Nat} : sumRank rs = 0 ↔ ∀ r ∈ rs, r = 0 := by
  simp only [← Nat.le_zero, sumRank_le_iff]

/-- A reduced expression has rank zero exactly if none of its leaves grows. -/
theorem rank_reduce_eq_zero_iff (c : Cost) :
    c.reduce.rank = 0 ↔ ∀ l ∈ c.leaves, l.isFlat = true := by
  induction c using Cost.induction with
  | multiply fs ih =>
      rw [reduce_multiply, rank_combineProduct_eq_zero_iff, leaves_multiply, List.forall_mem_map,
        List.forall_mem_flatMap]
      exact forall₂_congr ih
  | add ts ih =>
      rw [reduce_add, rank_combineSum, sumRank_eq_zero_iff, leaves_add, List.map_map,
        List.forall_mem_map, List.forall_mem_flatMap]
      exact forall₂_congr ih
  | polynomial degree size =>
      have hrank : (polynomial degree size).reduce.rank = (polynomial degree size).rank :=
        rank_reduce
          (productsSubexponential_of_not_hasExponential (by simp [HasExponential, within]))
      have hzero : degree = 0 ↔ degree.toNat = 0 := by
        rw [← UInt32.toNat_inj, UInt32.toNat_zero]
      rw [hrank]
      simp only [rank, leaves, within, isProduct, isSum, isFlat, exponentialRank, maxWord32,
        List.filter_cons, List.filter_nil, Bool.or_self, Bool.not_false, if_true,
        List.forall_mem_singleton, beq_iff_eq, hzero]
      omega
  | exponential base size =>
      simp only [reduce, rank, leaves, within, isProduct, isSum, isFlat, exponentialRank, maxWord32,
        List.filter_cons, List.filter_nil, Bool.or_self, Bool.not_false, if_true,
        List.forall_mem_singleton, Bool.false_eq_true, iff_false]
      omega
  | _ => simp [reduce, leaves, within, isProduct, isSum, isFlat, rank, symbolicRank]

theorem isConstant_iff_rank (c : Cost) : c.isConstant = true ↔ c.reduce.rank = 0 := by
  constructor
  · intro h
    unfold isConstant at h
    split at h
    · next v hv => rw [hv, rank]
    · cases h
  · intro h
    obtain ⟨v, hv⟩ := constant_of_rank_eq_zero c.reduce_canonical h
    rw [isConstant, hv]

/-! ## Absorption -/

/-- A list of terms hides another one of lesser rank, before it and after it. -/
theorem combineSum_append_of_lt {cs ds : List Cost}
    (h : sumRank (cs.map rank) < sumRank (ds.map rank)) :
    combineSum (cs ++ ds) = combineSum ds ∧ combineSum (ds ++ cs) = combineSum ds := by
  have hlt := h
  rw [← sumRank_flatMap_termsOf cs, ← sumRank_flatMap_termsOf ds] at hlt
  have hds : ds.flatMap termsOf ≠ [] := by
    intro hnil
    rw [hnil] at hlt
    exact Nat.not_lt_zero _ hlt
  have hlost := ofRank_eq_nil hlt
  have hdominant : dominant (cs ++ ds) = dominant ds ∧ dominant (ds ++ cs) = dominant ds := by
    simp only [dominant_eq, List.flatMap_append, List.map_append, sumRank_append,
      Nat.max_eq_right (Nat.le_of_lt hlt), Nat.max_eq_left (Nat.le_of_lt hlt), ofRank_append, hlost,
      List.nil_append, List.append_nil, and_self]
  constructor
  · rw [combineSum_eq, combineSum_eq, kept, kept, hdominant.1, if_neg hds, if_neg]
    rw [List.flatMap_append]
    exact List.append_ne_nil_of_right_ne_nil _ hds
  · rw [combineSum_eq, combineSum_eq, kept, kept, hdominant.2, if_neg hds, if_neg]
    rw [List.flatMap_append]
    exact List.append_ne_nil_of_left_ne_nil hds _

/-- An expression of greater reduced rank absorbs the other one in a sum. -/
theorem absorbed_of_lt {c d : Cost} (h : c.reduce.rank < d.reduce.rank) :
    (sum [c, d]).reduce = d.reduce ∧ (sum [d, c]).reduce = d.reduce := by
  have hranks : sumRank ([c.reduce].map rank) < sumRank ([d.reduce].map rank) := by
    simpa [sumRank] using h
  obtain ⟨hright, hleft⟩ := combineSum_append_of_lt hranks
  rw [combineSum_singleton d.reduce_canonical] at hright hleft
  rw [reduce_sum, reduce_sum]
  exact ⟨hright, hleft⟩

/-- The reduced expression tells whether an exponential is among the leaves, and whether all leaves
are constants; saturation and the ceiling of products never change the answer. An expression with an
exponential exceeds every one without, and absorbs it in a sum. -/
theorem reduced_tells_leaves (c : Cost) :
    (c.isExponential = true ↔ ∃ base size, exponential base size ∈ c.leaves) ∧
      (exponentialRank ≤ c.rank ↔ c.HasExponential) ∧
      (c.reduce.HasExponential ↔ c.HasExponential) ∧
      (c.isConstant = true ↔
        ∀ l ∈ c.leaves, (∃ v, l = constant v) ∨ ∃ size, l = polynomial 0 size) ∧
      ∀ d : Cost, ¬ c.HasExponential → d.HasExponential →
        c.compareGrowth d = .lt ∧ (sum [c, d]).reduce = d.reduce ∧
          (sum [d, c]).reduce = d.reduce := by
  have hreduced := exponentialRank_le_rank_reduce_iff
  refine ⟨?exponential, exponentialRank_le_rank_iff c, ?kept, ?constant, ?absorbed⟩
  case exponential =>
    rw [isExponential, decide_eq_true_eq, hreduced, hasExponential_iff_mem_leaves]
  case kept => rw [← exponentialRank_le_rank_iff, hreduced]
  case constant =>
    rw [isConstant_iff_rank, rank_reduce_eq_zero_iff]
    simp only [isFlat_iff]
  case absorbed =>
    intro d hc hd
    rw [← hreduced] at hc hd
    have hlt : c.reduce.rank < d.reduce.rank := Nat.lt_of_lt_of_le (Nat.lt_of_not_le hc) hd
    exact ⟨Nat.compare_eq_lt.mpr hlt, absorbed_of_lt hlt⟩

/-- Powers of the greatest degree there is. -/
def highPowers : Cost := product [polynomial 0xFFFFFFFF "n", polynomial 0xFFFFFFFF "m", logN]

/-- They stay below the exponential of the least base. -/
theorem reduced_tells_leaves_highPowers :
    ¬ highPowers.HasExponential ∧ (exponential 0 "n").HasExponential ∧
      highPowers.compareGrowth (exponential 0 "n") = .lt ∧
      (sum [highPowers, exponential 0 "n"]).reduce = exponential 0 "n" ∧
      (sum [exponential 0 "n", highPowers]).reduce = exponential 0 "n" := by
  have hc : ¬ highPowers.HasExponential := by
    simp [highPowers, product, factorsOf, logN, HasExponential, within, withinAll]
  have hd : (exponential 0 "n").HasExponential := ⟨0, "n", mem_within_self _⟩
  obtain ⟨-, -, -, -, habsorbed⟩ := reduced_tells_leaves highPowers
  exact ⟨hc, hd, habsorbed (exponential 0 "n") hc hd⟩

end Cost

end CodeProfile
