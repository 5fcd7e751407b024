import CodeProfile.Proofs.Cost.Rank
import Mathlib.Algebra.Order.BigOperators.Group.List
import Mathlib.Algebra.Order.Ring.Nat

/-!
# Costs below the exponentials

A rank is exponential exactly if an exponential occurs
(`exponentialRank_le_rank_iff`): no product of other factors gets there.
As long as no product holds an exponential, reduction keeps the rank
(`rank_reduce`), since the ceiling of a product hides what merging powers
does to the ceiling of each power.
-/

namespace CodeProfile

namespace Cost

mutual

/-- The expression and all expressions inside. -/
def within : Cost → List Cost
  | multiply fs => multiply fs :: withinAll fs
  | add ts => add ts :: withinAll ts
  | c => [c]

/-- `within` for several expressions. -/
def withinAll : List Cost → List Cost
  | [] => []
  | c :: cs => within c ++ withinAll cs

end

theorem withinAll_eq (cs : List Cost) : withinAll cs = cs.flatMap within := by
  induction cs with
  | nil => rfl
  | cons c cs ih => rw [withinAll, ih, List.flatMap_cons]

theorem mem_within_multiply {fs : List Cost} {d : Cost} :
    d ∈ (multiply fs).within ↔ d = multiply fs ∨ ∃ f ∈ fs, d ∈ f.within := by
  rw [within, withinAll_eq, List.mem_cons, List.mem_flatMap]

theorem mem_within_add {ts : List Cost} {d : Cost} :
    d ∈ (add ts).within ↔ d = add ts ∨ ∃ t ∈ ts, d ∈ t.within := by
  rw [within, withinAll_eq, List.mem_cons, List.mem_flatMap]

/-- An exponential occurs in the expression. -/
def HasExponential (c : Cost) : Prop := ∃ base size, exponential base size ∈ c.within

/-- No product in the expression holds an exponential. -/
def ProductsSubexponential (c : Cost) : Prop :=
  ∀ fs, multiply fs ∈ c.within → ¬ (multiply fs).HasExponential

theorem hasExponential_multiply {fs : List Cost} :
    (multiply fs).HasExponential ↔ ∃ f ∈ fs, f.HasExponential := by
  simp only [HasExponential, mem_within_multiply, reduceCtorEq, false_or]
  constructor
  · rintro ⟨base, size, f, hf, h⟩
    exact ⟨f, hf, base, size, h⟩
  · rintro ⟨f, hf, base, size, h⟩
    exact ⟨base, size, f, hf, h⟩

theorem hasExponential_add {ts : List Cost} :
    (add ts).HasExponential ↔ ∃ t ∈ ts, t.HasExponential := by
  simp only [HasExponential, mem_within_add, reduceCtorEq, false_or]
  constructor
  · rintro ⟨base, size, t, ht, h⟩
    exact ⟨t, ht, base, size, h⟩
  · rintro ⟨t, ht, base, size, h⟩
    exact ⟨base, size, t, ht, h⟩

/-! ## Exponential ranks -/

theorem exponentialRank_le_productRank_iff {rs : List Nat} :
    exponentialRank ≤ productRank rs ↔ ∃ r ∈ rs, exponentialRank ≤ r := by
  rw [productRank_eq]
  split
  · next hany =>
      simp only [List.any_eq_true, decide_eq_true_eq] at hany
      refine ⟨fun _ => hany, fun ⟨r, hr, hle⟩ => ?_⟩
      have := List.le_sum_of_mem hr
      simp only [exponentialRank, maxWord32] at hle ⊢
      omega
  · next hany =>
      simp only [List.any_eq_true, decide_eq_true_eq] at hany
      refine ⟨fun h => ?_, fun h => absurd h hany⟩
      simp only [exponentialRank] at h
      omega

theorem exponentialRank_le_sumRank_iff {rs : List Nat} :
    exponentialRank ≤ sumRank rs ↔ ∃ r ∈ rs, exponentialRank ≤ r := by
  have hlt : sumRank rs ≤ exponentialRank - 1 ↔ ∀ r ∈ rs, r ≤ exponentialRank - 1 := sumRank_le_iff
  constructor
  · intro h
    by_contra hnone
    have hall : ∀ r ∈ rs, r ≤ exponentialRank - 1 := fun r hr =>
      Nat.le_sub_one_of_lt (Nat.lt_of_not_le fun hle => hnone ⟨r, hr, hle⟩)
    have := hlt.mpr hall
    simp only [exponentialRank] at *
    omega
  · rintro ⟨r, hr, hle⟩
    exact Nat.le_trans hle (le_sumRank hr)

/-- The exponential ranks are those of expressions in which an exponential occurs. -/
theorem exponentialRank_le_rank_iff (c : Cost) : exponentialRank ≤ c.rank ↔ c.HasExponential := by
  induction c using Cost.induction with
  | multiply fs ih =>
      rw [rank_multiply, exponentialRank_le_productRank_iff, hasExponential_multiply]
      simp only [List.mem_map, exists_exists_and_eq_and]
      exact exists_congr fun f => and_congr_right fun hf => ih f hf
  | add ts ih =>
      rw [rank_add, exponentialRank_le_sumRank_iff, hasExponential_add]
      simp only [List.mem_map, exists_exists_and_eq_and]
      exact exists_congr fun t => and_congr_right fun ht => ih t ht
  | exponential base size =>
      refine ⟨fun _ => ⟨base, size, List.mem_singleton_self _⟩, fun _ => ?_⟩
      simp only [rank, exponentialRank, maxWord32]
      omega
  | polynomial degree size =>
      simp only [HasExponential, within, List.mem_singleton, reduceCtorEq, exists_false, iff_false,
        rank, exponentialRank]
      omega
  | constant v => simp [HasExponential, within, rank, exponentialRank]
  | logarithmic base size => simp [HasExponential, within, rank, exponentialRank]
  | linear size => simp [HasExponential, within, rank, exponentialRank]
  | symbolic name text => simp [HasExponential, within, rank, exponentialRank, symbolicRank]

theorem rank_lt_of_not_hasExponential {c : Cost} (h : ¬ c.HasExponential) :
    c.rank < exponentialRank :=
  Nat.lt_of_not_le fun hle => h ((exponentialRank_le_rank_iff c).mp hle)

theorem mem_within_self (c : Cost) : c ∈ c.within := by
  cases c with
  | multiply fs => exact mem_within_multiply.mpr (Or.inl rfl)
  | add ts => exact mem_within_add.mpr (Or.inl rfl)
  | _ => exact List.mem_singleton_self _

theorem within_subset {c d : Cost} (h : d ∈ c.within) : d.within ⊆ c.within := by
  induction c using Cost.induction with
  | multiply fs ih =>
      rcases mem_within_multiply.mp h with rfl | ⟨f, hf, hdf⟩
      · exact List.Subset.refl _
      · exact fun x hx => mem_within_multiply.mpr (Or.inr ⟨f, hf, ih f hf hdf hx⟩)
  | add ts ih =>
      rcases mem_within_add.mp h with rfl | ⟨t, ht, hdt⟩
      · exact List.Subset.refl _
      · exact fun x hx => mem_within_add.mpr (Or.inr ⟨t, ht, ih t ht hdt hx⟩)
  | _ =>
      rw [List.mem_singleton.mp h]
      exact List.Subset.refl _

theorem productsSubexponential_of_not_hasExponential {c : Cost} (h : ¬ c.HasExponential) :
    c.ProductsSubexponential :=
  fun _ hfs ⟨base, size, hexp⟩ => h ⟨base, size, within_subset hfs hexp⟩

/-! ## Products of subexponential factors -/

theorem productRank_of_lt {rs : List Nat} (h : ∀ r ∈ rs, r < exponentialRank) :
    productRank rs = min rs.sum (exponentialRank - 1) := by
  rw [productRank_eq, if_neg]
  simp only [List.any_eq_true, decide_eq_true_eq]
  rintro ⟨r, hr, hle⟩
  exact Nat.not_le_of_lt (h r hr) hle

theorem rank_power (size : String) (degree : UInt32) :
    (power size degree).rank = min (degree.toNat * 10) (exponentialRank - 1) := by
  unfold power
  split
  · next h => rw [h]; rfl
  · simp only [rank, exponentialRank, maxWord32]
    omega

/-- The ranks of the parts of a product, added up. -/
def ProductParts.ranks (p : ProductParts) : Nat :=
  (p.powers.map fun q => (power q.1 q.2).rank).sum + (p.others.map rank).sum

theorem sum_map_rank_factors (p : ProductParts) : (p.factors.map rank).sum = p.ranks := by
  rw [ProductParts.factors, List.map_append, List.map_append, List.sum_append, List.sum_append,
    List.map_map, ProductParts.ranks]
  split
  · exact congrArg (· + _) (Nat.zero_add _)
  · exact congrArg (· + _) (Nat.zero_add _)

/-- Below the ceiling, a power counts the same on its own and merged. -/
theorem min_ranks_addPower (size : String) (degree : UInt32) (ps : List (String × UInt32))
    (rest : Nat) :
    min (((addPower size degree ps).map fun q => (power q.1 q.2).rank).sum + rest)
        (exponentialRank - 1) =
      min ((ps.map fun q => (power q.1 q.2).rank).sum + (power size degree).rank + rest)
        (exponentialRank - 1) := by
  induction ps generalizing rest with
  | nil => simp [addPower]
  | cons p ps ih =>
      rw [addPower]
      split
      · simp only [List.map_cons, List.sum_cons, rank_power, toNat_addSaturating32, exponentialRank,
          maxWord32]
        omega
      · have := ih ((power p.1 p.2).rank + rest)
        simp only [List.map_cons, List.sum_cons, exponentialRank] at this ⊢
        omega

theorem min_ranks_insert (p : ProductParts) (f : Cost) :
    min (p.insert f).ranks (exponentialRank - 1) =
      min (p.ranks + f.rank) (exponentialRank - 1) := by
  cases f with
  | constant v => rfl
  | linear size =>
      have := min_ranks_addPower size 1 p.powers (p.others.map rank).sum
      simp only [ProductParts.insert, ProductParts.ranks, rank_power, rank, UInt32.toNat_one,
        exponentialRank] at this ⊢
      omega
  | polynomial degree size =>
      have := min_ranks_addPower size degree p.powers (p.others.map rank).sum
      simp only [ProductParts.insert, ProductParts.ranks, rank_power, rank, exponentialRank,
        maxWord32] at this ⊢
      omega
  | _ =>
      simp only [ProductParts.insert, ProductParts.ranks, List.map_append, List.sum_append,
        List.map_singleton, List.sum_singleton, Nat.add_assoc]

theorem min_ranks_foldl_insert (p : ProductParts) (fs : List Cost) :
    min (fs.foldl ProductParts.insert p).ranks (exponentialRank - 1) =
      min (p.ranks + (fs.map rank).sum) (exponentialRank - 1) := by
  induction fs generalizing p with
  | nil => rfl
  | cons f fs ih =>
      have := min_ranks_insert p f
      rw [List.foldl_cons, ih, List.map_cons, List.sum_cons]
      omega

theorem min_ranks_parts (fs : List Cost) :
    min (parts fs).ranks (exponentialRank - 1) = min (fs.map rank).sum (exponentialRank - 1) := by
  have hempty : ProductParts.empty.ranks = 0 := rfl
  rw [parts, min_ranks_foldl_insert, hempty, Nat.zero_add]

theorem rank_lt_of_mem_factorsOf {c f : Cost} (h : c.rank < exponentialRank)
    (hf : f ∈ c.factorsOf) : f.rank < exponentialRank := by
  cases hp : c.isProduct with
  | false =>
      rw [factorsOf_of_not_isProduct hp, List.mem_singleton] at hf
      rwa [hf]
  | true =>
      cases c with
      | multiply fs =>
          rw [rank_multiply] at h
          refine Nat.lt_of_not_le fun hle => Nat.not_le_of_lt h ?_
          exact exponentialRank_le_productRank_iff.mpr ⟨f.rank, List.mem_map_of_mem hf, hle⟩
      | _ => cases hp

/-- A subexponential product counts as its factors do, up to the ceiling. -/
theorem min_rank_factorsOf {c : Cost} (h : c.rank < exponentialRank) :
    min (c.factorsOf.map rank).sum (exponentialRank - 1) = min c.rank (exponentialRank - 1) := by
  cases hp : c.isProduct with
  | false => rw [factorsOf_of_not_isProduct hp, List.map_singleton, List.sum_singleton]
  | true =>
      cases c with
      | multiply fs =>
          have hall : ∀ r ∈ fs.map rank, r < exponentialRank :=
            List.forall_mem_map.mpr fun f hf => rank_lt_of_mem_factorsOf h hf
          rw [rank_multiply, productRank_of_lt hall, factorsOf, Nat.min_assoc, Nat.min_self]
      | _ => cases hp

theorem min_ranks_flatMap_factorsOf {cs : List Cost} (h : ∀ c ∈ cs, c.rank < exponentialRank) :
    min ((cs.flatMap factorsOf).map rank).sum (exponentialRank - 1) =
      min (cs.map rank).sum (exponentialRank - 1) := by
  induction cs with
  | nil => rfl
  | cons c cs ih =>
      obtain ⟨hc, hcs⟩ := List.forall_mem_cons.mp h
      have htail := ih hcs
      have hhead := min_rank_factorsOf hc
      rw [List.flatMap_cons, List.map_append, List.sum_append, List.map_cons, List.sum_cons]
      omega

theorem rank_ofFactors_of_lt {fs : List Cost} (h : ∀ f ∈ fs, f.rank < exponentialRank) :
    (ofFactors fs).rank = min (fs.map rank).sum (exponentialRank - 1) := by
  match fs with
  | [] => rfl
  | [f] =>
      have := h f (.head _)
      rw [ofFactors, List.map_singleton, List.sum_singleton]
      omega
  | f :: g :: fs =>
      have hmany : ofFactors (f :: g :: fs) = multiply (f :: g :: fs) := rfl
      rw [hmany, rank_multiply, productRank_of_lt (List.forall_mem_map.mpr h)]

/-- The rank of a reduced product of subexponential factors. -/
theorem rank_combineProduct_of_lt {cs : List Cost} (h : ∀ c ∈ cs, c.rank < exponentialRank) :
    (combineProduct cs).rank = min (cs.map rank).sum (exponentialRank - 1) := by
  have hfactors : ∀ f ∈ (parts (cs.flatMap factorsOf)).factors, f.rank < exponentialRank := by
    refine ProductParts.forall_mem_factors (fun _ => Nat.zero_lt_succ _) (fun q _ => ?_) ?_
    · rw [rank_power, exponentialRank]
      omega
    · rw [parts_eq]
      intro f hf
      obtain ⟨c, hc, hfc⟩ := List.mem_flatMap.mp (List.mem_of_mem_filter hf)
      exact rank_lt_of_mem_factorsOf (h c hc) hfc
  rw [combineProduct_eq, rank_ofFactors_of_lt hfactors, sum_map_rank_factors, min_ranks_parts,
    min_ranks_flatMap_factorsOf h]

/-! ## Reduction -/

theorem ProductsSubexponential.of_mem_factors {fs : List Cost} {f : Cost}
    (h : (multiply fs).ProductsSubexponential) (hf : f ∈ fs) : f.ProductsSubexponential :=
  fun gs hgs => h gs (mem_within_multiply.mpr (Or.inr ⟨f, hf, hgs⟩))

theorem ProductsSubexponential.of_mem_terms {ts : List Cost} {t : Cost}
    (h : (add ts).ProductsSubexponential) (ht : t ∈ ts) : t.ProductsSubexponential :=
  fun gs hgs => h gs (mem_within_add.mpr (Or.inr ⟨t, ht, hgs⟩))

/-- Reduction keeps the rank of an expression in which no product holds an exponential. -/
theorem rank_reduce {c : Cost} (h : c.ProductsSubexponential) : c.reduce.rank = c.rank := by
  induction c using Cost.induction with
  | multiply fs ih =>
      have hsub : ∀ f ∈ fs, f.rank < exponentialRank := fun f hf =>
        rank_lt_of_not_hasExponential fun hexp =>
          h fs (mem_within_self _) (hasExponential_multiply.mpr ⟨f, hf, hexp⟩)
      have hkeep : ∀ f ∈ fs, f.reduce.rank = f.rank := fun f hf => ih f hf (h.of_mem_factors hf)
      have hlt : ∀ c ∈ fs.map reduce, c.rank < exponentialRank :=
        List.forall_mem_map.mpr fun f hf => (hkeep f hf).symm ▸ hsub f hf
      rw [reduce_multiply, rank_combineProduct_of_lt hlt, rank_multiply,
        productRank_of_lt (List.forall_mem_map.mpr hsub), List.map_map]
      exact congrArg (fun rs : List Nat => min rs.sum _) (List.map_congr_left hkeep)
  | add ts ih =>
      rw [reduce_add, rank_combineSum, rank_add, List.map_map]
      exact congrArg sumRank (List.map_congr_left fun t ht => ih t ht (h.of_mem_terms ht))
  | polynomial degree size =>
      rw [reduce]
      split
      · next h0 => rw [h0]; rfl
      · split
        · next h1 => rw [h1]; rfl
        · rfl
  | _ => rfl

end Cost

end CodeProfile
