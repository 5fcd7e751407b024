import CodeProfile.Proofs.Cost.Canonical
import Mathlib.Order.Nat

/-!
# Ranks of reduced costs

The rank of a reduced sum is the greatest among its terms
(`rank_combineSum`), and the rank of a product comes from the sum of the
ranks of its factors (`productRank_eq`). A canonical cost of rank zero is
a constant (`constant_of_rank_eq_zero`).
-/

namespace CodeProfile

namespace Cost

/-! ## Ranks of sums -/

theorem sumRank_le_iff {rs : List Nat} {m : Nat} : sumRank rs ≤ m ↔ ∀ r ∈ rs, r ≤ m := by
  constructor
  · exact fun h r hr => Nat.le_trans (le_sumRank hr) h
  · intro h
    by_cases hnil : rs = []
    · rw [hnil]
      exact Nat.zero_le m
    · exact h _ (sumRank_mem hnil)

theorem sumRank_append (rs ss : List Nat) :
    sumRank (rs ++ ss) = max (sumRank rs) (sumRank ss) := by
  refine eq_of_forall_ge_iff fun m => ?_
  rw [Nat.max_le, sumRank_le_iff, sumRank_le_iff, sumRank_le_iff, List.forall_mem_append]

theorem sumRank_eq_of_perm {rs ss : List Nat} (h : rs.Perm ss) : sumRank rs = sumRank ss := by
  refine eq_of_forall_ge_iff fun m => ?_
  simp only [sumRank_le_iff, h.mem_iff]

theorem rank_multiply (fs : List Cost) : (multiply fs).rank = productRank (fs.map rank) := by
  rw [rank, rankAll_eq_map]

theorem rank_add (ts : List Cost) : (add ts).rank = sumRank (ts.map rank) := by
  rw [rank, rankAll_eq_map]

theorem rank_ofTerms (ts : List Cost) : (ofTerms ts).rank = sumRank (ts.map rank) := by
  match ts with
  | [] => rfl
  | [t] => exact (Nat.zero_max t.rank).symm
  | t :: u :: ts => exact rank_add _

theorem rank_eq_sumRank_termsOf (c : Cost) : c.rank = sumRank (c.termsOf.map rank) := by
  cases c with
  | add ts => exact rank_add ts
  | _ => exact (Nat.zero_max _).symm

theorem sumRank_flatMap_termsOf (cs : List Cost) :
    sumRank ((cs.flatMap termsOf).map rank) = sumRank (cs.map rank) := by
  refine eq_of_forall_ge_iff fun m => ?_
  simp only [sumRank_le_iff, List.forall_mem_map, List.mem_flatMap]
  constructor
  · intro h c hc
    rw [rank_eq_sumRank_termsOf, sumRank_le_iff, List.forall_mem_map]
    exact fun t ht => h t ⟨c, hc, ht⟩
  · rintro h t ⟨c, hc, ht⟩
    refine Nat.le_trans ?_ (h c hc)
    rw [rank_eq_sumRank_termsOf c]
    exact le_sumRank (List.mem_map_of_mem ht)

theorem sumRank_kept {cs : List Cost} (h : cs.flatMap termsOf ≠ []) :
    sumRank ((kept cs).map rank) = sumRank ((cs.flatMap termsOf).map rank) := by
  have hrank : ∀ t ∈ kept cs, t.rank = sumRank ((cs.flatMap termsOf).map rank) :=
    fun t ht => (mem_dominant.mp (mem_dominant_of_mem_kept ht)).2
  have hne : (kept cs).map rank ≠ [] := fun hnil => kept_ne_nil h (List.map_eq_nil_iff.mp hnil)
  obtain ⟨t, ht, heq⟩ := List.mem_map.mp (sumRank_mem hne)
  rw [← heq, hrank t ht]

/-- The rank of a reduced sum is the greatest among its terms. -/
theorem rank_combineSum (cs : List Cost) : (combineSum cs).rank = sumRank (cs.map rank) := by
  rw [combineSum_eq, ← sumRank_flatMap_termsOf]
  split
  · next h => rw [h]; rfl
  · next h => rw [rank_ofTerms, sumRank_kept h]

/-! ## Rank zero -/

theorem le_foldl_addSaturating (rs : List Nat) (a : Nat) :
    rs.foldl (fun a b => min (a + b) maxWord32) (min a maxWord32) =
      min (a + rs.sum) maxWord32 := by
  induction rs generalizing a with
  | nil => rfl
  | cons r rs ih =>
      have hstep : min (min a maxWord32 + r) maxWord32 = min (a + r) maxWord32 := by omega
      rw [List.foldl_cons, hstep, ih, List.sum_cons, Nat.add_assoc]

/-- The rank of a product from the sum of the ranks of its factors. -/
theorem productRank_eq (rs : List Nat) :
    productRank rs = if rs.any (exponentialRank ≤ ·) then min rs.sum maxWord32
      else min rs.sum (exponentialRank - 1) := by
  have htotal : rs.foldl (fun a b => min (a + b) maxWord32) 0 = min rs.sum maxWord32 := by
    have := le_foldl_addSaturating rs 0
    rwa [Nat.zero_min, Nat.zero_add] at this
  rw [productRank, htotal]
  split
  · rfl
  · simp only [exponentialRank, maxWord32]
    omega

theorem eq_zero_of_productRank_eq_zero {rs : List Nat} (h : productRank rs = 0) :
    ∀ r ∈ rs, r = 0 := by
  rw [productRank_eq] at h
  have hsum : rs.sum = 0 := by
    split at h <;> simp only [exponentialRank, maxWord32] at h <;> omega
  exact List.sum_eq_zero_iff_forall_eq_nat.mp hsum

/-- A product of at least two canonical factors has one that is no constant. -/
theorem exists_constant?_eq_none {p : ProductParts} (h : p.Settled) (two : 2 ≤ p.factors.length) :
    ∃ f ∈ p.factors, f.constant? = none := by
  by_contra hall
  have hconst : ∀ f ∈ p.factors, f.constant? ≠ none := fun f hf hnone => hall ⟨f, hf, hnone⟩
  have hpowers : p.powers = [] := by
    refine List.eq_nil_iff_forall_not_mem.mpr fun q hq => ?_
    refine hconst (power q.1 q.2) ?_ (constant?_power q)
    exact List.mem_append_left _ (List.mem_append_right _ (List.mem_map_of_mem hq))
  have hothers : p.others = [] := by
    refine List.eq_nil_iff_forall_not_mem.mpr fun c hc => ?_
    exact hconst c (List.mem_append_right _ hc) (constant?_of_isAtom (h.others c hc))
  rw [ProductParts.factors, hpowers, hothers, List.map_nil, List.append_nil, List.append_nil] at two
  split at two <;> simp at two

/-- A canonical cost of rank zero is a constant. -/
theorem constant_of_rank_eq_zero {c : Cost} (h : c.Canonical) (hrank : c.rank = 0) :
    ∃ v, c = constant v := by
  induction c using Cost.induction with
  | constant v => exact ⟨v, rfl⟩
  | logarithmic base size => cases hrank
  | linear size => cases hrank
  | polynomial degree size =>
      cases h with
      | polynomial _ two =>
          rw [UInt32.le_iff_toNat_le, show (2 : UInt32).toNat = 2 from rfl] at two
          simp only [rank, exponentialRank, maxWord32] at hrank
          omega
  | exponential base size =>
      simp only [rank, exponentialRank, maxWord32] at hrank
      omega
  | symbolic name description => cases hrank
  | multiply fs ih =>
      cases h with
      | multiply p settled others two =>
          obtain ⟨f, hf, hnone⟩ := exists_constant?_eq_none settled two
          rw [rank_multiply] at hrank
          have hzero := eq_zero_of_productRank_eq_zero hrank f.rank (List.mem_map_of_mem hf)
          obtain ⟨v, rfl⟩ := ih f hf (canonical_of_mem_factors settled others f hf) hzero
          cases hnone
  | add ts ih =>
      cases h with
      | add _ terms flat ranks shapes two =>
          rw [rank_add] at hrank
          have hshape : ∀ t ∈ ts, t.growthTerm = "1" := by
            intro t ht
            have hle := le_sumRank (List.mem_map_of_mem (f := rank) ht)
            obtain ⟨v, rfl⟩ := ih t ht (terms t ht) (by omega)
            rfl
          obtain ⟨t, u, rest, rfl⟩ : ∃ t u rest, ts = t :: u :: rest := by
            rcases ts with _ | ⟨t, _ | ⟨u, rest⟩⟩
            · exact absurd two (by decide)
            · exact absurd two (by simp)
            · exact ⟨t, u, rest, rfl⟩
          refine absurd shapes fun hnodup => ?_
          have hne := (List.nodup_cons.mp hnodup).1
          rw [hshape t (.head _), List.map_cons, hshape u (.tail _ (.head _))] at hne
          exact hne (.head _)

end Cost

end CodeProfile
