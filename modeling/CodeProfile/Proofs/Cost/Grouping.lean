import CodeProfile.Proofs.Cost.Rank

/-!
# Reducing parts first

A product or sum may be reduced part by part: the parts of a list of
factors are those of its pieces, put together (`parts_append`), and a sum
of sums keeps what the sum of all terms keeps (`combineSum_pair`). The
headline is `reduce_parts_first`, an equation of expressions: order of
terms, coefficients and degrees included. It also says what the rank of a
reduced sum is and where its terms come from.

An empty sum is zero, and that zero must not show among other terms.
Terms of greater rank hide it; a sum of rank zero has one term only, a
constant, and takes the zero in (`kept_eq_of_rank_zero`).
-/

namespace CodeProfile

namespace Cost

/-! ## Products -/

theorem min_min_mul (a b m : Nat) : min (min a m * b) m = min (a * b) m := by
  rcases Nat.le_total a m with h | h
  · rw [Nat.min_eq_left h]
  · rw [Nat.min_eq_right h]
    rcases Nat.eq_zero_or_pos b with rfl | hb
    · rfl
    · rw [Nat.min_eq_right (Nat.le_mul_of_pos_right m hb),
        Nat.min_eq_right (Nat.le_trans h (Nat.le_mul_of_pos_right a hb))]

/-- Coefficients multiply up to the largest word at most. -/
theorem toNat_foldl_mulSaturating64 (vs : List UInt64) (a : UInt64) :
    (vs.foldl mulSaturating64 a).toNat =
      min (a.toNat * (vs.map UInt64.toNat).prod) maxWord64 := by
  induction vs generalizing a with
  | nil =>
      have := a.toNat_lt
      rw [List.foldl_nil, List.map_nil, List.prod_nil, Nat.mul_one, maxWord64]
      omega
  | cons v vs ih =>
      rw [List.foldl_cons, ih, toNat_mulSaturating64, min_min_mul, List.map_cons, List.prod_cons,
        Nat.mul_assoc]

theorem foldl_mulSaturating64_append (us vs : List UInt64) :
    (us ++ vs).foldl mulSaturating64 1 =
      mulSaturating64 (us.foldl mulSaturating64 1) (vs.foldl mulSaturating64 1) := by
  rw [← UInt64.toNat_inj]
  simp only [toNat_mulSaturating64, toNat_foldl_mulSaturating64, UInt64.toNat_one, Nat.one_mul,
    List.map_append, List.prod_append]
  rw [min_min_mul, Nat.mul_comm, ← min_min_mul, Nat.mul_comm]

/-- The parts of two lists of factors, put together. -/
theorem parts_append (fs gs : List Cost) :
    parts (fs ++ gs) =
      { coefficient := mulSaturating64 (parts fs).coefficient (parts gs).coefficient
        powers := Keyed.collect Prod.fst addDegrees [] ((parts fs).powers ++ (parts gs).powers)
        others := (parts fs).others ++ (parts gs).others } := by
  simp only [parts_eq, List.filterMap_append, List.filter_append, foldl_mulSaturating64_append,
    Keyed.collect_append_collect addDegrees_lawful]

theorem canonical_mem_flatMap_factorsOf {cs : List Cost} (h : ∀ c ∈ cs, c.Canonical) :
    ∀ f ∈ cs.flatMap factorsOf, f.Canonical ∧ f.isProduct = false := by
  intro f hf
  obtain ⟨c, hc, hfc⟩ := List.mem_flatMap.mp hf
  exact (h c hc).of_mem_factorsOf hfc

theorem parts_factorsOf_combineProduct {cs : List Cost} (h : ∀ c ∈ cs, c.Canonical) :
    parts (combineProduct cs).factorsOf = parts (cs.flatMap factorsOf) :=
  parts_factorsOf_ofFactors (settled_parts (canonical_mem_flatMap_factorsOf h))

theorem combineProduct_pair {cs ds : List Cost} (hc : ∀ c ∈ cs, c.Canonical)
    (hd : ∀ d ∈ ds, d.Canonical) :
    combineProduct [combineProduct cs, combineProduct ds] = combineProduct (cs ++ ds) := by
  have hpair : [combineProduct cs, combineProduct ds].flatMap factorsOf =
      (combineProduct cs).factorsOf ++ (combineProduct ds).factorsOf := by
    rw [List.flatMap_cons, List.flatMap_singleton]
  rw [combineProduct_eq, hpair, combineProduct_eq (cs ++ ds), List.flatMap_append, parts_append,
    parts_append (cs.flatMap factorsOf), parts_factorsOf_combineProduct hc,
    parts_factorsOf_combineProduct hd]

/-! ## Sums -/

theorem termsOf_ofTerms {ts : List Cost} (hne : ts ≠ []) (flat : ∀ t ∈ ts, t.isSum = false) :
    (ofTerms ts).termsOf = ts := by
  match ts, hne with
  | [t], _ => exact termsOf_of_not_isSum (flat t (.head _))
  | _ :: _ :: _, _ => rfl

theorem isSum_of_mem_kept {cs : List Cost} (h : ∀ c ∈ cs, c.Canonical) {t : Cost}
    (ht : t ∈ kept cs) : t.Canonical ∧ t.isSum = false := by
  obtain ⟨c, hc, htc⟩ := List.mem_flatMap.mp (mem_dominant.mp (mem_dominant_of_mem_kept ht)).1
  exact (h c hc).of_mem_termsOf htc

theorem termsOf_combineSum {cs : List Cost} (h : ∀ c ∈ cs, c.Canonical)
    (hne : cs.flatMap termsOf ≠ []) : (combineSum cs).termsOf = kept cs := by
  rw [combineSum_eq, if_neg hne,
    termsOf_ofTerms (kept_ne_nil hne) fun t ht => (isSum_of_mem_kept h ht).2]

/-- The terms of one rank. -/
def ofRank (m : Nat) (ts : List Cost) : List Cost := ts.filter (·.rank = m)

theorem dominant_eq (cs : List Cost) :
    dominant cs = ofRank (sumRank ((cs.flatMap termsOf).map rank)) (cs.flatMap termsOf) := rfl

theorem ofRank_append (m : Nat) (ts us : List Cost) :
    ofRank m (ts ++ us) = ofRank m ts ++ ofRank m us :=
  List.filter_append ..

theorem ofRank_eq_self {m : Nat} {ts : List Cost} (h : ∀ t ∈ ts, t.rank = m) :
    ofRank m ts = ts :=
  List.filter_eq_self.mpr fun t ht => decide_eq_true (h t ht)

theorem ofRank_eq_nil {m : Nat} {ts : List Cost} (h : sumRank (ts.map rank) < m) :
    ofRank m ts = [] := by
  refine List.filter_eq_nil_iff.mpr fun t ht hrank => ?_
  have hle := le_sumRank (List.mem_map_of_mem (f := rank) ht)
  rw [of_decide_eq_true hrank] at hle
  omega

theorem rank_of_mem_kept {cs : List Cost} {t : Cost} (ht : t ∈ kept cs) :
    t.rank = sumRank ((cs.flatMap termsOf).map rank) :=
  (mem_dominant.mp (mem_dominant_of_mem_kept ht)).2

theorem mem_of_mem_kept {cs : List Cost} (h : ∀ c ∈ cs, c.isSum = false) {t : Cost}
    (ht : t ∈ kept cs) : t ∈ cs := by
  have hterm := (mem_dominant.mp (mem_dominant_of_mem_kept ht)).1
  rwa [flatMap_termsOf_eq_self h] at hterm

theorem collect_kept (cs : List Cost) : Keyed.collect growthTerm larger [] (kept cs) = kept cs :=
  Keyed.collect_of_nodup (Keyed.nodup_collect_nil larger_lawful)

/-- From the greatest rank on, the kept terms stand for all. -/
theorem collect_ofRank_kept {cs : List Cost} {m : Nat}
    (h : sumRank ((cs.flatMap termsOf).map rank) ≤ m) :
    Keyed.collect growthTerm larger [] (ofRank m (kept cs)) =
      Keyed.collect growthTerm larger [] (ofRank m (cs.flatMap termsOf)) := by
  rcases Nat.lt_or_eq_of_le h with hlt | rfl
  · have hkept : ofRank m (kept cs) = [] := by
      refine List.filter_eq_nil_iff.mpr fun t ht hrank => ?_
      rw [rank_of_mem_kept ht, decide_eq_true_eq] at hrank
      omega
    rw [hkept, ofRank_eq_nil hlt]
  · rw [ofRank_eq_self fun t ht => rank_of_mem_kept ht, collect_kept, ← dominant_eq, kept]

theorem kept_pair {cs ds : List Cost} (hc : ∀ c ∈ cs, c.Canonical) (hd : ∀ d ∈ ds, d.Canonical)
    (hcs : cs.flatMap termsOf ≠ []) (hds : ds.flatMap termsOf ≠ []) :
    kept [combineSum cs, combineSum ds] = kept (cs ++ ds) := by
  have hflat : [combineSum cs, combineSum ds].flatMap termsOf = kept cs ++ kept ds := by
    rw [List.flatMap_cons, List.flatMap_singleton, termsOf_combineSum hc hcs,
      termsOf_combineSum hd hds]
  have htop : sumRank ((kept cs ++ kept ds).map rank) =
      sumRank (((cs ++ ds).flatMap termsOf).map rank) := by
    rw [List.map_append, sumRank_append, sumRank_kept hcs, sumRank_kept hds, List.flatMap_append,
      List.map_append, sumRank_append]
  have hle : ∀ es : List Cost, es ⊆ cs ++ ds →
      sumRank ((es.flatMap termsOf).map rank) ≤
        sumRank (((cs ++ ds).flatMap termsOf).map rank) := by
    intro es hsub
    rw [sumRank_flatMap_termsOf, sumRank_flatMap_termsOf, sumRank_le_iff, List.forall_mem_map]
    exact fun e he => le_sumRank (List.mem_map_of_mem (hsub he))
  rw [kept, kept, dominant_eq, dominant_eq, hflat, htop, ofRank_append,
    ← Keyed.collect_append_collect larger_lawful,
    collect_ofRank_kept (hle cs (List.subset_append_left cs ds)),
    collect_ofRank_kept (hle ds (List.subset_append_right cs ds)),
    Keyed.collect_append_collect larger_lawful, ← ofRank_append, ← List.flatMap_append]

/-- A sum of rank zero keeps one term, a constant. -/
theorem kept_eq_of_rank_zero {cs : List Cost} (h : ∀ c ∈ cs, c.Canonical)
    (hne : cs.flatMap termsOf ≠ []) (hrank : sumRank ((cs.flatMap termsOf).map rank) = 0) :
    ∃ v, kept cs = [constant v] := by
  have hconst : ∀ t ∈ kept cs, ∃ v, t = constant v := fun t ht =>
    constant_of_rank_eq_zero (isSum_of_mem_kept h ht).1 ((rank_of_mem_kept ht).trans hrank)
  have hnodup : ((kept cs).map growthTerm).Nodup := Keyed.nodup_collect_nil larger_lawful
  match hk : kept cs, kept_ne_nil hne with
  | [t], _ =>
      obtain ⟨v, rfl⟩ := hconst t (by rw [hk]; exact .head _)
      exact ⟨v, rfl⟩
  | t :: u :: ts, _ =>
      obtain ⟨v, rfl⟩ := hconst t (by rw [hk]; exact .head _)
      obtain ⟨w, rfl⟩ := hconst u (by rw [hk]; exact .tail _ (.head _))
      rw [hk, List.map_cons, List.nodup_cons] at hnodup
      exact absurd (.head _) hnodup.1

theorem larger_zero_left (v : UInt64) : larger (constant 0) (constant v) = constant v := by
  unfold larger
  split
  · rfl
  · next h =>
      rw [coefficient, coefficient, UInt64.lt_iff_toNat_lt, UInt64.toNat_zero, Nat.not_lt,
        Nat.le_zero, ← UInt64.toNat_zero, UInt64.toNat_inj] at h
      rw [h]

theorem larger_zero_right (v : UInt64) : larger (constant v) (constant 0) = constant v := by
  unfold larger
  split
  · next h =>
      rw [coefficient, coefficient, UInt64.lt_iff_toNat_lt, UInt64.toNat_zero] at h
      exact absurd h (Nat.not_lt_zero _)
  · rfl

theorem kept_zero_left {ds : List Cost} (h : ∀ d ∈ ds, d.Canonical)
    (hne : ds.flatMap termsOf ≠ []) : kept [constant 0, combineSum ds] = kept ds := by
  have hflat : [constant 0, combineSum ds].flatMap termsOf = constant 0 :: kept ds := by
    rw [List.flatMap_cons, List.flatMap_singleton, termsOf_combineSum h hne]
    rfl
  have htop : sumRank ((constant 0 :: kept ds).map rank) =
      sumRank ((ds.flatMap termsOf).map rank) := (sumRank_append [0] _).trans (by
    rw [sumRank_kept hne]
    exact Nat.zero_max _)
  rw [kept, dominant_eq, hflat, htop, ← List.singleton_append, ofRank_append,
    ofRank_eq_self fun t ht => rank_of_mem_kept ht]
  rcases Nat.eq_zero_or_pos (sumRank ((ds.flatMap termsOf).map rank)) with hzero | hpos
  · obtain ⟨v, hv⟩ := kept_eq_of_rank_zero h hne hzero
    rw [hzero, hv]
    exact congrArg (fun c => [c]) (larger_zero_left v)
  · rw [ofRank_eq_nil hpos, List.nil_append, collect_kept]

theorem kept_zero_right {cs : List Cost} (h : ∀ c ∈ cs, c.Canonical)
    (hne : cs.flatMap termsOf ≠ []) : kept [combineSum cs, constant 0] = kept cs := by
  have hflat : [combineSum cs, constant 0].flatMap termsOf = kept cs ++ [constant 0] := by
    rw [List.flatMap_cons, List.flatMap_singleton, termsOf_combineSum h hne]
    rfl
  have htop : sumRank ((kept cs ++ [constant 0]).map rank) =
      sumRank ((cs.flatMap termsOf).map rank) := by
    rw [List.map_append, sumRank_append, sumRank_kept hne]
    exact Nat.max_zero _
  rw [kept, dominant_eq, hflat, htop, ofRank_append,
    ofRank_eq_self fun t ht => rank_of_mem_kept ht]
  rcases Nat.eq_zero_or_pos (sumRank ((cs.flatMap termsOf).map rank)) with hzero | hpos
  · obtain ⟨v, hv⟩ := kept_eq_of_rank_zero h hne hzero
    rw [hzero, hv]
    exact congrArg (fun c => [c]) (larger_zero_right v)
  · rw [ofRank_eq_nil hpos, List.append_nil, collect_kept]

theorem combineSum_congr {cs ds : List Cost} (h : cs.flatMap termsOf = ds.flatMap termsOf) :
    combineSum cs = combineSum ds := by
  rw [combineSum_eq, combineSum_eq, kept, kept, dominant_eq, dominant_eq, h]

theorem termsOf_ne_nil {c : Cost} (h : c.Canonical) : c.termsOf ≠ [] := by
  cases h with
  | add ts terms flat ranks shapes two =>
      rintro rfl
      exact absurd two (by decide)
  | _ => exact List.cons_ne_nil _ _

/-- A sum of two reduced sums is the reduced sum of all their terms. -/
theorem combineSum_pair {cs ds : List Cost} (hc : ∀ c ∈ cs, c.Canonical)
    (hd : ∀ d ∈ ds, d.Canonical) :
    combineSum [combineSum cs, combineSum ds] = combineSum (cs ++ ds) := by
  have hflat : [combineSum cs, combineSum ds].flatMap termsOf ≠ [] := by
    rw [List.flatMap_cons, Ne, List.append_eq_nil_iff, not_and_or]
    exact Or.inl (termsOf_ne_nil (canonical_combineSum hc))
  by_cases hcs : cs.flatMap termsOf = []
  · have hzero : combineSum cs = constant 0 := by rw [combineSum_eq, if_pos hcs]
    have hright : combineSum (cs ++ ds) = combineSum ds :=
      combineSum_congr (by rw [List.flatMap_append, hcs, List.nil_append])
    by_cases hds : ds.flatMap termsOf = []
    · have hzero' : combineSum ds = constant 0 := by rw [combineSum_eq, if_pos hds]
      rw [hright, hzero, hzero']
      rfl
    · rw [combineSum_eq, if_neg hflat, hright, hzero, kept_zero_left hd hds, combineSum_eq ds,
        if_neg hds]
  · by_cases hds : ds.flatMap termsOf = []
    · have hzero : combineSum ds = constant 0 := by rw [combineSum_eq, if_pos hds]
      have hleft : combineSum (cs ++ ds) = combineSum cs :=
        combineSum_congr (by rw [List.flatMap_append, hds, List.append_nil])
      rw [combineSum_eq, if_neg hflat, hleft, hzero, kept_zero_right hc hcs, combineSum_eq cs,
        if_neg hcs]
    · have hboth : (cs ++ ds).flatMap termsOf ≠ [] := by
        rw [List.flatMap_append, Ne, List.append_eq_nil_iff, not_and_or]
        exact Or.inl hcs
      rw [combineSum_eq, if_neg hflat, kept_pair hc hd hcs hds, combineSum_eq (cs ++ ds),
        if_neg hboth]

/-! ## Reduction -/

theorem reduce_sum_eq (cs : List Cost) :
    (sum cs).reduce = combineSum ((cs.flatMap termsOf).map reduce) := reduce_add _

theorem reduce_product_eq (cs : List Cost) :
    (product cs).reduce = combineProduct ((cs.flatMap factorsOf).map reduce) := reduce_multiply _

theorem forall_mem_map_reduce (cs : List Cost) : ∀ c ∈ cs.map reduce, c.Canonical :=
  List.forall_mem_map.mpr fun c _ => c.reduce_canonical

/-- A sum of canonical costs is reduced by combining them. -/
theorem reduce_sum_of_canonical {cs : List Cost} (h : ∀ c ∈ cs, c.Canonical) :
    (sum cs).reduce = combineSum cs := by
  have hterms : ∀ t ∈ cs.flatMap termsOf, t.Canonical ∧ t.isSum = false := by
    intro t ht
    obtain ⟨c, hc, htc⟩ := List.mem_flatMap.mp ht
    exact (h c hc).of_mem_termsOf htc
  rw [reduce_sum_eq, map_reduce_eq_self fun t ht => (hterms t ht).1.reduce_eq]
  exact combineSum_congr (flatMap_termsOf_eq_self fun t ht => (hterms t ht).2)

/-- A product of canonical costs is reduced by combining them. -/
theorem reduce_product_of_canonical {cs : List Cost} (h : ∀ c ∈ cs, c.Canonical) :
    (product cs).reduce = combineProduct cs := by
  have hfactors := canonical_mem_flatMap_factorsOf h
  rw [reduce_product_eq, map_reduce_eq_self fun f hf => (hfactors f hf).1.reduce_eq,
    combineProduct_eq, flatMap_factorsOf_eq_self fun f hf => (hfactors f hf).2, combineProduct_eq]

theorem combineSum_singleton {c : Cost} (h : c.Canonical) : combineSum [c] = c := by
  cases h with
  | add ts terms flat ranks shapes two =>
      have hne : ts ≠ [] := by
        rintro rfl
        exact absurd two (by decide)
      have hsame : combineSum [add ts] = combineSum ts :=
        combineSum_congr ((List.flatMap_singleton ..).trans (flatMap_termsOf_eq_self flat).symm)
      rw [hsame, combineSum_of_ranks flat ranks shapes hne, ofTerms_of_two_le two]
  | _ => exact combineSum_of_ranks (by simp [isSum]) (by simp) (List.nodup_singleton _) (by simp)

/-- Each summand may be reduced on its own, also if it is a sum. -/
theorem reduce_sum (cs : List Cost) : (sum cs).reduce = combineSum (cs.map reduce) := by
  induction cs with
  | nil => rfl
  | cons c cs ih =>
      have hself : c.reduce = combineSum (c.termsOf.map reduce) := by
        cases c with
        | add ts => exact reduce_add ts
        | _ => exact (combineSum_singleton (reduce_canonical _)).symm
      have htail := combineSum_pair (forall_mem_map_reduce [c]) (forall_mem_map_reduce cs)
      have hall := combineSum_pair (forall_mem_map_reduce c.termsOf)
        (forall_mem_map_reduce (cs.flatMap termsOf))
      rw [List.map_singleton, combineSum_singleton c.reduce_canonical,
        List.singleton_append] at htail
      rw [← hself, ← reduce_sum_eq, ih, ← List.map_append] at hall
      rw [reduce_sum_eq, List.flatMap_cons, ← hall, htail, List.map_cons]

/-- Every term of a reduced sum is a term of a summand that has the rank of the sum. -/
theorem mem_termsOf_reduce_sum {cs : List Cost} {t : Cost} (ht : t ∈ (sum cs).reduce.termsOf) :
    (∃ c ∈ cs, t ∈ c.reduce.termsOf ∧ c.reduce.rank = (sum cs).reduce.rank) ∨
      (cs = [] ∧ t = constant 0) := by
  by_cases hnil : cs = []
  · subst hnil
    exact Or.inr ⟨rfl, List.mem_singleton.mp ht⟩
  have hne : (cs.map reduce).flatMap termsOf ≠ [] := by
    obtain ⟨c, hc⟩ := List.exists_mem_of_ne_nil cs hnil
    obtain ⟨u, hu⟩ := List.exists_mem_of_ne_nil _ (termsOf_ne_nil c.reduce_canonical)
    exact List.ne_nil_of_mem (List.mem_flatMap.mpr ⟨_, List.mem_map_of_mem hc, hu⟩)
  rw [reduce_sum, termsOf_combineSum (forall_mem_map_reduce cs) hne] at ht
  obtain ⟨hmem, hrank⟩ := mem_dominant.mp (mem_dominant_of_mem_kept ht)
  obtain ⟨d, hd, htd⟩ := List.mem_flatMap.mp hmem
  obtain ⟨c, hc, rfl⟩ := List.mem_map.mp hd
  refine Or.inl ⟨c, hc, htd, ?_⟩
  rw [reduce_sum, rank_combineSum]
  refine Nat.le_antisymm (le_sumRank (List.mem_map_of_mem hd)) ?_
  rw [← sumRank_flatMap_termsOf, ← hrank, rank_eq_sumRank_termsOf c.reduce]
  exact le_sumRank (List.mem_map_of_mem htd)

/-- Sums and products may be reduced part by part, with the same result term by term. The rank of a
reduced sum is the greatest reduced rank of a summand, and all of its terms come from summands of
that rank; the empty sum is zero. -/
theorem reduce_parts_first (cs ds : List Cost) :
    (sum [(sum cs).reduce, (sum ds).reduce]).reduce = (sum (cs ++ ds)).reduce ∧
      (product [(product cs).reduce, (product ds).reduce]).reduce = (product (cs ++ ds)).reduce ∧
      (sum cs).reduce.rank = (cs.map fun c => c.reduce.rank).foldl max 0 ∧
      ∀ t ∈ (sum cs).reduce.termsOf,
        (∃ c ∈ cs, t ∈ c.reduce.termsOf ∧ c.reduce.rank = (sum cs).reduce.rank) ∨
          (cs = [] ∧ t = constant 0) := by
  refine ⟨?sums, ?products, ?rank, fun t ht => mem_termsOf_reduce_sum ht⟩
  case sums =>
    have hpair : ∀ c ∈ [(sum cs).reduce, (sum ds).reduce], c.Canonical :=
      forall_mem_map_reduce [sum cs, sum ds]
    rw [reduce_sum_of_canonical hpair, reduce_sum, reduce_sum, reduce_sum,
      combineSum_pair (forall_mem_map_reduce cs) (forall_mem_map_reduce ds), List.map_append]
  case products =>
    have hpair : ∀ c ∈ [(product cs).reduce, (product ds).reduce], c.Canonical :=
      forall_mem_map_reduce [product cs, product ds]
    rw [reduce_product_of_canonical hpair, reduce_product_eq, reduce_product_eq, reduce_product_eq,
      combineProduct_pair (forall_mem_map_reduce _) (forall_mem_map_reduce _), ← List.map_append,
      ← List.flatMap_append]
  case rank =>
    rw [reduce_sum, rank_combineSum, List.map_map]
    rfl

end Cost

end CodeProfile
