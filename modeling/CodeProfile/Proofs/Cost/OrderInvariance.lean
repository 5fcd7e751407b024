import CodeProfile.Proofs.Cost.Plain

/-!
# The order of factors and terms

Rearranged costs compare as equal if no product holds an exponential, and
if their sums are told apart they reduce to rearranged costs
(`rearranged_invariant`). Telling may be asked of the plain costs only;
then the reduced costs are rearranged up to bases of logarithms and
descriptions. Without it the order does matter (`order_matters`): which
of two logarithms is kept, whether a product that is written in two
orders is kept twice, and with an exponential factor even the rank.
-/

namespace CodeProfile

namespace Cost

/-! ## Sums in a reduced cost -/

theorem factorsOf_subset_within (c : Cost) : c.factorsOf ⊆ c.within := by
  cases c with
  | multiply fs =>
      exact fun f hf => mem_within_multiply.mpr (Or.inr ⟨f, hf, f.mem_within_self⟩)
  | _ => exact List.cons_subset.mpr ⟨mem_within_self _, List.nil_subset _⟩

theorem termsOf_subset_within (c : Cost) : c.termsOf ⊆ c.within := by
  cases c with
  | add ts => exact fun t ht => mem_within_add.mpr (Or.inr ⟨t, ht, t.mem_within_self⟩)
  | _ => exact List.cons_subset.mpr ⟨mem_within_self _, List.nil_subset _⟩

theorem mem_within_ofFactors {fs ts : List Cost} (h : add ts ∈ (ofFactors fs).within) :
    ∃ f ∈ fs, add ts ∈ f.within := by
  match fs with
  | [] => simp [ofFactors, one, within] at h
  | [f] => exact ⟨f, List.mem_singleton_self f, h⟩
  | f :: g :: fs =>
      exact (mem_within_multiply.mp h).resolve_left (by simp)

theorem mem_within_ofTerms {ts us : List Cost} (h : add us ∈ (ofTerms ts).within) :
    add us = ofTerms ts ∨ ∃ t ∈ ts, add us ∈ t.within := by
  match ts with
  | [] => exact mem_within_add.mp h
  | [t] => exact Or.inr ⟨t, List.mem_singleton_self t, h⟩
  | t :: u :: ts => exact mem_within_add.mp h

theorem mem_within_combineProduct {cs us : List Cost}
    (h : add us ∈ (combineProduct cs).within) : ∃ c ∈ cs, add us ∈ c.within := by
  rw [combineProduct_eq] at h
  obtain ⟨f, hf, husf⟩ := mem_within_ofFactors h
  have hothers : add us ∈ f.within → ∃ c ∈ cs, add us ∈ c.within := by
    refine ProductParts.forall_mem_factors (p := parts (cs.flatMap factorsOf))
      (motive := fun f => add us ∈ f.within → ∃ c ∈ cs, add us ∈ c.within)
      (fun _ hconst => ?_) (fun q _ hpower => ?_) (fun f hf hin => ?_) f hf
    · simp [within] at hconst
    · unfold power at hpower
      split at hpower <;> simp [within] at hpower
    · rw [parts_eq] at hf
      obtain ⟨c, hc, hfc⟩ := List.mem_flatMap.mp (List.mem_of_mem_filter hf)
      exact ⟨c, hc, within_subset (c.factorsOf_subset_within hfc) hin⟩
  exact hothers husf

theorem mem_within_combineSum {cs us : List Cost} (h : add us ∈ (combineSum cs).within) :
    add us = combineSum cs ∨ ∃ c ∈ cs, add us ∈ c.within := by
  rw [combineSum_eq] at h ⊢
  split at h
  · simp [within] at h
  · next hne =>
      rw [if_neg hne]
      rcases mem_within_ofTerms h with heq | ⟨t, ht, hust⟩
      · exact Or.inl heq
      · obtain ⟨c, hc, htc⟩ := List.mem_flatMap.mp (mem_dominant.mp (mem_dominant_of_mem_kept ht)).1
        exact Or.inr ⟨c, hc, within_subset (c.termsOf_subset_within htc) hust⟩

/-- A sum in a reduced cost is the reduction of a sum in the cost. -/
theorem exists_sum_of_mem_within_reduce {c : Cost} {us : List Cost}
    (h : add us ∈ c.reduce.within) : ∃ ts, add ts ∈ c.within ∧ (add ts).reduce = add us := by
  induction c using Cost.induction with
  | multiply fs ih =>
      rw [reduce_multiply] at h
      obtain ⟨_, hmem, husf⟩ := mem_within_combineProduct h
      obtain ⟨f, hf, rfl⟩ := List.mem_map.mp hmem
      obtain ⟨ts, hts, hred⟩ := ih f hf husf
      exact ⟨ts, mem_within_multiply.mpr (Or.inr ⟨f, hf, hts⟩), hred⟩
  | add ts ih =>
      rw [reduce_add] at h
      rcases mem_within_combineSum h with heq | ⟨_, hmem, hust⟩
      · exact ⟨ts, mem_within_self _, (reduce_add ts).trans heq.symm⟩
      · obtain ⟨t, ht, rfl⟩ := List.mem_map.mp hmem
        obtain ⟨ts', hts', hred⟩ := ih t ht hust
        exact ⟨ts', mem_within_add.mpr (Or.inr ⟨t, ht, hts'⟩), hred⟩
  | polynomial degree size =>
      rw [reduce] at h
      split at h
      · simp [one, within] at h
      · split at h <;> simp [within] at h
  | _ => simp [reduce, within] at h

/-- The terms of a sum in a reduced cost are the kept terms of a sum in the cost. -/
theorem exists_kept_of_mem_within_reduce {c : Cost} {us : List Cost}
    (h : add us ∈ c.reduce.within) : ∃ ts, add ts ∈ c.within ∧ us = kept (ts.map reduce) := by
  obtain ⟨ts, hts, hred⟩ := exists_sum_of_mem_within_reduce h
  refine ⟨ts, hts, ?_⟩
  rw [reduce_add] at hred
  have hne : (ts.map reduce).flatMap termsOf ≠ [] := by
    intro hnil
    rw [combineSum_eq, if_pos hnil] at hred
    cases hred
  have hterms := termsOf_combineSum (forall_mem_map_reduce ts) hne
  rwa [hred] at hterms

theorem not_sameProduct_of_telling {c : Cost} (hc : c.Telling) {us : List Cost}
    (h : add us ∈ c.reduce.within) : us.Pairwise fun t u => ¬ t.SameProduct u := by
  obtain ⟨ts, hts, rfl⟩ := exists_kept_of_mem_within_reduce h
  have hterms : ((kept (ts.map reduce)).map growthTerm).Nodup :=
    Keyed.nodup_collect_nil larger_lawful
  refine (List.pairwise_map.mp hterms).imp_of_mem fun {t u} ht hu hne hsame => hne ?_
  exact (hc ts hts t (mem_dominant_of_mem_kept ht) u (mem_dominant_of_mem_kept hu)).mpr hsame

/-! ## Ranks -/

/-- In every product that holds an exponential the growth terms tell apart the dominant terms of
sums, up to bases of logarithms and descriptions. -/
def ExponentialsTold (c : Cost) : Prop :=
  ∀ fs, multiply fs ∈ c.within → (multiply fs).HasExponential → (multiply fs).plain.Telling

theorem ExponentialsTold.of_mem_terms {ts : List Cost} {t : Cost} (h : (add ts).ExponentialsTold)
    (ht : t ∈ ts) : t.ExponentialsTold :=
  fun fs hfs => h fs (mem_within_add.mpr (Or.inr ⟨t, ht, hfs⟩))

theorem Telling.of_mem_within {c d : Cost} (h : c.Telling) (hd : d ∈ c.within) : d.Telling :=
  fun ts hts => h ts (within_subset hd hts)

theorem plain_mem_within {c d : Cost} (h : d ∈ c.within) : d.plain ∈ c.plain.within := by
  induction c using Cost.induction with
  | multiply fs ih =>
      rcases mem_within_multiply.mp h with rfl | ⟨f, hf, hdf⟩
      · exact mem_within_self _
      · rw [plain_multiply]
        exact mem_within_multiply.mpr (Or.inr ⟨f.plain, List.mem_map_of_mem hf, ih f hf hdf⟩)
  | add ts ih =>
      rcases mem_within_add.mp h with rfl | ⟨t, ht, hdt⟩
      · exact mem_within_self _
      · rw [plain_add]
        exact mem_within_add.mpr (Or.inr ⟨t.plain, List.mem_map_of_mem ht, ih t ht hdt⟩)
  | _ =>
      rw [List.mem_singleton.mp h]
      exact mem_within_self _

theorem exponentialsTold_of_telling_plain {c : Cost} (h : c.plain.Telling) : c.ExponentialsTold :=
  fun _ hfs _ => h.of_mem_within (plain_mem_within hfs)

theorem Rearranged.hasExponential {c d : Cost} (h : Rearranged c d) :
    c.HasExponential ↔ d.HasExponential := by
  rw [← exponentialRank_le_rank_iff, ← exponentialRank_le_rank_iff, h.rank_eq]

theorem rearranged_plain_reduce {c d : Cost} (h : Rearranged c d) (hc : c.plain.Telling)
    (hd : d.plain.Telling) : Rearranged c.reduce.plain d.reduce.plain := by
  rw [← reduce_plain, ← reduce_plain]
  exact rearranged_reduce h.plain hc hd

/-- Rearranged costs reduce to one rank. -/
theorem rank_reduce_eq {c d : Cost} (h : Rearranged c d) (hc : c.ExponentialsTold)
    (hd : d.ExponentialsTold) : c.reduce.rank = d.reduce.rank := by
  induction c using Cost.induction generalizing d with
  | multiply fs ih =>
      cases h with
      | refl => rfl
      | @multiply _ gs h =>
          have hself : Rearranged (multiply fs) (multiply gs) := .multiply h
          -- Without an exponential the ceiling hides how powers were merged; with one the sums
          -- inside keep the same terms, so the same powers are merged.
          by_cases hexp : (multiply fs).HasExponential
          · have hplain := rearranged_plain_reduce hself
              (hc fs (mem_within_self _) hexp)
              (hd gs (mem_within_self _) (hself.hasExponential.mp hexp))
            rw [← rank_plain, hplain.rank_eq, rank_plain]
          · rw [rank_reduce (productsSubexponential_of_not_hasExponential hexp),
              rank_reduce (productsSubexponential_of_not_hasExponential
                fun hexp' => hexp (hself.hasExponential.mpr hexp')), hself.rank_eq]
  | add ts ih =>
      cases h with
      | refl => rfl
      | add h =>
          rw [reduce_add, reduce_add, rank_combineSum, rank_combineSum, List.map_map, List.map_map]
          refine sumRank_eq_of_perm (RearrangedAll.perm_map h fun t ht u hu htu => ?_)
          exact ih t ht htu (hc.of_mem_terms ht) (hd.of_mem_terms hu)
  | _ =>
      cases h
      rfl

/-! ## Invariance -/

/-- What does not depend on the order of factors and terms. -/
theorem rearranged_invariant {c d : Cost} (h : Rearranged c d) :
    (c.ExponentialsTold → d.ExponentialsTold → c.compareGrowth d = .eq) ∧
    (c.Telling → d.Telling → c.compareGrowth d = .eq ∧ Rearranged c.reduce d.reduce) ∧
    (c.plain.Telling → d.plain.Telling →
      c.compareGrowth d = .eq ∧ Rearranged c.reduce.plain d.reduce.plain) ∧
    ∀ us, add us ∈ c.reduce.within →
      (us.map growthTerm).Nodup ∧ (c.Telling → us.Pairwise fun t u => ¬ t.SameProduct u) := by
  have hcompare (hrank : c.reduce.rank = d.reduce.rank) : c.compareGrowth d = .eq :=
    Nat.compare_eq_eq.mpr hrank
  refine ⟨fun hc hd => hcompare (rank_reduce_eq h hc hd), fun hc hd => ?_, fun hc hd => ?_,
    fun us hus => ⟨?_, fun hc => not_sameProduct_of_telling hc hus⟩⟩
  · have hreduce := rearranged_reduce h hc hd
    exact ⟨hcompare hreduce.rank_eq, hreduce⟩
  · exact ⟨hcompare (rank_reduce_eq h (exponentialsTold_of_telling_plain hc)
      (exponentialsTold_of_telling_plain hd)), rearranged_plain_reduce h hc hd⟩
  · obtain ⟨ts, _, rfl⟩ := exists_kept_of_mem_within_reduce hus
    exact Keyed.nodup_collect_nil larger_lawful

/-! ## Written in two orders -/

theorem toldApart_pair {c d : Cost} (hterm : c.growthTerm ≠ d.growthTerm)
    (hlength : c.growing.length ≠ d.growing.length) : ToldApart [c, d] := by
  intro x hx y hy
  rw [List.mem_pair] at hx hy
  rcases hx with rfl | rfl <;> rcases hy with rfl | rfl
  · exact iff_of_true rfl (RearrangedAll.refl _)
  · exact iff_of_false hterm fun h => hlength h.length_eq
  · exact iff_of_false (Ne.symm hterm) fun h => hlength h.length_eq.symm
  · exact iff_of_true rfl (RearrangedAll.refl _)

/-- An exponential times another factor and a sum of two terms. -/
def tower (factor first second : Cost) : Cost :=
  multiply [exponential 2 inputSize, factor, add [first, second]]

theorem rearranged_tower (factor : Cost) {s t s' t' : Cost} (h : RearrangedAll [s, t] [s', t']) :
    Rearranged (tower factor s t) (tower factor s' t') :=
  .multiply (Multiset.Rel.cons (.refl _) (.cons (.refl _) (.cons (.add h) .zero)))

theorem telling_of_no_sum {c : Cost} (h : ∀ ts, add ts ∉ c.within) : c.Telling :=
  fun ts hts => absurd hts (h ts)

theorem telling_tower {factor s t : Cost} (hfactor : factor.Telling) (hs : s.Telling)
    (ht : t.Telling) (told : ToldApart (dominant [s.reduce, t.reduce])) :
    (tower factor s t).Telling := by
  have hexp : (exponential 2 inputSize).Telling := telling_of_no_sum fun ts => by simp [within]
  have hsum : (add [s, t]).Telling :=
    telling_add.mpr ⟨told, List.forall_mem_cons.mpr ⟨hs, List.forall_mem_singleton.mpr ht⟩⟩
  exact telling_multiply.mpr (List.forall_mem_cons.mpr
    ⟨hexp, List.forall_mem_cons.mpr ⟨hfactor, List.forall_mem_singleton.mpr hsum⟩⟩)

/-- A sum of a product and a square under an exponential, with terms and factors in either order. -/
theorem rearranged_invariant_tower :
    (tower logN (multiply [n, linear "m"]) (multiply [linear "k", linear "k"])).compareGrowth
      (tower logN (multiply [linear "k", linear "k"]) (multiply [linear "m", n])) = .eq ∧
    Rearranged
      (tower logN (multiply [n, linear "m"]) (multiply [linear "k", linear "k"])).reduce
      (tower logN (multiply [linear "k", linear "k"]) (multiply [linear "m", n])).reduce ∧
    Rearranged
      (tower logN (multiply [n, linear "m"]) (multiply [linear "k", linear "k"])).reduce.plain
      (tower logN (multiply [linear "k", linear "k"]) (multiply [linear "m", n])).reduce.plain ∧
    ∀ us, add us ∈
        (tower logN (multiply [n, linear "m"]) (multiply [linear "k", linear "k"])).reduce.within →
      us.Pairwise fun t u => ¬ t.SameProduct u := by
  have hproduct : RearrangedAll [n, linear "m"] [linear "m", n] := .of_perm (.swap ..)
  have hterms : RearrangedAll [multiply [n, linear "m"], multiply [linear "k", linear "k"]]
      [multiply [linear "k", linear "k"], multiply [linear "m", n]] :=
    RearrangedAll.trans (.of_perm (.swap ..))
      (Multiset.Rel.cons (.refl _) (.cons (.multiply hproduct) .zero))
  have hflat (x y : String) : (multiply [linear x, linear y]).Telling :=
    telling_of_no_sum fun ts => by simp [within, withinAll]
  have hlog : logN.Telling := telling_of_no_sum fun ts => by simp [logN, within]
  have hleft :
      (tower logN (multiply [n, linear "m"]) (multiply [linear "k", linear "k"])).Telling := by
    refine telling_tower hlog (hflat _ _) (hflat _ _) ?_
    have hdominant : dominant [(multiply [n, linear "m"]).reduce,
        (multiply [linear "k", linear "k"]).reduce] =
          [multiply [n, linear "m"], polynomial 2 "k"] := rfl
    rw [hdominant]
    exact toldApart_pair (by decide) (by decide)
  have hright :
      (tower logN (multiply [linear "k", linear "k"]) (multiply [linear "m", n])).Telling := by
    refine telling_tower hlog (hflat _ _) (hflat _ _) ?_
    have hdominant : dominant [(multiply [linear "k", linear "k"]).reduce,
        (multiply [linear "m", n]).reduce] =
          [polynomial 2 "k", multiply [linear "m", n]] := rfl
    rw [hdominant]
    exact toldApart_pair (by decide) (by decide)
  obtain ⟨hcompare, hreduce, hplain, hsums⟩ := rearranged_invariant (rearranged_tower logN hterms)
  exact ⟨hcompare (exponentialsTold_of_telling_plain hleft)
      (exponentialsTold_of_telling_plain hright),
    (hreduce hleft hright).2, (hplain hleft hright).2, fun us hus => (hsums us hus).2 hleft⟩

/-- Of two logarithms the first is kept, a product in two orders is kept twice and collapses in one
order, and under an exponential that changes the rank. -/
theorem order_matters :
    (Rearranged (add [logN, logarithmic 10 inputSize]) (add [logarithmic 10 inputSize, logN]) ∧
      ¬ Rearranged (add [logN, logarithmic 10 inputSize]).reduce
        (add [logarithmic 10 inputSize, logN]).reduce) ∧
    (Rearranged (add [multiply [n, linear "m"], multiply [linear "m", n]])
        (add [multiply [n, linear "m"], multiply [n, linear "m"]]) ∧
      SameProduct (multiply [n, linear "m"]) (multiply [linear "m", n]) ∧
      (add [multiply [n, linear "m"], multiply [linear "m", n]]).reduce =
        add [multiply [n, linear "m"], multiply [linear "m", n]] ∧
      (add [multiply [n, linear "m"], multiply [n, linear "m"]]).reduce =
        multiply [n, linear "m"]) ∧
    Rearranged
      (tower (polynomial 60 inputSize) (multiply [polynomial 60 inputSize, linear "m"])
        (multiply [linear "m", polynomial 60 inputSize]))
      (tower (polynomial 60 inputSize) (multiply [polynomial 60 inputSize, linear "m"])
        (multiply [polynomial 60 inputSize, linear "m"])) ∧
    (tower (polynomial 60 inputSize) (multiply [polynomial 60 inputSize, linear "m"])
        (multiply [linear "m", polynomial 60 inputSize])).compareGrowth
      (tower (polynomial 60 inputSize) (multiply [polynomial 60 inputSize, linear "m"])
        (multiply [polynomial 60 inputSize, linear "m"])) = .gt := by
  have hpair (x y z : Cost) : RearrangedAll [x, multiply [y, z]] [x, multiply [z, y]] :=
    Multiset.Rel.cons (.refl x) (.cons (.multiply (RearrangedAll.of_perm (.swap ..))) .zero)
  refine ⟨⟨.add (RearrangedAll.of_perm (.swap ..)), ?_⟩,
    ⟨.add (hpair _ _ _), RearrangedAll.of_perm (.swap ..), rfl, rfl⟩,
    rearranged_tower _ (hpair _ _ _), by decide⟩
  have hfirst : (add [logN, logarithmic 10 inputSize]).reduce = logN := rfl
  have hsecond : (add [logarithmic 10 inputSize, logN]).reduce = logarithmic 10 inputSize := rfl
  rw [hfirst, hsecond]
  exact fun h => nomatch h

end Cost

end CodeProfile
