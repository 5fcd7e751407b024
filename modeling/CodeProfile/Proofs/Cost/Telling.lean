import CodeProfile.Proofs.Cost.Rearranged

/-!
# Sums whose terms are told apart

A reduced sum keeps one dominant term for each growth term. Whether that
is one for each product depends on the growth terms: `Cost.Telling` says
that in every sum they tell apart exactly the dominant terms that are
different products. Then rearranged sums keep rearranged terms
(`rearranged_combineSum`), since of each product they keep the one with
the largest coefficient, and a term is determined by its product and its
coefficient (`eq_ofFactors_growing`). So rearranged expressions reduce to
rearranged ones (`rearranged_reduce`).
-/

namespace CodeProfile

/-- Two lists with one entry for each key are related if each entry is, and the relation respects
keys. -/
theorem rel_of_nodup_keys {α κ : Type} {r : α → α → Prop} {key : α → κ} {xs ys : List α}
    (hxs : (xs.map key).Nodup) (hys : (ys.map key).Nodup)
    (left : ∀ x ∈ xs, ∃ y ∈ ys, r x y) (right : ∀ y ∈ ys, ∃ x ∈ xs, r x y)
    (keyLeft : ∀ x ∈ xs, ∀ x' ∈ xs, ∀ y, r x y → r x' y → key x = key x')
    (keyRight : ∀ y ∈ ys, ∀ y' ∈ ys, ∀ x, r x y → r x y' → key y = key y') :
    Multiset.Rel r (xs : Multiset α) (ys : Multiset α) := by
  induction xs generalizing ys with
  | nil =>
      cases ys with
      | nil => exact .zero
      | cons y ys =>
          obtain ⟨x, hx, _⟩ := right y (List.mem_cons_self ..)
          cases hx
  | cons x xs ih =>
      -- Pair `x` with `y` and take both out: by their keys nothing else is related to either.
      obtain ⟨y, hy, hxy⟩ := left x (List.mem_cons_self ..)
      obtain ⟨before, after, rfl⟩ := List.append_of_mem hy
      have hperm : (before ++ y :: after).Perm (y :: (before ++ after)) := List.perm_middle
      rw [List.map_cons, List.nodup_cons] at hxs
      have hkeys := (hperm.map key).nodup hys
      rw [List.map_cons, List.nodup_cons] at hkeys
      simp only [hperm.mem_iff, List.mem_cons, forall_eq_or_imp] at left right keyLeft keyRight
      rw [Multiset.coe_eq_coe.mpr hperm, ← Multiset.cons_coe, ← Multiset.cons_coe]
      refine .cons hxy (ih hxs.2 hkeys.2 ?_ ?_ ?_ ?_)
      · intro x' hx'
        obtain ⟨y', rfl | hy', hxy'⟩ := left.2 x' hx'
        · exact absurd (List.mem_map_of_mem hx') (keyLeft.1.2 x' hx' y' hxy hxy' ▸ hxs.1)
        · exact ⟨y', hy', hxy'⟩
      · intro y' hy'
        obtain ⟨x', rfl | hx', hxy'⟩ := right.2 y' hy'
        · exact absurd (List.mem_map_of_mem hy') (keyRight.1.2 y' hy' x' hxy hxy' ▸ hkeys.1)
        · exact ⟨x', hx', hxy'⟩
      · exact fun a ha b hb => (keyLeft.2 a ha).2 b hb
      · exact fun a ha b hb => (keyRight.2 a ha).2 b hb

namespace Cost

/-! ## Products up to constants -/

/-- The factors other than constants. -/
def growing (c : Cost) : List Cost := c.factorsOf.filter (·.constant?.isNone)

/-- Two expressions are one product, up to constants and the order of factors. -/
def SameProduct (c d : Cost) : Prop := RearrangedAll c.growing d.growing

theorem SameProduct.symm {c d : Cost} (h : c.SameProduct d) : d.SameProduct c :=
  RearrangedAll.symm h

theorem SameProduct.trans {c d e : Cost} (h : c.SameProduct d) (h' : d.SameProduct e) :
    c.SameProduct e :=
  RearrangedAll.trans h h'

theorem Rearranged.sameProduct {c d : Cost} (h : Rearranged c d) : c.SameProduct d :=
  h.rel_factorsOf.filter fun _ _ hfg => by rw [hfg.constant?_eq]

theorem growing_factors {p : ProductParts} (h : p.Settled) :
    p.factors.filter (·.constant?.isNone) = p.powers.map (fun q => power q.1 q.2) ++ p.others := by
  have hpowers : ∀ c ∈ p.powers.map (fun q => power q.1 q.2), c.constant?.isNone = true := by
    rw [List.forall_mem_map]
    intro q _
    rw [constant?_power q]
    rfl
  have hothers : ∀ c ∈ p.others, c.constant?.isNone = true := by
    intro c hc
    rw [constant?_of_isAtom (h.others c hc)]
    rfl
  rw [ProductParts.factors, List.filter_append, List.filter_append, List.filter_eq_self.mpr hpowers,
    List.filter_eq_self.mpr hothers]
  split <;> rfl

/-- A canonical cost is its coefficient, if other than one, times its other factors. -/
theorem eq_ofFactors_growing {c : Cost} (h : c.Canonical) :
    c = ofFactors ((if c.coefficient = 1 then [] else [constant c.coefficient]) ++ c.growing) := by
  cases h with
  | constant v =>
      rw [coefficient]
      split
      · next hone => rw [hone]; rfl
      · rfl
  | multiply p settled others two =>
      have hcoefficient : (multiply p.factors).coefficient = p.coefficient := by
        have := congrArg ProductParts.coefficient (parts_factors settled)
        rwa [parts_eq, ← coefficient_multiply] at this
      have hfactors : (if p.coefficient = 1 then [] else [constant p.coefficient]) ++
          (multiply p.factors).growing = p.factors := by
        rw [growing, factorsOf, growing_factors settled, ProductParts.factors, List.append_assoc]
      rw [hcoefficient, hfactors, ofFactors_of_two_le two]
  | _ => rfl

theorem rearranged_of_sameProduct {c d : Cost} (hc : c.Canonical) (hd : d.Canonical)
    (hcoefficient : c.coefficient = d.coefficient) (h : c.SameProduct d) : Rearranged c d := by
  rw [eq_ofFactors_growing hc, eq_ofFactors_growing hd, hcoefficient]
  exact rearranged_ofFactors ((RearrangedAll.refl _).append h)

/-! ## Sums -/

/-- The growth terms of some costs tell apart exactly those that are different products. -/
def ToldApart (cs : List Cost) : Prop :=
  ∀ c ∈ cs, ∀ d ∈ cs, c.growthTerm = d.growthTerm ↔ c.SameProduct d

/-- In every sum the growth terms tell apart the dominant terms that are different products. -/
def Telling (c : Cost) : Prop :=
  ∀ ts, add ts ∈ c.within → ToldApart (dominant (ts.map reduce))

theorem rel_dominant {cs ds : List Cost} (h : RearrangedAll cs ds) :
    RearrangedAll (dominant cs) (dominant ds) := by
  have hflat : RearrangedAll (cs.flatMap termsOf) (ds.flatMap termsOf) :=
    h.flatMap fun _ _ => Rearranged.rel_termsOf
  have hrank : sumRank ((cs.flatMap termsOf).map rank) = sumRank ((ds.flatMap termsOf).map rank) :=
    sumRank_eq_of_perm (hflat.perm_map fun _ _ _ _ => Rearranged.rank_eq)
  rw [dominant_eq, dominant_eq, hrank]
  exact hflat.filter fun _ _ htu => by rw [htu.rank_eq]

theorem coefficient_le_foldl_larger (us : List Cost) {u v : Cost} (hv : v ∈ u :: us) :
    v.coefficient ≤ (us.foldl larger u).coefficient := by
  induction us generalizing u v with
  | nil =>
      rw [List.mem_singleton.mp hv]
      exact UInt64.le_refl _
  | cons w us ih =>
      have hbound := ih (List.mem_cons_self (a := larger u w))
      rw [UInt64.le_iff_toNat_le, coefficient_larger] at hbound
      rcases List.mem_cons.mp hv with rfl | hv
      · exact UInt64.le_iff_toNat_le.mpr (Nat.le_trans (Nat.le_max_left _ _) hbound)
      · rcases List.mem_cons.mp hv with rfl | hv
        · exact UInt64.le_iff_toNat_le.mpr (Nat.le_trans (Nat.le_max_right _ _) hbound)
        · exact ih (List.mem_cons_of_mem _ hv)

/-- The kept term of a growth term has the largest coefficient. -/
theorem coefficient_le_of_mem_kept {cs : List Cost} {k t : Cost} (hk : k ∈ kept cs)
    (ht : t ∈ dominant cs) (h : t.growthTerm = k.growthTerm) : t.coefficient ≤ k.coefficient := by
  obtain ⟨u, us, hfilter, hfolded⟩ := Keyed.eq_foldl_of_mem_collect larger_lawful hk
  have hmem : t ∈ u :: us := by
    rw [← hfilter]
    exact List.mem_filter.mpr ⟨ht, decide_eq_true h⟩
  exact hfolded.symm ▸ coefficient_le_foldl_larger us hmem

/-- A term that is kept has at least the coefficient of the same product in a rearranged sum. -/
theorem coefficient_le_of_sameProduct {cs ds : List Cost} (told : ToldApart (dominant ds))
    (h : RearrangedAll cs ds) {k l : Cost} (hk : k ∈ kept cs) (hl : l ∈ kept ds)
    (hkl : k.SameProduct l) : k.coefficient ≤ l.coefficient := by
  obtain ⟨t, ht, hkt⟩ := (rel_dominant h).exists_mem (mem_dominant_of_mem_kept hk)
  have hterm : t.growthTerm = l.growthTerm :=
    (told t ht l (mem_dominant_of_mem_kept hl)).mpr (hkt.sameProduct.symm.trans hkl)
  rw [hkt.coefficient_eq]
  exact coefficient_le_of_mem_kept hl ht hterm

section Told

variable {cs ds : List Cost} (hcs : ∀ c ∈ cs, c.Canonical) (hds : ∀ d ∈ ds, d.Canonical)
  (toldLeft : ToldApart (dominant cs)) (toldRight : ToldApart (dominant ds))
  (h : RearrangedAll cs ds)

include hcs hds toldLeft toldRight h

/-- Each kept term is kept of the rearranged sum too, rearranged. -/
theorem exists_kept_rearranged {k : Cost} (hk : k ∈ kept cs) :
    ∃ l ∈ kept ds, Rearranged k l := by
  -- `k` is rearranged to a dominant term `t`, for which `l` is kept: the same product as `k`, and
  -- each of the two has at least the coefficient of the other.
  obtain ⟨t, ht, hkt⟩ := (rel_dominant h).exists_mem (mem_dominant_of_mem_kept hk)
  obtain ⟨l, hl, hlt⟩ := exists_mem_kept ht
  have hkl : k.SameProduct l :=
    hkt.sameProduct.trans ((toldRight l (mem_dominant_of_mem_kept hl) t ht).mp hlt).symm
  have hcoefficient : k.coefficient = l.coefficient :=
    UInt64.le_antisymm (coefficient_le_of_sameProduct toldRight h hk hl hkl)
      (coefficient_le_of_sameProduct toldLeft h.symm hl hk hkl.symm)
  exact ⟨l, hl, rearranged_of_sameProduct (isSum_of_mem_kept hcs hk).1 (isSum_of_mem_kept hds hl).1
    hcoefficient hkl⟩

theorem rel_kept : RearrangedAll (kept cs) (kept ds) := by
  have hterm {es : List Cost} (told : ToldApart (dominant es)) {k l : Cost} (hk : k ∈ kept es)
      (hl : l ∈ kept es) (hkl : Rearranged k l) : k.growthTerm = l.growthTerm :=
    (told k (mem_dominant_of_mem_kept hk) l (mem_dominant_of_mem_kept hl)).mpr hkl.sameProduct
  refine rel_of_nodup_keys (Keyed.nodup_collect_nil larger_lawful)
    (Keyed.nodup_collect_nil larger_lawful) (fun k hk => ?_) (fun l hl => ?_) ?_ ?_
  · exact exists_kept_rearranged hcs hds toldLeft toldRight h hk
  · obtain ⟨k, hk, hlk⟩ := exists_kept_rearranged hds hcs toldRight toldLeft h.symm hl
    exact ⟨k, hk, hlk.symm⟩
  · exact fun k hk k' hk' l hkl hkl' => hterm toldLeft hk hk' (hkl.trans hkl'.symm)
  · exact fun l hl l' hl' k hkl hkl' => hterm toldRight hl hl' (hkl.symm.trans hkl')

theorem rearranged_combineSum : Rearranged (combineSum cs) (combineSum ds) := by
  have hkept := rel_kept hcs hds toldLeft toldRight h
  have hflat := h.flatMap fun _ _ => Rearranged.rel_termsOf
  rw [combineSum_eq, combineSum_eq]
  by_cases hnil : cs.flatMap termsOf = []
  · rw [if_pos hnil, if_pos (hflat.eq_nil_iff.mp hnil)]
    exact .refl _
  · rw [if_neg hnil, if_neg fun hnil' => hnil (hflat.eq_nil_iff.mpr hnil')]
    exact rearranged_ofTerms hkept

end Told

/-! ## Reduction -/

theorem telling_multiply {fs : List Cost} : (multiply fs).Telling ↔ ∀ f ∈ fs, f.Telling := by
  simp only [Telling, mem_within_multiply, reduceCtorEq, false_or]
  exact ⟨fun h f hf ts hts => h ts ⟨f, hf, hts⟩, fun h ts ⟨f, hf, hts⟩ => h f hf ts hts⟩

theorem telling_add {ts : List Cost} :
    (add ts).Telling ↔ ToldApart (dominant (ts.map reduce)) ∧ ∀ t ∈ ts, t.Telling := by
  simp only [Telling, mem_within_add, add.injEq]
  constructor
  · exact fun h => ⟨h ts (Or.inl rfl), fun t ht us hus => h us (Or.inr ⟨t, ht, hus⟩)⟩
  · rintro ⟨hself, hterms⟩ us (rfl | ⟨t, ht, hus⟩)
    · exact hself
    · exact hterms t ht us hus

/-- Rearranged expressions whose sums are told apart reduce to rearranged ones. -/
theorem rearranged_reduce {c d : Cost} (h : Rearranged c d) (hc : c.Telling) (hd : d.Telling) :
    Rearranged c.reduce d.reduce := by
  induction c using Cost.induction generalizing d with
  | multiply fs ih =>
      cases h with
      | refl => exact .refl _
      | multiply h =>
          rw [reduce_multiply, reduce_multiply]
          rw [telling_multiply] at hc hd
          exact rearranged_combineProduct
            (RearrangedAll.map h fun f hf g hg hfg => ih f hf hfg (hc f hf) (hd g hg))
  | add ts ih =>
      cases h with
      | refl => exact .refl _
      | add h =>
          rw [reduce_add, reduce_add]
          rw [telling_add] at hc hd
          exact rearranged_combineSum (forall_mem_map_reduce _) (forall_mem_map_reduce _) hc.1 hd.1
            (RearrangedAll.map h fun t ht u hu htu => ih t ht htu (hc.2 t ht) (hd.2 u hu))
  | _ =>
      cases h
      exact .refl _

end Cost

end CodeProfile
