import CodeProfile.Proofs.Cost.Parts

/-!
# Canonical costs

`Cost.Canonical` says what a reduced cost looks like: a leaf that is no
power of degree zero or one; a product of at least two factors, which are
a coefficient other than one, powers of different sizes, then logarithms,
exponentials, names and sums; or a sum of at least two terms of one rank
and of different growth terms. The headline is `reduce_canonical_idempotent`: every
cost reduces to a canonical one, and what is canonical is its own
reduction.
-/

namespace CodeProfile

namespace Cost

/-- The form that a cost is reduced to. -/
inductive Canonical : Cost → Prop where
  | constant (v : UInt64) : Canonical (constant v)
  | logarithmic (base : UInt32) (size : String) : Canonical (logarithmic base size)
  | linear (size : String) : Canonical (linear size)
  | polynomial {degree : UInt32} (size : String) (two : 2 ≤ degree) :
      Canonical (polynomial degree size)
  | exponential (base : UInt32) (size : String) : Canonical (exponential base size)
  | symbolic (name description : String) : Canonical (symbolic name description)
  | multiply (p : ProductParts) (settled : p.Settled) (others : ∀ c ∈ p.others, Canonical c)
      (two : 2 ≤ p.factors.length) : Canonical (multiply p.factors)
  | add (ts : List Cost) (terms : ∀ t ∈ ts, Canonical t) (flat : ∀ t ∈ ts, t.isSum = false)
      (ranks : ∀ t ∈ ts, ∀ u ∈ ts, t.rank = u.rank) (shapes : (ts.map growthTerm).Nodup)
      (two : 2 ≤ ts.length) : Canonical (add ts)

theorem two_le_of_ne {degree : UInt32} (h0 : degree ≠ 0) (h1 : degree ≠ 1) : 2 ≤ degree := by
  rw [Ne, ← UInt32.toNat_inj, UInt32.toNat_zero] at h0
  rw [Ne, ← UInt32.toNat_inj, UInt32.toNat_one] at h1
  rw [UInt32.le_iff_toNat_le, show (2 : UInt32).toNat = 2 from rfl]
  omega

theorem canonical_power {degree : UInt32} (size : String) (h : degree ≠ 0) :
    (power size degree).Canonical := by
  unfold power
  split
  · exact .linear size
  · next h1 => exact .polynomial size (two_le_of_ne h h1)

/-- Everything that holds of the canonical factors holds of each of their kinds. -/
theorem ProductParts.forall_mem_factors {p : ProductParts} {motive : Cost → Prop}
    (coefficient : p.coefficient ≠ 1 → motive (.constant p.coefficient))
    (powers : ∀ q ∈ p.powers, motive (power q.1 q.2)) (others : ∀ c ∈ p.others, motive c) :
    ∀ c ∈ p.factors, motive c := by
  intro c hc
  rw [ProductParts.factors, List.mem_append, List.mem_append, List.mem_map] at hc
  rcases hc with (hc | ⟨q, hq, rfl⟩) | hc
  · split at hc
    · cases hc
    · next hne =>
        rw [List.mem_singleton.mp hc]
        exact coefficient hne
  · exact powers q hq
  · exact others c hc

theorem canonical_of_mem_factors {p : ProductParts} (h : p.Settled)
    (others : ∀ c ∈ p.others, c.Canonical) : ∀ c ∈ p.factors, c.Canonical :=
  ProductParts.forall_mem_factors (fun _ => .constant _)
    (fun q hq => canonical_power q.1 (h.degrees q hq)) others

namespace Canonical

variable {c d : Cost}

theorem of_mem_factorsOf (h : c.Canonical) (hd : d ∈ c.factorsOf) :
    d.Canonical ∧ d.isProduct = false := by
  cases hp : c.isProduct with
  | false =>
      rw [factorsOf_of_not_isProduct hp, List.mem_singleton] at hd
      exact hd ▸ ⟨h, hp⟩
  | true =>
      cases h with
      | multiply p settled others two =>
          exact ⟨canonical_of_mem_factors settled others d hd, isProduct_of_mem_factors settled hd⟩
      | _ => cases hp

theorem of_mem_termsOf (h : c.Canonical) (hd : d ∈ c.termsOf) :
    d.Canonical ∧ d.isSum = false := by
  cases hs : c.isSum with
  | false =>
      rw [termsOf_of_not_isSum hs, List.mem_singleton] at hd
      exact hd ▸ ⟨h, hs⟩
  | true =>
      cases h with
      | add ts terms flat ranks shapes two => exact ⟨terms d hd, flat d hd⟩
      | _ => cases hs

theorem degree_ne_zero (h : c.Canonical) {q : String × UInt32} (hq : c.power? = some q) :
    q.2 ≠ 0 := by
  cases h with
  | linear size =>
      cases hq
      exact (by decide : (1 : UInt32) ≠ 0)
  | polynomial size two =>
      cases hq
      rintro rfl
      exact absurd two (by decide)
  | _ => cases hq

end Canonical

/-! ## Products -/

theorem settled_parts {fs : List Cost} (h : ∀ f ∈ fs, f.Canonical ∧ f.isProduct = false) :
    (parts fs).Settled := by
  rw [parts_eq]
  refine ⟨Keyed.nodup_collect_nil addDegrees_lawful, ?_, ?_⟩
  · intro q hq
    obtain ⟨z, zs, hfilter, rfl⟩ := Keyed.eq_foldl_of_mem_collect addDegrees_lawful hq
    have hz : z ∈ fs.filterMap power? := List.mem_of_mem_filter (hfilter ▸ List.mem_cons_self ..)
    obtain ⟨f, hf, hpower⟩ := List.mem_filterMap.mp hz
    have hne := (h f hf).1.degree_ne_zero hpower
    rw [Ne, ← UInt32.toNat_inj, UInt32.toNat_zero] at hne ⊢
    rw [toNat_foldl_addDegrees, List.map_cons, List.sum_cons, maxWord32]
    omega
  · intro c hc
    obtain ⟨hmem, hother⟩ := List.mem_filter.mp hc
    exact isAtom_of_isOther hother (h c hmem).2

theorem canonical_others_parts {fs : List Cost} (h : ∀ f ∈ fs, f.Canonical) :
    ∀ c ∈ (parts fs).others, c.Canonical := by
  rw [parts_eq]
  exact fun c hc => h c (List.mem_of_mem_filter hc)

theorem canonical_ofFactors {p : ProductParts} (h : p.Settled)
    (others : ∀ c ∈ p.others, c.Canonical) : (ofFactors p.factors).Canonical := by
  match hfs : p.factors with
  | [] => exact .constant 1
  | [f] => exact canonical_of_mem_factors h others f (hfs ▸ List.mem_singleton_self f)
  | f :: g :: fs =>
      have hmany : ofFactors (f :: g :: fs) = multiply p.factors := by rw [hfs]; rfl
      rw [hmany]
      exact .multiply p h others (by rw [hfs, List.length_cons, List.length_cons]; omega)

theorem canonical_combineProduct {cs : List Cost} (h : ∀ c ∈ cs, c.Canonical) :
    (combineProduct cs).Canonical := by
  have hfactors : ∀ f ∈ cs.flatMap factorsOf, f.Canonical ∧ f.isProduct = false := by
    intro f hf
    obtain ⟨c, hc, hfc⟩ := List.mem_flatMap.mp hf
    exact (h c hc).of_mem_factorsOf hfc
  exact canonical_ofFactors (settled_parts hfactors)
    (canonical_others_parts fun f hf => (hfactors f hf).1)

/-! ## Sums -/

theorem canonical_ofTerms {ts : List Cost} (hne : ts ≠ []) (terms : ∀ t ∈ ts, t.Canonical)
    (flat : ∀ t ∈ ts, t.isSum = false) (ranks : ∀ t ∈ ts, ∀ u ∈ ts, t.rank = u.rank)
    (shapes : (ts.map growthTerm).Nodup) : (ofTerms ts).Canonical := by
  match ts, hne with
  | [t], _ => exact terms t (List.mem_singleton_self t)
  | t :: u :: ts, _ =>
      exact .add _ terms flat ranks shapes (by rw [List.length_cons, List.length_cons]; omega)

theorem canonical_combineSum {cs : List Cost} (h : ∀ c ∈ cs, c.Canonical) :
    (combineSum cs).Canonical := by
  rw [combineSum_eq]
  split
  · exact .constant 0
  · next hne =>
      have hterms : ∀ t ∈ kept cs, t.Canonical ∧ t.isSum = false := by
        intro t ht
        obtain ⟨c, hc, htc⟩ := List.mem_flatMap.mp (mem_dominant.mp (mem_dominant_of_mem_kept ht)).1
        exact (h c hc).of_mem_termsOf htc
      have hranks : ∀ t ∈ kept cs, t.rank = sumRank ((cs.flatMap termsOf).map rank) :=
        fun t ht => (mem_dominant.mp (mem_dominant_of_mem_kept ht)).2
      exact canonical_ofTerms (kept_ne_nil hne) (fun t ht => (hterms t ht).1)
        (fun t ht => (hterms t ht).2) (fun t ht u hu => (hranks t ht).trans (hranks u hu).symm)
        (Keyed.nodup_collect_nil larger_lawful)

/-! ## Reduction -/

/-- What a cost is reduced to is canonical. -/
theorem reduce_canonical (c : Cost) : c.reduce.Canonical := by
  induction c using Cost.induction with
  | constant v => exact .constant v
  | logarithmic base size => exact .logarithmic base size
  | linear size => exact .linear size
  | polynomial degree size =>
      rw [reduce]
      split
      · exact .constant 1
      · next h0 =>
          split
          · exact .linear size
          · next h1 => exact .polynomial size (two_le_of_ne h0 h1)
  | exponential base size => exact .exponential base size
  | symbolic name description => exact .symbolic name description
  | multiply fs ih =>
      rw [reduce_multiply]
      exact canonical_combineProduct (List.forall_mem_map.mpr ih)
  | add ts ih =>
      rw [reduce_add]
      exact canonical_combineSum (List.forall_mem_map.mpr ih)

theorem combineProduct_factors {p : ProductParts} (h : p.Settled) (two : 2 ≤ p.factors.length) :
    combineProduct p.factors = multiply p.factors := by
  have hflat := flatMap_factorsOf_eq_self fun c hc => isProduct_of_mem_factors h hc
  rw [combineProduct_eq, hflat, parts_factors h, ofFactors_of_two_le two]

theorem dominant_of_ranks {ts : List Cost} (flat : ∀ t ∈ ts, t.isSum = false)
    (ranks : ∀ t ∈ ts, ∀ u ∈ ts, t.rank = u.rank) : dominant ts = ts := by
  rw [dominant, flatMap_termsOf_eq_self flat, List.filter_eq_self]
  intro t ht
  have hne : ts.map rank ≠ [] := List.ne_nil_of_mem (List.mem_map_of_mem ht)
  obtain ⟨u, hu, hrank⟩ := List.mem_map.mp (sumRank_mem hne)
  rw [← hrank, decide_eq_true_eq]
  exact ranks t ht u hu

theorem combineSum_of_ranks {ts : List Cost} (flat : ∀ t ∈ ts, t.isSum = false)
    (ranks : ∀ t ∈ ts, ∀ u ∈ ts, t.rank = u.rank) (shapes : (ts.map growthTerm).Nodup)
    (hne : ts ≠ []) : combineSum ts = ofTerms ts := by
  rw [combineSum_eq, kept, flatMap_termsOf_eq_self flat, if_neg hne, dominant_of_ranks flat ranks,
    Keyed.collect_of_nodup shapes, List.nil_append]

theorem map_reduce_eq_self {cs : List Cost} (h : ∀ c ∈ cs, c.reduce = c) :
    cs.map reduce = cs := by
  rw [List.map_congr_left h, List.map_id']

/-- A canonical cost is its own reduction. -/
theorem Canonical.reduce_eq {c : Cost} (h : c.Canonical) : c.reduce = c := by
  induction c using Cost.induction with
  | constant v => rfl
  | logarithmic base size => rfl
  | linear size => rfl
  | polynomial degree size =>
      cases h with
      | polynomial _ two =>
          rw [reduce, if_neg, if_neg]
          · rintro rfl
            exact absurd two (by decide)
          · rintro rfl
            exact absurd two (by decide)
  | exponential base size => rfl
  | symbolic name description => rfl
  | multiply fs ih =>
      cases h with
      | multiply p settled others two =>
          have hself : p.factors.map reduce = p.factors :=
            map_reduce_eq_self fun f hf =>
              ih f hf (canonical_of_mem_factors settled others f hf)
          rw [reduce_multiply, hself, combineProduct_factors settled two]
  | add ts ih =>
      cases h with
      | add _ terms flat ranks shapes two =>
          have hself : ts.map reduce = ts := map_reduce_eq_self fun t ht =>
            ih t ht (terms t ht)
          have hne : ts ≠ [] := by
            rintro rfl
            exact absurd two (by decide)
          rw [reduce_add, hself, combineSum_of_ranks flat ranks shapes hne, ofTerms_of_two_le two]

theorem reduce_reduce (c : Cost) : c.reduce.reduce = c.reduce := c.reduce_canonical.reduce_eq

theorem canonical_iff_reduce_eq (c : Cost) : c.Canonical ↔ c.reduce = c :=
  ⟨Canonical.reduce_eq, fun h => h ▸ c.reduce_canonical⟩

/-- Every cost reduces to a canonical one; reducing that again changes neither it nor the way it is
written. The canonical costs are those that reduction leaves alone. -/
theorem reduce_canonical_idempotent (c : Cost) :
    c.reduce.Canonical ∧ c.reduce.reduce = c.reduce ∧ c.reduce.bigO = c.bigO ∧
      (c.Canonical ↔ c.reduce = c) :=
  ⟨c.reduce_canonical, c.reduce_reduce, by rw [bigO, reduce_reduce, bigO],
    c.canonical_iff_reduce_eq⟩

end Cost

end CodeProfile
