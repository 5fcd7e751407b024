import CodeProfile.Cost.Reduction
import CodeProfile.Proofs.Cost.Keyed
import Mathlib.Algebra.Order.Ring.Nat

/-!
# The parts of a reduced cost

Reducing a product sorts its factors into a coefficient, powers and other
factors. `parts_eq` says that each kind is collected on its own, the
powers by size; on factors that are sorted already, sorting only reads
off what is there (`parts_factors`). Reducing a sum collects its dominant
terms, those of the greatest rank, by growth term (`combineSum_eq`).
-/

namespace CodeProfile

namespace Cost

/-- Induction over a cost, with the hypothesis for every factor and every term. -/
theorem induction {motive : Cost → Prop}
    (constant : ∀ v, motive (.constant v))
    (logarithmic : ∀ base size, motive (.logarithmic base size))
    (linear : ∀ size, motive (.linear size))
    (polynomial : ∀ degree size, motive (.polynomial degree size))
    (exponential : ∀ base size, motive (.exponential base size))
    (symbolic : ∀ name description, motive (.symbolic name description))
    (multiply : ∀ fs, (∀ f ∈ fs, motive f) → motive (.multiply fs))
    (add : ∀ ts, (∀ t ∈ ts, motive t) → motive (.add ts)) (c : Cost) : motive c := by
  refine Cost.rec (motive_1 := motive) (motive_2 := fun cs => ∀ c ∈ cs, motive c)
    constant logarithmic linear polynomial exponential multiply add symbolic ?_ ?_ c
  · intro c hc
    cases hc
  · intro c cs hc hcs
    exact List.forall_mem_cons.mpr ⟨hc, hcs⟩

theorem reduce_multiply (fs : List Cost) :
    (multiply fs).reduce = combineProduct (fs.map reduce) := by
  rw [reduce, reduceAll_eq_map]

theorem reduce_add (ts : List Cost) : (add ts).reduce = combineSum (ts.map reduce) := by
  rw [reduce, reduceAll_eq_map]

theorem growthTerms_eq (cs : List Cost) : growthTerms cs = cs.map fun c => (c, c.growthTerm) := by
  induction cs with
  | nil => rfl
  | cons c cs ih => rw [growthTerms, ih, List.map_cons]

/-! ## Sorting factors -/

/-- The value of a constant. -/
def constant? : Cost → Option UInt64
  | constant v => some v
  | _ => none

/-- The size and degree of a power. -/
def power? : Cost → Option (String × UInt32)
  | linear size => some (size, 1)
  | polynomial degree size => some (size, degree)
  | _ => none

/-- Whether an expression is neither a constant nor a power. -/
def isOther (c : Cost) : Bool := c.constant?.isNone && c.power?.isNone

/-- Whether an expression is a logarithm, an exponential, a name or a sum. -/
def isAtom : Cost → Bool
  | logarithmic _ _ | exponential _ _ | symbolic _ _ | add _ => true
  | _ => false

def isProduct (c : Cost) : Bool := c matches multiply _

def isSum (c : Cost) : Bool := c matches add _

/-- Two powers of one size as one. -/
def addDegrees (p q : String × UInt32) : String × UInt32 := (p.1, addSaturating32 p.2 q.2)

/-- The parts that factors are sorted into. -/
def parts (fs : List Cost) : ProductParts := fs.foldl ProductParts.insert .empty

theorem addSaturating32_assoc (a b c : UInt32) :
    addSaturating32 (addSaturating32 a b) c = addSaturating32 a (addSaturating32 b c) := by
  rw [← UInt32.toNat_inj]
  simp only [toNat_addSaturating32]
  omega

theorem addDegrees_lawful : Keyed.Lawful Prod.fst addDegrees where
  key_op _ _ _ := rfl
  assoc a b c _ _ := by simp only [addDegrees, addSaturating32_assoc]

theorem addPower_eq (size : String) (degree : UInt32) (ps : List (String × UInt32)) :
    addPower size degree ps = Keyed.insert Prod.fst addDegrees (size, degree) ps := by
  induction ps with
  | nil => rfl
  | cons p ps ih =>
      rw [addPower, Keyed.insert, ih]
      by_cases h : p.1 = size
      · rw [if_pos h, if_pos h, addDegrees, h]
      · rw [if_neg h, if_neg h]

/-- Sorting collects each kind of factor on its own. -/
theorem foldl_insert (p : ProductParts) (fs : List Cost) :
    fs.foldl ProductParts.insert p =
      { coefficient := (fs.filterMap constant?).foldl mulSaturating64 p.coefficient
        powers := Keyed.collect Prod.fst addDegrees p.powers (fs.filterMap power?)
        others := p.others ++ fs.filter isOther } := by
  induction fs generalizing p with
  | nil => simp [Keyed.collect]
  | cons f fs ih =>
      rw [List.foldl_cons, ih]
      cases f <;>
        simp [ProductParts.insert, constant?, power?, isOther, addPower_eq, Keyed.collect_cons,
          List.filterMap_cons]

theorem parts_eq (fs : List Cost) :
    parts fs =
      { coefficient := (fs.filterMap constant?).foldl mulSaturating64 1
        powers := Keyed.collect Prod.fst addDegrees [] (fs.filterMap power?)
        others := fs.filter isOther } :=
  foldl_insert .empty fs

/-- Parts that factors are sorted into for good: one power for each size, none of degree zero, and
no product among the other factors. -/
structure ProductParts.Settled (p : ProductParts) : Prop where
  sizes : (p.powers.map Prod.fst).Nodup
  degrees : ∀ q ∈ p.powers, q.2 ≠ 0
  others : ∀ c ∈ p.others, c.isAtom = true

theorem power?_power (q : String × UInt32) : (power q.1 q.2).power? = some q := by
  unfold power
  split
  · next h => rw [power?, ← h]
  · rfl

theorem constant?_power (q : String × UInt32) : (power q.1 q.2).constant? = none := by
  unfold power
  split <;> rfl

theorem isOther_power (q : String × UInt32) : (power q.1 q.2).isOther = false := by
  rw [isOther, power?_power, Option.isNone_some, Bool.and_false]

theorem isProduct_power (q : String × UInt32) : (power q.1 q.2).isProduct = false := by
  unfold power
  split <;> rfl

theorem constant?_of_isAtom {c : Cost} (h : c.isAtom = true) : c.constant? = none := by
  cases c <;> first | rfl | cases h

theorem power?_of_isAtom {c : Cost} (h : c.isAtom = true) : c.power? = none := by
  cases c <;> first | rfl | cases h

theorem isOther_of_isAtom {c : Cost} (h : c.isAtom = true) : c.isOther = true := by
  rw [isOther, constant?_of_isAtom h, power?_of_isAtom h]
  rfl

theorem isProduct_of_isAtom {c : Cost} (h : c.isAtom = true) : c.isProduct = false := by
  cases c <;> first | rfl | cases h

theorem isAtom_of_isOther {c : Cost} (h : c.isOther = true) (hp : c.isProduct = false) :
    c.isAtom = true := by
  cases c with
  | multiply fs => cases hp
  | constant v => cases h
  | linear size => cases h
  | polynomial degree size => cases h
  | _ => rfl

theorem mulSaturating64_one (v : UInt64) : mulSaturating64 1 v = v := by
  rw [← UInt64.toNat_inj, toNat_mulSaturating64, UInt64.toNat_one, Nat.one_mul, Nat.min_eq_left]
  have := v.toNat_lt
  rw [maxWord64]
  omega

/-- The coefficient among the canonical factors. -/
theorem filterMap_constant?_factors {p : ProductParts} (h : p.Settled) :
    p.factors.filterMap constant? = if p.coefficient = 1 then [] else [p.coefficient] := by
  have hpowers : (p.powers.map fun q => power q.1 q.2).filterMap constant? = [] := by
    simp [List.filterMap_map, constant?_power]
  have hothers : p.others.filterMap constant? = [] := by
    rw [List.filterMap_eq_nil_iff]
    exact fun c hc => constant?_of_isAtom (h.others c hc)
  rw [ProductParts.factors, List.filterMap_append, List.filterMap_append, hpowers, hothers]
  split <;> rfl

theorem filterMap_power?_factors {p : ProductParts} (h : p.Settled) :
    p.factors.filterMap power? = p.powers := by
  have hpowers : (p.powers.map fun q => power q.1 q.2).filterMap power? = p.powers := by
    simp [List.filterMap_map, power?_power]
  have hothers : p.others.filterMap power? = [] := by
    rw [List.filterMap_eq_nil_iff]
    exact fun c hc => power?_of_isAtom (h.others c hc)
  rw [ProductParts.factors, List.filterMap_append, List.filterMap_append, hpowers, hothers,
    List.append_nil]
  split <;> rfl

theorem filter_isOther_factors {p : ProductParts} (h : p.Settled) :
    p.factors.filter isOther = p.others := by
  have hpowers : (p.powers.map fun q => power q.1 q.2).filter isOther = [] := by
    rw [List.filter_eq_nil_iff, List.forall_mem_map]
    intro q _
    rw [isOther_power q]
    exact Bool.false_ne_true
  have hothers : p.others.filter isOther = p.others := by
    rw [List.filter_eq_self]
    exact fun c hc => isOther_of_isAtom (h.others c hc)
  rw [ProductParts.factors, List.filter_append, List.filter_append, hpowers, hothers,
    List.append_nil]
  split <;> rfl

/-- Sorting the canonical factors reads off the parts that they are made of. -/
theorem parts_factors {p : ProductParts} (h : p.Settled) : parts p.factors = p := by
  rw [parts_eq, filterMap_constant?_factors h, filterMap_power?_factors h,
    filter_isOther_factors h, Keyed.collect_of_nodup h.sizes, List.nil_append]
  have hcoefficient :
      (if p.coefficient = 1 then [] else [p.coefficient]).foldl mulSaturating64 1 =
        p.coefficient := by
    split
    · next hone => exact hone.symm
    · exact mulSaturating64_one _
  rw [hcoefficient]

theorem isProduct_of_mem_factors {p : ProductParts} (h : p.Settled) {c : Cost}
    (hc : c ∈ p.factors) : c.isProduct = false := by
  rw [ProductParts.factors, List.mem_append, List.mem_append, List.mem_map] at hc
  rcases hc with (hc | ⟨q, _, rfl⟩) | hc
  · split at hc
    · cases hc
    · rw [List.mem_singleton.mp hc]
      rfl
  · exact isProduct_power q
  · exact isProduct_of_isAtom (h.others c hc)

theorem factorsOf_of_not_isProduct {c : Cost} (h : c.isProduct = false) : c.factorsOf = [c] := by
  cases c <;> first | rfl | cases h

theorem termsOf_of_not_isSum {c : Cost} (h : c.isSum = false) : c.termsOf = [c] := by
  cases c <;> first | rfl | cases h

theorem flatMap_factorsOf_eq_self {cs : List Cost} (h : ∀ c ∈ cs, c.isProduct = false) :
    cs.flatMap factorsOf = cs := by
  rw [List.flatMap_congr fun c hc => factorsOf_of_not_isProduct (h c hc), List.flatMap_singleton']

theorem flatMap_termsOf_eq_self {cs : List Cost} (h : ∀ c ∈ cs, c.isSum = false) :
    cs.flatMap termsOf = cs := by
  rw [List.flatMap_congr fun c hc => termsOf_of_not_isSum (h c hc), List.flatMap_singleton']

theorem ofFactors_of_two_le {fs : List Cost} (h : 2 ≤ fs.length) : ofFactors fs = multiply fs := by
  match fs, h with
  | _ :: _ :: _, _ => rfl

theorem ofTerms_of_two_le {ts : List Cost} (h : 2 ≤ ts.length) : ofTerms ts = add ts := by
  match ts, h with
  | _ :: _ :: _, _ => rfl

/-- Sorting the factors of a product of canonical factors, also if that is a single factor or none,
reads off the parts that it is made of. -/
theorem parts_factorsOf_ofFactors {p : ProductParts} (h : p.Settled) :
    parts (ofFactors p.factors).factorsOf = p := by
  match hfs : p.factors with
  | [] =>
      have hone : parts (ofFactors []).factorsOf = parts [] := rfl
      rw [hone, ← hfs, parts_factors h]
  | [f] =>
      have hf : f.isProduct = false := isProduct_of_mem_factors h (by rw [hfs]; exact .head _)
      rw [ofFactors, factorsOf_of_not_isProduct hf, ← hfs, parts_factors h]
  | f :: g :: fs =>
      have hmany : (ofFactors (f :: g :: fs)).factorsOf = f :: g :: fs := rfl
      rw [hmany, ← hfs, parts_factors h]

theorem combineProduct_eq (cs : List Cost) :
    combineProduct cs = ofFactors (parts (cs.flatMap factorsOf)).factors := rfl

/-! ## Merged powers -/

/-- Degrees add up to the largest word at most. -/
theorem toNat_foldl_addDegrees (q : String × UInt32) (qs : List (String × UInt32)) :
    (qs.foldl addDegrees q).2.toNat = min (((q :: qs).map (·.2.toNat)).sum) maxWord32 := by
  induction qs generalizing q with
  | nil =>
      have := q.2.toNat_lt
      rw [List.foldl_nil, List.map_singleton, List.sum_singleton, maxWord32]
      omega
  | cons r qs ih =>
      rw [List.foldl_cons, ih]
      simp only [addDegrees, toNat_addSaturating32, List.map_cons, List.sum_cons]
      omega

/-! ## Dominant terms -/

/-- Of two terms the one of larger coefficient, and the first if they have the same. -/
def larger (k t : Cost) : Cost := if k.coefficient < t.coefficient then t else k

theorem larger_eq_or (k t : Cost) : larger k t = k ∨ larger k t = t := by
  unfold larger
  split
  · exact Or.inr rfl
  · exact Or.inl rfl

theorem coefficient_larger (k t : Cost) :
    (larger k t).coefficient.toNat = max k.coefficient.toNat t.coefficient.toNat := by
  unfold larger
  split
  · next h =>
      rw [UInt64.lt_iff_toNat_lt] at h
      exact (Nat.max_eq_right (Nat.le_of_lt h)).symm
  · next h =>
      rw [UInt64.lt_iff_toNat_lt] at h
      exact (Nat.max_eq_left (Nat.not_lt.mp h)).symm

theorem larger_lawful : Keyed.Lawful growthTerm larger where
  key_op a b h := by
    rcases larger_eq_or a b with hl | hl
    · rw [hl]
    · rw [hl, h]
  assoc a b c _ _ := by
    simp only [larger, UInt64.lt_iff_toNat_lt]
    by_cases hab : a.coefficient.toNat < b.coefficient.toNat <;>
      by_cases hbc : b.coefficient.toNat < c.coefficient.toNat <;>
        simp only [hab, hbc, if_true, if_false]
    · rw [if_pos (Nat.lt_trans hab hbc)]
    · rw [if_neg]
      omega

theorem keepTerm_eq (t : Cost) (ks : List Cost) :
    keepTerm t ks = Keyed.insert growthTerm larger t ks := by
  induction ks with
  | nil => rfl
  | cons k ks ih => rw [keepTerm, Keyed.insert, ih, larger]

/-- The terms of greatest rank. -/
def dominant (cs : List Cost) : List Cost :=
  let flat := cs.flatMap termsOf
  flat.filter (·.rank = sumRank (flat.map rank))

/-- The dominant terms, one for each growth term. -/
def kept (cs : List Cost) : List Cost := Keyed.collect growthTerm larger [] (dominant cs)

theorem combineSum_eq (cs : List Cost) :
    combineSum cs = if cs.flatMap termsOf = [] then constant 0 else ofTerms (kept cs) := by
  have hkeep : (fun ks t => keepTerm t ks) = fun ks t => Keyed.insert growthTerm larger t ks := by
    funext ks t
    exact keepTerm_eq t ks
  simp only [combineSum, List.isEmpty_iff, hkeep]
  rfl

theorem le_foldl_max (rs : List Nat) (a : Nat) :
    a ≤ rs.foldl max a ∧ ∀ r ∈ rs, r ≤ rs.foldl max a := by
  induction rs generalizing a with
  | nil => simp
  | cons r rs ih =>
      obtain ⟨hle, hall⟩ := ih (max a r)
      refine ⟨Nat.le_trans (Nat.le_max_left a r) hle, ?_⟩
      exact List.forall_mem_cons.mpr ⟨Nat.le_trans (Nat.le_max_right a r) hle, hall⟩

theorem foldl_max_mem (rs : List Nat) (a : Nat) : rs.foldl max a = a ∨ rs.foldl max a ∈ rs := by
  induction rs generalizing a with
  | nil => exact Or.inl rfl
  | cons r rs ih =>
      rw [List.foldl_cons]
      rcases ih (max a r) with h | h
      · rw [h]
        rcases Nat.le_total a r with hle | hle
        · exact Or.inr (by rw [Nat.max_eq_right hle]; exact List.mem_cons_self ..)
        · exact Or.inl (Nat.max_eq_left hle)
      · exact Or.inr (List.mem_cons_of_mem _ h)

theorem le_sumRank {rs : List Nat} {r : Nat} (h : r ∈ rs) : r ≤ sumRank rs :=
  (le_foldl_max rs 0).2 r h

theorem sumRank_mem {rs : List Nat} (h : rs ≠ []) : sumRank rs ∈ rs := by
  rcases foldl_max_mem rs 0 with h0 | hmem
  · obtain ⟨r, hr⟩ := List.exists_mem_of_ne_nil rs h
    have hle := le_sumRank hr
    have hzero : sumRank rs = 0 := h0
    rw [hzero, Nat.le_zero] at hle
    rwa [hzero, ← hle]
  · exact hmem

theorem mem_dominant {cs : List Cost} {t : Cost} :
    t ∈ dominant cs ↔
      t ∈ cs.flatMap termsOf ∧ t.rank = sumRank ((cs.flatMap termsOf).map rank) := by
  simp only [dominant, List.mem_filter, decide_eq_true_eq]

theorem dominant_ne_nil {cs : List Cost} (h : cs.flatMap termsOf ≠ []) : dominant cs ≠ [] := by
  have hne : (cs.flatMap termsOf).map rank ≠ [] := fun hnil => h (List.map_eq_nil_iff.mp hnil)
  obtain ⟨t, ht, hrank⟩ := List.mem_map.mp (sumRank_mem hne)
  exact List.ne_nil_of_mem (mem_dominant.mpr ⟨ht, hrank⟩)

theorem mem_dominant_of_mem_kept {cs : List Cost} {t : Cost} (h : t ∈ kept cs) :
    t ∈ dominant cs :=
  Keyed.mem_of_mem_collect larger_lawful larger_eq_or h

theorem exists_mem_kept {cs : List Cost} {t : Cost} (ht : t ∈ dominant cs) :
    ∃ k ∈ kept cs, k.growthTerm = t.growthTerm := by
  have hterm : t.growthTerm ∈ (kept cs).map growthTerm :=
    (Keyed.mem_map_key_collect larger_lawful).mpr (Or.inr (List.mem_map_of_mem ht))
  exact List.mem_map.mp hterm

theorem kept_ne_nil {cs : List Cost} (h : cs.flatMap termsOf ≠ []) : kept cs ≠ [] := by
  obtain ⟨t, ht⟩ := List.exists_mem_of_ne_nil _ (dominant_ne_nil h)
  obtain ⟨k, hk, _⟩ := exists_mem_kept ht
  exact List.ne_nil_of_mem hk

end Cost

end CodeProfile
