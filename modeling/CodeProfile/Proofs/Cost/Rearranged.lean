import CodeProfile.Proofs.Cost.Grouping
import CodeProfile.Proofs.Cost.Subexponential
import Mathlib.Data.Multiset.Bind
import Mathlib.Data.Multiset.Filter

/-!
# Rearranged costs

`Cost.Rearranged` relates two expressions of which one arises from the
other by permuting factors and terms, at any depth. It is an equivalence,
and it keeps what the reduction decides by: kinds, ranks and coefficients
(`Rearranged.rank_eq`, `Rearranged.coefficient_eq`). Only growth terms
depend on the order. Products are reduced without looking at growth
terms, so rearranged factors reduce to rearranged products
(`rearranged_combineProduct`).
-/

namespace CodeProfile

/-! ## Related collections -/

section Related

variable {α β γ : Type} {r : α → β → Prop}

theorem rel_trans_of {r : α → α → Prop} {s t u : Multiset α} (hst : Multiset.Rel r s t)
    (htu : Multiset.Rel r t u) (trans : ∀ a ∈ s, ∀ b c, r a b → r b c → r a c) :
    Multiset.Rel r s u := by
  induction hst generalizing u with
  | zero => rwa [Multiset.rel_zero_left] at htu ⊢
  | cons hab _ ih =>
      obtain ⟨c, u', hbc, htail, rfl⟩ := Multiset.rel_cons_left.mp htu
      refine .cons (trans _ (Multiset.mem_cons_self ..) _ _ hab hbc) (ih htail fun a ha => ?_)
      exact trans a (Multiset.mem_cons_of_mem ha)

theorem rel_filter {p : α → Prop} {q : β → Prop} [DecidablePred p] [DecidablePred q]
    {s : Multiset α} {t : Multiset β} (h : Multiset.Rel r s t) (hpq : ∀ a b, r a b → (p a ↔ q b)) :
    Multiset.Rel r (s.filter p) (t.filter q) := by
  induction h with
  | zero => exact .zero
  | @cons a b s t hab _ ih =>
      by_cases ha : p a
      · rw [Multiset.filter_cons_of_pos _ ha, Multiset.filter_cons_of_pos _ ((hpq a b hab).mp ha)]
        exact .cons hab ih
      · rw [Multiset.filter_cons_of_neg _ ha,
          Multiset.filter_cons_of_neg _ fun hb => ha ((hpq a b hab).mpr hb)]
        exact ih

theorem filterMap_eq_of_rel {f : α → Option γ} {g : β → Option γ} {s : Multiset α}
    {t : Multiset β} (h : Multiset.Rel r s t) (hfg : ∀ a b, r a b → f a = g b) :
    s.filterMap f = t.filterMap g := by
  induction h with
  | zero => rfl
  | @cons a b s t hab _ ih =>
      rw [Multiset.filterMap_cons, Multiset.filterMap_cons, ih, hfg a b hab]

end Related

namespace Cost

/-- One expression is the other with its factors and terms permuted, at any depth. -/
inductive Rearranged : Cost → Cost → Prop where
  | refl (c : Cost) : Rearranged c c
  | multiply {fs gs : List Cost} (h : Multiset.Rel Rearranged (fs : Multiset Cost) gs) :
      Rearranged (multiply fs) (multiply gs)
  | add {ts us : List Cost} (h : Multiset.Rel Rearranged (ts : Multiset Cost) us) :
      Rearranged (add ts) (add us)

/-- Two lists of expressions that are rearranged ones of each other, in any order. -/
def RearrangedAll (cs ds : List Cost) : Prop :=
  Multiset.Rel Rearranged (cs : Multiset Cost) (ds : Multiset Cost)

namespace RearrangedAll

variable {cs ds es fs : List Cost}

theorem refl (cs : List Cost) : RearrangedAll cs cs :=
  Multiset.rel_refl_of_refl_on fun c _ => .refl c

theorem of_perm (h : cs.Perm ds) : RearrangedAll cs ds := by
  rw [RearrangedAll, Multiset.coe_eq_coe.mpr h]
  exact refl ds

theorem symm_of (h : RearrangedAll cs ds) (symm : ∀ c ∈ cs, ∀ d, Rearranged c d → Rearranged d c) :
    RearrangedAll ds cs :=
  Multiset.rel_flip.mp (Multiset.Rel.mono h fun c hc d _ hcd => symm c hc d hcd)

theorem append (h : RearrangedAll cs ds) (h' : RearrangedAll es fs) :
    RearrangedAll (cs ++ es) (ds ++ fs) := by
  rw [RearrangedAll, ← Multiset.coe_add, ← Multiset.coe_add]
  exact Multiset.Rel.add h h'

theorem length_eq (h : RearrangedAll cs ds) : cs.length = ds.length :=
  Multiset.card_eq_card_of_rel h

theorem eq_nil_iff (h : RearrangedAll cs ds) : cs = [] ↔ ds = [] := by
  rw [← List.length_eq_zero_iff, h.length_eq, List.length_eq_zero_iff]

theorem exists_mem (h : RearrangedAll cs ds) {c : Cost} (hc : c ∈ cs) :
    ∃ d ∈ ds, Rearranged c d :=
  Multiset.exists_mem_of_rel_of_mem h hc

theorem map {f : Cost → Cost} (h : RearrangedAll cs ds)
    (hf : ∀ c ∈ cs, ∀ d ∈ ds, Rearranged c d → Rearranged (f c) (f d)) :
    RearrangedAll (cs.map f) (ds.map f) := by
  rw [RearrangedAll, ← Multiset.map_coe, ← Multiset.map_coe, Multiset.rel_map]
  exact Multiset.Rel.mono h hf

theorem flatMap {f g : Cost → List Cost} (h : RearrangedAll cs ds)
    (hfg : ∀ c d, Rearranged c d → RearrangedAll (f c) (g d)) :
    RearrangedAll (cs.flatMap f) (ds.flatMap g) := by
  rw [RearrangedAll, ← Multiset.coe_bind, ← Multiset.coe_bind]
  exact Multiset.rel_bind hfg h

theorem filter {p q : Cost → Bool} (h : RearrangedAll cs ds)
    (hpq : ∀ c d, Rearranged c d → p c = q d) : RearrangedAll (cs.filter p) (ds.filter q) := by
  have := rel_filter (p := fun c => p c = true) (q := fun d => q d = true) h
    fun c d hcd => by rw [hpq c d hcd]
  rw [Multiset.filter_coe, Multiset.filter_coe] at this
  simpa [RearrangedAll] using this

theorem perm_filterMap {γ : Type} {f : Cost → Option γ} (h : RearrangedAll cs ds)
    (hf : ∀ c d, Rearranged c d → f c = f d) : (cs.filterMap f).Perm (ds.filterMap f) := by
  rw [← Multiset.coe_eq_coe, ← Multiset.filterMap_coe, ← Multiset.filterMap_coe]
  exact filterMap_eq_of_rel h hf

theorem perm_map {γ : Type} {f : Cost → γ} (h : RearrangedAll cs ds)
    (hf : ∀ c ∈ cs, ∀ d ∈ ds, Rearranged c d → f c = f d) : (cs.map f).Perm (ds.map f) := by
  rw [← Multiset.coe_eq_coe, ← Multiset.map_coe, ← Multiset.map_coe, ← Multiset.rel_eq,
    Multiset.rel_map]
  exact Multiset.Rel.mono h hf

end RearrangedAll

namespace Rearranged

variable {c d e : Cost}

theorem symm (h : Rearranged c d) : Rearranged d c := by
  induction c using Cost.induction generalizing d with
  | multiply fs ih =>
      cases h with
      | refl => exact .refl _
      | multiply h =>
          exact .multiply (RearrangedAll.symm_of h fun f hf _ => ih f hf)
  | add ts ih =>
      cases h with
      | refl => exact .refl _
      | add h => exact .add (RearrangedAll.symm_of h fun t ht _ => ih t ht)
  | _ =>
      cases h
      exact .refl _

theorem trans (h : Rearranged c d) (h' : Rearranged d e) : Rearranged c e := by
  induction c using Cost.induction generalizing d e with
  | multiply fs ih =>
      cases h with
      | refl => exact h'
      | multiply h =>
          cases h' with
          | refl => exact .multiply h
          | multiply h' =>
              exact .multiply (rel_trans_of h h' fun f hf _ _ hfg hgk => ih f hf hfg hgk)
  | add ts ih =>
      cases h with
      | refl => exact h'
      | add h =>
          cases h' with
          | refl => exact .add h
          | add h' => exact .add (rel_trans_of h h' fun t ht _ _ htu huv => ih t ht htu huv)
  | _ =>
      cases h
      exact h'

/-! ## What rearranging keeps -/

theorem constant?_eq (h : Rearranged c d) : c.constant? = d.constant? := by
  cases h <;> rfl

theorem power?_eq (h : Rearranged c d) : c.power? = d.power? := by
  cases h <;> rfl

theorem isOther_eq (h : Rearranged c d) : c.isOther = d.isOther := by
  cases h <;> rfl

theorem rank_eq (h : Rearranged c d) : c.rank = d.rank := by
  induction c using Cost.induction generalizing d with
  | multiply fs ih =>
      cases h with
      | refl => rfl
      | multiply h =>
          have hperm := RearrangedAll.perm_map h fun f hf _ _ => ih f hf
          rw [rank_multiply, rank_multiply, productRank_eq, productRank_eq, hperm.sum_eq,
            hperm.any_eq]
  | add ts ih =>
      cases h with
      | refl => rfl
      | add h =>
          rw [rank_add, rank_add]
          exact sumRank_eq_of_perm (RearrangedAll.perm_map h fun t ht _ _ => ih t ht)
  | _ =>
      cases h
      rfl

theorem rel_factorsOf (h : Rearranged c d) : RearrangedAll c.factorsOf d.factorsOf := by
  cases h with
  | refl => exact .refl _
  | multiply h => exact h
  | add h => exact Multiset.Rel.cons (.add h) .zero

theorem rel_termsOf (h : Rearranged c d) : RearrangedAll c.termsOf d.termsOf := by
  cases h with
  | refl => exact .refl _
  | multiply h => exact Multiset.Rel.cons (.multiply h) .zero
  | add h => exact h

end Rearranged

theorem RearrangedAll.symm {cs ds : List Cost} (h : RearrangedAll cs ds) : RearrangedAll ds cs :=
  h.symm_of fun _ _ _ => Rearranged.symm

theorem RearrangedAll.trans {cs ds es : List Cost} (h : RearrangedAll cs ds)
    (h' : RearrangedAll ds es) : RearrangedAll cs es :=
  rel_trans_of h h' fun _ _ _ _ => Rearranged.trans

/-! ## Products -/

theorem perm_foldl_mulSaturating64 {vs ws : List UInt64} (h : vs.Perm ws) :
    vs.foldl mulSaturating64 1 = ws.foldl mulSaturating64 1 := by
  rw [← UInt64.toNat_inj, toNat_foldl_mulSaturating64, toNat_foldl_mulSaturating64,
    (h.map UInt64.toNat).prod_eq]

theorem coefficient_multiply (fs : List Cost) :
    (multiply fs).coefficient = (fs.filterMap constant?).foldl mulSaturating64 1 := by
  rw [coefficient]
  generalize (1 : UInt64) = a
  induction fs generalizing a with
  | nil => rfl
  | cons f fs ih => cases f <;> exact ih _

theorem Rearranged.coefficient_eq {c d : Cost} (h : Rearranged c d) :
    c.coefficient = d.coefficient := by
  cases h with
  | refl => rfl
  | multiply h =>
      rw [coefficient_multiply, coefficient_multiply]
      exact perm_foldl_mulSaturating64 (RearrangedAll.perm_filterMap h fun _ _ => constant?_eq)
  | add _ => rfl

theorem addDegrees_comm (p q : String × UInt32) (h : p.1 = q.1) :
    addDegrees p q = addDegrees q p := by
  have hdegree : addSaturating32 p.2 q.2 = addSaturating32 q.2 p.2 := by
    rw [← UInt32.toNat_inj, toNat_addSaturating32, toNat_addSaturating32, Nat.add_comm]
  rw [addDegrees, addDegrees, h, hdegree]

theorem rearranged_ofFactors {fs gs : List Cost} (h : RearrangedAll fs gs) :
    Rearranged (ofFactors fs) (ofFactors gs) := by
  match fs, gs, h.length_eq with
  | [], [], _ => exact .refl _
  | [f], [g], _ =>
      obtain ⟨g', hg', hfg⟩ := h.exists_mem (List.mem_singleton_self f)
      rw [List.mem_singleton.mp hg'] at hfg
      exact hfg
  | f :: f' :: fs, g :: g' :: gs, _ => exact .multiply h

theorem rearranged_ofTerms {ts us : List Cost} (h : RearrangedAll ts us) :
    Rearranged (ofTerms ts) (ofTerms us) := by
  match ts, us, h.length_eq with
  | [], [], _ => exact .refl _
  | [t], [u], _ =>
      obtain ⟨u', hu', htu⟩ := h.exists_mem (List.mem_singleton_self t)
      rw [List.mem_singleton.mp hu'] at htu
      exact htu
  | t :: t' :: ts, u :: u' :: us, _ => exact .add h

/-- The parts of rearranged factors differ in their order only. -/
theorem rel_factors_parts {fs gs : List Cost} (h : RearrangedAll fs gs) :
    RearrangedAll (parts fs).factors (parts gs).factors := by
  have hcoefficient : (parts fs).coefficient = (parts gs).coefficient := by
    rw [parts_eq, parts_eq]
    exact perm_foldl_mulSaturating64 (h.perm_filterMap fun _ _ => Rearranged.constant?_eq)
  have hpowers : (parts fs).powers.Perm (parts gs).powers := by
    rw [parts_eq, parts_eq]
    exact Keyed.perm_collect addDegrees_lawful addDegrees_comm
      (h.perm_filterMap fun _ _ => Rearranged.power?_eq) List.nodup_nil
  have hothers : RearrangedAll (parts fs).others (parts gs).others := by
    rw [parts_eq, parts_eq]
    exact h.filter fun _ _ => Rearranged.isOther_eq
  rw [ProductParts.factors, ProductParts.factors, hcoefficient]
  exact ((RearrangedAll.refl _).append (.of_perm (hpowers.map _))).append hothers

theorem rearranged_combineProduct {cs ds : List Cost} (h : RearrangedAll cs ds) :
    Rearranged (combineProduct cs) (combineProduct ds) := by
  rw [combineProduct_eq, combineProduct_eq]
  exact rearranged_ofFactors (rel_factors_parts (h.flatMap fun _ _ => Rearranged.rel_factorsOf))

end Cost

end CodeProfile
