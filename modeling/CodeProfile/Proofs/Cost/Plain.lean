import CodeProfile.Proofs.Cost.Telling

/-!
# Plain costs

The growth term of a logarithm does not show its base, and that of a name
does not show its description. `Cost.plain` forgets both, and reduction
does not look at them (`reduce_plain`).
-/

namespace CodeProfile

namespace Cost

mutual

/-- The expression with all logarithms to base two and no descriptions. -/
def plain : Cost → Cost
  | logarithmic _ size => logarithmic 2 size
  | symbolic name _ => symbolic name ""
  | multiply fs => multiply (plainAll fs)
  | add ts => add (plainAll ts)
  | c => c

/-- `plain` for several expressions. -/
def plainAll : List Cost → List Cost
  | [] => []
  | c :: cs => plain c :: plainAll cs

end

theorem plainAll_eq_map (cs : List Cost) : plainAll cs = cs.map plain := by
  induction cs with
  | nil => rfl
  | cons c cs ih => rw [plainAll, ih, List.map_cons]

theorem plain_multiply (fs : List Cost) : (multiply fs).plain = multiply (fs.map plain) := by
  rw [plain, plainAll_eq_map]

theorem plain_add (ts : List Cost) : (add ts).plain = add (ts.map plain) := by
  rw [plain, plainAll_eq_map]

/-! ## What is left unchanged -/

theorem constant?_plain (c : Cost) : c.plain.constant? = c.constant? := by
  cases c <;> rfl

theorem power?_plain (c : Cost) : c.plain.power? = c.power? := by
  cases c <;> rfl

theorem isOther_plain (c : Cost) : c.plain.isOther = c.isOther := by
  cases c <;> rfl

theorem factorsOf_plain (c : Cost) : c.plain.factorsOf = c.factorsOf.map plain := by
  cases c with
  | multiply fs => rw [plain_multiply, factorsOf, factorsOf]
  | _ => rfl

theorem termsOf_plain (c : Cost) : c.plain.termsOf = c.termsOf.map plain := by
  cases c with
  | add ts => rw [plain_add, termsOf, termsOf]
  | _ => rfl

theorem rank_plain (c : Cost) : c.plain.rank = c.rank := by
  induction c using Cost.induction with
  | multiply fs ih =>
      rw [plain_multiply, rank_multiply, rank_multiply, List.map_map]
      exact congrArg productRank (List.map_congr_left ih)
  | add ts ih =>
      rw [plain_add, rank_add, rank_add, List.map_map]
      exact congrArg sumRank (List.map_congr_left ih)
  | _ => rfl

theorem coefficient_plain (c : Cost) : c.plain.coefficient = c.coefficient := by
  cases c with
  | multiply fs =>
      have hconstants : (fs.map plain).filterMap constant? = fs.filterMap constant? := by
        rw [List.filterMap_map]
        exact List.filterMap_congr fun c _ => constant?_plain c
      rw [plain_multiply, coefficient_multiply, coefficient_multiply, hconstants]
  | _ => rfl

/-! ## Growth terms -/

/-- How a factor is shown before the logarithms, if it is. -/
def mainText? : Cost × String → Option String
  | (constant _, _) | (logarithmic _ _, _) => none
  | (add _, text) => some ("(" ++ text ++ ")")
  | (_, text) => some text

/-- How a factor is shown among the logarithms, if it is one. -/
def logText? : Cost × String → Option String
  | (logarithmic _ _, text) => some text
  | _ => none

/-- The text of a product from the texts that stand before and among its logarithms. -/
def joinTexts (main logs : List String) : String :=
  match main.isEmpty, logs.isEmpty with
  | true, true => "1"
  | true, false => String.intercalate " " logs
  | false, true => String.intercalate "*" main
  | false, false => String.intercalate "*" main ++ " " ++ String.intercalate " " logs

theorem filterMap_mainText? (parts : List (Cost × String)) :
    (((parts.filter fun p => !p.1 matches constant _).filter
      fun p => !p.1 matches logarithmic _ _).map
        fun p => if p.1 matches add _ then "(" ++ p.2 ++ ")" else p.2) =
      parts.filterMap mainText? := by
  induction parts with
  | nil => rfl
  | cons p parts ih =>
      obtain ⟨c, text⟩ := p
      cases c <;> first | exact ih | exact congrArg (List.cons _) ih

theorem filterMap_logText? (parts : List (Cost × String)) :
    (((parts.filter fun p => !p.1 matches constant _).filter
      fun p => p.1 matches logarithmic _ _).map (·.2)) = parts.filterMap logText? := by
  induction parts with
  | nil => rfl
  | cons p parts ih =>
      obtain ⟨c, text⟩ := p
      cases c <;> first | exact ih | exact congrArg (List.cons _) ih

theorem productText_eq (parts : List (Cost × String)) :
    productText parts = joinTexts (parts.filterMap mainText?) (parts.filterMap logText?) := by
  rw [← filterMap_mainText?, ← filterMap_logText?]
  rfl

theorem productText_map_plain (parts : List (Cost × String)) :
    productText (parts.map fun p => (p.1.plain, p.2)) = productText parts := by
  have hmain (p : Cost × String) : mainText? (p.1.plain, p.2) = mainText? p := by
    obtain ⟨c, text⟩ := p
    cases c <;> rfl
  have hlogs (p : Cost × String) : logText? (p.1.plain, p.2) = logText? p := by
    obtain ⟨c, text⟩ := p
    cases c <;> rfl
  rw [productText_eq, productText_eq, List.filterMap_map, List.filterMap_map]
  exact congrArg₂ joinTexts (List.filterMap_congr fun p _ => hmain p)
    (List.filterMap_congr fun p _ => hlogs p)

theorem growthTerm_plain (c : Cost) : c.plain.growthTerm = c.growthTerm := by
  induction c using Cost.induction with
  | multiply fs ih =>
      have hterms :
          growthTerms (fs.map plain) = (growthTerms fs).map fun p => (p.1.plain, p.2) := by
        rw [growthTerms_eq, growthTerms_eq, List.map_map, List.map_map]
        exact List.map_congr_left fun f hf => by simp [ih f hf]
      rw [plain_multiply, growthTerm, growthTerm, hterms, productText_map_plain]
  | add ts ih =>
      have hterms : (growthTerms (ts.map plain)).map (·.2) = (growthTerms ts).map (·.2) := by
        rw [growthTerms_eq, growthTerms_eq, List.map_map, List.map_map, List.map_map]
        exact List.map_congr_left fun t ht => ih t ht
      rw [plain_add, growthTerm, growthTerm, hterms]
  | _ => rfl

/-! ## Reduction -/

theorem plain_power (q : String × UInt32) : (power q.1 q.2).plain = power q.1 q.2 := by
  unfold power
  split <;> rfl

theorem parts_map_plain (fs : List Cost) :
    parts (fs.map plain) = { parts fs with others := (parts fs).others.map plain } := by
  have hothers : (fs.map plain).filter isOther = (fs.filter isOther).map plain := by
    rw [List.filter_map]
    exact congrArg (List.map plain) (List.filter_congr fun c _ => isOther_plain c)
  have hconstants : (fs.map plain).filterMap constant? = fs.filterMap constant? := by
    rw [List.filterMap_map]
    exact List.filterMap_congr fun c _ => constant?_plain c
  have hpowers : (fs.map plain).filterMap power? = fs.filterMap power? := by
    rw [List.filterMap_map]
    exact List.filterMap_congr fun c _ => power?_plain c
  rw [parts_eq, parts_eq, hothers, hconstants, hpowers]

theorem plain_ofFactors (fs : List Cost) : (ofFactors fs).plain = ofFactors (fs.map plain) := by
  match fs with
  | [] => rfl
  | [f] => rfl
  | f :: g :: fs => exact plain_multiply _

theorem plain_ofTerms (ts : List Cost) : (ofTerms ts).plain = ofTerms (ts.map plain) := by
  match ts with
  | [] => rfl
  | [t] => rfl
  | t :: u :: ts => exact plain_add _

theorem combineProduct_map_plain (cs : List Cost) :
    combineProduct (cs.map plain) = (combineProduct cs).plain := by
  have hflat : (cs.map plain).flatMap factorsOf = (cs.flatMap factorsOf).map plain := by
    rw [List.flatMap_map, List.map_flatMap]
    exact List.flatMap_congr fun c _ => factorsOf_plain c
  rw [combineProduct_eq, combineProduct_eq, hflat, parts_map_plain, plain_ofFactors,
    ProductParts.factors, ProductParts.factors, List.map_append, List.map_append, List.map_map]
  have hpowers : (parts (cs.flatMap factorsOf)).powers.map (plain ∘ fun q => power q.1 q.2) =
      (parts (cs.flatMap factorsOf)).powers.map fun q => power q.1 q.2 :=
    List.map_congr_left fun q _ => plain_power q
  rw [hpowers]
  split <;> rfl

theorem flatMap_termsOf_map_plain (cs : List Cost) :
    (cs.map plain).flatMap termsOf = (cs.flatMap termsOf).map plain := by
  rw [List.flatMap_map, List.map_flatMap]
  exact List.flatMap_congr fun c _ => termsOf_plain c

theorem dominant_map_plain (cs : List Cost) :
    dominant (cs.map plain) = (dominant cs).map plain := by
  have hranks (ts : List Cost) : (ts.map plain).map rank = ts.map rank := by
    rw [List.map_map]
    exact List.map_congr_left fun t _ => rank_plain t
  rw [dominant_eq, dominant_eq, flatMap_termsOf_map_plain, hranks, ofRank, ofRank, List.filter_map]
  exact congrArg (List.map plain) (List.filter_congr fun t _ => by
    rw [Function.comp_apply, rank_plain])

theorem kept_map_plain (cs : List Cost) : kept (cs.map plain) = (kept cs).map plain := by
  have hlarger (k t : Cost) : larger k.plain t.plain = (larger k t).plain := by
    rw [larger, larger, coefficient_plain, coefficient_plain, apply_ite plain]
  rw [kept, kept, dominant_map_plain]
  exact Keyed.collect_map growthTerm_plain hlarger [] _

theorem combineSum_map_plain (cs : List Cost) :
    combineSum (cs.map plain) = (combineSum cs).plain := by
  rw [combineSum_eq, combineSum_eq, kept_map_plain, flatMap_termsOf_map_plain]
  simp only [List.map_eq_nil_iff]
  split
  · rfl
  · exact (plain_ofTerms _).symm

/-- Reduction does not look at what a plain expression forgets. -/
theorem reduce_plain (c : Cost) : c.plain.reduce = c.reduce.plain := by
  induction c using Cost.induction with
  | multiply fs ih =>
      have hparts : (fs.map plain).map reduce = (fs.map reduce).map plain := by
        rw [List.map_map, List.map_map]
        exact List.map_congr_left ih
      rw [plain_multiply, reduce_multiply, reduce_multiply, hparts, combineProduct_map_plain]
  | add ts ih =>
      have hparts : (ts.map plain).map reduce = (ts.map reduce).map plain := by
        rw [List.map_map, List.map_map]
        exact List.map_congr_left ih
      rw [plain_add, reduce_add, reduce_add, hparts, combineSum_map_plain]
  | polynomial degree size =>
      have hself : (polynomial degree size).plain = polynomial degree size := rfl
      rw [hself, reduce]
      split
      · rfl
      · split <;> rfl
  | _ => rfl

theorem Rearranged.plain {c d : Cost} (h : Rearranged c d) : Rearranged c.plain d.plain := by
  induction c using Cost.induction generalizing d with
  | multiply fs ih =>
      cases h with
      | refl => exact .refl _
      | multiply h =>
          rw [plain_multiply, plain_multiply]
          exact .multiply (RearrangedAll.map h fun f hf _ _ => ih f hf)
  | add ts ih =>
      cases h with
      | refl => exact .refl _
      | add h =>
          rw [plain_add, plain_add]
          exact .add (RearrangedAll.map h fun t ht _ _ => ih t ht)
  | _ =>
      cases h
      exact .refl _

end Cost

end CodeProfile
