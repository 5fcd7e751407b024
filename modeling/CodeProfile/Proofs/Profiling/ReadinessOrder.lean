import CodeProfile.Proofs.Number.Exact
import CodeProfile.Readiness

/-!
# Readiness falls as a snippet gets worse

Facts are at least as bad as others if every count and every flag that
speaks against the snippet is at least as large and every confidence at most
as large (`AtLeastAsBad`). Read in exact arithmetic, readiness goes down
along this order, layer by layer. Every penalty goes up (`weightIf_mono`,
`capped_mono`, `cyclomaticPenalty_mono`), so that clarity, completeness and
sufficiency go down and risk goes up. The scores weigh the first three and
what is left of one without the risk (`weighed_mono`). Each layer is brought
into the unit range and rounded, both of which keep the order. The headline
is `scores_antitone`.
-/

namespace CodeProfile

namespace ReadinessFacts

/-- The second facts, for the same number of functions, speak at least as
much against the snippet as the first. -/
structure AtLeastAsBad (a b : ReadinessFacts ℚ) : Prop where
  functions : b.functions = a.functions
  maxNesting : a.maxNesting ≤ b.maxNesting
  cyclomatic : a.cyclomatic ≤ b.cyclomatic
  syntaxErrors : a.syntaxErrors ≤ b.syntaxErrors
  nonEmptyLines : a.nonEmptyLines ≤ b.nonEmptyLines
  localImports : a.localImports ≤ b.localImports
  thirdPartyImports : a.thirdPartyImports ≤ b.thirdPartyImports
  readsEnvironment : a.readsEnvironment = true → b.readsEnvironment = true
  hasSideEffects : a.hasSideEffects = true → b.hasSideEffects = true
  hasInputOutput : a.hasInputOutput = true → b.hasInputOutput = true
  isDeterministic : b.isDeterministic = true → a.isDeterministic = true
  isAsync : a.isAsync = true → b.isAsync = true
  isExponential : a.isExponential = true → b.isExponential = true
  languageConfidence : b.languageConfidence ≤ a.languageConfidence
  paradigmConfidence : b.paradigmConfidence ≤ a.paradigmConfidence
  codeTypeConfidence : b.codeTypeConfidence ≤ a.codeTypeConfidence
  complexityConfidence : b.complexityConfidence ≤ a.complexityConfidence
  runnability : b.runnability ≤ a.runnability

variable {a b : ReadinessFacts ℚ}

/-! ## Penalties -/

theorem weightIf_mono {p q : Bool} {w : ℚ} (h : p = true → q = true) (hw : 0 ≤ w) :
    weightIf p w ≤ weightIf q w := by
  have hzero : (0.0 : ℚ) = 0 := by norm_num
  rw [weightIf, weightIf, hzero]
  split_ifs with hp hq hq
  · exact le_refl w
  · exact absurd (h hp) hq
  · exact hw
  · exact le_refl 0

/-- The penalty for many ways through a function rises from nought at the
limit up to its cap. -/
theorem cyclomaticPenalty_eq (f : ReadinessFacts ℚ) : f.cyclomaticPenalty
    = max 0 (min (1 / 20 * ((f.cyclomatic : ℚ) / (max f.functions 1 : ℕ) - 10)) (3 / 10)) := by
  have hlimit : (cyclomaticLimit : ℚ) = 10 := by norm_num [cyclomaticLimit]
  have hshare : (Metrics.perFunction f.cyclomatic f.functions : ℚ)
      = (f.cyclomatic : ℚ) / (max f.functions 1 : ℕ) := rfl
  simp only [cyclomaticPenalty, hlimit, hshare, Scalar.least_eq_min]
  split_ifs with hover
  · have hpos : 0 ≤ min (1 / 20 * ((f.cyclomatic : ℚ) / (max f.functions 1 : ℕ) - 10)) (3 / 10) :=
      le_min (by linarith) (by norm_num)
    rw [max_eq_right hpos]
    norm_num
  · have hneg : min (1 / 20 * ((f.cyclomatic : ℚ) / (max f.functions 1 : ℕ) - 10)) (3 / 10) ≤ 0 :=
      (min_le_left ..).trans (by linarith)
    rw [max_eq_left hneg]
    norm_num

theorem cyclomaticPenalty_mono (hfunctions : b.functions = a.functions)
    (h : a.cyclomatic ≤ b.cyclomatic) : a.cyclomaticPenalty ≤ b.cyclomaticPenalty := by
  rw [cyclomaticPenalty_eq, cyclomaticPenalty_eq, hfunctions]
  gcongr

/-- A penalty for each of some things, up to a cap, rises with their number. -/
theorem capped_mono {m n : ℕ} (h : m ≤ n) (each cap : ℚ) (heach : 0 ≤ each) :
    Scalar.least (each * Scalar.ofNat m) cap ≤ Scalar.least (each * Scalar.ofNat n) cap := by
  rw [Scalar.least_eq_min, Scalar.least_eq_min, Scalar.ofNat_eq, Scalar.ofNat_eq]
  gcongr

/-! ## Factors -/

theorem structuralClarity_antitone (h : a.AtLeastAsBad b) :
    b.structuralClarity ≤ a.structuralClarity := by
  have hnesting : (0.1 : ℚ) * Scalar.ofNat (a.maxNesting - nestingLimit)
      ≤ 0.1 * Scalar.ofNat (b.maxNesting - nestingLimit) := by
    have hle := Nat.sub_le_sub_right h.maxNesting nestingLimit
    rw [Scalar.ofNat_eq, Scalar.ofNat_eq]
    gcongr
  have hcyclomatic := cyclomaticPenalty_mono h.functions h.cyclomatic
  have herrors := capped_mono h.syntaxErrors 0.2 0.6 (by norm_num)
  have hlines := weightIf_mono (w := 0.2)
    (p := a.functions == 0 && unstructuredLimit < a.nonEmptyLines)
    (q := b.functions == 0 && unstructuredLimit < b.nonEmptyLines) (by
      simp only [Bool.and_eq_true, beq_iff_eq, decide_eq_true_eq, h.functions]
      exact fun hlong => ⟨hlong.1, hlong.2.trans_le h.nonEmptyLines⟩) (by norm_num)
  refine Scalar.clampUnit_mono ?_
  exact sub_le_sub (sub_le_sub (sub_le_sub (sub_le_sub_left hnesting _) hcyclomatic) herrors) hlines

theorem semanticCompleteness_antitone (h : a.AtLeastAsBad b) :
    b.semanticCompleteness ≤ a.semanticCompleteness := by
  have hsum := add_le_add (add_le_add (add_le_add h.languageConfidence h.paradigmConfidence)
    h.codeTypeConfidence) h.complexityConfidence
  exact Scalar.clampUnit_mono (div_le_div_of_nonneg_right hsum (by norm_num))

theorem contextSufficiency_antitone (h : a.AtLeastAsBad b) :
    b.contextSufficiency ≤ a.contextSufficiency := by
  have hlocal := capped_mono h.localImports 0.15 0.45 (by norm_num)
  have hthird := capped_mono h.thirdPartyImports 0.05 0.3 (by norm_num)
  have henvironment := weightIf_mono (w := 0.2) h.readsEnvironment (by norm_num)
  refine Scalar.clampUnit_mono ?_
  exact sub_le_sub (sub_le_sub (sub_le_sub_left hlocal _) hthird) henvironment

theorem risk_mono (h : a.AtLeastAsBad b) : a.risk ≤ b.risk := by
  have hchance : (!a.isDeterministic) = true → (!b.isDeterministic) = true := by
    simpa only [Bool.not_eq_true', ← Bool.not_eq_true] using mt h.isDeterministic
  have herrors : decide (0 < a.syntaxErrors) = true → decide (0 < b.syntaxErrors) = true := by
    simpa only [decide_eq_true_eq] using fun hpos => hpos.trans_le h.syntaxErrors
  refine Scalar.clampUnit_mono ?_
  refine add_le_add (add_le_add (add_le_add (add_le_add (add_le_add ?_ ?_) ?_) ?_) ?_) ?_
  · exact weightIf_mono h.hasSideEffects (by norm_num)
  · exact weightIf_mono h.hasInputOutput (by norm_num)
  · exact weightIf_mono hchance (by norm_num)
  · exact weightIf_mono h.isAsync (by norm_num)
  · exact weightIf_mono h.isExponential (by norm_num)
  · exact weightIf_mono herrors (by norm_num)

/-! ## Scores -/

theorem settle_mono {x y : ℚ} (h : x ≤ y) : settle x ≤ settle y :=
  Scalar.round2_mono (Scalar.clampUnit_mono h)

theorem settle_mem (x : ℚ) : settle x ∈ Set.Icc (0 : ℚ) 1 :=
  ⟨Scalar.round2_nonneg (Scalar.clampUnit_nonneg x),
    Scalar.round2_le_one (Scalar.clampUnit_le_one x)⟩

/-- The scores and what they are weighed from are in the unit range. -/
structure InUnit (x : ReadinessScores ℚ) : Prop where
  review : x.review ∈ Set.Icc (0 : ℚ) 1
  refactor : x.refactor ∈ Set.Icc (0 : ℚ) 1
  execution : x.execution ∈ Set.Icc (0 : ℚ) 1
  structuralClarity : x.factors.structuralClarity ∈ Set.Icc (0 : ℚ) 1
  semanticCompleteness : x.factors.semanticCompleteness ∈ Set.Icc (0 : ℚ) 1
  contextSufficiency : x.factors.contextSufficiency ∈ Set.Icc (0 : ℚ) 1
  risk : x.factors.risk ∈ Set.Icc (0 : ℚ) 1

/-- Every factor is brought into the unit range before it is rounded, and so
is every score. -/
theorem inUnit_scores (f : ReadinessFacts ℚ) : InUnit f.scores :=
  { review := settle_mem _
    refactor := settle_mem _
    execution := settle_mem _
    structuralClarity := settle_mem _
    semanticCompleteness := settle_mem _
    contextSufficiency := settle_mem _
    risk := settle_mem _ }

/-- The second scores are at most the first, their factors too, and the risk
is at least as large. -/
structure NoBetter (x y : ReadinessScores ℚ) : Prop where
  review : y.review ≤ x.review
  refactor : y.refactor ≤ x.refactor
  execution : y.execution ≤ x.execution
  structuralClarity : y.factors.structuralClarity ≤ x.factors.structuralClarity
  semanticCompleteness : y.factors.semanticCompleteness ≤ x.factors.semanticCompleteness
  contextSufficiency : y.factors.contextSufficiency ≤ x.factors.contextSufficiency
  risk : x.factors.risk ≤ y.factors.risk

/-- A weighed sum of factors and of what is left of one without the risk
goes down with them. -/
theorem weighed_mono {x y : ReadinessFactors ℚ} {u v w z : ℚ} (hu : 0 ≤ u) (hv : 0 ≤ v)
    (hw : 0 ≤ w) (hz : 0 ≤ z) (hclarity : y.structuralClarity ≤ x.structuralClarity)
    (hcompleteness : y.semanticCompleteness ≤ x.semanticCompleteness)
    (hsufficiency : y.contextSufficiency ≤ x.contextSufficiency) (hrisk : x.risk ≤ y.risk) :
    u * y.structuralClarity + v * y.semanticCompleteness + w * y.contextSufficiency
        + z * (1.0 - y.risk)
      ≤ u * x.structuralClarity + v * x.semanticCompleteness + w * x.contextSufficiency
        + z * (1.0 - x.risk) := by
  gcongr

/-- Readiness does not get better as the facts get worse, and all of it stays
in the unit range. -/
theorem scores_antitone (h : a.AtLeastAsBad b) :
    NoBetter a.scores b.scores ∧ InUnit a.scores ∧ InUnit b.scores := by
  have hclarity : b.factors.structuralClarity ≤ a.factors.structuralClarity :=
    Scalar.round2_mono (structuralClarity_antitone h)
  have hcompleteness : b.factors.semanticCompleteness ≤ a.factors.semanticCompleteness :=
    Scalar.round2_mono (semanticCompleteness_antitone h)
  have hsufficiency : b.factors.contextSufficiency ≤ a.factors.contextSufficiency :=
    Scalar.round2_mono (contextSufficiency_antitone h)
  have hrisk : a.factors.risk ≤ b.factors.risk := Scalar.round2_mono (risk_mono h)
  have hweighed {u v w z : ℚ} (hu : 0 ≤ u) (hv : 0 ≤ v) (hw : 0 ≤ w) (hz : 0 ≤ z) :=
    weighed_mono hu hv hw hz hclarity hcompleteness hsufficiency hrisk
  refine ⟨?_, inUnit_scores a, inUnit_scores b⟩
  constructor
  case review =>
    exact settle_mono (hweighed (by norm_num) (by norm_num) (by norm_num) (by norm_num))
  case refactor =>
    exact settle_mono (hweighed (by norm_num) (by norm_num) (by norm_num) (by norm_num))
  case execution =>
    have hrun : (0.2 : ℚ) * b.runnability ≤ 0.2 * a.runnability :=
      mul_le_mul_of_nonneg_left h.runnability (by norm_num)
    exact settle_mono (add_le_add
      (hweighed (by norm_num) (by norm_num) (by norm_num) (by norm_num)) hrun)
  case structuralClarity => exact hclarity
  case semanticCompleteness => exact hcompleteness
  case contextSufficiency => exact hsufficiency
  case risk => exact hrisk

/-- Ten lines that compute, told with certainty. -/
def tidyFacts : ReadinessFacts ℚ :=
  { maxNesting := 0, cyclomatic := 1, functions := 0, nonEmptyLines := 10, syntaxErrors := 0
    localImports := 0, thirdPartyImports := 0, readsEnvironment := false, hasSideEffects := false
    hasInputOutput := false, isDeterministic := true, isAsync := false, isExponential := false
    languageConfidence := 1, paradigmConfidence := 1, codeTypeConfidence := 1
    complexityConfidence := 1, runnability := 1 }

/-- As many lines and more, which depend on a local module, on chance, and on
what the two syntax errors were meant to be. -/
def messyFacts : ReadinessFacts ℚ :=
  { tidyFacts with
    maxNesting := 5, cyclomatic := 12, nonEmptyLines := 31, syntaxErrors := 2, localImports := 1
    isDeterministic := false, languageConfidence := 1 / 10, runnability := 1 / 2 }

theorem scores_antitone_messy : tidyFacts.AtLeastAsBad messyFacts
    ∧ messyFacts.scores.review < tidyFacts.scores.review
    ∧ NoBetter tidyFacts.scores messyFacts.scores
    ∧ InUnit tidyFacts.scores ∧ InUnit messyFacts.scores := by
  have hworse : tidyFacts.AtLeastAsBad messyFacts := by
    constructor <;> decide +kernel
  exact ⟨hworse, by decide +kernel, scores_antitone hworse⟩

end ReadinessFacts

end CodeProfile
