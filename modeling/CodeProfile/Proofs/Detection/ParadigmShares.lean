import CodeProfile.Paradigm
import CodeProfile.Proofs.Number.Exact
import CodeProfile.Proofs.Number.Ranking

/-!
# Shares of paradigms

The weighed evidence for the three paradigms is never negative, and together
it is nought exactly if there is no evidence at all (`total_eq_zero_iff`):
mutations count against the functional style, but what they take away there
they add to the procedural one. So with any evidence the shares are parts of
a hundred (`normalized?_eq_some`), and the report reads them off in order:
the first best paradigm, the first best of the others if its share is high
enough, and a confidence that is cut to two decimals (`ofCounts_eq`).

More classes raise the object-oriented weight and nothing else, hence its
share (`objectOrientedShare_mono`). The headline is `paradigm_normalised`.
All of it is read in exact arithmetic.
-/

namespace CodeProfile

variable {c : PatternCounts ℚ} {l : Language} {s : ParadigmScores ℚ}

/-! ## Weights -/

/-- Nothing was counted. -/
def PatternCounts.NoEvidence (c : PatternCounts ℚ) : Prop :=
  c.classes = 0 ∧ c.functions = 0 ∧ c.methods = 0 ∧ c.loops = 0 ∧ c.lambdas = 0
    ∧ c.higherOrderFunctions = 0 ∧ c.arrayCombinators = 0 ∧ c.mutations = 0
    ∧ c.sideEffectCalls = 0 ∧ c.receiverReferences = 0 ∧ c.inheritance = 0
    ∧ c.topLevelStatements = 0 ∧ c.pureFunctions = 0

namespace ParadigmScores

/-- The three scores together. -/
def total (s : ParadigmScores ℚ) : ℚ := s.objectOriented + s.functional + s.procedural

/-- What speaks for objects, before the language is taken into account. -/
def objectWeight (c : PatternCounts ℚ) : ℚ :=
  3 * c.classes + 3 / 2 * c.methods + 2 * c.inheritance
    + 1 / 2 * (min c.receiverReferences 10 : ℕ)

def functionalWeight (c : PatternCounts ℚ) : ℚ :=
  max (2 * c.pureFunctions + 5 / 2 * c.higherOrderFunctions + 3 / 2 * c.arrayCombinators
    + c.lambdas - 1 / 2 * c.mutations) 0

def proceduralWeight (c : PatternCounts ℚ) : ℚ :=
  c.freeFunctions + c.loops + 1 / 2 * c.mutations + 1 / 2 * c.sideEffectCalls
    + 1 / 2 * c.topLevelStatements

theorem weigh_eq (c : PatternCounts ℚ) (l : Language) : weigh c l =
    ⟨objectWeight c * (multipliers l).objectOriented,
      functionalWeight c * (multipliers l).functional,
      proceduralWeight c * (multipliers l).procedural⟩ := by
  simp only [weigh, Scalar.ofNat_eq, Scalar.greatest_eq_max, objectWeight, functionalWeight,
    proceduralWeight]
  norm_num

theorem multipliers_pos (l : Language) : 0 < (multipliers l : ParadigmScores ℚ).objectOriented
    ∧ 0 < (multipliers l : ParadigmScores ℚ).functional
    ∧ 0 < (multipliers l : ParadigmScores ℚ).procedural := by
  cases l <;> norm_num [multipliers]

theorem objectWeight_nonneg (c : PatternCounts ℚ) : 0 ≤ objectWeight c := by
  rw [objectWeight]
  positivity

theorem functionalWeight_nonneg (c : PatternCounts ℚ) : 0 ≤ functionalWeight c := le_max_right ..

theorem proceduralWeight_nonneg (c : PatternCounts ℚ) : 0 ≤ proceduralWeight c := by
  rw [proceduralWeight]
  positivity

theorem weigh_nonneg (c : PatternCounts ℚ) (l : Language) : 0 ≤ (weigh c l).objectOriented
    ∧ 0 ≤ (weigh c l).functional ∧ 0 ≤ (weigh c l).procedural := by
  obtain ⟨hobject, hfunctional, hprocedural⟩ := multipliers_pos l
  rw [weigh_eq]
  exact ⟨mul_nonneg (objectWeight_nonneg c) hobject.le,
    mul_nonneg (functionalWeight_nonneg c) hfunctional.le,
    mul_nonneg (proceduralWeight_nonneg c) hprocedural.le⟩

theorem objectWeight_eq_zero_iff : objectWeight c = 0 ↔
    c.classes = 0 ∧ c.methods = 0 ∧ c.inheritance = 0 ∧ c.receiverReferences = 0 := by
  constructor
  · intro h
    have hdouble : 2 * objectWeight c = ((6 * c.classes + 3 * c.methods + 4 * c.inheritance
        + min c.receiverReferences 10 : ℕ) : ℚ) := by
      rw [objectWeight]
      push_cast
      ring
    rw [h, mul_zero, eq_comm, Nat.cast_eq_zero] at hdouble
    omega
  · rintro ⟨hclasses, hmethods, hinheritance, hreferences⟩
    simp [objectWeight, hclasses, hmethods, hinheritance, hreferences]

theorem proceduralWeight_eq_zero_iff : proceduralWeight c = 0 ↔
    c.freeFunctions = 0 ∧ c.loops = 0 ∧ c.mutations = 0 ∧ c.sideEffectCalls = 0
      ∧ c.topLevelStatements = 0 := by
  constructor
  · intro h
    have hdouble : 2 * proceduralWeight c = ((2 * c.freeFunctions + 2 * c.loops + c.mutations
        + c.sideEffectCalls + c.topLevelStatements : ℕ) : ℚ) := by
      rw [proceduralWeight]
      push_cast
      ring
    rw [h, mul_zero, eq_comm, Nat.cast_eq_zero] at hdouble
    omega
  · rintro ⟨hfunctions, hloops, hmutations, hcalls, hstatements⟩
    simp [proceduralWeight, hfunctions, hloops, hmutations, hcalls, hstatements]

/-- Without mutations everything that is counted speaks for a functional style. -/
theorem functionalWeight_eq_zero_iff (hpure : 0 ≤ c.pureFunctions) (hmutations : c.mutations = 0) :
    functionalWeight c = 0 ↔ c.pureFunctions = 0 ∧ c.higherOrderFunctions = 0
      ∧ c.arrayCombinators = 0 ∧ c.lambdas = 0 := by
  constructor
  · intro h
    have hmost := max_eq_right_iff.mp h
    rw [hmutations] at hmost
    have hhigher : (0 : ℚ) ≤ c.higherOrderFunctions := Nat.cast_nonneg _
    have hcombinators : (0 : ℚ) ≤ c.arrayCombinators := Nat.cast_nonneg _
    have hlambdas : (0 : ℚ) ≤ c.lambdas := Nat.cast_nonneg _
    push_cast at hmost
    refine ⟨by linarith, ?_, ?_, ?_⟩ <;> rw [← Nat.cast_eq_zero (R := ℚ)] <;> linarith
  · rintro ⟨hnone, hhigher, hcombinators, hlambdas⟩
    simp [functionalWeight, hnone, hhigher, hcombinators, hlambdas, hmutations]

/-- Only no evidence at all has no weight. -/
theorem total_eq_zero_iff (hpure : 0 ≤ c.pureFunctions) (l : Language) :
    (weigh c l).total = 0 ↔ c.NoEvidence := by
  obtain ⟨hobject, hfunctional, hprocedural⟩ := multipliers_pos l
  have hnonneg := weigh_nonneg c l
  have hparts : (weigh c l).total = 0 ↔
      objectWeight c = 0 ∧ functionalWeight c = 0 ∧ proceduralWeight c = 0 := by
    rw [weigh_eq] at hnonneg ⊢
    constructor
    · intro h
      rw [total] at h
      refine ⟨?_, ?_, ?_⟩
      · exact (mul_eq_zero.mp (by linarith)).resolve_right hobject.ne'
      · exact (mul_eq_zero.mp (by linarith)).resolve_right hfunctional.ne'
      · exact (mul_eq_zero.mp (by linarith)).resolve_right hprocedural.ne'
    · rintro ⟨hfirst, hsecond, hthird⟩
      simp [total, hfirst, hsecond, hthird]
  rw [hparts, objectWeight_eq_zero_iff, proceduralWeight_eq_zero_iff, PatternCounts.NoEvidence,
    PatternCounts.freeFunctions]
  constructor
  · rintro ⟨hobject, hfunctional, hprocedural⟩
    have hrest := (functionalWeight_eq_zero_iff hpure hprocedural.2.2.1).mp hfunctional
    refine ⟨?_, ?_, ?_, ?_, ?_, ?_, ?_, ?_, ?_, ?_, ?_, ?_, hrest.1⟩ <;> omega
  · intro h
    refine ⟨by omega, (functionalWeight_eq_zero_iff hpure ?_).mpr ?_, by omega⟩
    · omega
    · exact ⟨h.2.2.2.2.2.2.2.2.2.2.2.2, by omega, by omega, by omega⟩

/-! ## Parts of a hundred -/

theorem normalized?_eq (c : PatternCounts ℚ) (l : Language) : normalized? c l =
    if (weigh c l).total = 0 then none
    else some ⟨(weigh c l).objectOriented / (weigh c l).total * 100,
      (weigh c l).functional / (weigh c l).total * 100,
      (weigh c l).procedural / (weigh c l).total * 100⟩ := by
  obtain ⟨hobject, hfunctional, hprocedural⟩ := weigh_nonneg c l
  have hnonneg : 0 ≤ (weigh c l).total := by
    rw [total]
    positivity
  have hzero : (weigh c l).total ≤ 0.0 ↔ (weigh c l).total = 0 := by
    rw [show (0.0 : ℚ) = 0 by norm_num]
    exact ⟨fun h => le_antisymm h hnonneg, fun h => h.le⟩
  rw [← if_congr hzero rfl rfl, ← show (100.0 : ℚ) = 100 by norm_num]
  rfl

theorem normalized?_eq_none_iff (hpure : 0 ≤ c.pureFunctions) :
    normalized? c l = none ↔ c.NoEvidence := by
  rw [normalized?_eq, ← total_eq_zero_iff hpure l]
  simp

/-- The scores are no less than nought and add up to a hundred. -/
structure Normal (s : ParadigmScores ℚ) : Prop where
  objectOriented : 0 ≤ s.objectOriented
  functional : 0 ≤ s.functional
  procedural : 0 ≤ s.procedural
  total_eq : s.total = 100

theorem normal_of_normalized? (h : normalized? c l = some s) : s.Normal := by
  obtain ⟨hobject, hfunctional, hprocedural⟩ := weigh_nonneg c l
  rw [normalized?_eq] at h
  split at h
  · cases h
  · next hne =>
      obtain rfl := Option.some.inj h
      have hnonneg : 0 ≤ (weigh c l).total := by
        rw [total]
        positivity
      refine ⟨by positivity, by positivity, by positivity, ?_⟩
      rw [total, ← add_mul, ← add_mul, ← add_div, ← add_div]
      rw [show (weigh c l).objectOriented + (weigh c l).functional + (weigh c l).procedural
        = (weigh c l).total from rfl, div_self hne, one_mul]

theorem Normal.mem_toList (h : s.Normal) {p : Paradigm × ℚ} (hp : p ∈ s.toList) :
    0 ≤ p.2 ∧ p.2 ≤ 100 := by
  obtain ⟨hobject, hfunctional, hprocedural, htotal⟩ := h
  rw [total] at htotal
  simp only [toList, List.mem_cons, List.not_mem_nil, or_false] at hp
  rcases hp with rfl | rfl | rfl <;> constructor <;> linarith

/-- The part of a hundred that speaks for objects; nought without evidence. -/
def objectOrientedShare (c : PatternCounts ℚ) (l : Language) : ℚ :=
  ((normalized? c l).map (·.objectOriented)).getD 0

theorem objectOrientedShare_eq (c : PatternCounts ℚ) (l : Language) : objectOrientedShare c l
    = (weigh c l).objectOriented / (weigh c l).total * 100 := by
  rw [objectOrientedShare, normalized?_eq]
  split
  · next hzero => simp [hzero]
  · rfl

/-- More classes, with all else equal, do not lower the share of objects. -/
theorem objectOrientedShare_mono {n : ℕ} (h : c.classes ≤ n) :
    objectOrientedShare c l ≤ objectOrientedShare { c with classes := n } l := by
  obtain ⟨hmultiplier, -⟩ := multipliers_pos l
  obtain ⟨hobject, hfunctional, hprocedural⟩ := weigh_nonneg c l
  have hmore : (weigh c l).objectOriented ≤ (weigh { c with classes := n } l).objectOriented := by
    rw [weigh_eq, weigh_eq]
    dsimp only [objectWeight]
    gcongr
  have hrest : (weigh { c with classes := n } l).functional = (weigh c l).functional
      ∧ (weigh { c with classes := n } l).procedural = (weigh c l).procedural := ⟨rfl, rfl⟩
  rw [objectOrientedShare_eq, objectOrientedShare_eq, total, total, hrest.1, hrest.2]
  generalize (weigh { c with classes := n } l).objectOriented = more at hmore
  -- without weight for objects the share starts from nought
  rcases hobject.eq_or_lt with hzero | hpos
  · have hnonneg : 0 ≤ more := hobject.trans hmore
    rw [← hzero, zero_div, zero_mul]
    positivity
  · have hmorepos : 0 < more := hpos.trans_le hmore
    have hfrac : (weigh c l).objectOriented
          / ((weigh c l).objectOriented + (weigh c l).functional + (weigh c l).procedural)
        ≤ more / (more + (weigh c l).functional + (weigh c l).procedural) := by
      rw [div_le_div_iff₀ (by positivity) (by positivity)]
      nlinarith [mul_le_mul_of_nonneg_right hmore (add_nonneg hfunctional hprocedural)]
    exact mul_le_mul_of_nonneg_right hfrac (by norm_num)

/-! ## The ranking -/

/-- The score of a paradigm; the unknown one has none. -/
def scoreOf (s : ParadigmScores ℚ) : Paradigm → ℚ
  | .objectOriented => s.objectOriented
  | .functional => s.functional
  | .procedural => s.procedural
  | .unknown => 0

/-- The first of two entries has at least the score of the second. -/
def scoresNoLess (a b : Paradigm × ℚ) : Bool := decide (b.2 ≤ a.2)

theorem snd_eq_scoreOf {p : Paradigm × ℚ} (hp : p ∈ s.toList) : p.2 = s.scoreOf p.1 := by
  simp only [toList, List.mem_cons, List.not_mem_nil, or_false] at hp
  rcases hp with rfl | rfl | rfl <;> rfl

theorem known_of_mem_toList {p : Paradigm × ℚ} (hp : p ∈ s.toList) : p.1 ≠ .unknown := by
  simp only [toList, List.mem_cons, List.not_mem_nil, or_false] at hp
  rcases hp with rfl | rfl | rfl <;> simp

theorem nodup_names (s : ParadigmScores ℚ) : (s.toList.map (·.1)).Nodup := by
  show [Paradigm.objectOriented, .functional, .procedural].Nodup
  decide

theorem exists_ranked (s : ParadigmScores ℚ) : ∃ best second rest,
    s.ranked = best :: second :: rest := by
  have hlength : s.ranked.length = 3 := (List.mergeSort_perm _ _).length_eq
  match hranked : s.ranked with
  | [] | [_] => rw [hranked] at hlength; cases hlength
  | best :: second :: rest => exact ⟨best, second, rest, rfl⟩

section

variable {best second : Paradigm × ℚ} {rest : List (Paradigm × ℚ)}

theorem ranked_perm (hranked : s.ranked = best :: second :: rest) :
    (best :: second :: rest).Perm s.toList :=
  hranked ▸ List.mergeSort_perm s.toList _

theorem firstBest_of_suffix (above : List (Paradigm × ℚ)) {below part : List (Paradigm × ℚ)}
    (hranked : s.ranked = above ++ best :: below) (hpart : part.Sublist s.toList)
    (hperm : part.Perm (best :: below)) : FirstBest scoresNoLess best part := by
  have hnodup : s.toList.Nodup :=
    List.Pairwise.of_map _ (fun _ _ hne heq => hne (heq ▸ rfl)) (nodup_names s)
  refine firstBest_of_ranked ?_ ?_ hnodup hranked hpart hperm
  · intro a b c hab hbc
    simp only [scoresNoLess, decide_eq_true_eq] at *
    exact hbc.trans hab
  · intro a b
    simp only [scoresNoLess, Bool.or_eq_true, decide_eq_true_eq]
    exact le_total b.2 a.2

/-- The best entry is the first best of all. -/
theorem firstBest_best (hranked : s.ranked = best :: second :: rest) :
    FirstBest scoresNoLess best s.toList :=
  firstBest_of_suffix [] hranked (List.Sublist.refl _) (ranked_perm hranked).symm

/-- The second entry is the first best of those that are not the best. -/
theorem firstBest_second (hranked : s.ranked = best :: second :: rest) :
    FirstBest scoresNoLess second (s.toList.filter (·.1 != best.1)) ∧ second.1 ≠ best.1 := by
  have hnames : ((best :: second :: rest).map (·.1)).Nodup :=
    ((ranked_perm hranked).map _).nodup_iff.mpr (nodup_names s)
  have hothers : ∀ e ∈ second :: rest, (e.1 != best.1) = true := by
    intro e he
    have hne := (List.nodup_cons.mp hnames).1
    refine bne_iff_ne.mpr fun heq => hne ?_
    show best.1 ∈ (second :: rest).map (·.1)
    exact heq ▸ List.mem_map_of_mem he
  have hperm : (s.toList.filter (·.1 != best.1)).Perm (second :: rest) := by
    have hfiltered := (ranked_perm hranked).symm.filter (·.1 != best.1)
    rwa [List.filter_cons_of_neg (by simp), List.filter_eq_self.mpr hothers] at hfiltered
  exact ⟨firstBest_of_suffix [best] hranked List.filter_sublist hperm,
    bne_iff_ne.mp (hothers second List.mem_cons_self)⟩

end

end ParadigmScores

/-! ## The report -/

namespace ParadigmReport

open ParadigmScores

theorem evidenceFactor_mem (total : ℕ) :
    0 ≤ (evidenceFactor total : ℚ) ∧ (evidenceFactor total : ℚ) ≤ 1 := by
  rw [evidenceFactor]
  split_ifs <;> norm_num

/-- What the report says of shares, the evidence being of this extent. -/
structure ReadsOff (r : ParadigmReport ℚ) (s : ParadigmScores ℚ) (evidence : ℕ) : Prop where
  /-- The primary paradigm is the first of those with the greatest share. -/
  primary : FirstBest scoresNoLess (r.primary, s.scoreOf r.primary) s.toList
  /-- The secondary one is the first best of the others, if its share is high enough. -/
  secondary : ∃ second,
    FirstBest scoresNoLess (second, s.scoreOf second) (s.toList.filter (·.1 != r.primary))
      ∧ r.secondary = if 20 ≤ s.scoreOf second ∧ 2 / 5 * s.scoreOf r.primary ≤ s.scoreOf second
          then some second else none
  secondary_ne : ∀ p ∈ r.secondary, p ≠ r.primary
  confidence_nonneg : 0 ≤ r.confidence
  confidence_le_one : r.confidence ≤ 1
  confidence_le : r.confidence ≤ s.scoreOf r.primary / 100 * evidenceFactor evidence
  lt_confidence : s.scoreOf r.primary / 100 * evidenceFactor evidence < r.confidence + 1 / 100

theorem ofCounts_eq_unknown (h : normalized? c l = none) :
    ofCounts c l = { unknown with counts := c } := by
  rw [ofCounts, h]

theorem ofCounts_eq {best second : Paradigm × ℚ} {rest : List (Paradigm × ℚ)}
    (h : normalized? c l = some s) (hranked : s.ranked = best :: second :: rest) :
    ofCounts c l =
      { primary := best.1
        secondary := if isSecondary best.2 second.2 then some second.1 else none
        confidence :=
          Scalar.floor2 (Scalar.clampUnit (best.2 / 100.0 * evidenceFactor c.structuralTotal))
        scores := ⟨Scalar.round2 s.objectOriented, Scalar.round2 s.functional,
          Scalar.round2 s.procedural⟩
        counts := c
        details := c.details } := by
  rw [ofCounts, h]
  dsimp only
  rw [hranked]

theorem isSecondary_iff {best second : ℚ} :
    isSecondary best second = true ↔ 20 ≤ second ∧ 2 / 5 * best ≤ second := by
  rw [isSecondary, Bool.and_eq_true, decide_eq_true_eq, decide_eq_true_eq,
    show (20.0 : ℚ) = 20 by norm_num, show (0.4 : ℚ) = 2 / 5 by norm_num]

/-- With evidence, the report reads off the shares. -/
theorem readsOff_ofCounts (h : normalized? c l = some s) :
    (ofCounts c l).ReadsOff s c.structuralTotal := by
  obtain ⟨best, second, rest, hranked⟩ := exists_ranked s
  have hbest := firstBest_best hranked
  obtain ⟨hsecond, hne⟩ := firstBest_second hranked
  have hbestScore := snd_eq_scoreOf hbest.mem
  have hsecondScore := snd_eq_scoreOf (List.mem_of_mem_filter hsecond.mem)
  obtain ⟨hnonneg, hhundred⟩ := (normal_of_normalized? h).mem_toList hbest.mem
  obtain ⟨hfactor, hfactorOne⟩ := evidenceFactor_mem c.structuralTotal
  -- what the evidence allows is in the unit range, so that only the cut changes it
  have hallowed : 0 ≤ best.2 / 100 * evidenceFactor c.structuralTotal := by positivity
  have hallowedOne : best.2 / 100 * evidenceFactor c.structuralTotal ≤ 1 :=
    mul_le_one₀ (by linarith) hfactor hfactorOne
  have hclamp : Scalar.clampUnit (best.2 / 100.0 * evidenceFactor c.structuralTotal)
      = best.2 / 100 * evidenceFactor c.structuralTotal := by
    rw [show (100.0 : ℚ) = 100 by norm_num, Scalar.clampUnit_of_mem hallowed hallowedOne]
  have hcut := Scalar.floor2_le (best.2 / 100 * evidenceFactor c.structuralTotal)
  rw [ofCounts_eq h hranked, hclamp]
  constructor
  case primary => exact hbestScore ▸ hbest
  case secondary =>
    refine ⟨second.1, hsecondScore ▸ hsecond, ?_⟩
    rw [← hbestScore, ← hsecondScore]
    exact if_congr isSecondary_iff rfl rfl
  case secondary_ne =>
    intro p hp
    obtain ⟨-, hp⟩ := Option.ite_none_right_eq_some.mp hp
    exact Option.some.inj hp ▸ hne
  case confidence_nonneg => exact Scalar.floor2_nonneg hallowed
  case confidence_le_one => exact hcut.trans hallowedOne
  case confidence_le => exact hbestScore ▸ hcut
  case lt_confidence => exact hbestScore ▸ Scalar.lt_floor2_add _

/-- The displayed score of objects is their share, rounded. -/
theorem objectOriented_ofCounts (c : PatternCounts ℚ) (l : Language) :
    (ofCounts c l).scores.objectOriented = Scalar.round2 (objectOrientedShare c l) := by
  rw [objectOrientedShare]
  cases h : normalized? c l with
  | none =>
      rw [ofCounts_eq_unknown h]
      norm_num [unknown, Scalar.round2_eq, nearestInteger]
  | some s =>
      obtain ⟨best, second, rest, hranked⟩ := exists_ranked s
      rw [ofCounts_eq h hranked]
      rfl

/-- The paradigm is unknown exactly without any evidence, and then the
confidence is nought. With evidence the shares are parts of a hundred, and
the report reads them off. More classes alone never lower the share of
objects, nor the score shown for it. -/
theorem paradigm_normalised (hpure : 0 ≤ c.pureFunctions) (l : Language) :
    ((ofCounts c l).primary = .unknown ∧ (ofCounts c l).confidence = 0 ↔ c.NoEvidence)
      ∧ ((ofCounts c l).primary = .unknown ↔ c.NoEvidence)
      ∧ (¬ c.NoEvidence → ∃ s, normalized? c l = some s ∧ s.Normal
          ∧ (ofCounts c l).ReadsOff s c.structuralTotal)
      ∧ ∀ n, c.classes ≤ n →
          objectOrientedShare c l ≤ objectOrientedShare { c with classes := n } l
            ∧ (ofCounts c l).scores.objectOriented
              ≤ (ofCounts { c with classes := n } l).scores.objectOriented := by
  have hnone := normalized?_eq_none_iff (l := l) hpure
  have hempty : c.NoEvidence →
      (ofCounts c l).primary = .unknown ∧ (ofCounts c l).confidence = 0 := by
    intro h
    rw [ofCounts_eq_unknown (hnone.mpr h)]
    norm_num [unknown]
  have hknown : (ofCounts c l).primary = .unknown → c.NoEvidence := by
    intro hprimary
    refine hnone.mp (Option.eq_none_iff_forall_ne_some.mpr fun s hs => ?_)
    exact known_of_mem_toList (readsOff_ofCounts hs).primary.mem hprimary
  refine ⟨⟨fun h => hknown h.1, hempty⟩, ⟨hknown, fun h => (hempty h).1⟩, ?_, ?_⟩
  · intro h
    obtain ⟨s, hs⟩ := Option.ne_none_iff_exists'.mp (mt hnone.mp h)
    exact ⟨s, hs, normal_of_normalized? hs, readsOff_ofCounts hs⟩
  · intro n hn
    have hshare := objectOrientedShare_mono (l := l) hn
    rw [objectOriented_ofCounts, objectOriented_ofCounts]
    exact ⟨hshare, Scalar.round2_mono hshare⟩

/-- One class and three lambdas weigh the same, and four functions weigh
more. -/
def tiedCounts : PatternCounts ℚ :=
  { (.zero : PatternCounts ℚ) with classes := 1, functions := 4, lambdas := 3, pureFunctions := 0 }

theorem normalized?_tiedCounts : normalized? tiedCounts .python = some ⟨30, 30, 40⟩ := by
  rw [normalized?_eq, weigh_eq]
  norm_num [total, objectWeight, functionalWeight, proceduralWeight, multipliers, tiedCounts,
    PatternCounts.freeFunctions, PatternCounts.zero]

theorem ranked_tied : (⟨30, 30, 40⟩ : ParadigmScores ℚ).ranked
    = [(.procedural, 40), (.objectOriented, 30), (.functional, 30)] := by
  norm_num [ranked, toList, List.mergeSort, List.MergeSort.Internal.splitInTwo, List.merge]

/-- Of the two styles with equal shares the object-oriented one comes
second. Eight patterns allow for three quarters of the share. -/
theorem paradigm_normalised_tied : 0 ≤ tiedCounts.pureFunctions ∧ ¬ tiedCounts.NoEvidence
    ∧ (∃ s, normalized? tiedCounts .python = some s ∧ s.Normal
      ∧ (ofCounts tiedCounts .python).ReadsOff s tiedCounts.structuralTotal)
    ∧ (ofCounts tiedCounts .python).primary = .procedural
    ∧ (ofCounts tiedCounts .python).secondary = some .objectOriented
    ∧ (ofCounts tiedCounts .python).confidence = 3 / 10
    ∧ objectOrientedShare tiedCounts .python
      ≤ objectOrientedShare { tiedCounts with classes := 2 } .python := by
  have hpure : 0 ≤ tiedCounts.pureFunctions := le_refl _
  have hevidence : ¬ tiedCounts.NoEvidence := by simp [PatternCounts.NoEvidence, tiedCounts]
  obtain ⟨-, -, hreads, hshare⟩ := paradigm_normalised hpure .python
  have hreport := ofCounts_eq normalized?_tiedCounts ranked_tied
  refine ⟨hpure, hevidence, hreads hevidence, ?_, ?_, ?_, (hshare 2 (by decide)).1⟩
  · rw [hreport]
  · rw [hreport]
    norm_num [isSecondary]
  · rw [hreport]
    norm_num [evidenceFactor, tiedCounts, PatternCounts.structuralTotal, PatternCounts.zero,
      Scalar.clampUnit_eq, Scalar.floor2_eq]

end ParadigmReport

end CodeProfile
