import CodeProfile.Complexity.Analysis
import CodeProfile.Proofs.Complexity.Growth

/-!
# Dominance among blocks

The rank of a block counts ten for each linear level and one for each
logarithmic level, up to the ceiling below the exponentials. As long as
the logarithms of one block do not make up for linear levels that the
other has more (`Block.NoCarry`), ranks below the ceiling order blocks as
their times really grow (`dominance_sound`), and no function grows faster
than the time that is reported for its program. Ten logarithms in a row
do make up for a linear level, and two blocks at the ceiling count as
alike (`dominance_unsound`).
-/

namespace CodeProfile

open Asymptotics Filter

namespace Block

/-- How much the levels of a block count, before the ceiling. -/
def weight (b : Block) : Nat := 10 * b.linearLevels + b.logarithmicLevels

/-- The logarithmic levels of `b` do not make up for linear levels that `c` has more: for each of
these `b` has fewer than ten logarithmic levels more. -/
def NoCarry (b c : Block) : Prop :=
  b.linearLevels < c.linearLevels →
    b.logarithmicLevels < c.logarithmicLevels + 10 * (c.linearLevels - b.linearLevels)

theorem NoCarry.weight_lt {b c : Block} (h : b.NoCarry c) (hlt : b.linearLevels < c.linearLevels) :
    b.weight < c.weight := by
  have := h hlt
  rw [weight, weight]
  omega

/-- Nothing is carried from fewer than ten logarithmic levels. -/
theorem noCarry_of_lt_ten {b c : Block} (h : b.logarithmicLevels < 10) : b.NoCarry c := by
  intro hlt
  omega

/-- The order in which blocks grow: by their linear levels, then by their logarithmic ones. -/
def compareLevels (b c : Block) : Ordering :=
  (compare b.linearLevels c.linearLevels).then (compare b.logarithmicLevels c.logarithmicLevels)

theorem compareLevels_eq_lt_iff {b c : Block} :
    b.compareLevels c = .lt ↔
      b.linearLevels < c.linearLevels ∨
        b.linearLevels = c.linearLevels ∧ b.logarithmicLevels < c.logarithmicLevels := by
  rw [compareLevels, Ordering.then_eq_lt, Nat.compare_eq_lt, Nat.compare_eq_eq, Nat.compare_eq_lt]

/-- Where nothing is carried, weights are ordered as levels are. -/
theorem compare_weight {b c : Block} (hb : b.NoCarry c) (hc : c.NoCarry b) :
    compare b.weight c.weight = b.compareLevels c := by
  rcases Nat.lt_trichotomy b.linearLevels c.linearLevels with hlt | heq | hgt
  · rw [compareLevels, Nat.compare_eq_lt.mpr hlt, Nat.compare_eq_lt.mpr (hb.weight_lt hlt)]
    rfl
  · rw [compareLevels, Nat.compare_eq_eq.mpr heq, weight, weight, heq,
      Nat.compare_eq_ite_lt, Nat.compare_eq_ite_lt]
    simp only [Nat.add_lt_add_iff_left]
    rfl
  · rw [compareLevels, Nat.compare_eq_gt.mpr hgt, Nat.compare_eq_gt.mpr (hc.weight_lt hgt)]
    rfl

theorem rank_time (b : Block) : b.time.rank = min b.weight (Cost.exponentialRank - 1) := by
  rw [time_eq_monomial, Cost.rank_monomial, weight]

theorem canonical_time (b : Block) : b.time.Canonical := Cost.reduce_canonical _

theorem compareGrowth_time (b c : Block) :
    b.time.compareGrowth c.time =
      compare (min b.weight (Cost.exponentialRank - 1))
        (min c.weight (Cost.exponentialRank - 1)) := by
  rw [Cost.compareGrowth, b.canonical_time.reduce_eq, c.canonical_time.reduce_eq, rank_time,
    rank_time]

theorem compare_min {m : Nat} (v w : Nat) :
    compare (min v m) (min w m) = if m ≤ v ∧ m ≤ w then .eq else compare v w := by
  rw [Nat.compare_eq_ite_lt, Nat.compare_eq_ite_lt]
  grind

/-- The time of a block stands for its levels. -/
theorem growth_time (b : Block) (x : ℝ) :
    b.time.growth x = x ^ min b.linearLevels maxWord32 * Real.logb 2 x ^ b.logarithmicLevels := by
  rw [time_eq_monomial, Cost.growth_monomial]

theorem isLittleO_growth_time {b c : Block} (hb : b.linearLevels < maxWord32)
    (h : b.compareLevels c = .lt) : b.time.growth =o[atTop] c.time.growth := by
  rw [time_eq_monomial, time_eq_monomial]
  exact Cost.isLittleO_growth_monomial hb (compareLevels_eq_lt_iff.mp h)

/-- Of two blocks of different rank the lesser grows more slowly, if nothing is carried. -/
theorem isLittleO_of_rank_lt {b c : Block} (hc : c.NoCarry b) (h : b.time.rank < c.time.rank) :
    b.time.growth =o[atTop] c.time.growth := by
  rw [rank_time, rank_time, Cost.exponentialRank] at h
  have hweight : b.weight < c.weight := by omega
  have hle : b.linearLevels ≤ c.linearLevels :=
    Nat.le_of_not_lt fun hlt => Nat.lt_asymm hweight (hc.weight_lt hlt)
  refine isLittleO_growth_time ?_ (compareLevels_eq_lt_iff.mpr ?_)
  · rw [weight] at h
    rw [maxWord32]
    omega
  · rw [weight, weight] at hweight
    omega

end Block

namespace Cost

/-- What the time of a function can be. -/
def IsTime (t : Cost) : Prop := (∃ a b, t = monomial a b) ∨ t = exponential 2 inputSize

theorem IsTime.canonical {t : Cost} (h : t.IsTime) : t.Canonical := by
  rcases h with ⟨a, b, rfl⟩ | rfl
  · exact canonical_monomial a b
  · exact .exponential 2 inputSize

theorem IsTime.isSum {t : Cost} (h : t.IsTime) : t.isSum = false := by
  rcases h with ⟨a, b, rfl⟩ | rfl
  · exact not_isSum_monomial a b
  · rfl

theorem IsTime.growth_nonneg {t : Cost} (h : t.IsTime) {x : ℝ} (hx : 1 ≤ x) : 0 ≤ t.growth x := by
  rcases h with ⟨a, b, rfl⟩ | rfl
  · exact growth_monomial_nonneg a b hx
  · rw [growth_exponential]
    exact Real.exp_nonneg _

theorem rank_monomial_lt (a b : Nat) : (monomial a b).rank < (exponential 2 inputSize).rank := by
  have hexp : (exponential 2 inputSize).rank = 1002 := rfl
  rw [rank_monomial, hexp, exponentialRank]
  omega

/-- Times of one rank that are written alike are the same. -/
theorem IsTime.eq_of_growthTerm_eq {t u : Cost} (ht : t.IsTime) (hu : u.IsTime)
    (hrank : t.rank = u.rank) (hterm : t.growthTerm = u.growthTerm) : t = u := by
  rcases ht with ⟨a, b, rfl⟩ | rfl <;> rcases hu with ⟨a', b', rfl⟩ | rfl
  · exact growthTerm_monomial_inj hterm
  · exact absurd hrank (Nat.ne_of_lt (rank_monomial_lt a b))
  · exact absurd hrank (Nat.ne_of_gt (rank_monomial_lt a' b'))
  · rfl

/-- A sum of times grows as fast as a term that grows no faster than those of greater rank. -/
theorem isBigO_growth_combineSum {ts : List Cost} (hts : ∀ t ∈ ts, t.IsTime) {t : Cost}
    (ht : t ∈ ts) (hgrows : ∀ u ∈ ts, t.rank < u.rank → t.growth =O[atTop] u.growth) :
    t.growth =O[atTop] (combineSum ts).growth := by
  have hsum : ∀ u ∈ ts, u.isSum = false := fun u hu => (hts u hu).isSum
  have hflat : ts.flatMap termsOf = ts := flatMap_termsOf_eq_self hsum
  have hne : ts.flatMap termsOf ≠ [] := by
    rw [hflat]
    exact List.ne_nil_of_mem ht
  have hmem {k : Cost} (hk : k ∈ kept ts) : k ∈ ts := mem_of_mem_kept hsum hk
  have hkept {k : Cost} (hk : k ∈ kept ts) : k.growth =O[atTop] (ofTerms (kept ts)).growth :=
    isBigO_growth_ofTerms hk fun u hu x hx => (hts u (hmem hu)).growth_nonneg hx
  rw [combineSum_eq, if_neg hne]
  have hle : t.rank ≤ sumRank ((ts.flatMap termsOf).map rank) :=
    le_sumRank (List.mem_map_of_mem (hflat.symm ▸ ht))
  -- A dominant `t` is kept itself, since times are told apart by their text; any other is below a
  -- kept term.
  rcases Nat.lt_or_eq_of_le hle with hlt | heq
  · obtain ⟨k, hk⟩ := List.exists_mem_of_ne_nil _ (kept_ne_nil hne)
    rw [← rank_of_mem_kept hk] at hlt
    exact (hgrows k (hmem hk) hlt).trans (hkept hk)
  · obtain ⟨k, hk, hkt⟩ := exists_mem_kept (mem_dominant.mpr ⟨hflat.symm ▸ ht, heq⟩)
    have hrank : k.rank = t.rank := (rank_of_mem_kept hk).trans heq.symm
    rw [← (hts k (hmem hk)).eq_of_growthTerm_eq (hts t ht) hrank hkt]
    exact hkept hk

end Cost

namespace Program

/-- The blocks that the time of a program is worked out from. -/
def timedBlocks (p : Program) : List Block :=
  (p.functions.filter fun f => !f.isRecursive).map (·.body) ++ [p.topLevel]

theorem timeCost_complexity (p : Program) :
    p.complexity.timeCost = some (Cost.sum p.timeTerms).reduce := rfl

theorem isTime_function (f : Function) : f.time.IsTime := by
  unfold Function.time
  split
  · exact Or.inr rfl
  · exact Or.inl ⟨_, _, f.body.time_eq_monomial⟩

theorem time_mem_timeTerms {p : Program} {f : Function} (hf : f ∈ p.functions) :
    f.time ∈ p.timeTerms := by
  have hreduce : f.time.reduce = f.time := (isTime_function f).canonical.reduce_eq
  refine List.mem_append_left _ (List.mem_map.mpr ⟨f, hf, hreduce⟩)

/-- Each term of the time belongs to a recursive function or is the time of a block. -/
theorem mem_timeTerms {p : Program} {t : Cost} (h : t ∈ p.timeTerms) :
    t = .exponential 2 Cost.inputSize ∨ ∃ c ∈ p.timedBlocks, t = c.time := by
  rcases List.mem_append.mp h with hmem | hmem
  · obtain ⟨f, hf, rfl⟩ := List.mem_map.mp hmem
    rw [(isTime_function f).canonical.reduce_eq, Function.time]
    split
    · exact Or.inl rfl
    · next hrec =>
        refine Or.inr ⟨f.body, List.mem_append_left _ (List.mem_map_of_mem ?_), rfl⟩
        exact List.mem_filter.mpr ⟨hf, by simpa using hrec⟩
  · rw [List.mem_singleton.mp hmem]
    exact Or.inr ⟨p.topLevel, List.mem_append_right _ (List.mem_singleton_self _), rfl⟩

theorem isTime_of_mem_timeTerms {p : Program} {t : Cost} (h : t ∈ p.timeTerms) : t.IsTime := by
  rcases mem_timeTerms h with rfl | ⟨c, _, rfl⟩
  · exact Or.inr rfl
  · exact Or.inl ⟨_, _, c.time_eq_monomial⟩

/-- The reported time grows at least as fast as a function whose linear levels no block makes up for
with logarithms. -/
theorem isBigO_function_time {p : Program} {f : Function} (hf : f ∈ p.functions)
    (h : f.isRecursive = false → ∀ c ∈ p.timedBlocks, c.NoCarry f.body) :
    f.time.growth =O[atTop] (Cost.sum p.timeTerms).reduce.growth := by
  rw [Cost.reduce_sum_of_canonical fun t ht => (isTime_of_mem_timeTerms ht).canonical]
  refine Cost.isBigO_growth_combineSum (fun t ht => isTime_of_mem_timeTerms ht)
    (time_mem_timeTerms hf) fun u hu hlt => ?_
  unfold Function.time at hlt ⊢
  split at hlt
  · -- No time of a program exceeds that of a recursive function.
    rcases isTime_of_mem_timeTerms hu with ⟨a, b, rfl⟩ | rfl
    · exact absurd hlt (Nat.lt_asymm (Cost.rank_monomial_lt a b))
    · exact absurd hlt (Nat.lt_irrefl _)
  · next hrec =>
      rw [if_neg hrec]
      rcases mem_timeTerms hu with rfl | ⟨c, hc, rfl⟩
      · rw [f.body.time_eq_monomial]
        exact Cost.isBigO_growth_monomial_exponential _ _
      · exact (Block.isLittleO_of_rank_lt (h (by simpa using hrec) c hc) hlt).isBigO

end Program

/-! ## Soundness -/

/-- Where nothing is carried, blocks below the ceiling are compared as they grow, and the time of a
program grows at least as fast as each function. -/
theorem dominance_sound :
    (∀ b c : Block, b.NoCarry c → c.NoCarry b →
      b.time.compareGrowth c.time =
        (if Cost.exponentialRank - 1 ≤ b.weight ∧ Cost.exponentialRank - 1 ≤ c.weight then .eq
          else b.compareLevels c) ∧
      (b.time.compareGrowth c.time = .lt → b.time.growth =o[atTop] c.time.growth)) ∧
    (∀ (b : Block) (x : ℝ), b.time.growth x =
      x ^ min b.linearLevels maxWord32 * Real.logb 2 x ^ b.logarithmicLevels) ∧
    ∀ p : Program, ∃ cost, p.complexity.timeCost = some cost ∧
      ∀ f ∈ p.functions, (f.isRecursive = false → ∀ c ∈ p.timedBlocks, c.NoCarry f.body) →
        f.time.growth =O[atTop] cost.growth := by
  refine ⟨fun b c hb hc => ?_, Block.growth_time, fun p => ?_⟩
  · constructor
    · rw [Block.compareGrowth_time, Block.compare_min, Block.compare_weight hb hc]
    · intro hlt
      rw [Block.compareGrowth_time, Nat.compare_eq_lt, ← Block.rank_time, ← Block.rank_time] at hlt
      exact Block.isLittleO_of_rank_lt hc hlt
  · exact ⟨_, p.timeCost_complexity, fun f hf h => p.isBigO_function_time hf h⟩

/-! ## Nested loops -/

/-- Loops nested one in the other. -/
def Statement.nested : List LoopBounds → List Statement
  | [] => []
  | bounds :: inner => [loop ⟨0, 1⟩ bounds (nested inner)]

namespace Block

/-- A block of loops nested one in the other. -/
def nested (bounds : List LoopBounds) : Block := .ofStatements (Statement.nested bounds)

theorem levelsAll_nested (bounds : List LoopBounds) :
    Statement.levelsAll (Statement.nested bounds) = bounds.map LoopBounds.growth := by
  induction bounds with
  | nil => rfl
  | cons b bs ih =>
      rw [Statement.nested, Statement.levelsAll, Statement.levels, ih]
      rfl

theorem linearLevels_nested (bounds : List LoopBounds) :
    (nested bounds).linearLevels = (bounds.map LoopBounds.growth).count .linear := by
  rw [← levelsAll_nested, Statement.count_linear_levelsAll]
  rfl

theorem logarithmicLevels_nested (bounds : List LoopBounds) :
    (nested bounds).logarithmicLevels = (bounds.map LoopBounds.growth).count .logarithmic := by
  rw [← levelsAll_nested, Statement.count_logarithmic_levelsAll]
  rfl

/-- A block of `a` loops over the input with `b` halving loops inside. -/
def nestedLoops (a b : Nat) : Block :=
  nested (List.replicate a (.input "n") ++ List.replicate b (.logarithmic none))

@[simp] theorem linearLevels_nestedLoops (a b : Nat) : (nestedLoops a b).linearLevels = a := by
  have hlinear : (LoopBounds.input "n").growth = .linear := rfl
  have hlog : (LoopBounds.logarithmic none).growth = .logarithmic := rfl
  rw [nestedLoops, linearLevels_nested, List.map_append, List.map_replicate, List.map_replicate,
    hlinear, hlog, List.count_append, List.count_replicate_self, List.count_replicate]
  rfl

@[simp] theorem logarithmicLevels_nestedLoops (a b : Nat) :
    (nestedLoops a b).logarithmicLevels = b := by
  have hlinear : (LoopBounds.input "n").growth = .linear := rfl
  have hlog : (LoopBounds.logarithmic none).growth = .logarithmic := rfl
  rw [nestedLoops, logarithmicLevels_nested, List.map_append, List.map_replicate,
    List.map_replicate, hlinear, hlog, List.count_append, List.count_replicate_self,
    List.count_replicate]
  exact Nat.zero_add b

end Block

/-- A program of functions with these bodies that do not call each other. -/
def Program.ofBodies (bodies : List Block) : Program where
  language := .rust
  functions := bodies.map fun body =>
    { name := "f", parameters := ["n"], body, calls := [], isRecursive := false,
      isEntryPoint := false, origin := ⟨0, 1⟩ }
  topLevel := .ofStatements []
  entryPoints := []

/-- Two halving loops stay below a loop over the input, also as functions of one program. -/
theorem dominance_sound_two_halvings :
    (Block.nestedLoops 0 2).time.compareGrowth (Block.nestedLoops 1 0).time = .lt ∧
    (Block.nestedLoops 0 2).time.growth =o[atTop] (Block.nestedLoops 1 0).time.growth ∧
    ∃ cost,
      (Program.ofBodies [.nestedLoops 0 2, .nestedLoops 1 0]).complexity.timeCost = some cost ∧
      ∀ f ∈ (Program.ofBodies [.nestedLoops 0 2, .nestedLoops 1 0]).functions,
        f.time.growth =O[atTop] cost.growth := by
  obtain ⟨hblocks, -, hprogram⟩ := dominance_sound
  have htwo : (Block.nestedLoops 0 2).NoCarry (.nestedLoops 1 0) :=
    Block.noCarry_of_lt_ten (by simp)
  have hone : (Block.nestedLoops 1 0).NoCarry (.nestedLoops 0 2) :=
    Block.noCarry_of_lt_ten (by simp)
  obtain ⟨hcompare, hgrowth⟩ := hblocks _ _ htwo hone
  have hlt : (Block.nestedLoops 0 2).time.compareGrowth (Block.nestedLoops 1 0).time = .lt := by
    rw [hcompare, if_neg (by simp [Block.weight, Cost.exponentialRank]),
      Block.compareLevels_eq_lt_iff]
    simp
  obtain ⟨cost, hcost, hfunctions⟩ :=
    hprogram (.ofBodies [.nestedLoops 0 2, .nestedLoops 1 0])
  refine ⟨hlt, hgrowth hlt, cost, hcost, fun f hf => hfunctions f hf fun _ c hc => ?_⟩
  refine Block.noCarry_of_lt_ten ?_
  have hblock : c = .nestedLoops 0 2 ∨ c = .nestedLoops 1 0 ∨ c = .ofStatements [] := by
    simpa [Program.timedBlocks, Program.ofBodies] using hc
  rcases hblock with rfl | rfl | rfl
  · rw [Block.logarithmicLevels_nestedLoops]
    decide
  · rw [Block.logarithmicLevels_nestedLoops]
    decide
  · decide

/-- Eleven halving loops outrank a loop over the input that grows faster, and stand for its program;
a hundred loops over the input rank with a hundred and one. -/
theorem dominance_unsound :
    ((Block.nestedLoops 0 11).compareLevels (.nestedLoops 1 0) = .lt ∧
      (Block.nestedLoops 0 11).time.growth =o[atTop] (Block.nestedLoops 1 0).time.growth ∧
      (Block.nestedLoops 0 11).time.compareGrowth (Block.nestedLoops 1 0).time = .gt) ∧
    ((Block.nestedLoops 100 0).compareLevels (.nestedLoops 101 0) = .lt ∧
      (Block.nestedLoops 100 0).time.growth =o[atTop] (Block.nestedLoops 101 0).time.growth ∧
      (Block.nestedLoops 100 0).time.compareGrowth (Block.nestedLoops 101 0).time = .eq) ∧
    ∃ cost,
      (Program.ofBodies [.nestedLoops 1 0, .nestedLoops 0 11]).complexity.timeCost = some cost ∧
      ∃ f ∈ (Program.ofBodies [.nestedLoops 1 0, .nestedLoops 0 11]).functions,
        cost.growth =o[atTop] f.time.growth := by
  have hlogs : (Block.nestedLoops 0 11).compareLevels (.nestedLoops 1 0) = .lt := by
    simp [Block.compareLevels_eq_lt_iff]
  have hlines : (Block.nestedLoops 100 0).compareLevels (.nestedLoops 101 0) = .lt := by
    simp [Block.compareLevels_eq_lt_iff]
  have hslower :
      (Block.nestedLoops 0 11).time.growth =o[atTop] (Block.nestedLoops 1 0).time.growth :=
    Block.isLittleO_growth_time (by simp [maxWord32]) hlogs
  refine ⟨⟨hlogs, hslower, ?_⟩, ⟨hlines, ?_, ?_⟩, ?_⟩
  · rw [Block.compareGrowth_time, Nat.compare_eq_gt]
    simp [Block.weight, Cost.exponentialRank]
  · exact Block.isLittleO_growth_time (by simp [maxWord32]) hlines
  · rw [Block.compareGrowth_time]
    simp [Block.weight, Cost.exponentialRank]
  · have hreported :
        (Cost.sum (Program.ofBodies [.nestedLoops 1 0, .nestedLoops 0 11]).timeTerms).reduce
          = (Block.nestedLoops 0 11).time := rfl
    refine ⟨_, Program.timeCost_complexity _, _, List.mem_cons_self .., ?_⟩
    rw [hreported]
    exact hslower

end CodeProfile
