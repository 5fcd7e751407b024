import CodeProfile.Proofs.Complexity.Levelwise
import CodeProfile.Proofs.Cost.Grouping

/-!
# The time of a program is its dominant part

The terms of a program are monomials and, for recursive functions, one
exponential. Their sum keeps the terms of greatest rank, so its rank is
the greatest among them (`Program.rank_time`). Where all of these are the same
cost, the sum is that cost (`combineSum_eq_of_top`): an exponential beside
any monomials, and the constant one where no loop grows.

Statements only ever raise levels (`Extended.levels_below`), and a program
that has all that another has, and more, has a term of at least that rank
for each of its terms (`GrowsTo.rank_le`).
-/

namespace CodeProfile

/-! ## Sums of times -/

namespace Cost

/-- A term that outranks all others is the sum. -/
theorem combineSum_eq_of_top {ts : List Cost} (hts : ∀ t ∈ ts, t.isSum = false) {t : Cost}
    (ht : t ∈ ts) (htop : ∀ u ∈ ts, u = t ∨ u.rank < t.rank) : combineSum ts = t := by
  have hflat : ts.flatMap termsOf = ts := flatMap_termsOf_eq_self hts
  have hne : ts.flatMap termsOf ≠ [] := by
    rw [hflat]
    exact List.ne_nil_of_mem ht
  have hall : ∀ k ∈ kept ts, k = t := by
    intro k hk
    obtain ⟨-, hrank⟩ := mem_dominant.mp (mem_dominant_of_mem_kept hk)
    have hle : t.rank ≤ k.rank := by
      rw [hrank, hflat]
      exact le_sumRank (List.mem_map_of_mem ht)
    rcases htop k (mem_of_mem_kept hts hk) with heq | hlt
    · exact heq
    · omega
  have hnodup : ((kept ts).map growthTerm).Nodup := Keyed.nodup_collect_nil larger_lawful
  rw [combineSum_eq, if_neg hne]
  match hkept : kept ts with
  | [] => exact absurd hkept (kept_ne_nil hne)
  | [k] =>
      rw [hkept] at hall
      exact hall k (List.mem_singleton_self k)
  | k :: l :: ks =>
      rw [hkept] at hall hnodup
      have hkl : k = l := (hall k (.head _)).trans (hall l (.tail _ (.head _))).symm
      simp [hkl] at hnodup

/-- A sum is written with its first term in front. -/
theorem head?_growthTerm_ofTerms {t : Cost} (ts : List Cost) {c : Char}
    (h : t.growthTerm.toList.head? = some c) :
    (ofTerms (t :: ts)).growthTerm.toList.head? = some c := by
  cases ts with
  | nil => exact h
  | cons u ts =>
      have hmany : ofTerms (t :: u :: ts) = add (t :: u :: ts) := rfl
      rw [hmany, growthTerm, growthTerms_eq, List.map_map, List.map_cons,
        String.intercalate_cons_of_ne_nil (by simp), String.toList_append, String.toList_append,
        List.append_assoc, List.head?_append]
      simp [h]

/-- A time that grows is written with a letter or a base in front. -/
theorem IsTime.head?_growthTerm {t : Cost} (h : t.IsTime) (hrank : t.rank ≠ 0) :
    ∃ c, t.growthTerm.toList.head? = some c ∧ c ≠ '1' := by
  rcases h with ⟨a, b, rfl⟩ | rfl
  · by_cases ha : a = 0
    · subst ha
      have hb : b ≠ 0 := by
        rintro rfl
        exact hrank rfl
      rw [growthTerm_monomial_zero hb, head?_logsText hb]
      exact ⟨'l', rfl, by decide⟩
    · exact ⟨'n', (head?_growthTerm_monomial a b).mpr ha, by decide⟩
  · exact ⟨'2', rfl, by decide⟩

theorem IsTime.eq_one {t : Cost} (h : t.IsTime) (hrank : t.rank = 0) : t = one := by
  rcases h with ⟨a, b, rfl⟩ | rfl
  · rw [rank_monomial, exponentialRank] at hrank
    obtain ⟨rfl, rfl⟩ : a = 0 ∧ b = 0 := by omega
    rfl
  · cases hrank

/-- A sum of times is written as a constant only if no term grows. -/
theorem growthTerm_combineSum_eq_one_iff {ts : List Cost} (hts : ∀ t ∈ ts, t.IsTime)
    (hne : ts ≠ []) : (combineSum ts).growthTerm = "1" ↔ ∀ t ∈ ts, t.rank = 0 := by
  have hsum : ∀ t ∈ ts, t.isSum = false := fun t ht => (hts t ht).isSum
  have hflat : ts.flatMap termsOf = ts := flatMap_termsOf_eq_self hsum
  constructor
  · intro hone t ht
    by_contra hrank
    have hkeptne := kept_ne_nil (hflat.symm ▸ hne)
    rw [combineSum_eq, if_neg (hflat.symm ▸ hne)] at hone
    cases hkept : kept ts with
    | nil => exact hkeptne hkept
    | cons k ks =>
        have hmem : k ∈ kept ts := hkept ▸ List.mem_cons_self ..
        obtain ⟨-, hk⟩ := mem_dominant.mp (mem_dominant_of_mem_kept hmem)
        have hle := le_sumRank (List.mem_map_of_mem (f := rank) ht)
        rw [hflat] at hk
        obtain ⟨c, hc, hc1⟩ := (hts k (mem_of_mem_kept hsum hmem)).head?_growthTerm (by omega)
        have hhead := head?_growthTerm_ofTerms ks hc
        rw [← hkept, hone] at hhead
        exact hc1 (Option.some_inj.mp hhead).symm
  · intro hzero
    obtain ⟨t, ht⟩ := List.exists_mem_of_ne_nil ts hne
    have hone : ∀ u ∈ ts, u = one := fun u hu => (hts u hu).eq_one (hzero u hu)
    have hsame : combineSum ts = t :=
      combineSum_eq_of_top hsum ht fun u hu => .inl ((hone u hu).trans (hone t ht).symm)
    rw [hsame, hone t ht]
    rfl

end Cost

/-! ## Loops that do not grow -/

theorem levelsWeight_mergeLevels_le (as bs : List LoopGrowth) :
    levelsWeight (mergeLevels as bs) ≤ levelsWeight as + levelsWeight bs := by
  induction as, bs using mergeLevels.induct with
  | case1 bs => rw [mergeLevels]; exact Nat.le_add_left _ _
  | case2 as hne => cases as <;> simp [mergeLevels]
  | case3 a as b bs ih =>
      have hmax : (a.max b).weight ≤ a.weight + b.weight := by cases a <;> cases b <;> decide
      rw [mergeLevels, levelsWeight_cons, levelsWeight_cons, levelsWeight_cons]
      omega

theorem levelsWeight_mergeLevels_eq_zero_iff {as bs : List LoopGrowth} :
    levelsWeight (mergeLevels as bs) = 0 ↔ levelsWeight as = 0 ∧ levelsWeight bs = 0 := by
  have hle := levelsWeight_mergeLevels_le as bs
  have hleft := (LevelsBelow.left as bs).weight_le
  have hright := (LevelsBelow.right as bs).weight_le
  omega

theorem LoopGrowth.weight_eq_zero_iff {g : LoopGrowth} : g.weight = 0 ↔ g = constant := by
  cases g <;> simp [weight]

namespace Statement

theorem weight_levelsAll_eq_zero_iff {ss : List Statement} :
    levelsWeight (levelsAll ss) = 0 ↔ ∀ s ∈ ss, levelsWeight (levels s) = 0 := by
  induction ss with
  | nil => simp [levelsAll, levelsWeight]
  | cons s ss ih =>
      rw [levelsAll, levelsWeight_mergeLevels_eq_zero_iff, ih, List.forall_mem_cons]

/-- The loop runs a fixed number of times, if the statement is one. -/
def Fixed (s : Statement) : Prop := ∀ o bounds body, s = loop o bounds body →
  bounds.growth = .constant

theorem weight_levels_eq_zero_iff (s : Statement) :
    levelsWeight (levels s) = 0 ↔ ∀ t ∈ walk s, t.Fixed := by
  induction s using inner_induction with
  | step s ih =>
      have hinner : levelsWeight (levelsAll s.inner) = 0 ↔ ∀ t ∈ walkAll s.inner, t.Fixed := by
        rw [weight_levelsAll_eq_zero_iff, walkAll_eq, List.forall_mem_flatMap]
        exact forall₂_congr ih
      rw [walk_eq, List.forall_mem_cons, ← hinner]
      cases s with
      | loop o bounds body =>
          rw [levels, levelsWeight_cons, Nat.add_eq_zero_iff, LoopGrowth.weight_eq_zero_iff]
          simp [Fixed, inner]
      | conditional o branches =>
          rw [levels, levelsBranches_eq]
          simp [Fixed, inner]
      | call o callee r => simp [Fixed, inner, levels, levelsAll, levelsWeight]
      | allocation o d => simp [Fixed, inner, levels, levelsAll, levelsWeight]
      | simple o kind => simp [Fixed, inner, levels, levelsAll, levelsWeight]

end Statement

theorem Block.weight_eq_zero_iff (b : Block) : b.weight = 0 ↔ ∀ s ∈ b.walk, s.Fixed := by
  rw [weight_eq, Statement.weight_levelsAll_eq_zero_iff, walk, Statement.walkAll_eq,
    List.forall_mem_flatMap]
  exact forall₂_congr fun s _ => s.weight_levels_eq_zero_iff

/-! ## More statements -/

/-- Statements to which some were added, at any depth. -/
inductive Statement.Extended : List Statement → List Statement → Prop
  | refl (ss) : Extended ss ss
  | added (s ss) : Extended ss (s :: ss)
  | behind (s) {ss ts} : Extended ss ts → Extended (s :: ss) (s :: ts)
  | inLoop (o bounds) {body body'} (ss) : Extended body body' →
      Extended (.loop o bounds body :: ss) (.loop o bounds body' :: ss)
  | inBranch (o before) {branch branch'} (after ss) : Extended branch branch' →
      Extended (.conditional o (before ++ branch :: after) :: ss)
        (.conditional o (before ++ branch' :: after) :: ss)
  | branchAdded (o before branch after ss) :
      Extended (.conditional o (before ++ after) :: ss)
        (.conditional o (before ++ branch :: after) :: ss)
  | trans {ss ts us} : Extended ss ts → Extended ts us → Extended ss us

open Statement in
theorem Statement.Extended.levels_below {ss ts : List Statement} (h : Extended ss ts) :
    LevelsBelow (levelsAll ss) (levelsAll ts) := by
  induction h with
  | refl ss => exact .refl _
  | added s ss => exact .right _ _
  | behind s _ ih => exact (LevelsBelow.refl _).merge ih
  | inLoop o bounds ss _ ih => exact (ih.cons bounds.growth).merge (.refl _)
  | inBranch o before after ss _ ih =>
      refine LevelsBelow.merge ?_ (.refl _)
      simp only [levels, levelsBranches_eq, List.flatten_append, List.flatten_cons,
        levelsAll_append]
      exact (LevelsBelow.refl _).merge (ih.merge (.refl _))
  | branchAdded o before branch after ss =>
      refine LevelsBelow.merge ?_ (.refl _)
      simp only [levels, levelsBranches_eq, List.flatten_append, List.flatten_cons,
        levelsAll_append]
      exact (LevelsBelow.refl _).merge (.right _ _)
  | trans _ _ ih ih' => exact ih.trans ih'

theorem Block.rank_time_le {b c : Block} (h : Statement.Extended b.statements c.statements) :
    b.time.rank ≤ c.time.rank := by
  have hle := h.levels_below.weight_le
  rw [← weight_eq, ← weight_eq] at hle
  rw [rank_time, rank_time]
  omega

/-! ## Functions -/

theorem Cost.IsTime.rank_le {t : Cost} (h : t.IsTime) :
    t.rank ≤ (exponential 2 inputSize).rank := by
  rcases h with ⟨a, b, rfl⟩ | rfl
  · exact Nat.le_of_lt (rank_monomial_lt a b)
  · exact Nat.le_refl _

namespace Function

theorem time_of_isRecursive {f : Function} (h : f.isRecursive = true) :
    f.time = .exponential 2 Cost.inputSize := by
  rw [time, if_pos h]

theorem time_of_not_isRecursive {f : Function} (h : f.isRecursive = false) :
    f.time = f.body.time := by
  rw [time, h, if_neg Bool.false_ne_true]

theorem rank_time_lt_iff (f : Function) :
    f.time.rank < Cost.exponentialRank ↔ f.isRecursive = false := by
  cases h : f.isRecursive with
  | true =>
      rw [time_of_isRecursive h]
      decide
  | false =>
      rw [time_of_not_isRecursive h, Block.rank_time, Cost.exponentialRank]
      simp only [iff_true]
      omega

/-- A function that calls itself if `f` does, and has statements added, takes no less time. -/
theorem rank_time_le {f g : Function} (hrec : f.isRecursive = true → g.isRecursive = true)
    (h : Statement.Extended f.body.statements g.body.statements) : f.time.rank ≤ g.time.rank := by
  cases hg : g.isRecursive with
  | true =>
      rw [time_of_isRecursive hg]
      exact (Program.isTime_function f).rank_le
  | false =>
      have hf : f.isRecursive = false := by
        cases hf : f.isRecursive with
        | true => exact absurd (hrec hf) (by rw [hg]; decide)
        | false => rfl
      rw [time_of_not_isRecursive hf, time_of_not_isRecursive hg]
      exact Block.rank_time_le h

end Function

/-! ## Programs -/

namespace Program

theorem mem_loopBounds {p : Program} {bounds : LoopBounds} :
    bounds ∈ p.loopBounds ↔ ∃ o body, Statement.loop o bounds body ∈ p.walk := by
  rw [loopBounds]
  refine (Statement.mem_filterMap_loop fun _ b => b).trans ⟨?_, ?_⟩
  · rintro ⟨o, b, body, hmem, rfl⟩
    exact ⟨o, body, hmem⟩
  · rintro ⟨o, body, hmem⟩
    exact ⟨o, bounds, body, hmem, rfl⟩

theorem growth_constant_iff {p : Program} :
    (∀ bounds ∈ p.loopBounds, bounds.growth = .constant) ↔ ∀ b ∈ p.blocks, b.weight = 0 := by
  simp only [Block.weight_eq_zero_iff, ← List.forall_mem_flatMap]
  constructor
  · rintro h s hs o bounds body rfl
    exact h bounds (mem_loopBounds.mpr ⟨o, body, hs⟩)
  · intro h bounds hbounds
    obtain ⟨o, body, hs⟩ := mem_loopBounds.mp hbounds
    exact h _ hs o bounds body rfl

theorem timeTerms_eq (p : Program) :
    p.timeTerms = p.functions.map (·.time) ++ [p.topLevel.time] := by
  rw [timeTerms]
  simp only [(isTime_function _).canonical.reduce_eq]

theorem timeTerms_of_not_isRecursive {p : Program}
    (h : ∀ f ∈ p.functions, f.isRecursive = false) : p.timeTerms = p.blocks.map (·.time) := by
  have hbodies : p.functions.map (·.time) = (p.functions.map (·.body)).map (·.time) := by
    rw [List.map_map]
    refine List.map_congr_left fun f hf => ?_
    rw [Function.comp_apply, Function.time_of_not_isRecursive (h f hf)]
  rw [timeTerms_eq, hbodies, blocks, List.map_append, List.map_singleton]

theorem forall_mem_timeTerms {p : Program} {motive : Cost → Prop} :
    (∀ t ∈ p.timeTerms, motive t) ↔
      (∀ f ∈ p.functions, motive f.time) ∧ motive p.topLevel.time := by
  rw [timeTerms_eq, List.forall_mem_append, List.forall_mem_map, List.forall_mem_singleton]

/-- The canonical time of a program. -/
def time (p : Program) : Cost := Cost.combineSum p.timeTerms

theorem timeCost_eq (p : Program) : p.complexity.timeCost = some p.time := by
  rw [timeCost_complexity,
    Cost.reduce_sum_of_canonical fun t ht => (isTime_of_mem_timeTerms ht).canonical, time]

theorem canonical_time (p : Program) : p.time.Canonical :=
  Cost.canonical_combineSum fun _ ht => (isTime_of_mem_timeTerms ht).canonical

theorem time_complexity (p : Program) : p.complexity.time = "O(" ++ p.time.growthTerm ++ ")" := by
  have hbigO : p.complexity.time = (Cost.sum p.timeTerms).reduce.bigO := rfl
  have hcost := p.timeCost_eq
  rw [timeCost_complexity, Option.some_inj] at hcost
  rw [hbigO, hcost, Cost.bigO, p.canonical_time.reduce_eq]

theorem timeTerms_ne_nil (p : Program) : p.timeTerms ≠ [] := by
  simp [timeTerms]

theorem rank_time (p : Program) : p.time.rank = Cost.sumRank (p.timeTerms.map Cost.rank) :=
  Cost.rank_combineSum _

theorem rank_time_le_iff {p : Program} {m : Nat} :
    p.time.rank ≤ m ↔ (∀ f ∈ p.functions, f.time.rank ≤ m) ∧ p.topLevel.time.rank ≤ m := by
  rw [rank_time, Cost.sumRank_le_iff, List.forall_mem_map, forall_mem_timeTerms]

/-- Times of blocks stay below the exponentials. -/
theorem rank_time_lt_iff {p : Program} :
    p.time.rank < Cost.exponentialRank ↔ ∀ f ∈ p.functions, f.isRecursive = false := by
  have htop : p.topLevel.time.rank ≤ Cost.exponentialRank - 1 := by
    rw [Block.rank_time]
    exact Nat.min_le_right _ _
  have hbelow : p.time.rank ≤ Cost.exponentialRank - 1 ↔
      ∀ f ∈ p.functions, f.time.rank ≤ Cost.exponentialRank - 1 := by
    rw [rank_time_le_iff, and_iff_left htop]
  rw [Nat.lt_iff_le_pred (by decide), hbelow]
  refine forall₂_congr fun f _ => ?_
  rw [← f.rank_time_lt_iff, Nat.lt_iff_le_pred (by decide)]

theorem isExponential_complexity_iff (p : Program) :
    p.complexity.isExponential = true ↔ ∃ f ∈ p.functions, f.isRecursive = true := by
  rw [ComplexityReport.isExponential, timeCost_eq, Option.any_some, Cost.isExponential,
    p.canonical_time.reduce_eq, decide_eq_true_iff, ← Nat.not_lt, rank_time_lt_iff]
  simp

theorem time_complexity_of_isRecursive {p : Program} {f : Function} (hf : f ∈ p.functions)
    (h : f.isRecursive = true) : p.complexity.time = "O(2^n)" := by
  have hmem := time_mem_timeTerms hf
  rw [Function.time_of_isRecursive h] at hmem
  have htime : p.time = .exponential 2 Cost.inputSize := by
    refine Cost.combineSum_eq_of_top (fun t ht => (isTime_of_mem_timeTerms ht).isSum) hmem ?_
    intro u hu
    rcases isTime_of_mem_timeTerms hu with ⟨a, b, rfl⟩ | rfl
    · exact .inr (Cost.rank_monomial_lt a b)
    · exact .inl rfl
  rw [time_complexity, htime]
  rfl

theorem max?_rank_blocks {p : Program} (h : ∀ f ∈ p.functions, f.isRecursive = false) :
    (p.blocks.map fun b => b.time.reduce.rank).max? = some p.time.reduce.rank := by
  have hranks : (p.blocks.map fun b => b.time.reduce.rank) = p.timeTerms.map Cost.rank := by
    rw [timeTerms_of_not_isRecursive h, List.map_map]
    exact List.map_congr_left fun b _ => congrArg Cost.rank b.canonical_time.reduce_eq
  rw [hranks, p.canonical_time.reduce_eq, rank_time, List.max?_eq_some_iff]
  refine ⟨Cost.sumRank_mem ?_, fun r hr => Cost.le_sumRank hr⟩
  simpa using p.timeTerms_ne_nil

theorem time_complexity_eq_one_iff (p : Program) :
    p.complexity.time = "O(1)" ↔ (∀ f ∈ p.functions, f.isRecursive = false) ∧
      ∀ bounds ∈ p.loopBounds, bounds.growth = .constant := by
  have htext : p.complexity.time = "O(1)" ↔ p.time.growthTerm = "1" := by
    have hone : "O(1)" = "O(" ++ "1" ++ ")" := rfl
    rw [time_complexity, hone, String.append_left_inj, String.append_right_inj]
  have hterms : p.time.growthTerm = "1" ↔ ∀ t ∈ p.timeTerms, t.rank = 0 :=
    Cost.growthTerm_combineSum_eq_one_iff (fun t ht => isTime_of_mem_timeTerms ht)
      p.timeTerms_ne_nil
  have hblocks (hrec : ∀ f ∈ p.functions, f.isRecursive = false) :
      (∀ t ∈ p.timeTerms, t.rank = 0) ↔ ∀ bounds ∈ p.loopBounds, bounds.growth = .constant := by
    rw [timeTerms_of_not_isRecursive hrec, List.forall_mem_map, growth_constant_iff]
    refine forall₂_congr fun b _ => ?_
    rw [b.rank_time, Cost.exponentialRank]
    omega
  rw [htext, hterms]
  constructor
  · intro h
    have hrec : ∀ f ∈ p.functions, f.isRecursive = false := by
      intro f hf
      rw [← f.rank_time_lt_iff, h f.time (time_mem_timeTerms hf)]
      decide
    exact ⟨hrec, (hblocks hrec).mp h⟩
  · rintro ⟨hrec, hconst⟩
    exact (hblocks hrec).mpr hconst

/-- The program has all that `p` has: a function for each one of `p`, with statements added at most,
and the code at the top likewise. -/
structure GrowsTo (p q : Program) : Prop where
  functions : ∀ f ∈ p.functions, ∃ g ∈ q.functions,
    (f.isRecursive = true → g.isRecursive = true) ∧
      Statement.Extended f.body.statements g.body.statements
  topLevel : Statement.Extended p.topLevel.statements q.topLevel.statements

theorem GrowsTo.rank_le {p q : Program} (h : p.GrowsTo q) : p.time.rank ≤ q.time.rank := by
  obtain ⟨hfunctions, htop⟩ := rank_time_le_iff.mp (Nat.le_refl q.time.rank)
  refine rank_time_le_iff.mpr ⟨fun f hf => ?_, ?_⟩
  · obtain ⟨g, hg, hrec, hbody⟩ := h.functions f hf
    exact (Function.rank_time_le hrec hbody).trans (hfunctions g hg)
  · exact (Block.rank_time_le h.topLevel).trans htop

/-- More functions, in whatever order. -/
theorem growsTo_of_subset {p q : Program} (h : p.functions ⊆ q.functions)
    (htop : p.topLevel = q.topLevel) : p.GrowsTo q where
  functions f hf := ⟨f, h hf, id, .refl _⟩
  topLevel := by
    rw [htop]
    exact .refl _

theorem compareGrowth_time (p q : Program) :
    q.time.compareGrowth p.time = compare q.time.rank p.time.rank := by
  rw [Cost.compareGrowth, p.canonical_time.reduce_eq, q.canonical_time.reduce_eq]

end Program

/-- The time of a program is that of its dominant part: exponential with a recursive function, and
else of the greatest rank among its blocks. It is a constant if no loop grows, no function exceeds
it, more statements and functions never lower it, and the order of functions does not matter. -/
theorem program_time_dominant (p : Program) : ∃ cost, p.complexity.timeCost = some cost ∧
    (p.complexity.isExponential = true ↔ ∃ f ∈ p.functions, f.isRecursive = true) ∧
    ((∃ f ∈ p.functions, f.isRecursive = true) → p.complexity.time = "O(2^n)") ∧
    ((∀ f ∈ p.functions, f.isRecursive = false) →
      (p.blocks.map fun b => b.time.reduce.rank).max? = some cost.reduce.rank) ∧
    (p.complexity.time = "O(1)" ↔ (∀ f ∈ p.functions, f.isRecursive = false) ∧
      ∀ bounds ∈ p.loopBounds, bounds.growth = .constant) ∧
    (∀ f ∈ p.functions, f.time.compareGrowth cost ≠ .gt) ∧
    (∀ q : Program, p.GrowsTo q →
      ∃ cost', q.complexity.timeCost = some cost' ∧ cost'.compareGrowth cost ≠ .lt) ∧
    ∀ q : Program, p.functions.Perm q.functions → p.topLevel = q.topLevel →
      ∃ cost', q.complexity.timeCost = some cost' ∧ cost'.compareGrowth cost = .eq := by
  refine ⟨p.time, p.timeCost_eq, p.isExponential_complexity_iff, ?_, Program.max?_rank_blocks,
    p.time_complexity_eq_one_iff, fun f hf => ?_, fun q h => ⟨q.time, q.timeCost_eq, ?_⟩,
    fun q hperm htop => ⟨q.time, q.timeCost_eq, ?_⟩⟩
  · rintro ⟨f, hf, hrec⟩
    exact Program.time_complexity_of_isRecursive hf hrec
  · have hle := (Program.rank_time_le_iff.mp (Nat.le_refl p.time.rank)).1 f hf
    rw [Cost.compareGrowth, p.canonical_time.reduce_eq,
      (Program.isTime_function f).canonical.reduce_eq, Ne, Nat.compare_eq_gt]
    omega
  · have hle := h.rank_le
    rw [Program.compareGrowth_time, Ne, Nat.compare_eq_lt]
    omega
  · have hle := (Program.growsTo_of_subset hperm.subset htop).rank_le
    have hge := (Program.growsTo_of_subset hperm.symm.subset htop.symm).rank_le
    rw [Program.compareGrowth_time, Nat.compare_eq_eq]
    omega

/-- A halving loop in a function, and a loop over the input at the top. -/
def searching : Program :=
  { Program.ofBodies [.nestedLoops 0 1] with topLevel := .nestedLoops 1 0 }

/-- `searching` with a function that calls itself, and another loop inside the one at the top. -/
def searchingMore : Program :=
  { searching with
    functions := ⟨"g", [], .ofStatements [], [], true, false, ⟨0, 1⟩⟩ :: searching.functions
    topLevel := .nestedLoops 2 0 }

/-- The loop at the top dominates at first, and the recursion afterwards, wherever it stands. -/
theorem program_time_dominant_searching :
    ∃ before after last, searching.complexity.timeCost = some before ∧
      searchingMore.complexity.timeCost = some after ∧
      { searchingMore with functions := searchingMore.functions.reverse }.complexity.timeCost
        = some last ∧
      (searching.blocks.map fun b => b.time.reduce.rank).max? = some before.reduce.rank ∧
      searchingMore.complexity.time = "O(2^n)" ∧
      after.compareGrowth before ≠ .lt ∧ last.compareGrowth after = .eq := by
  have hgrows : searching.GrowsTo searchingMore :=
    ⟨fun f hf => ⟨f, List.mem_cons_of_mem _ hf, id, .refl _⟩, .inLoop _ _ _ (.added _ _)⟩
  obtain ⟨before, hbefore, -, -, hmax, -, -, hmore, -⟩ := program_time_dominant searching
  obtain ⟨after, hafter, -, hexp, -, -, -, -, hperm⟩ := program_time_dominant searchingMore
  obtain ⟨after', hafter', hle⟩ := hmore searchingMore hgrows
  obtain ⟨last, hlast, heq⟩ := hperm
    { searchingMore with functions := searchingMore.functions.reverse }
    (List.reverse_perm _).symm rfl
  obtain rfl : after = after' := Option.some_inj.mp (hafter.symm.trans hafter')
  refine ⟨before, after, last, hbefore, hafter, hlast, hmax ?_, hexp ?_, hle, heq⟩
  · decide
  · exact ⟨_, List.mem_cons_self .., rfl⟩

end CodeProfile
