import CodeProfile.Proofs.Complexity.Shape

/-!
# The time of a block, level by level

The levels of a block are the loosest loops at each depth, so the order
of its statements and the conditionals around them do not matter
(`levelsAll_reshaped`). Levels are ordered pointwise (`LevelsBelow`), and
a lower family of levels weighs less (`LevelsBelow.weight_le`). A chain of
nested loops may leave levels out, which the pointwise order does not
allow; its weight is bounded all the same (`LoopChain.weight_le`).

`time_levelwise` puts this together. The degree of `n` is a word, so a
time tells its levels apart up to what a word counts. No block that is
lowered from a built tree comes near that (`linearLevels_le_of_built`).
-/

namespace CodeProfile

namespace LoopGrowth

/-- How much a level counts in a rank. -/
def weight : LoopGrowth → Nat
  | constant => 0
  | logarithmic => 1
  | linear => 10

theorem max_comm (g h : LoopGrowth) : g.max h = h.max g := by
  cases g <;> cases h <;> rfl

theorem max_self (g : LoopGrowth) : g.max g = g := by
  cases g <;> rfl

theorem weight_le_of_max_eq {g h : LoopGrowth} (hmax : g.max h = h) : g.weight ≤ h.weight := by
  rw [← hmax]
  cases g <;> cases h <;> decide

theorem loosest_eq_none_iff {gs : List LoopGrowth} : loosest gs = none ↔ gs = [] := by
  cases gs with
  | nil => simp [loosest]
  | cons g gs => cases hgs : loosest gs <;> simp [loosest, hgs]

theorem max_of_loosest_eq_some {gs : List LoopGrowth} {g : LoopGrowth} (h : loosest gs = some g) :
    g ∈ gs ∧ ∀ h ∈ gs, h.max g = g := by
  induction gs generalizing g with
  | nil => cases h
  | cons x xs ih =>
      rw [List.forall_mem_cons, List.mem_cons]
      rw [loosest] at h
      cases hxs : loosest xs with
      | none =>
          obtain rfl : x = g := by simpa [hxs] using h
          simp [loosest_eq_none_iff.mp hxs, max_self]
      | some y =>
          obtain ⟨hmem, hall⟩ := ih hxs
          obtain rfl : x.max y = g := by simpa [hxs] using h
          refine ⟨?_, by rw [← max_assoc, max_self], fun h hh => ?_⟩
          · cases x <;> cases y <;> simp [max, hmem]
          · rw [max_comm x, ← max_assoc, hall h hh]

/-- The loosest growth is one of them, and none is looser. -/
theorem loosest_eq_some_iff {gs : List LoopGrowth} {g : LoopGrowth} :
    loosest gs = some g ↔ g ∈ gs ∧ ∀ h ∈ gs, h.max g = g := by
  refine ⟨max_of_loosest_eq_some, fun ⟨hg, hall⟩ => ?_⟩
  cases hgs : loosest gs with
  | none =>
      rw [loosest_eq_none_iff.mp hgs] at hg
      cases hg
  | some k =>
      obtain ⟨hk, hkall⟩ := max_of_loosest_eq_some hgs
      rw [← hall k hk, max_comm, hkall g hg]

end LoopGrowth

/-! ## The order of levels -/

theorem mergeLevels_comm (as bs : List LoopGrowth) : mergeLevels as bs = mergeLevels bs as := by
  refine List.ext_getElem? fun level => ?_
  rw [getElem?_mergeLevels, getElem?_mergeLevels]
  cases as[level]? <;> cases bs[level]? <;> simp [Option.merge, LoopGrowth.max_comm]

theorem mergeLevels_self (as : List LoopGrowth) : mergeLevels as as = as := by
  induction as with
  | nil => rfl
  | cons a as ih => rw [mergeLevels, ih, a.max_self]

/-- What a family of levels counts in a rank, before the ceiling. -/
def levelsWeight (gs : List LoopGrowth) : Nat := (gs.map LoopGrowth.weight).sum

theorem levelsWeight_cons (g : LoopGrowth) (gs : List LoopGrowth) :
    levelsWeight (g :: gs) = g.weight + levelsWeight gs := rfl

theorem levelsWeight_eq (gs : List LoopGrowth) :
    levelsWeight gs = 10 * gs.count .linear + gs.count .logarithmic := by
  induction gs with
  | nil => rfl
  | cons g gs ih =>
      rw [levelsWeight_cons, ih, List.count_cons, List.count_cons]
      cases g <;> simp [LoopGrowth.weight] <;> omega

/-- Each level of `as` is a level of `bs` too, where it is as loose. -/
def LevelsBelow (as bs : List LoopGrowth) : Prop := mergeLevels as bs = bs

namespace LevelsBelow

variable {as as' bs bs' cs : List LoopGrowth}

theorem nil (bs : List LoopGrowth) : LevelsBelow [] bs := by
  rw [LevelsBelow, mergeLevels]

theorem refl (as : List LoopGrowth) : LevelsBelow as as := mergeLevels_self as

theorem trans (h : LevelsBelow as bs) (h' : LevelsBelow bs cs) : LevelsBelow as cs := by
  unfold LevelsBelow at h h' ⊢
  rw [← h', ← Statement.mergeLevels_assoc, h]

theorem left (as bs : List LoopGrowth) : LevelsBelow as (mergeLevels as bs) := by
  rw [LevelsBelow, ← Statement.mergeLevels_assoc, mergeLevels_self]

theorem right (as bs : List LoopGrowth) : LevelsBelow bs (mergeLevels as bs) := by
  rw [mergeLevels_comm]
  exact left bs as

theorem cons (g : LoopGrowth) (h : LevelsBelow as bs) : LevelsBelow (g :: as) (g :: bs) := by
  rw [LevelsBelow, mergeLevels, h, g.max_self]

/-- Merged levels are the least above both. -/
theorem merge_le (h : LevelsBelow as cs) (h' : LevelsBelow bs cs) :
    LevelsBelow (mergeLevels as bs) cs := by
  rw [LevelsBelow, Statement.mergeLevels_assoc, h', h]

theorem merge (h : LevelsBelow as bs) (h' : LevelsBelow as' bs') :
    LevelsBelow (mergeLevels as as') (mergeLevels bs bs') :=
  merge_le (h.trans (left bs bs')) (h'.trans (right bs bs'))

theorem weight_le (h : LevelsBelow as bs) : levelsWeight as ≤ levelsWeight bs := by
  induction as, bs using mergeLevels.induct with
  | case1 bs => exact Nat.zero_le _
  | case2 as hne =>
      cases as with
      | nil => exact absurd rfl hne
      | cons a as => cases h
  | case3 a as b bs ih =>
      rw [LevelsBelow, mergeLevels, List.cons.injEq] at h
      rw [levelsWeight_cons, levelsWeight_cons]
      exact Nat.add_le_add (LoopGrowth.weight_le_of_max_eq h.1) (ih h.2)

end LevelsBelow

namespace Statement

theorem levelsAll_append (ss ts : List Statement) :
    levelsAll (ss ++ ts) = mergeLevels (levelsAll ss) (levelsAll ts) :=
  levels_inTurn.all_append () ss ts

theorem levelsBranches_eq (branches : List (List Statement)) :
    levelsBranches branches = levelsAll branches.flatten :=
  levels_inTurn.branches_eq () branches

theorem levelsAll_below {ss : List Statement} {bs : List LoopGrowth}
    (h : ∀ s ∈ ss, LevelsBelow (levels s) bs) : LevelsBelow (levelsAll ss) bs := by
  induction ss with
  | nil => exact .nil bs
  | cons s ss ih =>
      obtain ⟨hs, hss⟩ := List.forall_mem_cons.mp h
      exact hs.merge_le (ih hss)

theorem levelsAll_perm {ss ts : List Statement} (h : ss.Perm ts) : levelsAll ss = levelsAll ts := by
  induction h with
  | nil => rfl
  | cons s h ih => rw [levelsAll, ih, levelsAll]
  | swap s t ss =>
      rw [levelsAll, levelsAll, levelsAll, levelsAll, ← mergeLevels_assoc, ← mergeLevels_assoc,
        mergeLevels_comm (levels t)]
  | trans h h' ih ih' => exact ih.trans ih'

/-- Statements that differ in the order of the parts, and in conditionals taken apart into the
statements of their branches. -/
inductive Reshaped : List Statement → List Statement → Prop
  | permuted {ss ts} : ss.Perm ts → Reshaped ss ts
  | dissolved (o branches ss) : Reshaped (conditional o branches :: ss) (branches.flatten ++ ss)
  | inLoop (o bounds) {body body'} (ss) :
      Reshaped body body' → Reshaped (loop o bounds body :: ss) (loop o bounds body' :: ss)
  | inBranch (o before) {branch branch'} (after ss) : Reshaped branch branch' →
      Reshaped (conditional o (before ++ branch :: after) :: ss)
        (conditional o (before ++ branch' :: after) :: ss)
  | symm {ss ts} : Reshaped ss ts → Reshaped ts ss
  | trans {ss ts us} : Reshaped ss ts → Reshaped ts us → Reshaped ss us

theorem levelsAll_reshaped {ss ts : List Statement} (h : Reshaped ss ts) :
    levelsAll ss = levelsAll ts := by
  induction h with
  | permuted h => exact levelsAll_perm h
  | dissolved o branches ss => rw [levelsAll, levels, levelsBranches_eq, levelsAll_append]
  | inLoop o bounds ss _ ih => rw [levelsAll, levels, ih, levelsAll, levels]
  | inBranch o before after ss _ ih =>
      rw [levelsAll, levels, levelsBranches_eq, levelsAll, levels, levelsBranches_eq]
      simp only [List.flatten_append, List.flatten_cons, levelsAll_append, ih]
  | symm _ ih => exact ih.symm
  | trans _ _ ih ih' => exact ih.trans ih'

/-- The loops among statements, each with something read off its head. -/
theorem mem_filterMap_loop {β : Type} (f : Origin → LoopBounds → β) {ss : List Statement} {y : β} :
    (y ∈ ss.filterMap fun s => match s with
      | loop o bounds _ => some (f o bounds)
      | _ => none) ↔ ∃ o bounds body, loop o bounds body ∈ ss ∧ f o bounds = y := by
  rw [List.mem_filterMap]
  constructor
  · rintro ⟨s, hs, h⟩
    cases s with
    | loop o bounds body => exact ⟨o, bounds, body, hs, Option.some_inj.mp h⟩
    | _ => cases h
  · rintro ⟨o, bounds, body, hs, rfl⟩
    exact ⟨_, hs, rfl⟩

/-! ## Chains of loops -/

theorem levels_below_levelsAll {s : Statement} {ss : List Statement} (h : s ∈ ss) :
    LevelsBelow (levels s) (levelsAll ss) := by
  induction ss with
  | nil => cases h
  | cons t ss ih =>
      rcases List.mem_cons.mp h with rfl | h
      · exact .left _ _
      · exact (ih h).trans (.right _ _)

theorem weight_inner_le (s : Statement) :
    levelsWeight (levelsAll s.inner) ≤ levelsWeight (levels s) := by
  cases s with
  | loop o bounds body => exact Nat.le_add_left _ _
  | conditional o branches => rw [inner, levels, levelsBranches_eq]
  | call o callee r => exact Nat.zero_le _
  | allocation o d => exact Nat.zero_le _
  | simple o kind => exact Nat.zero_le _

theorem weight_le_of_mem_walk {s t : Statement} (h : s ∈ walk t) :
    levelsWeight (levels s) ≤ levelsWeight (levels t) := by
  induction t using inner_induction with
  | step t ih =>
      rw [walk_eq, walkAll_eq, List.mem_cons, List.mem_flatMap] at h
      rcases h with rfl | ⟨i, hi, hs⟩
      · exact Nat.le_refl _
      · calc levelsWeight (levels s) ≤ levelsWeight (levels i) := ih i hi hs
          _ ≤ levelsWeight (levelsAll t.inner) := (levels_below_levelsAll hi).weight_le
          _ ≤ levelsWeight (levels t) := weight_inner_le t

theorem weight_le_of_mem_walkAll {s : Statement} {ss : List Statement} (h : s ∈ walkAll ss) :
    levelsWeight (levels s) ≤ levelsWeight (levelsAll ss) := by
  rw [walkAll_eq, List.mem_flatMap] at h
  obtain ⟨t, ht, hs⟩ := h
  exact (weight_le_of_mem_walk hs).trans (levels_below_levelsAll ht).weight_le

/-- The bounds of loops that stand one inside the other, at any depth. -/
inductive LoopChain : List Statement → List LoopBounds → Prop
  | nil (ss) : LoopChain ss []
  | cons {o bounds body ss chain} :
      loop o bounds body ∈ walkAll ss → LoopChain body chain → LoopChain ss (bounds :: chain)

theorem LoopChain.weight_le {ss : List Statement} {chain : List LoopBounds}
    (h : LoopChain ss chain) :
    levelsWeight (chain.map LoopBounds.growth) ≤ levelsWeight (levelsAll ss) := by
  induction h with
  | nil ss => exact Nat.zero_le _
  | @cons o bounds body ss chain hmem _ ih =>
      calc levelsWeight ((bounds :: chain).map LoopBounds.growth)
          = bounds.growth.weight + levelsWeight (chain.map LoopBounds.growth) := rfl
        _ ≤ bounds.growth.weight + levelsWeight (levelsAll body) := Nat.add_le_add_left ih _
        _ = levelsWeight (levels (loop o bounds body)) := rfl
        _ ≤ levelsWeight (levelsAll ss) := weight_le_of_mem_walkAll hmem

end Statement

/-! ## Times -/

namespace Cost

theorem rank_product_map_cost (gs : List LoopGrowth) :
    (product (gs.map LoopGrowth.cost)).reduce.rank =
      min (levelsWeight gs) (exponentialRank - 1) := by
  rw [reduce_product_map_cost, rank_monomial, levelsWeight_eq]

theorem growthTerm_monomial_eq_iff {a b a' b' : Nat} :
    (monomial a b).growthTerm = (monomial a' b').growthTerm ↔
      min a maxWord32 = min a' maxWord32 ∧ b = b' := by
  constructor
  · intro h
    refine ⟨?_, ?_⟩
    · rw [← toNat_degreeWord, ← toNat_degreeWord, degreeWord_eq_of_growthTerm_eq h]
    · rw [← count_growthTerm_monomial a b, h, count_growthTerm_monomial]
  · rintro ⟨ha, rfl⟩
    have hword : degreeWord a = degreeWord a' := by
      rw [← UInt32.toNat_inj, toNat_degreeWord, toNat_degreeWord, ha]
    rw [monomial_congr hword]

end Cost

namespace Block

theorem weight_eq (b : Block) : b.weight = levelsWeight (Statement.levelsAll b.statements) := by
  rw [levelsWeight_eq, Statement.count_linear_levelsAll, Statement.count_logarithmic_levelsAll,
    weight, linearLevels, logarithmicLevels]

theorem bigO_time_eq_iff (b c : Block) :
    b.time.bigO = c.time.bigO ↔
      min b.linearLevels maxWord32 = min c.linearLevels maxWord32 ∧
        b.logarithmicLevels = c.logarithmicLevels := by
  have hterms : b.time.bigO = c.time.bigO ↔ b.time.growthTerm = c.time.growthTerm := by
    rw [Cost.bigO, Cost.bigO, b.canonical_time.reduce_eq, c.canonical_time.reduce_eq,
      String.append_left_inj, String.append_right_inj]
  rw [hterms, time_eq_monomial, time_eq_monomial, Cost.growthTerm_monomial_eq_iff]

/-- The product of as many factors as there are levels. -/
theorem reduce_product_replicate (b : Block) :
    (Cost.product (List.replicate b.linearLevels .n
      ++ List.replicate b.logarithmicLevels .logN)).reduce = b.time := by
  have hcosts (a l : Nat) : List.replicate a Cost.n ++ List.replicate l Cost.logN =
      (List.replicate a LoopGrowth.linear
        ++ List.replicate l LoopGrowth.logarithmic).map LoopGrowth.cost := by
    rw [List.map_append, List.map_replicate, List.map_replicate]
    rfl
  rw [hcosts, Cost.reduce_product_map_cost, time_eq_monomial, List.count_append, List.count_append,
    List.count_replicate_self, List.count_replicate_self, List.count_replicate,
    List.count_replicate]
  simp

theorem compareGrowth_chain_ne_gt {b : Block} {chain : List LoopBounds}
    (h : Statement.LoopChain b.statements chain) :
    (Cost.product (chain.map fun bounds => bounds.growth.cost)).compareGrowth b.time ≠ .gt := by
  have hcosts : chain.map (fun bounds => bounds.growth.cost) =
      (chain.map LoopBounds.growth).map LoopGrowth.cost := by
    rw [List.map_map]
    rfl
  have hle := h.weight_le
  rw [← weight_eq] at hle
  rw [Cost.compareGrowth, hcosts, Cost.rank_product_map_cost, b.canonical_time.reduce_eq, rank_time,
    Ne, Nat.compare_eq_gt]
  omega

/-- The levels are told by how the time is written, as far as a word counts them. -/
theorem bigO_time_eq_iff_of_le {b c : Block} (hb : b.linearLevels ≤ maxWord32)
    (hc : c.linearLevels ≤ maxWord32) :
    b.time.bigO = c.time.bigO ↔
      b.linearLevels = c.linearLevels ∧ b.logarithmicLevels = c.logarithmicLevels := by
  rw [bigO_time_eq_iff, Nat.min_eq_left hb, Nat.min_eq_left hc]

/-- A built tree is not high enough for more levels than a word counts. -/
theorem linearLevels_le_of_built {a : Adapter} {t : SyntaxTree} (ht : t.Built) {b : Block}
    (hb : b ∈ (a.program t).blocks) : b.linearLevels ≤ maxWord32 :=
  calc b.linearLevels
      ≤ b.linearLevels + b.logarithmicLevels := Nat.le_add_right _ _
    _ ≤ b.loopDepth := b.levels_le_loopDepth
    _ ≤ maxTreeDepth := Adapter.loopDepth_le_of_built ht hb
    _ ≤ maxWord32 := by decide

theorem time_eq_one_iff (b : Block) :
    b.time = .one ↔ b.linearLevels = 0 ∧ b.logarithmicLevels = 0 := by
  constructor
  · intro h
    rw [time_eq_monomial] at h
    have hterm := congrArg Cost.growthTerm h
    have hone : Cost.one.growthTerm = (Cost.monomial 0 0).growthTerm := rfl
    rw [hone, Cost.growthTerm_monomial_eq_iff, maxWord32] at hterm
    omega
  · rintro ⟨ha, hl⟩
    rw [time_eq_monomial, ha, hl]
    rfl

end Block

/-- The levels of a block are its loosest loops, depth by depth. Its time is the power of `n` and of
`log n` with the linear and the logarithmic levels as degrees, and different degrees are written
differently. That asks for a word that holds the linear levels, as it does in every program lowered
from a built tree. Neither reordering nor taking conditionals apart changes the time, and no chain
of nested loops exceeds it. -/
theorem time_levelwise (b : Block) :
    (Statement.levelsAll b.statements).length = b.loopDepth ∧
    (∀ level g, (Statement.levelsAll b.statements)[level]? = some g ↔
      g ∈ Statement.loopsAtAll b.statements level ∧
        ∀ h ∈ Statement.loopsAtAll b.statements level, h.max g = g) ∧
    (b.time = (Cost.product (List.replicate b.linearLevels .n
        ++ List.replicate b.logarithmicLevels .logN)).reduce ∧
      b.time = Cost.monomial b.linearLevels b.logarithmicLevels ∧
      (b.time = .one ↔ b.linearLevels = 0 ∧ b.logarithmicLevels = 0)) ∧
    ((∀ c : Block, b.linearLevels ≤ maxWord32 → c.linearLevels ≤ maxWord32 →
        (b.time.bigO = c.time.bigO ↔
          b.linearLevels = c.linearLevels ∧ b.logarithmicLevels = c.logarithmicLevels)) ∧
      ∀ (a : Adapter) (t : SyntaxTree), t.Built → b ∈ (a.program t).blocks →
        b.linearLevels ≤ maxWord32) ∧
    (∀ c : Block, Statement.Reshaped b.statements c.statements → c.time = b.time) ∧
    ∀ chain, Statement.LoopChain b.statements chain →
      (Cost.product (chain.map fun bounds => bounds.growth.cost)).compareGrowth b.time ≠ .gt := by
  refine ⟨Statement.length_levelsAll _, fun level g => ?_,
    ⟨b.reduce_product_replicate.symm, b.time_eq_monomial, b.time_eq_one_iff⟩,
    ⟨fun c hb hc => Block.bigO_time_eq_iff_of_le hb hc,
      fun a t ht hb => Block.linearLevels_le_of_built ht hb⟩,
    fun c h => ?_, fun chain h => Block.compareGrowth_chain_ne_gt h⟩
  · rw [Statement.getElem?_levelsAll, LoopGrowth.loosest_eq_some_iff]
  · rw [Block.time, Block.time, Statement.levelsAll_reshaped h]

/-- Two nested loops over inputs, where the inner one has a halving loop as alternative. -/
def branchedLoops : Block := .ofStatements
  [.loop ⟨0, 1⟩ (.input "n") [.conditional ⟨1, 2⟩
    [[.loop ⟨2, 3⟩ (.logarithmic none) []], [.loop ⟨3, 5⟩ (.input "m") []]]]]

/-- The conditional can be taken apart, a chain through its halving loop stays below, and a halving
loop for the second level is written differently. -/
theorem time_levelwise_branchedLoops :
    (Block.ofStatements [.loop ⟨0, 1⟩ (.input "n")
      [.loop ⟨2, 3⟩ (.logarithmic none) [], .loop ⟨3, 5⟩ (.input "m") []]]).time
        = branchedLoops.time ∧
    (Cost.product [.n, .logN]).compareGrowth branchedLoops.time ≠ .gt ∧
    branchedLoops.time ≠ .one ∧
    branchedLoops.time.bigO ≠ (Block.nestedLoops 1 1).time.bigO := by
  obtain ⟨-, -, ⟨-, -, hone⟩, ⟨hdistinct, -⟩, hreshaped, hchain⟩ := time_levelwise branchedLoops
  refine ⟨hreshaped _ ?_, ?_, ?_, ?_⟩
  · exact .inLoop _ _ _ (.dissolved _ _ [])
  · refine hchain [.input "n", .logarithmic none] (.cons (List.mem_cons_self ..) ?_)
    exact .cons (List.mem_cons_of_mem _ (List.mem_cons_self ..)) (.nil _)
  · rw [Ne, hone]
    decide
  · rw [Ne, hdistinct _ (by decide) (by decide)]
    decide

end CodeProfile
