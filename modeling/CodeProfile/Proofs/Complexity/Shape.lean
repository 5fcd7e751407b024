import CodeProfile.Complexity.TreeShape
import CodeProfile.Proofs.Complexity.Bare
import CodeProfile.Proofs.Complexity.Dominance
import CodeProfile.Proofs.Lowering.Completeness
import CodeProfile.Proofs.Tree.Lossless

/-!
# The shape of a tree bounds its program

Without an adapter only the nesting of loop nodes counts. That never
gives less than the program of the tree does: where no function is
recursive and no call became a loop, the time of the program is not
above that of the shape, neither by rank nor as it grows
(`program_within_shape`).

The one induction is `LevelBound.loopDepthAll_lower_le`. A reading takes
only places below, so each level of statements uses up a level of nodes.
Counted in loop nodes, what a place is lowered to has at most as many
levels of loops as loop nodes are nested below it, and one more if the
place is a loop itself. Counted in all nodes, no block has more levels
than its tree (`loopDepth_le_of_built`). The rest is arithmetic on monomials:
a block of `d` levels has at most `d` factors, and each of them grows at
most as `n` does.
-/

namespace CodeProfile

open Asymptotics Filter

/-! ## Loop nodes -/

namespace Node

/-- How deep loop nodes are nested at and below a node. -/
def loopNest (n : Node) : Nat := n.maxLoopDepth + if isAnyLoopKind n.info.kind then 1 else 0

theorem maxLoopDepthAll_le_iff {cs : List Node} {d : Nat} :
    maxLoopDepthAll cs ≤ d ↔ ∀ c ∈ cs, c.loopNest ≤ d := by
  induction cs with
  | nil => simp [maxLoopDepthAll]
  | cons c cs ih => rw [maxLoopDepthAll, Nat.max_le, ih, List.forall_mem_cons, loopNest]

mutual

theorem maxLoopDepth_lt_height : ∀ n : Node, n.maxLoopDepth < n.height
  | mk _ children => Nat.lt_succ_of_le (maxLoopDepthAll_le_heightAll children)

theorem maxLoopDepthAll_le_heightAll : ∀ cs : List Node, maxLoopDepthAll cs ≤ heightAll cs
  | [] => Nat.le_refl _
  | c :: cs => by
      have hc := maxLoopDepth_lt_height c
      have hcs := maxLoopDepthAll_le_heightAll cs
      rw [maxLoopDepthAll, heightAll]
      split <;> omega

end

end Node

namespace Place

/-- What holds from child to parent holds from any place below: `own` is
what a place adds to what is `inside` it. -/
theorem add_le_of_mem_below {inside own : Place → Nat}
    (h : ∀ {x c : Place}, c ∈ x.children → inside c + own c ≤ inside x) {p q : Place}
    (hq : q ∈ p.below) : inside q + own q ≤ inside p := by
  induction p using children_induction with
  | step p ih =>
      obtain ⟨c, hc, hqc⟩ := mem_below.mp hq
      have hcp := h hc
      rcases mem_descendants.mp hqc with rfl | hqc
      · exact hcp
      · have hqc := ih c hc hqc
        omega

theorem le_of_mem_descendants {inside own : Place → Nat}
    (h : ∀ {x c : Place}, c ∈ x.children → inside c + own c ≤ inside x) {p q : Place}
    (hq : q ∈ p.descendants) : inside q ≤ inside p := by
  rcases mem_descendants.mp hq with rfl | hq
  · exact Nat.le_refl _
  · exact Nat.le_trans (Nat.le_add_right _ _) (add_le_of_mem_below h hq)

variable {p x : Place}

theorem loopNest_le_of_mem_children (h : x ∈ p.children) :
    x.node.loopNest ≤ p.node.maxLoopDepth := by
  obtain ⟨n, hn, rfl⟩ := List.mem_map.mp h
  obtain ⟨⟨info, cs⟩, above⟩ := p
  exact Node.maxLoopDepthAll_le_iff.mp (Nat.le_refl _) n hn

theorem maxLoopDepth_le_of_mem_descendants (h : x ∈ p.descendants) :
    x.node.maxLoopDepth ≤ p.node.maxLoopDepth :=
  le_of_mem_descendants loopNest_le_of_mem_children h

end Place

/-- Loop nodes of a built tree are not nested deeper than a tree can be. -/
theorem SyntaxTree.Built.maxLoopDepth_lt {t : SyntaxTree} (h : t.Built) :
    t.rootNode.maxLoopDepth < maxTreeDepth :=
  Nat.lt_of_lt_of_le (Node.maxLoopDepth_lt_height _) h.height_le

/-! ## Loops in statements -/

namespace Statement

theorem loopDepthAll_le_iff {ss : List Statement} {d : Nat} :
    loopDepthAll ss ≤ d ↔ ∀ s ∈ ss, s.loopDepth ≤ d := by
  induction ss with
  | nil => simp [loopDepthAll]
  | cons s ss ih => rw [loopDepthAll, Nat.max_le, ih, List.forall_mem_cons]

/-- Branches nest loops as deep as one block of all their statements. -/
theorem loopDepthBranches_eq (branches : List (List Statement)) :
    loopDepthBranches branches = loopDepthAll branches.flatten := by
  rw [← length_levelsBranches, levels_inTurn.branches_eq (), length_levelsAll]

theorem loopDepthAll_flatMap_le {qs : List Place} {f : Place → List Statement} {d : Nat}
    (h : ∀ q ∈ qs, loopDepthAll (f q) ≤ d) : loopDepthAll (qs.flatMap f) ≤ d := by
  rw [loopDepthAll_le_iff]
  intro s hs
  obtain ⟨q, hq, hsq⟩ := List.mem_flatMap.mp hs
  exact loopDepthAll_le_iff.mp (h q hq) s hsq

mutual

theorem loopDepth_markRecursive (name : String) :
    ∀ s : Statement, (markRecursive name s).loopDepth = s.loopDepth
  | loop _ _ body => by rw [markRecursive, loopDepth, loopDepthAll_markRecursiveAll, loopDepth]
  | conditional _ branches => by
      rw [markRecursive, loopDepth, loopDepthBranches_markRecursiveBranches, loopDepth]
  | call .. => rfl
  | allocation .. => rfl
  | simple .. => rfl

theorem loopDepthAll_markRecursiveAll (name : String) :
    ∀ ss : List Statement, loopDepthAll (markRecursiveAll name ss) = loopDepthAll ss
  | [] => rfl
  | s :: ss => by
      rw [markRecursiveAll, loopDepthAll, loopDepth_markRecursive, loopDepthAll_markRecursiveAll,
        loopDepthAll]

theorem loopDepthBranches_markRecursiveBranches (name : String) :
    ∀ branches : List (List Statement),
      loopDepthBranches (markRecursiveBranches name branches) = loopDepthBranches branches
  | [] => rfl
  | b :: bs => by
      rw [markRecursiveBranches, loopDepthBranches, loopDepthAll_markRecursiveAll,
        loopDepthBranches_markRecursiveBranches, loopDepthBranches]

end

end Statement

namespace StatementHead

/-- How many levels of loops a statement adds to what stands inside. -/
def level : StatementHead → Nat
  | loop _ => 1
  | _ => 0

theorem level_le_one (head : StatementHead) : head.level ≤ 1 := by
  cases head with
  | loop bounds => exact Nat.le_refl _
  | _ => exact Nat.zero_le _

theorem loopDepth_statement_le (head : StatementHead) (o : Origin) (inInput : Bool)
    (blocks : List (List Statement)) :
    (head.statement o inInput blocks).loopDepth
      ≤ Statement.loopDepthAll blocks.flatten + head.level := by
  cases head with
  | loop bounds => exact Nat.le_refl _
  | conditional =>
      rw [statement, Statement.loopDepth, Statement.loopDepthBranches_eq]
      exact Nat.le_refl _
  | call callee => exact Nat.zero_le _
  | allocation sizeDependent => exact Nat.zero_le _
  | simple kind => exact Nat.zero_le _

end StatementHead

/-! ## Lowering adds no level -/

namespace Adapter

open Place

variable {a : Adapter} {p : Place} {t : SyntaxTree}

/-- A bound on levels of loops for what is visited from a place: `inside`
for what comes from below a place, `own` for what the place adds itself. -/
structure LevelBound (a : Adapter) (inside own : Place → Nat) (p : Place) : Prop where
  children_le : ∀ {x c : Place}, c ∈ x.children → inside c + own c ≤ inside x
  head_le : ∀ x ∈ a.visited p, ∀ {head before blocks},
    a.reading x = .statement head before blocks → head.level ≤ own x

namespace LevelBound

variable {inside own : Place → Nat}

theorem of_mem_visited {x : Place} (h : a.LevelBound inside own p) (hx : x ∈ a.visited p) :
    a.LevelBound inside own x where
  children_le := h.children_le
  head_le y hy := h.head_le y (visited_trans hx hy)

theorem of_mem_reading {q : Place} (h : a.LevelBound inside own p)
    (hq : q ∈ (a.reading p).places) : a.LevelBound inside own q :=
  h.of_mem_visited (mem_visited.mpr (Or.inr ⟨q, hq, self_mem_visited a q⟩))

/-- The parts of a reading lie below the place, so their levels and those
inside them count for it. -/
theorem loopDepthAll_parts_le (h : a.LevelBound inside own p) (hs : p.Sound)
    (hparts : ∀ q ∈ (a.reading p).places, ∀ inInput,
      Statement.loopDepthAll (a.lower inInput q).statements ≤ inside q + own q)
    (inInput : Bool) {qs : List Place} (hqs : qs ⊆ (a.reading p).places) :
    Statement.loopDepthAll (qs.flatMap fun q => (a.lower inInput q).statements) ≤ inside p :=
  Statement.loopDepthAll_flatMap_le fun q hq => by
    have hbelow := mem_below_of_mem_reading hs (hqs hq) (self_mem_descendants q)
    exact Nat.le_trans (hparts q (hqs hq) inInput) (add_le_of_mem_below h.children_le hbelow)

/-- The statements of a place are not nested deeper in loops than bounded. -/
theorem loopDepthAll_lower_le (h : a.LevelBound inside own p) (hs : p.Sound) (inInput : Bool) :
    Statement.loopDepthAll (a.lower inInput p).statements ≤ inside p + own p := by
  induction p using a.reading_induction generalizing inInput with
  | step p ih =>
      have hparts := h.loopDepthAll_parts_le hs fun q hq =>
        ih q hq (h.of_mem_reading hq) (sound_of_mem_reading hs hq)
      cases hr : a.reading p with
      | through parts =>
          rw [lower_through hr, Lowered.concat, List.flatMap_map]
          exact Nat.le_add_right_of_le
            (hparts inInput (by rw [hr]; exact List.Subset.refl _))
      | function body =>
          rw [lower_function hr]
          exact Nat.zero_le _
      | statement head before blocks =>
          have hfirst := hparts inInput (by rw [hr]; exact List.subset_append_left before _)
          have hinside := hparts (inInput || head.opensInput)
            (by rw [hr]; exact List.subset_append_right before blocks.flatten)
          rw [lower_statement hr, Statement.loopDepthAll_le_iff]
          intro s hmem
          rcases List.mem_append.mp hmem with hmem | hmem
          · exact Nat.le_add_right_of_le (Statement.loopDepthAll_le_iff.mp hfirst s hmem)
          · rw [List.mem_singleton.mp hmem]
            refine Nat.le_trans (StatementHead.loopDepth_statement_le ..) ?_
            rw [← List.flatMap_def, ← flatten_flatMap]
            exact Nat.add_le_add hinside (h.head_le p (self_mem_visited a p) hr)

theorem loopDepth_functionAt_le (h : a.LevelBound inside own p) (hs : p.Sound) :
    (a.functionAt p).body.loopDepth ≤ inside p := by
  have hbody : Statement.loopDepthAll
      ((a.reading p).bodyParts.flatMap fun q => (a.lower false q).statements) ≤ inside p :=
    h.loopDepthAll_parts_le hs (fun q hq =>
      (h.of_mem_reading hq).loopDepthAll_lower_le (sound_of_mem_reading hs hq)) false
      (Reading.bodyParts_subset _)
  simp only [functionAt, Lowered.toFunction, Lowered.concat, Block.loopDepth, Block.ofStatements,
    List.flatMap_map]
  split
  next => rwa [Statement.loopDepthAll_markRecursiveAll]
  next => exact hbody

/-- The bodies of functions and the code at the top are not nested deeper
in loops than bounded at the root. -/
theorem loopDepth_le_of_mem_blocks (h : a.LevelBound inside own t.root) (hs : t.root.Sound)
    {b : Block} (hb : b ∈ (a.program t).blocks) :
    b.loopDepth ≤ inside t.root + own t.root := by
  rcases List.mem_append.mp hb with hb | hb
  · obtain ⟨f, hf, rfl⟩ := List.mem_map.mp hb
    obtain ⟨g, hg, -, -, hbody, -⟩ := a.exists_place_of_function t hf
    have hgt := mem_descendants_of_mem_visited hs hg
    rw [hbody]
    exact Nat.le_add_right_of_le (Nat.le_trans
      ((h.of_mem_visited hg).loopDepth_functionAt_le (hs.of_mem hgt))
      (le_of_mem_descendants h.children_le hgt))
  · rw [List.mem_singleton.mp hb]
    exact h.loopDepthAll_lower_le hs false

end LevelBound

/-- Each place adds a level at most, so levels are bounded by the height. -/
theorem levelBound_height (a : Adapter) (p : Place) :
    a.LevelBound (fun x => x.node.height - 1) (fun _ => 1) p where
  children_le {x c} hc := by
    have hlt := (height_of_mem_children hc).2
    have hpos := c.node.height_pos
    omega
  head_le _ _ {head _ _} _ := head.level_le_one

/-- No block of a built tree has more levels of loops than the tree has
levels. -/
theorem loopDepth_le_of_built (ht : t.Built) {b : Block} (hb : b ∈ (a.program t).blocks) :
    b.loopDepth ≤ maxTreeDepth := by
  have hle := (a.levelBound_height t.root).loopDepth_le_of_mem_blocks ht.sound hb
  have hheight := ht.height_le
  have hpos := t.rootNode.height_pos
  simp only [SyntaxTree.root] at hle
  omega

/-- No call of the tree became a loop. -/
def KeepsCalls (a : Adapter) (t : SyntaxTree) : Prop :=
  ∀ p ∈ t.places, a.classify p = some .call →
    ∀ s ∈ (a.program t).statements, ∀ bounds, s.entry ≠ (p.id, .loop bounds)

/-- No call that is visited from the place is read as a loop. -/
def CallsStay (a : Adapter) (p : Place) : Prop :=
  ∀ x ∈ a.visited p, a.classify x = some .call → ∀ arguments, ¬ a.Iterates x arguments

theorem KeepsCalls.callsStay (h : a.KeepsCalls t) (hsound : t.root.Sound) : a.CallsStay t.root := by
  intro x hx hclass arguments hit
  have he : a.entryAt x = some (x.id, .loop (a.iterationBounds x arguments)) :=
    entryAt_of_statement (reading_of_iterates hclass hit)
  obtain ⟨s, hs, hentry⟩ := exists_statement_of_visited hx he
  exact h x (mem_descendants_of_mem_visited hsound hx) hclass s hs _ hentry

/-- The levels that a place itself can add. -/
def ownLevel (a : Adapter) (p : Place) : Nat := if a.classify p = some .loop then 1 else 0

theorem kinds_mem_allNodeKinds {l : Language} (h : ofLanguage? l = some a) :
    a.kinds ∈ allNodeKinds := by
  cases l <;> cases h <;>
    first
    | exact .head _
    | exact .tail _ (.head _)
    | exact .tail _ (.tail _ (.head _))
    | exact .tail _ (.tail _ (.tail _ (.head _)))
    | exact .tail _ (.tail _ (.tail _ (.tail _ (.head _))))

theorem isLoop_of_classify (h : a.classify p = some .loop) : a.kinds.isLoop p.kind = true := by
  have past {c : Prop} [Decidable c] {cls : NodeClass} {rest : Option NodeClass}
      (hc : (if c then some cls else rest) = some .loop) (hne : cls ≠ .loop) :
      rest = some .loop := by
    split at hc
    · exact absurd (Option.some.inj hc) hne
    · exact hc
  refine Bool.of_not_eq_false fun hno => ?_
  by_cases hnone : (!p.isNamed || p.isError) = true
  · rw [classify, if_pos hnone] at h
    cases h
  · rw [classify, if_neg hnone] at h
    have hloop := past h (by decide)
    rw [hno, if_neg Bool.false_ne_true] at hloop
    -- No class that comes after loops is `loop`, so nothing is left.
    have hcall := past (past hloop (by decide)) (by decide)
    have hbreak := past (past hcall (by decide)) (by decide)
    have hassignment := past (past hbreak (by decide)) (by decide)
    have hexpression := past (past hassignment (by decide)) (by decide)
    cases past hexpression (by decide)

/-- Only a loop is read as one, as long as calls stay calls. -/
theorem level_le_ownLevel {x : Place} (h : a.CallsStay p) (hx : x ∈ a.visited p)
    {head : StatementHead} {before : List Place} {inside : List (List Place)}
    (hr : a.reading x = .statement head before inside) : head.level ≤ a.ownLevel x := by
  have hit := h x hx
  have hreads := a.reads x
  rw [ownLevel]
  generalize a.classify x = cls, a.reading x = r at hreads hr hit
  subst hr
  cases hreads with
  | loop => exact Nat.le_refl _
  | iteration hits => exact absurd hits (hit rfl _)
  | conditional => exact Nat.zero_le _
  | call => exact Nat.zero_le _
  | allocation => exact Nat.zero_le _
  | simple => exact Nat.zero_le _

section Bounds

variable (hk : a.kinds ∈ allNodeKinds)
include hk

theorem isAnyLoopKind_of_classify (h : a.classify p = some .loop) :
    isAnyLoopKind p.kind = true := by
  rw [isAnyLoopKind, Bool.or_eq_true]
  exact Or.inr (List.any_eq_true.mpr ⟨a.kinds, hk, isLoop_of_classify h⟩)

/-- What is a loop to the adapter is a loop node. -/
theorem ownLevel_le (p : Place) :
    p.node.maxLoopDepth + a.ownLevel p ≤ p.node.loopNest := by
  rw [ownLevel, Node.loopNest]
  split
  next h =>
    have hkind : isAnyLoopKind p.node.info.kind = true := isAnyLoopKind_of_classify hk h
    rw [if_pos hkind]
  next => exact Nat.le_add_right _ _

/-- Without calls that became loops, levels are bounded by loop nodes. -/
theorem levelBound_maxLoopDepth (hc : a.CallsStay p) :
    a.LevelBound (·.node.maxLoopDepth) a.ownLevel p where
  children_le {_ c} hcx := Nat.le_trans (ownLevel_le hk c) (loopNest_le_of_mem_children hcx)
  head_le _ hx {_ _ _} hr := level_le_ownLevel hc hx hr

/-- The bodies of functions and the code at the top nest loops no deeper
than the tree nests loop nodes. -/
theorem loopDepth_le_maxLoopDepth (hs : t.root.Sound) (hc : a.CallsStay t.root)
    (hroot : a.classify t.root ≠ some .loop) {b : Block} (hb : b ∈ (a.program t).blocks) :
    b.loopDepth ≤ t.rootNode.maxLoopDepth := by
  have hle := (levelBound_maxLoopDepth hk hc).loopDepth_le_of_mem_blocks hs hb
  rwa [ownLevel, if_neg hroot] at hle

end Bounds

end Adapter

/-! ## Monomials of a degree -/

namespace Cost

/-- The cost is not above another, neither by rank nor as it grows. -/
structure Within (t u : Cost) : Prop where
  rank_le : t.rank ≤ u.rank
  isBigO : t.growth =O[atTop] u.growth

theorem isBigO_growth_monomial_of_le {a b d : Nat} (h : a + b ≤ d) (hd : d ≤ maxWord32) :
    (monomial a b).growth =O[atTop] (monomial d 0).growth := by
  have hpow {c : Nat} (hc : c ≤ d) : (fun x : ℝ => x ^ c) =O[atTop] (monomial d 0).growth := by
    rw [funext (growth_monomial d 0), Nat.min_eq_left hd]
    exact isBigO_pow_of_le hc 0
  rw [funext (growth_monomial a b), Nat.min_eq_left (by omega)]
  cases b with
  | zero => simpa only [pow_zero, mul_one] using hpow (Nat.le_trans (Nat.le_add_right a 0) h)
  | succ b => exact (isLittleO_pow_mul_logb a (b + 1)).isBigO.trans (hpow (by omega))

theorem within_monomial {a b d : Nat} (h : a + b ≤ d) (hd : d ≤ maxWord32) :
    (monomial a b).Within (monomial d 0) where
  rank_le := by
    rw [rank_monomial, rank_monomial]
    omega
  isBigO := isBigO_growth_monomial_of_le h hd

theorem within_exponential (a b : Nat) : (monomial a b).Within (exponential 2 inputSize) where
  rank_le := Nat.le_of_lt (rank_monomial_lt a b)
  isBigO := isBigO_growth_monomial_exponential a b

theorem isBigO_ofTerms_of_forall {ts : List Cost} {g : ℝ → ℝ}
    (h : ∀ t ∈ ts, t.growth =O[atTop] g) : (ofTerms ts).growth =O[atTop] g := by
  rw [funext (growth_ofTerms ts)]
  induction ts with
  | nil => exact isBigO_zero g atTop
  | cons t ts ih =>
      obtain ⟨ht, hts⟩ := List.forall_mem_cons.mp h
      simp only [List.map_cons, List.sum_cons]
      exact ht.add (ih hts)

/-- A sum is not above what none of its terms is above. -/
theorem within_sum {ts : List Cost} {u : Cost} (hne : ts ≠ []) (hts : ∀ t ∈ ts, t.IsTime)
    (h : ∀ t ∈ ts, t.Within u) : (sum ts).reduce.Within u := by
  have hsum : ∀ t ∈ ts, t.isSum = false := fun t ht => (hts t ht).isSum
  rw [reduce_sum_of_canonical fun t ht => (hts t ht).canonical]
  refine ⟨?_, ?_⟩
  · rw [rank_combineSum, sumRank_le_iff, List.forall_mem_map]
    exact fun t ht => (h t ht).rank_le
  · rw [combineSum_eq, flatMap_termsOf_eq_self hsum, if_neg hne]
    exact isBigO_ofTerms_of_forall fun t ht => (h t (mem_of_mem_kept hsum ht)).isBigO

end Cost

theorem LoopGrowth.count_add_count_le (gs : List LoopGrowth) :
    gs.count .linear + gs.count .logarithmic ≤ gs.length := by
  induction gs with
  | nil => exact Nat.le_refl _
  | cons g gs ih =>
      rw [List.count_cons, List.count_cons, List.length_cons]
      cases g <;> simp <;> omega

/-- A block has at most one factor for each level of loops. -/
theorem Block.levels_le_loopDepth (b : Block) :
    b.linearLevels + b.logarithmicLevels ≤ b.loopDepth := by
  rw [linearLevels, logarithmicLevels, ← Statement.count_linear_levelsAll,
    ← Statement.count_logarithmic_levelsAll, loopDepth, ← Statement.length_levelsAll]
  exact LoopGrowth.count_add_count_le _

theorem Program.mem_blocks_of_mem_timedBlocks {p : Program} {b : Block} (h : b ∈ p.timedBlocks) :
    b ∈ p.blocks := by
  rcases List.mem_append.mp h with h | h
  · obtain ⟨f, hf, rfl⟩ := List.mem_map.mp h
    exact List.mem_append_left _ (List.mem_map_of_mem (List.mem_filter.mp hf).1)
  · exact List.mem_append_right _ h

theorem Program.within_of_timedBlocks {p : Program} {u : Cost}
    (hrec : ∀ f ∈ p.functions, f.isRecursive = false) (h : ∀ b ∈ p.timedBlocks, b.time.Within u) :
    (Cost.sum p.timeTerms).reduce.Within u := by
  have hne : p.timeTerms ≠ [] := List.append_ne_nil_of_right_ne_nil _ (List.cons_ne_nil _ _)
  refine Cost.within_sum hne (fun t ht => isTime_of_mem_timeTerms ht) fun t ht => ?_
  rcases List.mem_append.mp ht with ht | ht
  · obtain ⟨f, hf, rfl⟩ := List.mem_map.mp ht
    rw [(isTime_function f).canonical.reduce_eq, Function.time, hrec f hf,
      if_neg Bool.false_ne_true]
    refine h f.body (List.mem_append_left _ (List.mem_map_of_mem ?_))
    exact List.mem_filter.mpr ⟨hf, by rw [hrec f hf]; rfl⟩
  · rw [List.mem_singleton.mp ht]
    exact h _ (List.mem_append_right _ (List.mem_singleton_self _))

/-! ## The time of a shape -/

namespace SyntaxTree

theorem nestedCost_eq_monomial {d : Nat} (h : d ≤ maxWord32) :
    nestedCost d = Cost.monomial d 0 := by
  have hdegree : Cost.degreeWord d = UInt32.ofNat d := by rw [Cost.degreeWord, Nat.min_eq_left h]
  unfold nestedCost
  split
  next h0 =>
    subst h0
    rfl
  next h0 =>
    have hfactors : Cost.monomial d 0 = Cost.power Cost.inputSize (Cost.degreeWord d) := by
      simp [Cost.monomial, Cost.monomialParts, Cost.ProductParts.factors, Cost.ofFactors, h0]
    rw [hfactors]
    split
    next h1 =>
      subst h1
      rfl
    next h1 =>
      have hne : Cost.degreeWord d ≠ 1 := by
        rw [Ne, ← UInt32.toNat_inj, Cost.toNat_degreeWord, Nat.min_eq_left h]
        exact h1
      rw [Cost.power, if_neg hne, hdegree]

theorem timeCost_shapeComplexity (t : SyntaxTree) :
    t.shapeComplexity.timeCost = some (nestedCost t.rootNode.maxLoopDepth).reduce
      ∨ t.shapeComplexity.timeCost = some (Cost.exponential 2 Cost.inputSize) := by
  simp only [shapeComplexity]
  split
  next => exact Or.inl rfl
  next => exact Or.inr rfl

/-- The shape of a built tree counts a loop node as a factor `n`, or the
whole tree as exponential. -/
theorem exists_shape {t : SyntaxTree} (h : t.Built) :
    ∃ shape : Cost, t.shapeComplexity.timeCost = some shape ∧ shape.Canonical
      ∧ ∀ b : Block, b.loopDepth ≤ t.rootNode.maxLoopDepth → b.time.Within shape := by
  have hd : t.rootNode.maxLoopDepth ≤ maxWord32 :=
    Nat.le_trans (Nat.le_of_lt h.maxLoopDepth_lt) (by decide)
  rcases t.timeCost_shapeComplexity with hshape | hshape
  · rw [nestedCost_eq_monomial hd, (Cost.canonical_monomial _ _).reduce_eq] at hshape
    refine ⟨_, hshape, Cost.canonical_monomial _ _, fun b hb => ?_⟩
    rw [b.time_eq_monomial]
    exact Cost.within_monomial (Nat.le_trans b.levels_le_loopDepth hb) hd
  · refine ⟨_, hshape, .exponential 2 Cost.inputSize, fun b _ => ?_⟩
    rw [b.time_eq_monomial]
    exact Cost.within_exponential _ _

end SyntaxTree

theorem Registry.full_get? {l : Language} {a : Adapter} (h : Adapter.ofLanguage? l = some a) :
    Registry.full.get? l = some a := by
  cases l <;> exact h

/-! ## The whole program -/

/-- Where no function is recursive and no call became a loop, the time
without an adapter is not below the time with one. -/
theorem SyntaxTree.program_within_shape {l : Language} {a : Adapter} {t : SyntaxTree}
    (hl : Adapter.ofLanguage? l = some a) (ht : t.Built)
    (hroot : a.classify t.root ≠ some .loop)
    (hrec : ∀ f ∈ (a.program t).functions, f.isRecursive = false) (hcalls : a.KeepsCalls t) :
    ∃ time shape, (a.program t).complexity.timeCost = some time
      ∧ t.shapeComplexity.timeCost = some shape
      ∧ time.compareGrowth shape ≠ .gt
      ∧ time.growth =O[atTop] shape.growth
      ∧ (t.language = l → (t.complexity .full).timeCost = some time
        ∧ (t.complexity .empty).timeCost = some shape) := by
  obtain ⟨shape, hshape, hcanonical, hblock⟩ := exists_shape ht
  have hwithin : (Cost.sum (a.program t).timeTerms).reduce.Within shape :=
    Program.within_of_timedBlocks hrec fun b hb => hblock b
      (Adapter.loopDepth_le_maxLoopDepth (Adapter.kinds_mem_allNodeKinds hl) ht.sound
        (hcalls.callsStay ht.sound) hroot (Program.mem_blocks_of_mem_timedBlocks hb))
  refine ⟨_, shape, Program.timeCost_complexity _, hshape, ?_, hwithin.isBigO, fun hlang => ?_⟩
  · rw [Cost.compareGrowth, (Cost.reduce_canonical _).reduce_eq, hcanonical.reduce_eq]
    exact Nat.compare_ne_gt.mpr hwithin.rank_le
  · subst hlang
    refine ⟨?_, hshape⟩
    rw [complexity, Registry.full_get? hl]
    rfl

namespace ClosureInLoop

/-! A loop that makes a closure with a loop of its own. -/

def source : String := "for{func(){for{}}}"

def file : NodeSpec := ⟨"source_file", 0, 18, true, false, none⟩

def outer : NodeSpec := ⟨"for_statement", 0, 18, true, false, none⟩

def outerBody : NodeSpec := ⟨"block", 3, 18, true, false, some "body"⟩

def closure : NodeSpec := ⟨"func_literal", 4, 17, true, false, none⟩

def closureBody : NodeSpec := ⟨"block", 10, 17, true, false, some "body"⟩

def inner : NodeSpec := ⟨"for_statement", 11, 16, true, false, none⟩

def innerBody : NodeSpec := ⟨"block", 14, 16, true, false, some "body"⟩

def innerNode : Node := inner.node source 5 [innerBody.node source 6 []]

def closureNode : Node := closure.node source 3 [closureBody.node source 4 [innerNode]]

def outerNode : Node := outer.node source 1 [outerBody.node source 2 [closureNode]]

def tree : SyntaxTree := ⟨.go, source, file.node source 0 [outerNode]⟩

def calls : List BuilderCall :=
  [.openNode file, .openNode outer, .openNode outerBody, .openNode closure, .openNode closureBody,
    .openNode inner, .leaf innerBody, .closeNode, .closeNode, .closeNode, .closeNode, .closeNode,
    .closeNode]

set_option maxRecDepth 4000 in
theorem built : tree.Built := ⟨source, .go, calls, by rfl⟩

theorem keepsCalls : Adapter.Go.adapter.KeepsCalls tree := by
  have hnone : ∀ p ∈ tree.places, Adapter.Go.adapter.classify p ≠ some .call := by decide +kernel
  exact fun p hp hcall => absurd hcall (hnone p hp)

end ClosureInLoop

open ClosureInLoop in
/-- The shape does not see that the inner loop runs in a function of its
own. -/
theorem SyntaxTree.closureInLoop_within_shape :
    (tree.complexity .full).time = "O(n)" ∧ (tree.complexity .empty).time = "O(n^2)"
      ∧ ∃ time shape, (Adapter.Go.adapter.program tree).complexity.timeCost = some time
        ∧ tree.shapeComplexity.timeCost = some shape
        ∧ time.compareGrowth shape ≠ .gt
        ∧ time.growth =O[atTop] shape.growth
        ∧ (tree.language = .go → (tree.complexity .full).timeCost = some time
          ∧ (tree.complexity .empty).timeCost = some shape) := by
  have hroot : Adapter.Go.adapter.classify tree.root ≠ some .loop := by decide +kernel
  have hrec : ∀ f ∈ (Adapter.Go.adapter.program tree).functions, f.isRecursive = false := by
    decide +kernel
  refine ⟨by decide +kernel, by decide +kernel, ?_⟩
  exact program_within_shape (l := .go) rfl built hroot hrec keepsCalls

end CodeProfile
