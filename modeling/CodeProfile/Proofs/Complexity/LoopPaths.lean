import CodeProfile.Proofs.Complexity.DominantOperations
import CodeProfile.Proofs.Complexity.Shape
import Mathlib.Order.Bounds.Defs

/-!
# Loops on the paths of a tree

Without an adapter, three walks over a tree have to agree: the recursion
that finds how deep loops are nested, the same recursion below each
function, and the search for the first loop inside another one.

All three are read off the paths of the tree. `Place.loopsOnPath` counts
the loop nodes from the root down to a place, and the depth of a tree is
the greatest such count (`isGreatest_loopsOnPath`). From that a tree of
depth two has a loop inside a loop (`exists_innerLoop`), so that the search
finds one, and no function is deeper than the tree around it.
`SyntaxTree.shape_consistent` puts this together for the whole report.
-/

namespace CodeProfile

/-! ## Counting along a path -/

namespace Place

variable {p c x : Place}

/-- How many loop nodes the path from the root to the place passes, the root left out. -/
def loopsOnPath (p : Place) : Nat :=
  (p :: p.ancestors).countP fun q => isAnyLoopKind q.kind && q.parent?.isSome

/-- A loop node with a loop node somewhere above it. -/
def IsInnerLoop (p : Place) : Prop :=
  isAnyLoopKind p.kind = true ∧ ∃ a ∈ p.ancestors, isAnyLoopKind a.kind = true

theorem loopsOnPath_root (n : Node) : loopsOnPath ⟨n, []⟩ = 0 := by
  simp [loopsOnPath, ancestors, ancestors.go, parent?]

theorem loopsOnPath_of_mem_children (h : c ∈ p.children) :
    c.loopsOnPath = p.loopsOnPath + if isAnyLoopKind c.kind then 1 else 0 := by
  rw [loopsOnPath, ancestors_of_mem_children h, List.countP_cons, parent?_of_mem_children h,
    Option.isSome_some, Bool.and_true, loopsOnPath]

/-- A child that is a loop takes its level from the nesting below it to the path. -/
theorem loopsOnPath_add_maxLoopDepth (h : c ∈ p.children) :
    c.loopsOnPath + c.node.maxLoopDepth = p.loopsOnPath + c.node.loopNest := by
  rw [loopsOnPath_of_mem_children h, Node.loopNest, Nat.add_assoc, Nat.add_comm (ite ..)]
  rfl

/-- No path leads through more loops than its start and the nesting below it make up. -/
theorem loopsOnPath_le (h : x ∈ p.descendants) :
    x.loopsOnPath ≤ p.loopsOnPath + p.node.maxLoopDepth := by
  induction p using children_induction with
  | step p ih =>
      rcases mem_descendants.mp h with rfl | h
      · exact Nat.le_add_right _ _
      · obtain ⟨c, hc, hx⟩ := mem_below.mp h
        calc x.loopsOnPath
            ≤ c.loopsOnPath + c.node.maxLoopDepth := ih c hc hx
          _ = p.loopsOnPath + c.node.loopNest := loopsOnPath_add_maxLoopDepth hc
          _ ≤ p.loopsOnPath + p.node.maxLoopDepth :=
              Nat.add_le_add_left (loopNest_le_of_mem_children hc) _

/-- Some child reaches the depth of its parent, unless there is no loop below. -/
theorem exists_child_loopNest_eq (h : p.node.maxLoopDepth ≠ 0) :
    ∃ c ∈ p.children, c.node.loopNest = p.node.maxLoopDepth := by
  by_contra hnone
  -- otherwise all children stay below the depth that they give to their parent
  have hlt : ∀ c ∈ p.children, c.node.loopNest ≤ p.node.maxLoopDepth - 1 := by
    intro c hc
    have hle := loopNest_le_of_mem_children hc
    have hne : c.node.loopNest ≠ p.node.maxLoopDepth := fun heq => hnone ⟨c, hc, heq⟩
    omega
  have hdepth : p.node.maxLoopDepth ≤ p.node.maxLoopDepth - 1 := by
    obtain ⟨⟨info, cs⟩, above⟩ := p
    exact Node.maxLoopDepthAll_le_iff.mpr fun n hn => hlt ⟨n, _⟩ (List.mem_map_of_mem hn)
  omega

theorem exists_loopsOnPath_eq (p : Place) :
    ∃ x ∈ p.descendants, x.loopsOnPath = p.loopsOnPath + p.node.maxLoopDepth := by
  induction p using children_induction with
  | step p ih =>
      by_cases h : p.node.maxLoopDepth = 0
      · exact ⟨p, self_mem_descendants p, by rw [h, Nat.add_zero]⟩
      · obtain ⟨c, hc, hnest⟩ := exists_child_loopNest_eq h
        obtain ⟨x, hx, hloops⟩ := ih c hc
        refine ⟨x, mem_descendants_of_mem_below (mem_below.mpr ⟨c, hc, hx⟩), ?_⟩
        rw [hloops, loopsOnPath_add_maxLoopDepth hc, hnest]

/-- A path without a loop inside a loop passes one loop at most. -/
theorem loopsOnPath_le_one (h : ∀ q ∈ x :: x.ancestors, ¬ q.IsInnerLoop) : x.loopsOnPath ≤ 1 := by
  obtain ⟨n, above⟩ := x
  induction above generalizing n with
  | nil => rw [loopsOnPath_root]; exact Nat.zero_le _
  | cons m above ih =>
      have hrest : (⟨n, m :: above⟩ : Place).ancestors = ⟨m, above⟩ :: ancestors ⟨m, above⟩ := rfl
      by_cases hloop : isAnyLoopKind (⟨n, m :: above⟩ : Place).kind = true
      · -- a loop at the end of the path leaves no loop above it
        have hnone : (ancestors ⟨n, m :: above⟩).countP
            (fun q => isAnyLoopKind q.kind && q.parent?.isSome) = 0 := by
          refine List.countP_eq_zero.mpr fun a ha hcount => ?_
          exact h _ (List.mem_cons_self ..) ⟨hloop, a, ha, (Bool.and_eq_true_iff.mp hcount).1⟩
        rw [loopsOnPath, List.countP_cons, hnone]
        split <;> omega
      · rw [loopsOnPath, List.countP_cons_of_neg (by simp [hloop]), hrest]
        exact ih m fun q hq => h q (List.mem_cons_of_mem _ (hrest ▸ hq))

end Place

namespace SyntaxTree

open Place

variable {t : SyntaxTree}

/-- Loops are nested as deep as the path with the most of them leads. -/
theorem isGreatest_loopsOnPath (t : SyntaxTree) :
    IsGreatest {d | ∃ p ∈ t.places, p.loopsOnPath = d} t.rootNode.maxLoopDepth := by
  have hroot : t.root.loopsOnPath = 0 := loopsOnPath_root t.rootNode
  constructor
  · obtain ⟨p, hp, hloops⟩ := exists_loopsOnPath_eq t.root
    exact ⟨p, hp, by rw [hloops, hroot, Nat.zero_add]; rfl⟩
  · rintro d ⟨p, hp, rfl⟩
    have hle := loopsOnPath_le hp
    rwa [hroot, Nat.zero_add] at hle

theorem exists_innerLoop (h : 2 ≤ t.rootNode.maxLoopDepth) : ∃ p ∈ t.places, p.IsInnerLoop := by
  obtain ⟨x, hx, hloops⟩ := t.isGreatest_loopsOnPath.1
  by_contra hnone
  have hle : x.loopsOnPath ≤ 1 := by
    refine loopsOnPath_le_one fun q hq hinner => hnone ⟨q, ?_, hinner⟩
    rcases List.mem_cons.mp hq with rfl | hq
    · exact hx
    · exact ((mem_ancestors hx).mp hq).1
  omega

/-! ## The first loop inside another -/

theorem any_above_iff {p : Place} (f : String → Bool) :
    p.above.any (fun n => f n.kind) = true ↔ ∃ a ∈ p.ancestors, f a.kind = true := by
  obtain ⟨n, above⟩ := p
  induction above generalizing n with
  | nil => simp [ancestors, ancestors.go]
  | cons m above ih =>
      have hrest : (⟨n, m :: above⟩ : Place).ancestors = ⟨m, above⟩ :: ancestors ⟨m, above⟩ := rfl
      have hcons : (m :: above).any (fun n => f n.kind) =
          (f m.kind || above.any fun n => f n.kind) := rfl
      rw [hrest, List.exists_mem_cons_iff, ← ih m, hcons, Bool.or_eq_true]
      rfl

/-- The first place in document order that is a loop inside a loop. -/
def FirstInnerLoop (t : SyntaxTree) (p : Place) : Prop :=
  ∃ before after, t.places = before ++ p :: after ∧ p.IsInnerLoop ∧ ∀ q ∈ before, ¬ q.IsInnerLoop

def stopsSearch (p : Place) : Bool := isAnyLoopKind p.kind && p.above.any (isAnyLoopKind ·.kind)

theorem stopsSearch_iff {p : Place} : stopsSearch p = true ↔ p.IsInnerLoop := by
  rw [stopsSearch, Bool.and_eq_true, any_above_iff isAnyLoopKind, IsInnerLoop]

/-- The search succeeds where a loop stands inside another one, and finds the first. -/
theorem exists_firstInnerLoop (h : 2 ≤ t.rootNode.maxLoopDepth) :
    ∃ p, t.FirstInnerLoop p ∧ t.firstNestedLoopLine? = some p.startLine := by
  obtain ⟨x, hx, hinner⟩ := exists_innerLoop h
  obtain ⟨p, hp⟩ : ∃ p, t.places.find? stopsSearch = some p :=
    Option.isSome_iff_exists.mp (List.find?_isSome.mpr ⟨x, hx, stopsSearch_iff.mpr hinner⟩)
  obtain ⟨hfound, before, after, hplaces, hbefore⟩ := List.find?_eq_some_iff_append.mp hp
  refine ⟨p, ⟨before, after, hplaces, stopsSearch_iff.mp hfound, fun q hq hq' => ?_⟩, ?_⟩
  · have hnot := hbefore q hq
    rw [stopsSearch_iff.mpr hq'] at hnot
    cases hnot
  · have hline : t.firstNestedLoopLine? = (t.places.find? stopsSearch).map (·.startLine) := rfl
    rw [hline, hp, Option.map_some]

/-! ## The report -/

end SyntaxTree

/-- The cost that the time of a reported function is written from. -/
def FunctionComplexity.shapeCost (f : FunctionComplexity) : Cost :=
  if f.isRecursive then .exponential 2 Cost.inputSize else SyntaxTree.nestedCost f.loopDepth

namespace SyntaxTree

/-- What the report on the shape of a tree says fits together, and fits the tree. -/
structure ShapeConsistent (t : SyntaxTree) (r : ComplexityReport) : Prop where
  depth : IsGreatest {d | ∃ p ∈ t.places, p.loopsOnPath = d} t.rootNode.maxLoopDepth
  functions_le : ∀ f ∈ r.functions, f.loopDepth ≤ t.rootNode.maxLoopDepth
  exponential_iff : r.time = "O(2^n)" ↔ ∃ f ∈ r.functions, f.isRecursive = true
  linearSpace_iff : r.space = "O(n)" ↔ ∃ f ∈ r.functions, f.isRecursive = true
  /-- Without recursion the time is `n` to the depth in canonical form. -/
  power : (∀ f ∈ r.functions, f.isRecursive = false) →
    r.timeCost = some (Cost.product (List.replicate t.rootNode.maxLoopDepth .n)).reduce
      ∧ r.time = (Cost.product (List.replicate t.rootNode.maxLoopDepth .n)).bigO
      ∧ r.space = "O(1)"
  not_less : ∃ time, r.timeCost = some time ∧ r.time = time.bigO ∧ ∀ f ∈ r.functions,
    f.time = f.shapeCost.bigO ∧ time.compareGrowth f.shapeCost ≠ .lt
  hashing_iff : (∃ s ∈ r.suggestions, s.kind = .hashing) ↔ 2 ≤ t.rootNode.maxLoopDepth
  /-- The advice names the line that the search found, never the one that stands for none. -/
  hashing_line : ∀ s ∈ r.suggestions, s.kind = .hashing →
    ∃ p, t.FirstInnerLoop p ∧ t.firstNestedLoopLine? = some p.startLine ∧ s.line = p.startLine

section Report

variable (t : SyntaxTree)

theorem functions_shapeComplexity :
    t.shapeComplexity.functions = t.shapedFunctions.map (·.complexity) := rfl

def recursiveFunctions : List ShapedFunction := t.shapedFunctions.filter (·.isRecursive)

theorem exists_recursive_iff :
    (∃ f ∈ t.shapeComplexity.functions, f.isRecursive = true) ↔ t.recursiveFunctions ≠ [] := by
  rw [functions_shapeComplexity, recursiveFunctions, Ne, List.filter_eq_nil_iff]
  simp [ShapedFunction.complexity]

theorem costs_of_recursive (h : t.recursiveFunctions ≠ []) :
    t.shapeComplexity.time = "O(2^n)" ∧ t.shapeComplexity.space = "O(n)"
      ∧ t.shapeComplexity.timeCost = some (.exponential 2 Cost.inputSize) := by
  have hsome : t.recursiveFunctions.isEmpty = false := List.isEmpty_eq_false_iff.mpr h
  rw [recursiveFunctions] at hsome
  simp only [shapeComplexity, hsome, Bool.false_eq_true, if_false]
  exact ⟨rfl, rfl, rfl⟩

theorem costs_of_not_recursive (h : t.recursiveFunctions = []) :
    t.shapeComplexity.time = (nestedCost t.rootNode.maxLoopDepth).reduce.bigO
      ∧ t.shapeComplexity.space = "O(1)"
      ∧ t.shapeComplexity.timeCost = some (nestedCost t.rootNode.maxLoopDepth).reduce := by
  have hnone : t.recursiveFunctions.isEmpty = true := List.isEmpty_iff.mpr h
  rw [recursiveFunctions] at hnone
  simp only [shapeComplexity, hnone, if_true]
  exact ⟨rfl, rfl, rfl⟩

theorem isRecursive_of_not_recursive (h : t.recursiveFunctions = []) :
    ∀ f ∈ t.shapeComplexity.functions, f.isRecursive = false :=
  fun f hf => Bool.eq_false_iff.mpr fun htrue => t.exists_recursive_iff.mp ⟨f, hf, htrue⟩ h

theorem loopDepth_le_of_mem_functions {f : FunctionComplexity}
    (hf : f ∈ t.shapeComplexity.functions) : f.loopDepth ≤ t.rootNode.maxLoopDepth := by
  obtain ⟨g, hg, rfl⟩ := List.mem_map.mp hf
  obtain ⟨p, hp, hshaped⟩ := List.mem_filterMap.mp hg
  obtain ⟨named, -, hpure⟩ := Option.bind_eq_some_iff.mp hshaped
  obtain rfl := Option.some.inj hpure
  exact Place.maxLoopDepth_le_of_mem_descendants (List.mem_filter.mp hp).1

theorem time_of_mem_functions {f : FunctionComplexity} (hf : f ∈ t.shapeComplexity.functions) :
    f.time = f.shapeCost.bigO := by
  obtain ⟨g, -, rfl⟩ := List.mem_map.mp hf
  rfl

/-- The advice on nested loops. -/
def hashingAdvice : Suggestion :=
  let depth := t.rootNode.maxLoopDepth
  { kind := .hashing, target := moduleScope, line := t.firstNestedLoopLine?.getD 1
    message := "nested loops; a hash set or map lookup can replace the inner scan"
    expectedImprovement := some s!"O(n^{depth}) -> O(n^{depth - 1})" }

theorem kind_suggestion_ne (f : ShapedFunction) : f.suggestion.kind ≠ .hashing := by
  unfold ShapedFunction.suggestion
  split <;> exact fun h => nomatch h

/-- Only nested loops bring advice on hashing, and they bring it once. -/
theorem mem_suggestions_iff {s : Suggestion} (hs : s.kind = .hashing) :
    s ∈ t.shapeComplexity.suggestions ↔ 2 ≤ t.rootNode.maxLoopDepth ∧ s = t.hashingAdvice := by
  have hrecursive : s ∉ t.recursiveFunctions.map (·.suggestion) := by
    intro hmem
    obtain ⟨f, -, rfl⟩ := List.mem_map.mp hmem
    exact kind_suggestion_ne f hs
  rw [recursiveFunctions] at hrecursive
  simp only [shapeComplexity, List.mem_append, hrecursive, false_or]
  split
  next h => rw [List.mem_singleton, and_iff_right h, hashingAdvice]
  next h => simp [h]

end Report

section Built

variable {t : SyntaxTree}

/-- Up to the depth of a built tree, the cost of nested loops is a product of as many factors. -/
theorem nestedCost_eq_reduce {d : Nat} (h : d ≤ maxWord32) :
    nestedCost d = (Cost.product (List.replicate d .n)).reduce := by
  have hloops : List.replicate d Cost.n = (List.replicate d .linear).map LoopGrowth.cost := by
    rw [List.map_replicate]
    rfl
  rw [hloops, Cost.reduce_product_map_cost, List.count_replicate_self, nestedCost_eq_monomial h]
  simp [List.count_replicate]

theorem Built.depth_le (h : t.Built) : t.rootNode.maxLoopDepth ≤ maxWord32 :=
  Nat.le_trans (Nat.le_of_lt h.maxLoopDepth_lt) (by decide)

theorem isTime_nestedCost {d : Nat} (h : d ≤ maxWord32) : (nestedCost d).IsTime :=
  .inl ⟨d, 0, nestedCost_eq_monomial h⟩

theorem reduce_nestedCost {d : Nat} (h : d ≤ maxWord32) : (nestedCost d).reduce = nestedCost d :=
  (isTime_nestedCost h).canonical.reduce_eq

theorem rank_nestedCost {d : Nat} (h : d ≤ maxWord32) :
    (nestedCost d).rank = min (10 * d) (Cost.exponentialRank - 1) := by
  rw [nestedCost_eq_monomial h, Cost.rank_monomial, Nat.add_zero]

/-- A power of the input size is not written as an exponential. -/
theorem bigO_nestedCost_ne {d : Nat} (h : d ≤ maxWord32) : (nestedCost d).bigO ≠ "O(2^n)" := by
  intro heq
  rw [(isTime_nestedCost h).bigO_eq, nestedCost_eq_monomial h] at heq
  have hterm : (Cost.monomial d 0).growthTerm = "2^n" := Program.bigO_text_inj.mp heq
  by_cases hd : d = 0
  · subst hd
    exact absurd hterm (by decide)
  · have hhead := (Cost.head?_growthTerm_monomial d 0).mpr hd
    rw [hterm] at hhead
    exact absurd hhead (by decide)

end Built

/-- The time of a tree is not below that of a function in it. -/
theorem compareGrowth_shapeCost_ne {f : FunctionComplexity} {time : Cost} {d : Nat}
    (hd : d ≤ maxWord32) (hle : f.loopDepth ≤ d)
    (htime : time = .exponential 2 Cost.inputSize ∨ f.isRecursive = false ∧ time = nestedCost d) :
    time.compareGrowth f.shapeCost ≠ .lt := by
  have hflat := reduce_nestedCost (Nat.le_trans hle hd)
  have hrank := rank_nestedCost (Nat.le_trans hle hd)
  rw [Cost.compareGrowth, Nat.compare_ne_lt, FunctionComplexity.shapeCost]
  rcases htime with rfl | ⟨hfalse, rfl⟩
  · have hexp : (Cost.exponential 2 Cost.inputSize).reduce.rank = 1002 := rfl
    split
    next => exact Nat.le_refl _
    next => rw [hflat, hrank, hexp, Cost.exponentialRank]; omega
  · rw [hfalse, if_neg Bool.false_ne_true, hflat, hrank, reduce_nestedCost hd, rank_nestedCost hd]
    omega

/-- The report on the shape of a built tree fits together, and fits the tree. -/
theorem shape_consistent {t : SyntaxTree} (h : t.Built) : t.ShapeConsistent t.shapeComplexity := by
  have hdepth := h.depth_le
  have hle := fun f hf => t.loopDepth_le_of_mem_functions (f := f) hf
  constructor
  case depth => exact t.isGreatest_loopsOnPath
  case functions_le => exact hle
  case exponential_iff =>
    rw [exists_recursive_iff]
    by_cases hrec : t.recursiveFunctions = []
    · rw [(t.costs_of_not_recursive hrec).1, reduce_nestedCost hdepth]
      simp [hrec, bigO_nestedCost_ne hdepth]
    · simp [hrec, (t.costs_of_recursive hrec).1]
  case linearSpace_iff =>
    rw [exists_recursive_iff]
    by_cases hrec : t.recursiveFunctions = []
    · simp [hrec, (t.costs_of_not_recursive hrec).2.1]
    · simp [hrec, (t.costs_of_recursive hrec).2.1]
  case power =>
    intro hfalse
    have hrec : t.recursiveFunctions = [] := by
      by_contra hne
      obtain ⟨f, hf, htrue⟩ := t.exists_recursive_iff.mpr hne
      rw [hfalse f hf] at htrue
      cases htrue
    obtain ⟨htime, hspace, hcost⟩ := t.costs_of_not_recursive hrec
    rw [nestedCost_eq_reduce hdepth, Cost.reduce_reduce] at htime hcost
    exact ⟨hcost, by rw [htime, Cost.bigO, Cost.reduce_reduce, Cost.bigO], hspace⟩
  case not_less =>
    by_cases hrec : t.recursiveFunctions = []
    · obtain ⟨htime, -, hcost⟩ := t.costs_of_not_recursive hrec
      rw [reduce_nestedCost hdepth] at htime hcost
      refine ⟨_, hcost, htime, fun f hf => ⟨t.time_of_mem_functions hf, ?_⟩⟩
      exact compareGrowth_shapeCost_ne hdepth (hle f hf)
        (.inr ⟨t.isRecursive_of_not_recursive hrec f hf, rfl⟩)
    · obtain ⟨htime, -, hcost⟩ := t.costs_of_recursive hrec
      refine ⟨_, hcost, htime, fun f hf => ⟨t.time_of_mem_functions hf, ?_⟩⟩
      exact compareGrowth_shapeCost_ne hdepth (hle f hf) (.inl rfl)
  case hashing_iff =>
    constructor
    · rintro ⟨s, hs, hkind⟩
      exact ((t.mem_suggestions_iff hkind).mp hs).1
    · exact fun hnested => ⟨_, (t.mem_suggestions_iff rfl).mpr ⟨hnested, rfl⟩, rfl⟩
  case hashing_line =>
    intro s hs hkind
    obtain ⟨hnested, rfl⟩ := (t.mem_suggestions_iff hkind).mp hs
    obtain ⟨p, hfirst, hline⟩ := exists_firstInnerLoop hnested
    refine ⟨p, hfirst, hline, ?_⟩
    rw [hashingAdvice, hline, Option.getD_some]

end SyntaxTree

namespace NestedForLoops

/-! A function of C with a loop in a loop, on lines of their own. -/

def source : String := "void f()\x7b\nfor(;;)\nfor(;;);\x7d"

def file : NodeSpec := ⟨"translation_unit", 0, 27, true, false, none⟩

def function : NodeSpec := ⟨"function_definition", 0, 27, true, false, none⟩

def declarator : NodeSpec := ⟨"function_declarator", 5, 8, true, false, some "declarator"⟩

def name : NodeSpec := ⟨"identifier", 5, 6, true, false, some "declarator"⟩

def body : NodeSpec := ⟨"compound_statement", 8, 27, true, false, some "body"⟩

def outer : NodeSpec := ⟨"for_statement", 10, 26, true, false, none⟩

def inner : NodeSpec := ⟨"for_statement", 18, 26, true, false, some "body"⟩

def declaratorNode : Node := declarator.node source 2 [name.node source 3 []]

def bodyNode : Node := body.node source 4 [outer.node source 5 [inner.node source 6 []]]

def tree : SyntaxTree :=
  ⟨.c, source, file.node source 0 [function.node source 1 [declaratorNode, bodyNode]]⟩

def calls : List BuilderCall :=
  [.openNode file, .openNode function, .openNode declarator, .leaf name, .closeNode,
    .openNode body, .openNode outer, .leaf inner, .closeNode, .closeNode, .closeNode, .closeNode]

set_option maxRecDepth 4000 in
theorem built : tree.Built := ⟨source, .c, calls, by rfl⟩

end NestedForLoops

open NestedForLoops in
/-- The advice on the two loops names the line of the inner one. -/
theorem SyntaxTree.nestedForLoops_consistent :
    tree.Built ∧ tree.ShapeConsistent tree.shapeComplexity
      ∧ tree.shapeComplexity.time = "O(n^2)"
      ∧ tree.shapeComplexity.suggestions.map (·.line) = [3] :=
  ⟨built, shape_consistent built, by decide +kernel, by decide +kernel⟩

end CodeProfile
