import CodeProfile.CodeType.Classification
import CodeProfile.Elements
import CodeProfile.Metrics
import CodeProfile.Proofs.Tree.Building

/-!
# Counters of definitions and loops

Four passes over a tree count its classes, functions and loops: the
metrics, the named elements, the evidence for paradigms and the evidence
for kinds of code. The first two look at named nodes only. The other two
look at every node, so that they also count a keyword whose kind is
spelt like a production: the `class` of `class A{}`, or the `function`
of a function.

`counters_exact` says what each pass counts, in terms of the nodes with
a name of their own (`productions`) and of the mere tokens (`tokens`).
The counters agree exactly if no token is spelt like a class, a function
or a loop.
-/

namespace CodeProfile

/-- In every grammar a lambda is one of the functions. -/
theorem lambda_isFunction {l : Language} {k : NodeKinds} (h : nodeKinds? l = some k) :
    ∀ kind ∈ k.lambdas, k.isFunction kind = true := by
  cases l <;> cases h <;> decide

namespace SyntaxTree

variable {t : SyntaxTree} {k : NodeKinds}

/-- How many nodes with a name of their own have a kind of some sort. -/
def productions (t : SyntaxTree) (sort : String → Bool) : Nat :=
  t.places.countP fun p => p.isNamed && sort p.kind

/-- How many nodes without a name are spelt like a kind of some sort. -/
def tokens (t : SyntaxTree) (sort : String → Bool) : Nat :=
  t.places.countP fun p => !p.isNamed && sort p.kind

theorem countP_kind (t : SyntaxTree) (sort : String → Bool) :
    (t.places.countP fun p => sort p.kind) = t.productions sort + t.tokens sort := by
  rw [List.countP_eq_countP_filter_add t.places _ (·.isNamed), List.countP_filter,
    List.countP_filter]
  simp only [productions, tokens, Bool.and_comm]

theorem countP_named (t : SyntaxTree) (sort : String → Bool) :
    ((t.places.filter (·.isNamed)).countP fun p => sort p.kind) = t.productions sort := by
  rw [List.countP_filter]
  simp only [productions, Bool.and_comm]

theorem length_named (t : SyntaxTree) (sort : String → Bool) :
    ((t.places.filter (·.isNamed)).filter fun p => sort p.kind).length = t.productions sort := by
  rw [← List.countP_eq_length_filter, countP_named]

theorem tokens_eq_zero_iff {sort : String → Bool} :
    t.tokens sort = 0 ↔ ∀ p ∈ t.places, sort p.kind = true → p.isNamed = true := by
  rw [tokens, List.countP_eq_zero]
  refine forall₂_congr fun p _ => ?_
  cases p.isNamed <;> simp

/-- Functions with a name and lambdas make up the functions. -/
theorem countP_function (t : SyntaxTree) (h : nodeKinds? t.language = some k) :
    (t.places.countP fun p => PatternCounts.isNamedFunction k p.kind)
      + (t.places.countP fun p => k.lambdas.contains p.kind)
      = t.productions k.isFunction + t.tokens k.isFunction := by
  have hlambda (p : Place) :
      (k.isFunction p.kind && k.lambdas.contains p.kind) = k.lambdas.contains p.kind := by
    cases hp : k.lambdas.contains p.kind with
    | false => rw [Bool.and_false]
    | true => rw [lambda_isFunction h _ (List.contains_iff_mem.mp hp), Bool.and_true]
  have hsplit := List.countP_eq_countP_filter_add t.places (k.isFunction ·.kind)
    (k.lambdas.contains ·.kind)
  rw [List.countP_filter, List.countP_filter] at hsplit
  simp only [hlambda] at hsplit
  rw [← countP_kind, hsplit, Nat.add_comm]
  rfl

/-- What the passes count: the metrics and the elements `e` count
productions, the evidence `c` for paradigms and that for kinds of code
count tokens as well. -/
structure Counted (t : SyntaxTree) (k : NodeKinds) (e : Elements) (c : PatternCounts Float) :
    Prop where
  metrics_classes : t.metrics.classes = t.productions k.isClass
  metrics_functions : t.metrics.functions = t.productions k.isFunction
  metrics_loops : t.metrics.loops = t.productions k.isLoop
  element_classes : e.classes.length = t.productions k.isClass
  element_functions : e.functions.length = t.productions k.isFunction
  classes : c.classes = t.productions k.isClass + t.tokens k.isClass
  functions : c.functions + c.lambdas = t.productions k.isFunction + t.tokens k.isFunction
  loops : c.loops = t.productions k.isLoop + t.tokens k.isLoop
  definitions : CodeType.countDefinitions t = (c.functions, c.classes)

/-- All passes count the same. -/
structure CountersAgree (t : SyntaxTree) (e : Elements) (c : PatternCounts Float) : Prop where
  classes : c.classes = t.metrics.classes
  class_elements : t.metrics.classes = e.classes.length
  functions : c.functions + c.lambdas = t.metrics.functions
  function_elements : t.metrics.functions = e.functions.length
  loops : c.loops = t.metrics.loops
  definitions : CodeType.countDefinitions t = (c.functions, c.classes)

theorem Counted.agree_iff {e : Elements} {c : PatternCounts Float} (h : t.Counted k e c) :
    t.CountersAgree e c ↔
      t.tokens k.isClass = 0 ∧ t.tokens k.isFunction = 0 ∧ t.tokens k.isLoop = 0 := by
  obtain ⟨hmc, hmf, hml, hec, hef, hc, hf, hl, hd⟩ := h
  constructor
  · intro ha
    have hclasses := ha.classes
    have hfunctions := ha.functions
    have hloops := ha.loops
    omega
  · rintro ⟨hclass, hfunction, hloop⟩
    exact ⟨by omega, by omega, by omega, by omega, by omega, hd⟩

theorem counted_elements (h : nodeKinds? t.language = some k) (adapter : Option Adapter)
    (libraries : LibraryReport) (entryPoints : List EntryPoint) :
    ∃ c, t.patternCounts? = some c ∧ t.Counted k (t.elements adapter libraries entryPoints) c := by
  refine ⟨_, by rw [patternCounts?, h, Option.map_some], ?_⟩
  constructor
  · simp only [metrics, h, Metrics.ofTree, countP_named]
  · simp only [metrics, h, Metrics.ofTree, countP_named]
  · simp only [metrics, h, Metrics.ofTree, countP_named]
  · simp only [elements, h, Elements.ofTree, List.length_map, length_named]
  · simp only [elements, h, Elements.ofTree, List.length_map, length_named]
  · exact countP_kind t k.isClass
  · exact countP_function t h
  · exact countP_kind t k.isLoop
  · simp only [CodeType.countDefinitions, h]

/-- What every pass counts, and when they agree. -/
theorem counters_exact (h : nodeKinds? t.language = some k) (adapter : Option Adapter)
    (libraries : LibraryReport) (entryPoints : List EntryPoint) :
    ∃ c, t.patternCounts? = some c ∧ t.Counted k (t.elements adapter libraries entryPoints) c
      ∧ (t.CountersAgree (t.elements adapter libraries entryPoints) c ↔
        ∀ p ∈ t.places, k.isClass p.kind || k.isFunction p.kind || k.isLoop p.kind →
          p.isNamed = true) := by
  obtain ⟨c, hc, hcounted⟩ := counted_elements h adapter libraries entryPoints
  refine ⟨c, hc, hcounted, ?_⟩
  rw [hcounted.agree_iff, tokens_eq_zero_iff, tokens_eq_zero_iff, tokens_eq_zero_iff]
  simp only [Bool.or_eq_true]
  constructor
  · rintro ⟨hclass, hfunction, hloop⟩ p hp ((hkind | hkind) | hkind)
    · exact hclass p hp hkind
    · exact hfunction p hp hkind
    · exact hloop p hp hkind
  · intro hnamed
    exact ⟨fun p hp hkind => hnamed p hp (Or.inl (Or.inl hkind)),
      fun p hp hkind => hnamed p hp (Or.inl (Or.inr hkind)),
      fun p hp hkind => hnamed p hp (Or.inr hkind)⟩

end SyntaxTree

/-! ## A class with its keyword -/

namespace ClassWithKeyword

def specs : List NodeSpec :=
  [⟨"program", 0, 9, true, false, none⟩, ⟨"class_declaration", 0, 9, true, false, none⟩,
    ⟨"class", 0, 5, false, false, none⟩, ⟨"identifier", 6, 7, true, false, some "name"⟩,
    ⟨"class_body", 7, 9, true, false, some "body"⟩]

def source : String := "class A{}"

def node (id : Nat) (children : List Node) : Node :=
  .mk ((specs[id]?.getD ⟨"", 0, 0, true, false, none⟩).record source id) children

/-- A class of one line in which the parser kept the keyword. -/
def tree : SyntaxTree :=
  ⟨.javaScript, source, node 0 [node 1 [node 2 [], node 3 [], node 4 []]]⟩

theorem built : tree.Built := by
  refine ⟨source, .javaScript, ?_, ?_⟩
  · exact (specs.take 2).map .openNode ++ (specs.drop 2).map .leaf ++ [.closeNode, .closeNode]
  · rfl

end ClassWithKeyword

open ClassWithKeyword in
theorem counters_classWithKeyword :
    nodeKinds? tree.language = some javaScriptKinds
      ∧ ∃ c, tree.patternCounts? = some c
        ∧ tree.Counted javaScriptKinds (tree.elements none .empty []) c
        ∧ (tree.CountersAgree (tree.elements none .empty []) c ↔
          ∀ p ∈ tree.places,
            javaScriptKinds.isClass p.kind || javaScriptKinds.isFunction p.kind
              || javaScriptKinds.isLoop p.kind → p.isNamed = true) :=
  ⟨rfl, SyntaxTree.counters_exact rfl none .empty []⟩

open ClassWithKeyword in
/-- With the keyword the evidence for paradigms counts two classes where
the metrics count one. -/
theorem keyword_counted_as_class :
    tree.Built ∧ nodeKinds? tree.language = some javaScriptKinds
      ∧ tree.patternCounts?.map (·.classes) = some 2 ∧ tree.metrics.classes = 1
      ∧ ¬ ∃ c, tree.patternCounts? = some c
        ∧ tree.CountersAgree (tree.elements none .empty []) c := by
  have hevidence : tree.patternCounts?.map (·.classes) = some 2 := by rfl
  have hmetrics : tree.metrics.classes = 1 := by rfl
  refine ⟨built, rfl, hevidence, hmetrics, ?_⟩
  rintro ⟨c, hc, hagree⟩
  rw [hc, Option.map_some, Option.some.injEq, hagree.classes, hmetrics] at hevidence
  cases hevidence

end CodeProfile
