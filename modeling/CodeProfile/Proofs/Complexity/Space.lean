import CodeProfile.Proofs.Complexity.ProgramTime
import CodeProfile.Proofs.Lowering.Enclosing

/-!
# The space of a program

Space grows with the input, or it does not: every term of it is `n` or
`1`, and so is their sum (`combineSum_space`). It grows with a function
that calls itself, with an allocation of input size, and with a call that
grows a collection inside a loop over the input (`Program.space_eq_iff`).

Lowering decides which allocations are of input size: those inside a loop
over the input of their own block, and those that the adapter finds
(`Adapter.AllocatesAs`). The headline is `space_exact`.
-/

namespace CodeProfile

/-! ## Sums of spaces -/

namespace Cost

/-- What the space of a block can be. -/
def IsSpace (t : Cost) : Prop := t = n ∨ t = one

theorem IsSpace.canonical {t : Cost} (h : t.IsSpace) : t.Canonical := by
  rcases h with rfl | rfl
  · exact .linear inputSize
  · exact .constant 1

theorem IsSpace.isSum {t : Cost} (h : t.IsSpace) : t.isSum = false := by
  rcases h with rfl | rfl <;> rfl

theorem n_ne_one : n ≠ one := nofun

/-- A sum of spaces grows if one of its terms does. -/
theorem combineSum_space {ts : List Cost} (hts : ∀ t ∈ ts, t.IsSpace) (hne : ts ≠ []) :
    combineSum ts = n ∧ n ∈ ts ∨ combineSum ts = one ∧ n ∉ ts := by
  have hsum : ∀ t ∈ ts, t.isSum = false := fun t ht => (hts t ht).isSum
  by_cases hmem : n ∈ ts
  · refine .inl ⟨combineSum_eq_of_top hsum hmem fun t ht => ?_, hmem⟩
    rcases hts t ht with rfl | rfl
    · exact .inl rfl
    · exact .inr (by decide)
  · have hone : ∀ t ∈ ts, t = one := fun t ht =>
      (hts t ht).resolve_left fun heq => hmem (heq ▸ ht)
    obtain ⟨t, ht⟩ := List.exists_mem_of_ne_nil ts hne
    obtain rfl := hone t ht
    exact .inr ⟨combineSum_eq_of_top hsum ht fun u hu => .inl (hone u hu), hmem⟩

theorem reduce_sum_space {ts : List Cost} (hts : ∀ t ∈ ts, t.IsSpace) (hne : ts ≠ []) :
    (sum ts).reduce.IsSpace ∧ ((sum ts).reduce = n ↔ n ∈ ts) := by
  rw [reduce_sum_of_canonical fun t ht => (hts t ht).canonical]
  rcases combineSum_space hts hne with ⟨heq, hmem⟩ | ⟨heq, hmem⟩
  · exact ⟨.inl heq, iff_of_true heq hmem⟩
  · exact ⟨.inr heq, iff_of_false (heq ▸ n_ne_one.symm) hmem⟩

end Cost

/-! ## Blocks and functions -/

/-- Something in the block takes space in proportion to the input. -/
def Block.Grows (b : Block) : Prop :=
  ∃ e ∈ b.enclosed, e.2.isSizedAllocation = true ∨
    e.2.isGrowthCall = true ∧ Statement.inInput e.1 = true

theorem Block.isSpace (b : Block) : b.space.IsSpace := by
  unfold space
  split
  · exact .inl rfl
  · exact .inr rfl

theorem Block.space_eq_iff (b : Block) : b.space = .n ↔ b.Grows := by
  have hgrows := Statement.growsInInputAll_iff [] b.statements
  have hwalk : (∃ s ∈ b.walk, s.isSizedAllocation = true) ↔
      ∃ e ∈ b.enclosed, e.2.isSizedAllocation = true := by
    rw [walk, ← Statement.map_snd_enclosedAll []]
    simp only [List.mem_map, exists_exists_and_eq_and, enclosed]
  have hflag : (b.walk.any Statement.isSizedAllocation ||
      Statement.growsInInputAll false b.statements) = true ↔ b.Grows := by
    rw [Bool.or_eq_true, List.any_eq_true, hwalk]
    refine (or_congr_right hgrows).trans ?_
    simp only [Grows, enclosed, and_or_left, exists_or]
  rw [← hflag, space]
  split
  next h => exact iff_of_true rfl h
  next h => exact iff_of_false Cost.n_ne_one.symm h

namespace Function

theorem space_terms (f : Function) :
    ∀ t ∈ f.body.space :: (if f.isRecursive then [Cost.n] else []), t.IsSpace := by
  intro t ht
  rcases List.mem_cons.mp ht with rfl | ht
  · exact f.body.isSpace
  · split at ht
    · exact .inl (List.mem_singleton.mp ht)
    · cases ht

theorem isSpace (f : Function) : f.space.reduce.IsSpace :=
  (Cost.reduce_sum_space f.space_terms (List.cons_ne_nil _ _)).1

theorem space_eq_iff (f : Function) :
    f.space.reduce = .n ↔ f.isRecursive = true ∨ f.body.Grows := by
  rw [space, (Cost.reduce_sum_space f.space_terms (List.cons_ne_nil _ _)).2, List.mem_cons,
    eq_comm, f.body.space_eq_iff, or_comm]
  cases f.isRecursive <;> simp

end Function

/-! ## Programs -/

namespace Program

theorem isSpace_of_mem_spaceTerms {p : Program} {t : Cost} (h : t ∈ p.spaceTerms) : t.IsSpace := by
  rcases List.mem_append.mp h with h | h
  · obtain ⟨f, -, rfl⟩ := List.mem_map.mp h
    exact f.isSpace
  · exact List.mem_singleton.mp h ▸ p.topLevel.isSpace

theorem n_mem_spaceTerms_iff (p : Program) :
    Cost.n ∈ p.spaceTerms ↔
      (∃ f ∈ p.functions, f.isRecursive = true) ∨ ∃ b ∈ p.blocks, b.Grows := by
  rw [spaceTerms, List.mem_append, List.mem_map, List.mem_singleton, eq_comm (a := Cost.n),
    p.topLevel.space_eq_iff, blocks]
  simp only [Function.space_eq_iff, List.mem_append, List.mem_map, List.mem_singleton, or_and_right,
    exists_or, exists_eq_left, exists_exists_and_eq_and, and_or_left, or_assoc]

theorem space_eq_or (p : Program) :
    p.complexity.space = "O(n)" ∧ Cost.n ∈ p.spaceTerms ∨
      p.complexity.space = "O(1)" ∧ Cost.n ∉ p.spaceTerms := by
  have hspace : p.complexity.space = (Cost.sum p.spaceTerms).reduce.bigO := rfl
  obtain ⟨hone, hiff⟩ := Cost.reduce_sum_space
    (fun t (ht : t ∈ p.spaceTerms) => isSpace_of_mem_spaceTerms ht) (by simp [spaceTerms])
  rw [hspace, ← hiff]
  rcases hone with heq | heq
  · rw [heq]
    exact .inl ⟨rfl, rfl⟩
  · rw [heq]
    exact .inr ⟨rfl, Cost.n_ne_one.symm⟩

end Program

open Statement in
/-- The space of a program grows exactly with a recursive function, an allocation of input size, or
a call that grows a collection with a loop over the input around it in its block. Lowering makes an
allocation one of input size if a loop over the input is around it in the block of its function, and
else as the adapter says. -/
theorem space_exact :
    (∀ p : Program,
      (p.complexity.space = "O(n)" ↔ (∃ f ∈ p.functions, f.isRecursive = true) ∨
        ∃ b ∈ p.blocks, ∃ e ∈ b.enclosed, e.2.isSizedAllocation = true ∨
          e.2.isGrowthCall = true ∧ inInput e.1 = true) ∧
      (p.complexity.space ≠ "O(n)" → p.complexity.space = "O(1)")) ∧
    ∀ (a : Adapter) (t : SyntaxTree), t.Built →
      (∀ f ∈ (a.program t).functions, a.AllocatesAs t (some f.origin.node) f.body) ∧
      a.AllocatesAs t none (a.program t).topLevel := by
  refine ⟨fun p => ?_, fun a t ht => ⟨fun f hf => ?_, Adapter.allocatesAs_topLevel ht.sound⟩⟩
  · have hone : "O(1)" ≠ "O(n)" := by decide
    rcases p.space_eq_or with ⟨hspace, hmem⟩ | ⟨hspace, hmem⟩
    · exact ⟨iff_of_true hspace (p.n_mem_spaceTerms_iff.mp hmem), fun h => absurd hspace h⟩
    · exact ⟨iff_of_false (hspace ▸ hone) (mt p.n_mem_spaceTerms_iff.mpr hmem), fun _ => hspace⟩
  · obtain ⟨g, hg, hfun, hnode, hbody, -⟩ := a.exists_place_of_function t hf
    rw [hnode, hbody]
    exact Adapter.allocatesAs_functionAt ht.sound hg hfun

namespace MappedAllocation

/-! A list in a function that is mapped over the input, and another one in a function inside. -/

/-- The adapter for the sample. -/
abbrev adapter : Adapter := Adapter.JavaScript.adapter .javaScript

def source : String := "xs.map(x=>{[];function g(){[]}})"

def node (kind : String) (start stop : Nat) (field : Option String) : NodeSpec :=
  ⟨kind, start, stop, true, false, field⟩

def file : NodeSpec := node "program" 0 32 none

def call : NodeSpec := node "call_expression" 0 32 none

def callee : NodeSpec := node "member_expression" 0 6 (some "function")

def object : NodeSpec := node "identifier" 0 2 (some "object")

def property : NodeSpec := node "property_identifier" 3 6 (some "property")

def arguments : NodeSpec := node "arguments" 6 32 (some "arguments")

def mapped : NodeSpec := node "arrow_function" 7 31 none

def mappedBody : NodeSpec := node "statement_block" 10 31 (some "body")

def mappedList : NodeSpec := node "array" 11 13 none

def inner : NodeSpec := node "function_declaration" 14 30 none

def innerName : NodeSpec := node "identifier" 23 24 (some "name")

def innerBody : NodeSpec := node "statement_block" 26 30 (some "body")

def innerList : NodeSpec := node "array" 27 29 none

def innerNode : Node := inner.node source 9 [innerName.node source 10 [],
  innerBody.node source 11 [innerList.node source 12 []]]

def mappedNode : Node := mapped.node source 6
  [mappedBody.node source 7 [mappedList.node source 8 [], innerNode]]

def fileNode : Node := file.node source 0 [call.node source 1
  [callee.node source 2 [object.node source 3 [], property.node source 4 []],
    arguments.node source 5 [mappedNode]]]

def tree : SyntaxTree := ⟨.javaScript, source, fileNode⟩

def calls : List BuilderCall :=
  [.openNode file, .openNode call, .openNode callee, .leaf object, .leaf property, .closeNode,
    .openNode arguments, .openNode mapped, .openNode mappedBody, .leaf mappedList, .openNode inner,
    .leaf innerName, .openNode innerBody, .leaf innerList, .closeNode, .closeNode, .closeNode,
    .closeNode, .closeNode, .closeNode, .closeNode]

set_option maxRecDepth 4000 in
theorem built : tree.Built := ⟨source, .javaScript, calls, by rfl⟩

/-- Whether there is an allocation with a loop over the input around it, or without one. -/
def allocates (b : Block) (flag : Bool) : Bool :=
  b.enclosed.any fun e => e.2 matches .allocation _ _ && Statement.inInput e.1 == flag

theorem exists_of_allocates {b : Block} {flag : Bool} (h : allocates b flag = true) :
    ∃ around o sized, (around, .allocation o sized) ∈ b.enclosed ∧
      Statement.inInput around = flag := by
  obtain ⟨⟨around, s⟩, he, hs⟩ := List.any_eq_true.mp h
  cases s with
  | allocation o sized => exact ⟨around, o, sized, he, beq_iff_eq.mp hs⟩
  | _ => cases hs

/-- The adapter finds neither of the lists of input size. -/
theorem isSizeDependent : ∀ x ∈ tree.places, adapter.classify x = some .allocation →
    adapter.isSizeDependent x = false := by
  have hlists : ∀ x ∈ tree.places, adapter.classify x = some .allocation → x.text = "[]" := by
    decide +kernel
  have hempty : Adapter.sizeHint.isMatch "[]" = false := by decide +kernel
  intro x hx hclass
  have htext : adapter.isSizeDependent x = Adapter.sizeHint.isMatch x.text := rfl
  rw [htext, hlists x hx hclass, hempty]

theorem allocates_program : allocates (adapter.program tree).topLevel true = true ∧
    (adapter.program tree).functions.any (fun f => allocates f.body false) = true := by
  decide +kernel

end MappedAllocation

open MappedAllocation in
/-- The list in the mapped function is of input size, so that space grows; the list in the function
inside is not, since the loop is none of its own. -/
theorem space_exact_mappedAllocation :
    tree.Built ∧
    (∃ around o, Statement.inInput around = true ∧
      (around, .allocation o true) ∈ (adapter.program tree).topLevel.enclosed) ∧
    (∃ f ∈ (adapter.program tree).functions, ∃ around o,
      (around, .allocation o false) ∈ f.body.enclosed) ∧
    (adapter.program tree).complexity.space = "O(n)" := by
  obtain ⟨hspace, hlowered⟩ := space_exact
  obtain ⟨hfunctions, htop⟩ := hlowered adapter tree built
  obtain ⟨htopLevel, hfunction⟩ := allocates_program
  obtain ⟨around, o, sized, he, hflag⟩ := exists_of_allocates htopLevel
  obtain ⟨x, -, -, -, -, hsized⟩ := htop around o sized he
  obtain rfl : sized = true := by rw [hsized, hflag, Bool.true_or]
  refine ⟨built, ⟨around, o, hflag, he⟩, ?_, ?_⟩
  · obtain ⟨f, hf, hallocates⟩ := List.any_eq_true.mp hfunction
    obtain ⟨around', o', sized', he', hflag'⟩ := exists_of_allocates hallocates
    obtain ⟨y, hy, -, hclass, -, hsized'⟩ := hfunctions f hf around' o' sized' he'
    obtain rfl : sized' = false := by
      rw [hsized', hflag', isSizeDependent y hy hclass, Bool.or_false]
    exact ⟨f, hf, around', o', he'⟩
  · refine (hspace _).1.mpr (.inr ⟨_, ?_, _, he, .inl rfl⟩)
    exact List.mem_append_right _ (List.mem_singleton_self _)

end CodeProfile
