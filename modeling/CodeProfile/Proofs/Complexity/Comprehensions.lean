import CodeProfile.Adapter.Python
import CodeProfile.Proofs.Complexity.Levelwise
import CodeProfile.Proofs.Lowering.Attribution
import CodeProfile.Proofs.Text.Needs

/-!
# Comprehensions as loops

A clause of a comprehension is read as a loop, but what runs in it stands
beside the clause, not in a body of its own. So its loop holds nothing
(`eq_leaf_of_isClause`), and clauses never nest: neither those of one
comprehension nor those of comprehensions in each other's body. A block
whose loops are all clauses takes linear time, however many there are,
while `k` loops nested in each other over the same names would take the
`k`-th power (`clauses_cost_one_level`).
-/

namespace CodeProfile

/-! ## Loops that hold no statement -/

namespace Statement

/-- The statement holds no other, if it is a loop. -/
def IsLeaf (s : Statement) : Prop := ∀ o bounds body, s = loop o bounds body → body = []

theorem levels_below_of_leaf {s : Statement} (h : ∀ t ∈ walk s, t.IsLeaf) :
    LevelsBelow s.levels [.linear] := by
  induction s using inner_induction with
  | step s ih =>
      rw [walk_eq, List.forall_mem_cons, walkAll_eq, List.forall_mem_flatMap] at h
      obtain ⟨hs, hinner⟩ := h
      cases s with
      | loop o bounds body =>
          obtain rfl := hs o bounds body rfl
          rw [levels, levelsAll, LevelsBelow]
          cases bounds.growth <;> rfl
      | conditional o branches =>
          rw [levels, levelsBranches_eq]
          exact levelsAll_below fun i hi => ih i hi (hinner i hi)
      | call o callee r => exact .nil _
      | allocation o d => exact .nil _
      | simple o kind => exact .nil _

theorem eq_leaf_of_entry {s : Statement} {id : Nat} {bounds : LoopBounds}
    (hentry : s.entry = (id, .loop bounds)) (hinner : walkAll s.inner = []) :
    ∃ o, s = loop o bounds [] := by
  have hlabel := congrArg Prod.snd hentry
  cases s with
  | loop o b body =>
      obtain rfl := StatementLabel.loop.inj hlabel
      cases body with
      | nil => exact ⟨o, rfl⟩
      | cons i is =>
          rw [inner, walkAll, walk_eq] at hinner
          cases hinner
  | _ => cases hlabel

/-- Where no loop holds another, there is one level at most. -/
theorem levelsAll_below_of_leaf {ss : List Statement} (h : ∀ s ∈ walkAll ss, s.IsLeaf) :
    LevelsBelow (levelsAll ss) [.linear] := by
  rw [walkAll_eq, List.forall_mem_flatMap] at h
  exact levelsAll_below fun s hs => levels_below_of_leaf (h s hs)

end Statement

theorem eq_linear_of_below {gs : List LoopGrowth} (h : LevelsBelow gs [.linear])
    (hweight : 10 ≤ levelsWeight gs) : gs = [.linear] := by
  match gs with
  | [] => cases hweight
  | [g] =>
      rw [levelsWeight_cons] at hweight
      cases g with
      | linear => rfl
      | logarithmic => exact absurd hweight (by decide)
      | constant => exact absurd hweight (by decide)
  | g :: h' :: gs =>
      rw [LevelsBelow, mergeLevels, List.cons.injEq] at h
      cases h.2

namespace Block

/-- The nodes that became loops of the block. -/
def loopNodes (b : Block) : List Nat := b.walk.filterMap fun
  | .loop o _ _ => some o.node
  | _ => none

theorem mem_loopNodes {b : Block} {n : Nat} :
    n ∈ b.loopNodes ↔ ∃ o bounds body, .loop o bounds body ∈ b.walk ∧ o.node = n := by
  rw [loopNodes]
  exact Statement.mem_filterMap_loop fun o _ => o.node

theorem levels_nested_of_linear {bounds : List LoopBounds} (h : ∀ b ∈ bounds, b.growth = .linear) :
    (nested bounds).linearLevels = bounds.length ∧ (nested bounds).logarithmicLevels = 0 := by
  have hall : ∀ g ∈ bounds.map LoopBounds.growth, LoopGrowth.linear = g :=
    List.forall_mem_map.mpr fun b hb => (h b hb).symm
  constructor
  · rw [linearLevels_nested, List.count_eq_length.mpr hall, List.length_map]
  · rw [logarithmicLevels_nested, List.count_eq_zero]
    exact fun hmem => absurd (hall _ hmem) (by decide)

/-- A linear loop counts for the block, wherever it stands. -/
theorem ten_le_weight {b : Block} {o : Origin} {bounds : LoopBounds} {body : List Statement}
    (h : .loop o bounds body ∈ b.walk) (hlinear : bounds.growth = .linear) : 10 ≤ b.weight := by
  have hle := Statement.weight_le_of_mem_walkAll h
  rw [Statement.levels, levelsWeight_cons, hlinear] at hle
  rw [weight_eq]
  exact (Nat.le_add_right 10 _).trans hle

end Block

namespace Adapter

open Place

variable {a : Adapter} {p x : Place} {t : SyntaxTree} {b : Block}

/-! ## Loops without a body -/

theorem eq_leaf_of_mem_walk (ht : t.root.Sound) (hp : p ∈ t.places) (hx : x ∈ t.places)
    (hloop : a.classify x = some .loop) (hbody : body? x = none) {inInput : Bool} {s : Statement}
    (hs : s ∈ Statement.walkAll (a.lower inInput p).statements) (hid : s.origin.node = x.id) :
    ∃ o, s = .loop o (a.loopBounds x) [] := by
  obtain ⟨y, hy, head, before, inside, inner, hr, rfl⟩ := exists_reading_of_mem_walk hs
  rw [StatementHead.origin_statement] at hid
  have hyp := mem_descendants_of_mem_visited (ht.of_mem hp) (visited_of_owned hy)
  obtain rfl : y = x := ht.eq_of_id_eq (descendants_trans hp hyp) hx hid
  rw [reading_of_loop hloop, hbody] at hr
  cases hr
  exact ⟨_, rfl⟩

/-- What a loop without a body became holds nothing, in whatever block it stands. -/
theorem eq_leaf_of_mem_blocks (ht : t.root.Sound) (hx : x ∈ t.places)
    (hloop : a.classify x = some .loop) (hbody : body? x = none)
    (hb : b ∈ (a.program t).blocks) {s : Statement} (hs : s ∈ b.walk)
    (hid : s.origin.node = x.id) : ∃ o, s = .loop o (a.loopBounds x) [] := by
  rcases List.mem_append.mp hb with hb | hb
  · obtain ⟨f, hf, rfl⟩ := List.mem_map.mp hb
    obtain ⟨g, hg, -, -, hfun, -⟩ := a.exists_place_of_function t hf
    have hgt := mem_descendants_of_mem_visited ht hg
    obtain ⟨mark, hentry, hinner, hwalk⟩ := a.body_walk g
    rw [hfun, hwalk] at hs
    obtain ⟨s₀, hs₀, rfl⟩ := List.mem_map.mp hs
    obtain ⟨q, hq, hsq⟩ := mem_walkAll_flatMap.mp hs₀
    have hqg := mem_below_of_mem_reading (ht.of_mem hgt) (Reading.bodyParts_subset _ hq)
      (self_mem_descendants q)
    have hid₀ : s₀.origin.node = x.id := (congrArg Prod.fst (hentry s₀)).symm.trans hid
    have hqt := descendants_trans hgt (mem_descendants_of_mem_below hqg)
    obtain ⟨o, rfl⟩ := eq_leaf_of_mem_walk ht hqt hx hloop hbody hsq hid₀
    exact Statement.eq_leaf_of_entry (hentry _) (hinner _)
  · rw [List.mem_singleton.mp hb] at hs
    exact eq_leaf_of_mem_walk ht (self_mem_descendants _) hx hloop hbody hs hid

/-! ## Clauses -/

namespace Python

/-- A clause of a comprehension that runs over a plain name. -/
structure IsClause (p : Place) : Prop where
  kind : p.kind = "for_in_clause"
  isNamed : p.isNamed = true
  fits : p.isError = false
  bodiless : body? p = none
  overName : ∃ q, p.childByField? "right" = some q ∧ Text.IsName q.text

theorem IsClause.classify (h : IsClause p) : adapter.classify p = some .loop := by
  rw [Adapter.classify, h.kind, h.isNamed, h.fits]
  rfl

/-- A clause and a loop statement over the same iterable have the same bound. -/
theorem loopBounds_over {q : Place} (hkind : p.kind = "for_statement" ∨ p.kind = "for_in_clause")
    (hright : p.childByField? "right" = some q) : adapter.loopBounds p = .ofIterable q.text := by
  have hheader : adapter.loopHeader p = .iteration q.text := by
    simp only [adapter, loopHeader, if_pos hkind, iterationOver, hright]
  rw [Adapter.loopBounds, hheader]
  rfl

theorem IsClause.growth (h : IsClause p) : (adapter.loopBounds p).growth = .linear := by
  obtain ⟨q, hright, hname⟩ := h.overName
  rw [loopBounds_over (.inr h.kind) hright]
  exact LoopBounds.growth_ofIterable_of_isName hname

theorem IsClause.eq_leaf (h : IsClause x) (ht : t.Built) (hx : x ∈ t.places)
    (hb : b ∈ (adapter.program t).blocks) {s : Statement} (hs : s ∈ b.walk)
    (hid : s.origin.node = x.id) : ∃ o, s = .loop o (adapter.loopBounds x) [] :=
  eq_leaf_of_mem_blocks ht.sound hx h.classify h.bodiless hb hs hid

theorem IsClause.ten_le_weight (h : IsClause x) (ht : t.Built) (hx : x ∈ t.places)
    (hb : b ∈ (adapter.program t).blocks) (hmem : x.id ∈ b.loopNodes) : 10 ≤ b.weight := by
  obtain ⟨o, bounds, body, hs, hid⟩ := Block.mem_loopNodes.mp hmem
  obtain ⟨o', heq⟩ := h.eq_leaf ht hx hb hs hid
  rw [heq] at hs
  exact Block.ten_le_weight hs h.growth

/-- A block whose loops are all clauses has one level, if it has a loop. -/
theorem levelsAll_of_clauses (ht : t.Built) (hb : b ∈ (adapter.program t).blocks)
    (hne : b.loopNodes ≠ []) (h : ∀ n ∈ b.loopNodes, ∃ x ∈ t.places, IsClause x ∧ x.id = n) :
    Statement.levelsAll b.statements = [.linear] := by
  have hleaf : ∀ s ∈ b.walk, s.IsLeaf := by
    rintro s hs o bounds body rfl
    obtain ⟨x, hx, hclause, hid⟩ := h o.node (Block.mem_loopNodes.mpr ⟨o, bounds, body, hs, rfl⟩)
    obtain ⟨o', heq⟩ := hclause.eq_leaf ht hx hb hs hid.symm
    exact (Statement.loop.inj heq).2.2
  obtain ⟨n, hn⟩ := List.exists_mem_of_ne_nil _ hne
  obtain ⟨x, hx, hclause, rfl⟩ := h n hn
  have hweight := hclause.ten_le_weight ht hx hb hn
  rw [Block.weight_eq] at hweight
  exact eq_linear_of_below (Statement.levelsAll_below_of_leaf hleaf) hweight

/-- The loops that clauses abbreviate, nested in each other. -/
def unfolded (clauses : List Place) : Block := .nested (clauses.map adapter.loopBounds)

theorem levels_unfolded {clauses : List Place} (h : ∀ x ∈ clauses, IsClause x) :
    (unfolded clauses).linearLevels = clauses.length ∧
      (unfolded clauses).logarithmicLevels = 0 := by
  have hlinear : ∀ b ∈ clauses.map adapter.loopBounds, b.growth = .linear :=
    List.forall_mem_map.mpr fun x hx => (h x hx).growth
  rw [← List.length_map (f := adapter.loopBounds)]
  exact Block.levels_nested_of_linear hlinear

end Python

end Adapter

open Adapter.Python in
/-- In whatever block a clause stands, its loop holds nothing. The loops that the clauses of a block
abbreviate take no more time than the block if the block reaches their rank otherwise; where all its
loops are clauses it takes linear time, and only the loop of a single clause takes no more. -/
theorem clauses_cost_one_level {t : SyntaxTree} (ht : t.Built) {b : Block}
    (hb : b ∈ (adapter.program t).blocks) :
    (∀ x ∈ t.places, IsClause x → ∀ s ∈ b.walk, s.origin.node = x.id →
      ∃ o, s = .loop o (adapter.loopBounds x) []) ∧
    ∀ clauses : List Place, clauses ≠ [] →
      (∀ x ∈ clauses, x ∈ t.places ∧ IsClause x ∧ x.id ∈ b.loopNodes) →
      (unfolded clauses).time = Cost.monomial clauses.length 0 ∧
      ((unfolded clauses).time.compareGrowth b.time ≠ .gt ↔
        10 * clauses.length ≤ b.weight ∨ Cost.exponentialRank - 1 ≤ b.weight) ∧
      (clauses.length = 1 → (unfolded clauses).time.compareGrowth b.time ≠ .gt) ∧
      ((∀ n ∈ b.loopNodes, ∃ x ∈ t.places, IsClause x ∧ x.id = n) →
        b.time = .n ∧
          ((unfolded clauses).time.compareGrowth b.time ≠ .gt ↔ clauses.length = 1)) := by
  refine ⟨fun x hx h s hs hid => h.eq_leaf ht hx hb hs hid, fun clauses hne hmem => ?_⟩
  obtain ⟨hlinear, hlog⟩ := levels_unfolded fun x hx => (hmem x hx).2.1
  obtain ⟨x, hx⟩ := List.exists_mem_of_ne_nil clauses hne
  obtain ⟨hxt, hclause, hnode⟩ := hmem x hx
  have hten := hclause.ten_le_weight ht hxt hb hnode
  have hpos := List.length_pos_of_ne_nil hne
  have hbound : (unfolded clauses).time.compareGrowth b.time ≠ .gt ↔
      10 * clauses.length ≤ b.weight ∨ Cost.exponentialRank - 1 ≤ b.weight := by
    have hweight : (unfolded clauses).weight = 10 * clauses.length := by
      rw [Block.weight, hlinear, hlog, Nat.add_zero]
    rw [Block.compareGrowth_time, Ne, Nat.compare_eq_gt, hweight, Cost.exponentialRank]
    omega
  refine ⟨?_, hbound, fun hone => hbound.mpr (.inl (by omega)), fun hall => ?_⟩
  · rw [Block.time_eq_monomial, hlinear, hlog]
  · have hlevels := levelsAll_of_clauses ht hb (List.ne_nil_of_mem hnode) hall
    have hweight : b.weight = 10 := by
      rw [Block.weight_eq, hlevels]
      rfl
    refine ⟨?_, ?_⟩
    · rw [Block.time, hlevels]
      rfl
    · rw [hbound, hweight, Cost.exponentialRank]
      omega

namespace Comprehended

/-! Two clauses, once in one comprehension and once in comprehensions in each other. -/

def node (kind : String) (start stop : Nat) (field : Option String) : NodeSpec :=
  ⟨kind, start, stop, true, false, field⟩

/-- A clause such as `for x in xs`. -/
def clause (start : Nat) : NodeSpec := node "for_in_clause" start (start + 11) none

def variableName (start : Nat) : NodeSpec := node "identifier" (start + 4) (start + 5) (some "left")

def iterable (start : Nat) : NodeSpec := node "identifier" (start + 9) (start + 11) (some "right")

def clauseNode (source : String) (id start : Nat) : Node :=
  (clause start).node source id
    [(variableName start).node source (id + 1) [], (iterable start).node source (id + 2) []]

def clauseCalls (start : Nat) : List BuilderCall :=
  [.openNode (clause start), .leaf (variableName start), .leaf (iterable start), .closeNode]

open Adapter.Python in
theorem exists_clause {t : SyntaxTree} {b : Block} {clauses : List Place}
    (h : ∀ x ∈ clauses, x ∈ t.places ∧ IsClause x) (hnodes : b.loopNodes = clauses.map Place.id) :
    ∀ n ∈ b.loopNodes, ∃ x ∈ t.places, IsClause x ∧ x.id = n := by
  rw [hnodes, List.forall_mem_map]
  exact fun x hx => ⟨x, (h x hx).1, (h x hx).2, rfl⟩

namespace InEachOther

def source : String := "[[x for x in xs] for y in ys]"

def file : NodeSpec := node "module" 0 29 none

def outer : NodeSpec := node "list_comprehension" 0 29 none

def inner : NodeSpec := node "list_comprehension" 1 16 (some "body")

def body : NodeSpec := node "identifier" 2 3 (some "body")

def innerNode : Node := inner.node source 2 [body.node source 3 [], clauseNode source 4 4]

def outerNode : Node := outer.node source 1 [innerNode, clauseNode source 7 17]

def fileNode : Node := file.node source 0 [outerNode]

def tree : SyntaxTree := ⟨.python, source, fileNode⟩

def calls : List BuilderCall :=
  [.openNode file, .openNode outer, .openNode inner, .leaf body] ++ clauseCalls 4
    ++ [.closeNode] ++ clauseCalls 17 ++ [.closeNode, .closeNode]

set_option maxRecDepth 4000 in
theorem built : tree.Built := ⟨source, .python, calls, by rfl⟩

def first : Place := ⟨clauseNode source 4 4, [innerNode, outerNode, fileNode]⟩

def second : Place := ⟨clauseNode source 7 17, [outerNode, fileNode]⟩

open Adapter.Python in
theorem isClause : ∀ x ∈ [first, second], x ∈ tree.places ∧ IsClause x := by
  intro x hx
  rcases List.mem_pair.mp hx with rfl | rfl
  · exact ⟨List.mem_of_getElem? (i := 4) rfl, rfl, rfl, rfl, rfl, _, rfl, by decide⟩
  · exact ⟨List.mem_of_getElem? (i := 7) rfl, rfl, rfl, rfl, rfl, _, rfl, by decide⟩

theorem loopNodes :
    (Adapter.Python.adapter.program tree).topLevel.loopNodes = [first, second].map Place.id := by
  decide +kernel

end InEachOther

namespace SideBySide

def source : String := "[x for x in xs for y in ys]"

def file : NodeSpec := node "module" 0 27 none

def comprehension : NodeSpec := node "list_comprehension" 0 27 none

def body : NodeSpec := node "identifier" 1 2 (some "body")

def comprehensionNode : Node := comprehension.node source 1
  [body.node source 2 [], clauseNode source 3 3, clauseNode source 6 15]

def fileNode : Node := file.node source 0 [comprehensionNode]

def tree : SyntaxTree := ⟨.python, source, fileNode⟩

def calls : List BuilderCall :=
  [.openNode file, .openNode comprehension, .leaf body] ++ clauseCalls 3 ++ clauseCalls 15
    ++ [.closeNode, .closeNode]

set_option maxRecDepth 4000 in
theorem built : tree.Built := ⟨source, .python, calls, by rfl⟩

def first : Place := ⟨clauseNode source 3 3, [comprehensionNode, fileNode]⟩

def second : Place := ⟨clauseNode source 6 15, [comprehensionNode, fileNode]⟩

open Adapter.Python in
theorem isClause : ∀ x ∈ [first, second], x ∈ tree.places ∧ IsClause x := by
  intro x hx
  rcases List.mem_pair.mp hx with rfl | rfl
  · exact ⟨List.mem_of_getElem? (i := 3) rfl, rfl, rfl, rfl, rfl, _, rfl, by decide⟩
  · exact ⟨List.mem_of_getElem? (i := 6) rfl, rfl, rfl, rfl, rfl, _, rfl, by decide⟩

theorem loopNodes :
    (Adapter.Python.adapter.program tree).topLevel.loopNodes = [first, second].map Place.id := by
  decide +kernel

end SideBySide

end Comprehended

open Comprehended.InEachOther Adapter.Python in
/-- The comprehensions of `[[x for x in xs] for y in ys]` take linear time together, as the loop of
one clause would, and the loops of both would not. -/
theorem clauses_cost_one_level_inEachOther :
    (adapter.program tree).topLevel.time = .n ∧
      (unfolded [first]).time.compareGrowth (adapter.program tree).topLevel.time ≠ .gt ∧
      ¬ (unfolded [first, second]).time.compareGrowth
        (adapter.program tree).topLevel.time ≠ .gt := by
  have htop : (adapter.program tree).topLevel ∈ (adapter.program tree).blocks :=
    List.mem_append_right _ (List.mem_singleton_self _)
  have hmem (x : Place) (hx : x ∈ [first, second]) :
      x ∈ tree.places ∧ IsClause x ∧ x.id ∈ (adapter.program tree).topLevel.loopNodes := by
    rw [loopNodes]
    exact ⟨(isClause x hx).1, (isClause x hx).2, List.mem_map_of_mem hx⟩
  obtain ⟨-, hclauses⟩ := clauses_cost_one_level built htop
  obtain ⟨-, -, hone, -⟩ := hclauses [first] (by simp) fun x hx =>
    hmem x (List.mem_cons.mpr (.inl (List.mem_singleton.mp hx)))
  obtain ⟨-, -, -, hboth⟩ := hclauses [first, second] (by simp) hmem
  obtain ⟨htime, hiff⟩ := hboth (Comprehended.exists_clause isClause loopNodes)
  exact ⟨htime, hone rfl, by rw [hiff]; decide⟩

open Comprehended.SideBySide Adapter.Python in
/-- The two clauses of `[x for x in xs for y in ys]` cost as much as one. -/
theorem clauses_side_by_side :
    tree.Built ∧ (∀ x ∈ [first, second], x ∈ tree.places ∧ IsClause x) ∧
      (unfolded [first, second]).time.bigO = "O(n^2)" ∧
      (adapter.program tree).topLevel.time.bigO = "O(n)" ∧
      (unfolded [first, second]).time.compareGrowth (adapter.program tree).topLevel.time = .gt := by
  have hlevels : Statement.levelsAll (adapter.program tree).topLevel.statements = [.linear] := by
    refine levelsAll_of_clauses built (List.mem_append_right _ (List.mem_singleton_self _)) ?_
      (Comprehended.exists_clause isClause loopNodes)
    rw [loopNodes]
    decide
  have htime : (adapter.program tree).topLevel.time = .n := by
    rw [Block.time, hlevels]
    rfl
  have hunfolded : (unfolded [first, second]).time = Cost.monomial 2 0 := by
    obtain ⟨hlinear, hlog⟩ := levels_unfolded fun x hx => (isClause x hx).2
    rw [Block.time_eq_monomial, hlinear, hlog]
    rfl
  rw [htime, hunfolded]
  exact ⟨built, isClause, by decide, by decide, by decide⟩

end CodeProfile
