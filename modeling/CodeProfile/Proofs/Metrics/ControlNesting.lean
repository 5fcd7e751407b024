import CodeProfile.Metrics
import CodeProfile.Proofs.Tree.Building

/-!
# Nesting of control structures

The metrics look up from every loop and every conditional and count the
control structures above it, where an `if` that hangs off an `else` stays
on the level of the `if` before it. One walk from the top that carries this
count finds the same number (`maxNesting_eq_deepest`).

Carried from the top, the count does not rise along a chain of `if`s that
each hang off the `else` of the one before, so that a chain nests as deep
as one `if` (`deepest_chain`), while each link is one more decision
(`decisions_chain`). Neither count reads more of a tree than its outline,
and in one outline a chain may stand in place of another
(`Exchanged`). `nesting_topDown` says both for whole trees.
-/

namespace CodeProfile

namespace Metrics

/-! ## From the top -/

/-- Whether a conditional hangs off the `else` of another one, the kind of the node above it
being `parent`. -/
def isChained (k : NodeKinds) (parent : Option String) (i : NodeInfo) : Bool :=
  k.isConditional i.kind && (i.field == some "alternative" || parent == some "else_clause")

/-- The level of a node, given how many levels enclose it. -/
def levelAt (k : NodeKinds) (level : Nat) (parent : Option String) (i : NodeInfo) : Nat :=
  if (k.isLoop i.kind || k.isConditional i.kind) && !isChained k parent i then level + 1 else level

mutual

/-- The deepest level of a loop or conditional with a name at or below a node, where `level` levels
enclose the node. -/
def deepest (k : NodeKinds) (level : Nat) (parent : Option String) : Node → Nat
  | .mk info children =>
    max (if info.isNamed && (k.isLoop info.kind || k.isConditional info.kind) then
        levelAt k level parent info else 0)
      (deepestAll k (levelAt k level parent info) (some info.kind) children)

/-- `deepest` for several nodes. -/
def deepestAll (k : NodeKinds) (level : Nat) (parent : Option String) : List Node → Nat
  | [] => 0
  | c :: cs => max (deepest k level parent c) (deepestAll k level parent cs)

end

variable {k : NodeKinds} {level : Nat} {parent : Option String}

theorem deepestAll_append (as bs : List Node) :
    deepestAll k level parent (as ++ bs) =
      max (deepestAll k level parent as) (deepestAll k level parent bs) := by
  induction as with
  | nil => exact (Nat.zero_max _).symm
  | cons a as ih => rw [List.cons_append, deepestAll, deepestAll, ih, Nat.max_assoc]

/-! ## From each node up -/

theorem greatest_cons (n : Nat) (ns : List Nat) : greatest (n :: ns) = max n (greatest ns) := by
  rw [greatest, List.foldl_cons, Nat.max_comm, List.foldl_assoc, greatest]

theorem greatest_append (ms ns : List Nat) :
    greatest (ms ++ ns) = max (greatest ms) (greatest ns) := by
  induction ms with
  | nil => exact (Nat.zero_max _).symm
  | cons m ms ih => rw [List.cons_append, greatest_cons, greatest_cons, ih, Nat.max_assoc]

/-- The greatest depth of the loops and conditionals with a name among some places. -/
def deepestOf (k : NodeKinds) (ps : List Place) : Nat :=
  greatest (((ps.filter (·.isNamed)).filter (isControl k)).map (nestingDepth k))

theorem deepestOf_append (ps qs : List Place) :
    deepestOf k (ps ++ qs) = max (deepestOf k ps) (deepestOf k qs) := by
  simp only [deepestOf, List.filter_append, List.map_append, greatest_append]

theorem deepestOf_cons (p : Place) (ps : List Place) :
    deepestOf k (p :: ps) =
      max (if p.isNamed && isControl k p then nestingDepth k p else 0) (deepestOf k ps) := by
  rw [← List.singleton_append, deepestOf_append]
  congr 1
  rw [deepestOf]
  cases hnamed : p.isNamed <;> cases hcontrol : isControl k p <;>
    simp [List.filter, hnamed, hcontrol, greatest]

/-- How many levels enclose a place. -/
def levelAbove (k : NodeKinds) (p : Place) : Nat :=
  p.ancestors.countP fun q => isControl k q && !isElseIf k q

theorem isElseIf_eq (p : Place) : isElseIf k p = isChained k (p.parent?.map (·.kind)) p.info := by
  rw [isElseIf, isChained]
  cases p.parent? <;> rfl

theorem nestingDepth_eq (p : Place) :
    nestingDepth k p = levelAt k (levelAbove k p) (p.parent?.map (·.kind)) p.info := by
  rw [nestingDepth, List.countP_cons, levelAt, ← isElseIf_eq]
  have hcontrol : isControl k p = (k.isLoop p.info.kind || k.isConditional p.info.kind) := rfl
  rw [← hcontrol]
  split <;> rfl

theorem levelAbove_of_mem_children {p c : Place} (h : c ∈ p.children) :
    levelAbove k c = nestingDepth k p := by
  rw [levelAbove, Place.ancestors_of_mem_children h, nestingDepth]

theorem deepestOf_flatMap {p : Place} {cs : List Node}
    (h : ∀ c ∈ cs, deepestOf k (Place.descendants ⟨c, p.node :: p.above⟩) =
      deepest k (nestingDepth k p) (some p.kind) c) :
    deepestOf k (cs.flatMap fun c => Place.descendants ⟨c, p.node :: p.above⟩) =
      deepestAll k (nestingDepth k p) (some p.kind) cs := by
  induction cs with
  | nil => rfl
  | cons c cs ih =>
      obtain ⟨hc, hcs⟩ := List.forall_mem_cons.mp h
      rw [List.flatMap_cons, deepestOf_append, hc, ih hcs, deepestAll]

/-- Looking up from every place and walking down once find the same depth. -/
theorem deepestOf_descendants (p : Place) :
    deepestOf k p.descendants =
      deepest k (levelAbove k p) (p.parent?.map (·.kind)) p.node := by
  induction p using Place.children_induction with
  | step p ih =>
      have hchildren : deepestOf k (p.children.flatMap Place.descendants) =
          deepestAll k (nestingDepth k p) (some p.kind) p.node.children := by
        rw [Place.children, List.flatMap_map]
        refine deepestOf_flatMap fun c hc => ?_
        have hmem : (⟨c, p.node :: p.above⟩ : Place) ∈ p.children := List.mem_map_of_mem hc
        rw [ih _ hmem, levelAbove_of_mem_children hmem, Place.parent?_of_mem_children hmem]
        rfl
      rw [Place.descendants_eq, deepestOf_cons, hchildren, nestingDepth_eq]
      obtain ⟨⟨info, cs⟩, above⟩ := p
      rw [deepest]
      rfl

/-! ## Decisions -/

/-- How many decisions a node brings. -/
def decisionsOf (k : NodeKinds) (i : NodeInfo) : Nat := decisionsAt k ⟨.mk i [], []⟩

/-- How many decisions there are at and below a node. -/
def decisions (k : NodeKinds) (n : Node) : Nat := Number.total (n.infos.map (decisionsOf k))

/-- `decisions` for several nodes. -/
def decisionsAll (k : NodeKinds) (cs : List Node) : Nat :=
  Number.total ((Node.infosAll cs).map (decisionsOf k))

theorem decisionsAll_cons (c : Node) (cs : List Node) :
    decisionsAll k (c :: cs) = decisions k c + decisionsAll k cs := by
  rw [decisionsAll, Node.infosAll, List.map_append, Number.total_append, decisions, decisionsAll]

theorem decisionsAll_append (as bs : List Node) :
    decisionsAll k (as ++ bs) = decisionsAll k as + decisionsAll k bs := by
  rw [decisionsAll, Node.infosAll_append, List.map_append, Number.total_append, decisionsAll,
    decisionsAll]

theorem decisions_mk (i : NodeInfo) (cs : List Node) :
    decisions k (.mk i cs) = decisionsOf k i + decisionsAll k cs := by
  rw [decisions, Node.infos, List.map_cons, Number.total_cons, decisionsAll]

end Metrics

/-! ## Chains of conditionals -/

/-- Neither a loop nor a conditional, no further branch and no operator that may skip its right
side. -/
structure NodeInfo.Plain (k : NodeKinds) (i : NodeInfo) : Prop where
  notControl : i.isNamed = true → k.isLoop i.kind = false ∧ k.isConditional i.kind = false
  notBranch : i.isNamed = true → i.kind ∉ k.branches
  notOperator : i.isNamed = false → i.field = some "operator" → i.kind ∉ Metrics.skippingOperators

instance (k : NodeKinds) (i : NodeInfo) : Decidable (i.Plain k) :=
  decidable_of_iff
    ((i.isNamed = true → k.isLoop i.kind = false ∧ k.isConditional i.kind = false)
      ∧ (i.isNamed = true → i.kind ∉ k.branches)
      ∧ (i.isNamed = false → i.field = some "operator" → i.kind ∉ Metrics.skippingOperators))
    ⟨fun ⟨h, h', h''⟩ => ⟨h, h', h''⟩, fun ⟨h, h', h''⟩ => ⟨h, h', h''⟩⟩

namespace Node

/-- Everything at and below the nodes is plain. -/
def PlainAll (k : NodeKinds) (cs : List Node) : Prop := ∀ i ∈ infosAll cs, i.Plain k

instance (k : NodeKinds) (cs : List Node) : Decidable (PlainAll k cs) :=
  inferInstanceAs (Decidable (∀ i ∈ infosAll cs, i.Plain k))

/-- A chain of so many conditionals, each of which hangs off the `else` of the one before: it fills
the field `alternative` there, or stands in an `else` clause. All else in the chain is plain. -/
inductive Chain (k : NodeKinds) : Nat → Node → Prop
  | single {info : NodeInfo} {inside : List Node}
      (named : info.isNamed = true) (conditional : k.isConditional info.kind = true)
      (plain : PlainAll k inside) : Chain k 1 (.mk info inside)
  | alternative {length : Nat} {info : NodeInfo} {before after : List Node} {next : Node}
      (named : info.isNamed = true) (conditional : k.isConditional info.kind = true)
      (plain : PlainAll k (before ++ after))
      (field : next.info.field = some "alternative") (chain : Chain k length next) :
      Chain k (length + 1) (.mk info (before ++ next :: after))
  | elseClause {length : Nat} {info clause : NodeInfo} {before after first last : List Node}
      {next : Node}
      (named : info.isNamed = true) (conditional : k.isConditional info.kind = true)
      (plain : PlainAll k (before ++ after)) (kind : clause.kind = "else_clause")
      (plainClause : PlainAll k (first ++ last)) (chain : Chain k length next) :
      Chain k (length + 1) (.mk info (before ++ .mk clause (first ++ next :: last) :: after))

theorem Chain.isConditional {k : NodeKinds} {length : Nat} {n : Node} (h : n.Chain k length) :
    k.isConditional n.info.kind = true := by
  cases h <;> assumption

end Node

theorem not_isLoop_of_isConditional {l : Language} {k : NodeKinds} (h : nodeKinds? l = some k)
    {kind : String} (hkind : k.isConditional kind = true) : k.isLoop kind = false := by
  have htable : ∀ kind ∈ k.conditionals, k.isLoop kind = false := by
    cases l <;> cases h <;> decide
  exact htable kind (List.contains_iff_mem.mp hkind)

/-- In no grammar an `else` clause counts for itself. -/
theorem elseClause_notListed {l : Language} {k : NodeKinds} (h : nodeKinds? l = some k) :
    k.isLoop "else_clause" = false ∧ k.isConditional "else_clause" = false
      ∧ "else_clause" ∉ k.branches := by
  cases l <;> cases h <;> decide

namespace Metrics

variable {k : NodeKinds} {level : Nat} {parent : Option String}

theorem decisionsOf_plain {i : NodeInfo} (h : i.Plain k) : decisionsOf k i = 0 := by
  obtain ⟨hcontrol, hbranch, hoperator⟩ := h
  have heq : decisionsOf k i = if i.isNamed then
      (if k.isLoop i.kind then 1 else 0)
        + (if k.isConditional i.kind || k.branches.contains i.kind then 1 else 0)
      else if !i.isNamed && i.field == some "operator" && skippingOperators.contains i.kind then 1
      else 0 := rfl
  rw [heq]
  cases hnamed : i.isNamed with
  | true =>
      obtain ⟨hloop, hconditional⟩ := hcontrol hnamed
      simp [hloop, hconditional, hbranch hnamed]
  | false =>
      have := hoperator hnamed
      simpa using this

theorem decisionsAll_plain {cs : List Node} (h : Node.PlainAll k cs) : decisionsAll k cs = 0 := by
  have hzero : ∀ is : List NodeInfo, (∀ i ∈ is, i.Plain k) →
      Number.total (is.map (decisionsOf k)) = 0 := by
    intro is his
    induction is with
    | nil => rfl
    | cons i is ih =>
        obtain ⟨hi, his⟩ := List.forall_mem_cons.mp his
        rw [List.map_cons, Number.total_cons, decisionsOf_plain hi, ih his]
  exact hzero _ h

mutual

theorem deepest_plain (level : Nat) (parent : Option String) :
    ∀ n : Node, (∀ i ∈ n.infos, i.Plain k) → deepest k level parent n = 0
  | .mk info children, h => by
      obtain ⟨hi, hchildren⟩ := List.forall_mem_cons.mp h
      have hnone : (info.isNamed && (k.isLoop info.kind || k.isConditional info.kind)) = false := by
        cases hnamed : info.isNamed with
        | false => rfl
        | true => simp [hi.notControl hnamed]
      rw [deepest, hnone, if_neg Bool.false_ne_true, Nat.zero_max]
      exact deepestAll_plain _ _ children hchildren

theorem deepestAll_plain (level : Nat) (parent : Option String) :
    ∀ cs : List Node, Node.PlainAll k cs → deepestAll k level parent cs = 0
  | [], _ => rfl
  | c :: cs, h => by
      obtain ⟨hc, hcs⟩ := List.forall_mem_append.mp h
      rw [deepestAll, deepest_plain level parent c hc, deepestAll_plain level parent cs hcs]
      rfl

end

section Around

variable {before after : List Node} (h : Node.PlainAll k (before ++ after)) (n : Node)
include h

theorem plainAll_around : Node.PlainAll k before ∧ Node.PlainAll k after := by
  rwa [Node.PlainAll, Node.infosAll_append, List.forall_mem_append] at h

/-- Among plain nodes only the one in the middle counts. -/
theorem deepestAll_around :
    deepestAll k level parent (before ++ n :: after) = deepest k level parent n := by
  obtain ⟨hbefore, hafter⟩ := plainAll_around h
  rw [deepestAll_append, deepestAll_plain level parent before hbefore, deepestAll,
    deepestAll_plain level parent after hafter, Nat.zero_max, Nat.max_zero]

theorem decisionsAll_around : decisionsAll k (before ++ n :: after) = decisions k n := by
  obtain ⟨hbefore, hafter⟩ := plainAll_around h
  rw [decisionsAll_append, decisionsAll_plain hbefore, decisionsAll_cons, decisionsAll_plain hafter,
    Nat.zero_add, Nat.add_zero]

end Around

section Chains

variable {length : Nat} {n : Node} {info : NodeInfo} {cs : List Node}

theorem deepest_conditional (named : info.isNamed = true)
    (conditional : k.isConditional info.kind = true) :
    deepest k level parent (.mk info cs) = max (levelAt k level parent info)
      (deepestAll k (levelAt k level parent info) (some info.kind) cs) := by
  rw [deepest, named, conditional, Bool.or_true, Bool.and_true, if_pos rfl]

theorem levelAt_chained {i : NodeInfo} (conditional : k.isConditional i.kind = true)
    (chained : i.field = some "alternative" ∨ parent = some "else_clause") :
    levelAt k level parent i = level := by
  have hchained : isChained k parent i = true := by
    rcases chained with h | h <;> simp [isChained, conditional, h]
  rw [levelAt, hchained, Bool.not_true, Bool.and_false, if_neg Bool.false_ne_true]

variable {l : Language} (hk : nodeKinds? l = some k)
include hk

/-- A chain nests as deep as its first conditional alone. -/
theorem deepest_chain (h : n.Chain k length) :
    deepest k level parent n = levelAt k level parent n.info := by
  induction h generalizing level parent with
  | single named conditional plain =>
      rw [deepest_conditional named conditional, deepestAll_plain _ _ _ plain, Nat.max_zero]
      rfl
  | alternative named conditional plain field chain ih =>
      rw [deepest_conditional named conditional, deepestAll_around plain, ih,
        levelAt_chained chain.isConditional (.inl field), Nat.max_self]
      rfl
  | @elseClause _ info clause _ _ _ _ next named conditional plain kind plainClause chain ih =>
      obtain ⟨hloop, hconditional, -⟩ := elseClause_notListed hk
      have hclause (level : Nat) (parent : Option String) :
          levelAt k level parent clause = level := by
        rw [levelAt, kind, hloop, hconditional]
        rfl
      -- the next link sees the clause above it, which has no level of its own
      have hnext (level : Nat) : levelAt k level (some clause.kind) next.info = level :=
        levelAt_chained chain.isConditional (.inr (congrArg some kind))
      rw [deepest_conditional named conditional, deepestAll_around plain, deepest, hclause,
        deepestAll_around plainClause, ih, hnext, kind, hloop, hconditional, Bool.or_false,
        Bool.and_false, if_neg Bool.false_ne_true, Nat.zero_max, Nat.max_self]
      rfl

theorem decisionsOf_conditional (named : info.isNamed = true)
    (conditional : k.isConditional info.kind = true) : decisionsOf k info = 1 := by
  have hloop := not_isLoop_of_isConditional hk conditional
  have heq : decisionsOf k info = if info.isNamed then
      (if k.isLoop info.kind then 1 else 0)
        + (if k.isConditional info.kind || k.branches.contains info.kind then 1 else 0)
      else if isSkippingOperator ⟨.mk info [], []⟩ then 1 else 0 := rfl
  rw [heq, named, conditional, hloop]
  rfl

/-- Each link of a chain is one decision. -/
theorem decisions_chain (h : n.Chain k length) : decisions k n = length := by
  induction h with
  | single named conditional plain =>
      rw [decisions_mk, decisionsOf_conditional hk named conditional, decisionsAll_plain plain]
  | alternative named conditional plain field chain ih =>
      rw [decisions_mk, decisionsOf_conditional hk named conditional, decisionsAll_around plain, ih,
        Nat.add_comm]
  | @elseClause _ info clause _ _ _ _ next named conditional plain kind plainClause chain ih =>
      have hclause : clause.Plain k := by
        obtain ⟨hloop, hconditional, hbranch⟩ := elseClause_notListed hk
        exact ⟨fun _ => kind ▸ ⟨hloop, hconditional⟩, fun _ => kind ▸ hbranch,
          fun _ _ => kind ▸ by decide⟩
      rw [decisions_mk, decisionsOf_conditional hk named conditional, decisionsAll_around plain,
        decisions_mk, decisionsOf_plain hclause, decisionsAll_around plainClause, ih, Nat.zero_add,
        Nat.add_comm]

end Chains

end Metrics

/-! ## A chain in place of another -/

/-- What the counts read of a node: its kind, whether it has a name, and the field that it
fills. -/
def NodeInfo.outline (i : NodeInfo) : NodeInfo :=
  { i with id := 0, span := default, text := "", isMissing := false }

namespace Node

mutual

/-- A tree with nothing left in it but what the counts read. -/
def outline : Node → Node
  | .mk info children => .mk info.outline (outlineAll children)

/-- `outline` for several nodes. -/
def outlineAll : List Node → List Node
  | [] => []
  | c :: cs => c.outline :: outlineAll cs

end

/-- Two trees of one outline, but for a chain of `m` conditionals in the first and one of `n` in
the second, both in the same place. -/
inductive Exchanged (k : NodeKinds) (m n : Nat) : Node → Node → Prop
  | here {a b : Node} (first : a.Chain k m) (second : b.Chain k n)
      (field : a.info.field = b.info.field) : Exchanged k m n a b
  | around {i j : NodeInfo} {before before' after after' : List Node} {a b : Node}
      (info : i.outline = j.outline) (left : outlineAll before = outlineAll before')
      (right : outlineAll after = outlineAll after') (child : Exchanged k m n a b) :
      Exchanged k m n (.mk i (before ++ a :: after)) (.mk j (before' ++ b :: after'))

end Node

namespace Metrics

variable {k : NodeKinds}

section Outlines

variable {i j : NodeInfo} {as bs : List Node}

theorem levelAt_congr (h : i.outline = j.outline) (level : Nat) (parent : Option String) :
    levelAt k level parent i = levelAt k level parent j := by
  have houtline (i : NodeInfo) : levelAt k level parent i = levelAt k level parent i.outline := rfl
  rw [houtline, h, ← houtline]

theorem decisionsOf_congr (h : i.outline = j.outline) : decisionsOf k i = decisionsOf k j := by
  have houtline (i : NodeInfo) : decisionsOf k i = decisionsOf k i.outline := rfl
  rw [houtline, h, ← houtline]

mutual

theorem deepest_outline (level : Nat) (parent : Option String) :
    ∀ n : Node, deepest k level parent n.outline = deepest k level parent n
  | .mk info children => by
      rw [Node.outline, deepest, deepest, deepestAll_outline _ _ children]
      rfl

theorem deepestAll_outline (level : Nat) (parent : Option String) :
    ∀ cs : List Node, deepestAll k level parent (Node.outlineAll cs) = deepestAll k level parent cs
  | [] => rfl
  | c :: cs => by
      rw [Node.outlineAll, deepestAll, deepestAll, deepest_outline level parent c,
        deepestAll_outline level parent cs]

theorem decisions_outline : ∀ n : Node, decisions k n.outline = decisions k n
  | .mk info children => by
      rw [Node.outline, decisions_mk, decisions_mk, decisionsAll_outline children]
      rfl

theorem decisionsAll_outline :
    ∀ cs : List Node, decisionsAll k (Node.outlineAll cs) = decisionsAll k cs
  | [] => rfl
  | c :: cs => by
      rw [Node.outlineAll, decisionsAll_cons, decisionsAll_cons, decisions_outline c,
        decisionsAll_outline cs]

end

theorem deepestAll_congr (h : Node.outlineAll as = Node.outlineAll bs) (level : Nat)
    (parent : Option String) : deepestAll k level parent as = deepestAll k level parent bs := by
  rw [← deepestAll_outline, h, deepestAll_outline]

theorem decisionsAll_congr (h : Node.outlineAll as = Node.outlineAll bs) :
    decisionsAll k as = decisionsAll k bs := by
  rw [← decisionsAll_outline, h, decisionsAll_outline]

end Outlines

variable {m n : Nat} {a b : Node} {l : Language} (hk : nodeKinds? l = some k)
include hk

theorem deepest_exchanged (h : a.Exchanged k m n b) (level : Nat) (parent : Option String) :
    deepest k level parent a = deepest k level parent b := by
  induction h generalizing level parent with
  | @here a b first second field =>
      have hfirst := not_isLoop_of_isConditional hk first.isConditional
      have hsecond := not_isLoop_of_isConditional hk second.isConditional
      rw [deepest_chain hk first, deepest_chain hk second, levelAt, levelAt, isChained, isChained,
        first.isConditional, second.isConditional, hfirst, hsecond, field]
  | @around i j before before' after after' a b info left right child ih =>
      have hnamed : i.isNamed = j.isNamed := (congrArg NodeInfo.isNamed info :)
      have hkind : i.kind = j.kind := (congrArg NodeInfo.kind info :)
      rw [deepest, deepest, levelAt_congr info, hnamed, hkind, deepestAll_append,
        deepestAll_append, deepestAll, deepestAll, deepestAll_congr left, deepestAll_congr right,
        ih]

theorem decisions_exchanged (h : a.Exchanged k m n b) :
    decisions k a + n = decisions k b + m := by
  induction h with
  | here first second field =>
      rw [decisions_chain hk first, decisions_chain hk second, Nat.add_comm]
  | around info left right child ih =>
      rw [decisions_mk, decisions_mk, decisionsOf_congr info, decisionsAll_append,
        decisionsAll_append, decisionsAll_cons, decisionsAll_cons, decisionsAll_congr left,
        decisionsAll_congr right]
      omega

end Metrics

/-! ## Whole trees -/

namespace SyntaxTree

open Metrics

variable {k : NodeKinds} {t : SyntaxTree} (hk : nodeKinds? t.language = some k)
include hk

theorem metrics_eq_ofTree : t.metrics = .ofTree k t := by
  rw [metrics, hk]

theorem maxNesting_eq_deepest : t.metrics.maxNesting = deepest k 0 none t.rootNode := by
  have hdeepest := deepestOf_descendants (k := k) t.root
  have habove : levelAbove k t.root = 0 := rfl
  rw [habove] at hdeepest
  rw [metrics_eq_ofTree hk]
  exact hdeepest

theorem decisionPoints_eq_decisions : t.metrics.decisionPoints = decisions k t.rootNode := by
  rw [metrics_eq_ofTree hk, decisions, ← show t.root.node = t.rootNode from rfl,
    ← Place.map_info_descendants, List.map_map]
  rfl

/-- One walk from the top finds how deep control structures nest. A chain of conditionals along the
`else`s nests no deeper than another chain in its place, a single conditional for one, and each
link of it is one more decision. -/
theorem nesting_topDown :
    t.metrics.maxNesting = deepest k 0 none t.rootNode
      ∧ ∀ {u : SyntaxTree} {m n : Nat}, nodeKinds? u.language = some k →
          t.rootNode.Exchanged k m n u.rootNode →
          t.metrics.maxNesting = u.metrics.maxNesting
            ∧ t.metrics.decisionPoints + n = u.metrics.decisionPoints + m := by
  refine ⟨maxNesting_eq_deepest hk, fun hu h => ⟨?_, ?_⟩⟩
  · rw [maxNesting_eq_deepest hk, maxNesting_eq_deepest hu, deepest_exchanged hk h]
  · rw [decisionPoints_eq_decisions hk, decisionPoints_eq_decisions hu, decisions_exchanged hk h]

end SyntaxTree

namespace ElseIfs

/-! A loop of JavaScript around one conditional, and around three along their `else`s. -/

def single : String := "while(x)if(a);"

def triple : String := "while(x)if(a);else if(b);else if(c);"

def file (stop : Nat) : NodeSpec := ⟨"program", 0, stop, true, false, none⟩

def loop (stop : Nat) : NodeSpec := ⟨"while_statement", 0, stop, true, false, none⟩

def conditional (start stop : Nat) (field : Option String) : NodeSpec :=
  ⟨"if_statement", start, stop, true, false, field⟩

def condition (start : Nat) : NodeSpec :=
  ⟨"parenthesized_expression", start, start + 3, true, false, some "condition"⟩

def clause (start stop : Nat) : NodeSpec :=
  ⟨"else_clause", start, stop, true, false, some "alternative"⟩

def alone : Node :=
  (conditional 8 14 (some "body")).node single 3 [(condition 10).node single 4 []]

def singleTree : SyntaxTree :=
  ⟨.javaScript, single,
    (file 14).node single 0 [(loop 14).node single 1 [(condition 5).node single 2 [], alone]]⟩

def last : Node := (conditional 30 36 none).node triple 9 [(condition 32).node triple 10 []]

def second : Node :=
  (conditional 19 36 none).node triple 6
    [(condition 21).node triple 7 [], (clause 25 36).node triple 8 [last]]

def first : Node :=
  (conditional 8 36 (some "body")).node triple 3
    [(condition 10).node triple 4 [], (clause 14 36).node triple 5 [second]]

def tripleTree : SyntaxTree :=
  ⟨.javaScript, triple,
    (file 36).node triple 0 [(loop 36).node triple 1 [(condition 5).node triple 2 [], first]]⟩

theorem chain_alone : alone.Chain javaScriptKinds 1 := .single rfl (by decide) (by decide)

theorem chain_last : last.Chain javaScriptKinds 1 := .single rfl (by decide) (by decide)

theorem chain_second : second.Chain javaScriptKinds 2 :=
  @Node.Chain.elseClause javaScriptKinds 1 _ _ [(condition 21).node triple 7 []] [] [] [] last
    rfl (by decide) (by decide) rfl (by decide) chain_last

theorem chain_first : first.Chain javaScriptKinds 3 :=
  @Node.Chain.elseClause javaScriptKinds 2 _ _ [(condition 10).node triple 4 []] [] [] [] second
    rfl (by decide) (by decide) rfl (by decide) chain_second

theorem exchanged : singleTree.rootNode.Exchanged javaScriptKinds 1 3 tripleTree.rootNode := by
  refine @Node.Exchanged.around javaScriptKinds 1 3 _ _ [] [] [] [] _ _ rfl rfl rfl ?_
  refine @Node.Exchanged.around javaScriptKinds 1 3 _ _ [_] [_] [] [] _ _ rfl rfl rfl ?_
  exact .here chain_alone chain_first rfl

end ElseIfs

open ElseIfs in
/-- Two more links leave the nesting as it is and bring two more decisions. -/
theorem SyntaxTree.elseIfs_nesting :
    nodeKinds? singleTree.language = some javaScriptKinds
      ∧ nodeKinds? tripleTree.language = some javaScriptKinds
      ∧ singleTree.rootNode.Exchanged javaScriptKinds 1 3 tripleTree.rootNode
      ∧ singleTree.metrics.maxNesting = tripleTree.metrics.maxNesting
      ∧ singleTree.metrics.decisionPoints + 3 = tripleTree.metrics.decisionPoints + 1
      ∧ tripleTree.metrics.maxNesting = 2 :=
  ⟨rfl, rfl, exchanged, ((nesting_topDown rfl).2 rfl exchanged).1,
    ((nesting_topDown rfl).2 rfl exchanged).2, by decide +kernel⟩

end CodeProfile
