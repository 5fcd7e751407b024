import CodeProfile.Proofs.Tree.Places
import CodeProfile.SyntaxTree.Builder

/-!
# What a builder builds

A builder is driven by a list of calls (`TreeBuilder.run`); a call that
it refuses leaves it as it was. `SyntaxTree.Built` says that a tree
comes out of some such run.

What opening and closing keep is kept by any list of calls
(`TreeBuilder.run_induction`). `TreeBuilder.Sound` is an invariant of
this kind (`Sound.openNode`, `Sound.closeNode`, `Sound.run`): the ids
handed out so far stand in the finished and the open nodes in document
order, and every span lies in the span around it, for the open nodes from
the inside out. A built tree is then numbered in document order
(`Built.ids_nested`) and its root is sound (`Built.sound`).
-/

namespace CodeProfile

/-! ## Ids and nesting of nodes -/

mutual

/-- The ids at and below a node in document order. -/
def Node.ids : Node → List Nat
  | .mk info children => info.id :: Node.idsAll children

/-- `Node.ids` for several nodes. -/
def Node.idsAll : List Node → List Nat
  | [] => []
  | c :: cs => c.ids ++ Node.idsAll cs

end

mutual

/-- What the nodes at and below a node are, in document order. -/
def Node.infos : Node → List NodeInfo
  | .mk info children => info :: Node.infosAll children

/-- `Node.infos` for several nodes. -/
def Node.infosAll : List Node → List NodeInfo
  | [] => []
  | c :: cs => c.infos ++ Node.infosAll cs

end

namespace Node

theorem infosAll_append (cs ds : List Node) :
    infosAll (cs ++ ds) = infosAll cs ++ infosAll ds := by
  induction cs with
  | nil => rfl
  | cons c cs ih => rw [List.cons_append, infosAll, ih, infosAll, List.append_assoc]

theorem infosAll_eq (cs : List Node) : infosAll cs = cs.flatMap infos := by
  induction cs with
  | nil => rfl
  | cons c cs ih => rw [infosAll, ih, List.flatMap_cons]

mutual

theorem ids_eq_map_infos (n : Node) : n.ids = n.infos.map (·.id) := by
  cases n with
  | mk info cs => rw [ids, infos, List.map_cons, idsAll_eq_map_infosAll cs]

theorem idsAll_eq_map_infosAll (cs : List Node) : idsAll cs = (infosAll cs).map (·.id) := by
  cases cs with
  | nil => rfl
  | cons c cs =>
      rw [idsAll, infosAll, List.map_append, ids_eq_map_infos c, idsAll_eq_map_infosAll cs]

end

/-- Every span at and below the node lies in the span of its parent. -/
inductive Nested : Node → Prop
  | mk {info : NodeInfo} {children : List Node}
      (inside : ∀ c ∈ children, info.span.contains c.info.span = true)
      (below : ∀ c ∈ children, Nested c) : Nested (.mk info children)

end Node

namespace Place

theorem map_info_descendants (p : Place) : p.descendants.map info = p.node.infos := by
  induction p using children_induction with
  | step p ih =>
      obtain ⟨⟨info, cs⟩, above⟩ := p
      rw [descendants_eq, List.map_cons, List.map_flatMap, List.flatMap_congr ih, Node.infos,
        Node.infosAll_eq]
      simp [children, Node.children, List.flatMap_map, Place.info, Node.info]

theorem map_id_descendants (p : Place) : p.descendants.map id = p.node.ids := by
  rw [Node.ids_eq_map_infos, ← map_info_descendants, List.map_map]
  rfl

theorem node_nested {p q : Place} (h : p.node.Nested) (hq : q ∈ p.descendants) :
    q.node.Nested := by
  induction p using children_induction with
  | step p ih =>
      rcases mem_descendants.mp hq with rfl | hq
      · exact h
      · obtain ⟨c, hc, hqc⟩ := mem_below.mp hq
        refine ih c hc ?_ hqc
        obtain ⟨n, hn, rfl⟩ := List.mem_map.mp hc
        obtain ⟨node, above⟩ := p
        cases h with
        | mk _ below => exact below n hn

theorem contains_of_nested {p c : Place} (h : p.node.Nested) (hc : c ∈ p.children) :
    p.span.contains c.span = true := by
  obtain ⟨n, hn, rfl⟩ := List.mem_map.mp hc
  obtain ⟨node, above⟩ := p
  cases h with
  | mk inside _ => exact inside n hn

theorem Sound.of_node {p : Place} (hd : p.node.ids.Nodup) (hn : p.node.Nested) : p.Sound where
  distinct := by rw [map_id_descendants]; exact hd
  nested := fun _ hq _ hc => contains_of_nested (node_nested hn hq) hc

end Place

/-! ## Runs of a builder -/

/-- A call on a builder. -/
inductive BuilderCall where
  | openNode (spec : NodeSpec)
  | leaf (spec : NodeSpec)
  | closeNode
  deriving DecidableEq, Repr

namespace TreeBuilder

/-- The builder after a call that it takes. -/
def call (b : TreeBuilder) : BuilderCall → Except AnalysisError TreeBuilder
  | .openNode spec => (b.openNode spec).map (·.1)
  | .leaf spec => (b.leaf spec).map (·.1)
  | .closeNode => b.closeNode

/-- The builder after a call; a refused call changes nothing. -/
def apply (b : TreeBuilder) (c : BuilderCall) : TreeBuilder :=
  match b.call c with
  | .ok b' => b'
  | .error _ => b

def run (b : TreeBuilder) (calls : List BuilderCall) : TreeBuilder := calls.foldl apply b

end TreeBuilder

/-- The tree is what some run of a builder finishes with. -/
def SyntaxTree.Built (t : SyntaxTree) : Prop :=
  ∃ source language calls, ((TreeBuilder.new source language).run calls).finish = .ok t

/-! ## What a step can do -/

/-- What the `n`-th opened node is, if it is opened as asked for. -/
def NodeSpec.record (source : String) (n : Nat) (spec : NodeSpec) : NodeInfo :=
  { id := n
    kind := spec.kind
    span :=
      { startByte := spec.startByte
        endByte := spec.endByte
        start := Text.positionAt source.toList spec.startByte
        stop := Text.positionAt source.toList spec.endByte }
    text := ((Text.slice? source.toList spec.startByte spec.endByte).map String.ofList).getD ""
    isNamed := spec.isNamed
    isMissing := spec.isMissing
    field := spec.field }

/-- The `n`-th opened node with the children that it gets. -/
def NodeSpec.node (spec : NodeSpec) (source : String) (n : Nat) (children : List Node) : Node :=
  .mk (spec.record source n) children

namespace TreeBuilder

/-- Whether a span may be opened where the builder stands. -/
def Admits (b : TreeBuilder) (span : Span) : Prop :=
  match b.stack with
  | [] => b.opened = 0
  | top :: _ => top.info.span.contains span = true

theorem checkParent_ok {b : TreeBuilder} {spec : NodeSpec} {span : Span}
    (h : b.checkParent spec = .ok ()) (hs : span.startByte = spec.startByte)
    (he : span.endByte = spec.endByte) : b.Admits span := by
  unfold checkParent at h
  unfold Admits
  cases hst : b.stack with
  | nil =>
      rw [hst] at h
      by_cases hn : b.opened = 0
      · exact hn
      · simp [hn] at h
  | cons top rest =>
      rw [hst] at h
      by_cases hin : top.info.span.startByte ≤ spec.startByte
          ∧ spec.endByte ≤ top.info.span.endByte
      · simpa [Span.contains, hs, he] using hin
      · simp [hin] at h

theorem spanText_ok {b : TreeBuilder} {spec : NodeSpec} {text : String}
    (h : b.spanText spec = .ok text) :
    Text.slice? b.source.toList spec.startByte spec.endByte = some text.toList := by
  unfold spanText at h
  cases hs : Text.slice? b.source.toList spec.startByte spec.endByte with
  | none => rw [hs] at h; cases h
  | some cs =>
      rw [hs] at h
      cases h
      rw [String.toList_ofList]

/-- The text that a node is opened with is the one on its record. -/
theorem text_record {b : TreeBuilder} {spec : NodeSpec} {text : String}
    (h : b.spanText spec = .ok text) (n : Nat) : (spec.record b.source n).text = text := by
  rw [NodeSpec.record, spanText_ok h, Option.map_some, Option.getD_some, String.ofList_toList]

/-- What opening a node does, and what it was checked for. -/
theorem openNode_ok {b b' : TreeBuilder} {spec : NodeSpec} {n : Nat}
    (h : b.openNode spec = .ok (b', n)) :
    (∃ text, b.spanText spec = .ok text) ∧ b.checkDepth = .ok ()
      ∧ b.Admits (spec.record b.source b.opened).span
      ∧ b' = { b with
        opened := b.opened + 1
        stack := ⟨spec.record b.source b.opened, []⟩ :: b.stack } := by
  unfold openNode at h
  cases hs : b.spanText spec with
  | error e => rw [hs] at h; cases h
  | ok text =>
      cases hd : b.checkDepth with
      | error e => rw [hs, hd] at h; cases h
      | ok u =>
          cases hp : b.checkParent spec with
          | error e => rw [hs, hd, hp] at h; cases h
          | ok u =>
              rw [hs, hd, hp] at h
              cases h
              refine ⟨⟨text, rfl⟩, rfl, checkParent_ok hp rfl rfl, ?_⟩
              rw [← text_record hs b.opened]
              rfl

theorem leaf_ok {b b' : TreeBuilder} {spec : NodeSpec} {n : Nat}
    (h : b.leaf spec = .ok (b', n)) :
    ∃ b₁, b.openNode spec = .ok (b₁, n) ∧ b₁.closeNode = .ok b' := by
  unfold leaf at h
  cases ho : b.openNode spec with
  | error e => rw [ho] at h; cases h
  | ok r =>
      obtain ⟨b₁, m⟩ := r
      rw [ho] at h
      cases hc : b₁.closeNode with
      | error e => simp [bind, Except.bind, hc] at h
      | ok b₂ =>
          simp only [bind, Except.bind, hc] at h
          cases h
          exact ⟨b₁, rfl, hc⟩

theorem call_openNode_ok {b b' : TreeBuilder} {spec : NodeSpec}
    (h : b.call (.openNode spec) = .ok b') : ∃ n, b.openNode spec = .ok (b', n) := by
  cases ho : b.openNode spec with
  | error e => simp [call, Except.map, ho] at h
  | ok r =>
      simp only [call, Except.map, ho, Except.ok.injEq] at h
      exact ⟨r.2, by rw [← h]⟩

theorem call_leaf_ok {b b' : TreeBuilder} {spec : NodeSpec} (h : b.call (.leaf spec) = .ok b') :
    ∃ b₁ n, b.openNode spec = .ok (b₁, n) ∧ b₁.closeNode = .ok b' := by
  cases hl : b.leaf spec with
  | error e => simp [call, Except.map, hl] at h
  | ok r =>
      simp only [call, Except.map, hl, Except.ok.injEq] at h
      obtain ⟨b₁, ho, hc⟩ := leaf_ok (n := r.2) hl
      exact ⟨b₁, r.2, ho, by rw [hc, h]⟩

/-- Every call is made of openings and closings, so what these two keep
is kept by every call that is taken. -/
theorem call_induction {P : TreeBuilder → Prop}
    (opening : ∀ {b b' spec n}, P b → b.openNode spec = .ok (b', n) → P b')
    (closing : ∀ {b b'}, P b → b.closeNode = .ok b' → P b') {b b' : TreeBuilder}
    {c : BuilderCall} (h : P b) (hc : b.call c = .ok b') : P b' := by
  cases c with
  | openNode spec =>
      obtain ⟨n, ho⟩ := call_openNode_ok hc
      exact opening h ho
  | leaf spec =>
      obtain ⟨b₁, n, ho, hclose⟩ := call_leaf_ok hc
      exact closing (opening h ho) hclose
  | closeNode => exact closing h hc

/-- What openings and closings keep is kept by every run. -/
theorem run_induction {P : TreeBuilder → Prop}
    (opening : ∀ {b b' spec n}, P b → b.openNode spec = .ok (b', n) → P b')
    (closing : ∀ {b b'}, P b → b.closeNode = .ok b' → P b') {b : TreeBuilder} (h : P b)
    (calls : List BuilderCall) : P (b.run calls) := by
  induction calls generalizing b with
  | nil => exact h
  | cons c calls ih =>
      refine ih ?_
      unfold apply
      cases hc : b.call c with
      | error e => exact h
      | ok b' => exact call_induction opening closing h hc

/-! ## The invariant of a run -/

end TreeBuilder

/-- The ids of an open node and of the children that it has so far, in
document order. -/
def OpenNode.ids (o : OpenNode) : List Nat := o.info.id :: Node.idsAll o.children.reverse

/-- What an open node and the children that it has so far are, in
document order. -/
def OpenNode.infos (o : OpenNode) : List NodeInfo := o.info :: Node.infosAll o.children.reverse

namespace TreeBuilder

/-- What has been opened so far, in document order. -/
def infos (b : TreeBuilder) : List NodeInfo :=
  Node.infosAll b.finished.toList ++ b.stack.reverse.flatMap OpenNode.infos

/-- The ids handed out so far, in document order: those of the finished
root or of the open nodes from the outside in. -/
def ids (b : TreeBuilder) : List Nat :=
  Node.idsAll b.finished.toList ++ b.stack.reverse.flatMap OpenNode.ids

theorem ids_eq_map_infos (b : TreeBuilder) : b.ids = b.infos.map (·.id) := by
  have hopen (o : OpenNode) : o.ids = o.infos.map (·.id) := by
    rw [OpenNode.ids, OpenNode.infos, List.map_cons, Node.idsAll_eq_map_infosAll]
  rw [ids, infos, List.map_append, List.map_flatMap, Node.idsAll_eq_map_infosAll,
    List.flatMap_congr fun o _ => hopen o]

/-- An opened node comes behind all that were opened before. -/
theorem infos_openNode {b : TreeBuilder} (info : NodeInfo) :
    { b with opened := b.opened + 1, stack := ⟨info, []⟩ :: b.stack }.infos
      = b.infos ++ [info] := by
  simp [infos, OpenNode.infos, Node.infosAll]

/-- Closing a node moves it without changing what comes before what. -/
theorem infos_closeNode {b b' : TreeBuilder} (h : b.closeNode = .ok b')
    (hf : b.finished = none) : b'.infos = b.infos := by
  unfold TreeBuilder.closeNode at h
  cases hs : b.stack with
  | nil => rw [hs] at h; cases h
  | cons top rest =>
      rw [hs] at h
      cases rest with
      | nil =>
          cases h
          simp [infos, hs, hf, Node.infosAll, Node.infos, OpenNode.infos]
      | cons parent rest =>
          cases h
          simp [infos, hs, hf, OpenNode.infos, Node.infosAll_append, Node.infosAll, Node.infos]

/-- The children of an open node lie in its span and are nested. -/
def OpenNested (o : OpenNode) : Prop :=
  ∀ c ∈ o.children, o.info.span.contains c.info.span = true ∧ c.Nested

structure Sound (b : TreeBuilder) : Prop where
  numbered : b.ids = List.range b.opened
  finished_alone : b.finished = none ∨ b.stack = []
  finished_nested : ∀ n ∈ b.finished, n.Nested
  open_nested : ∀ o ∈ b.stack, OpenNested o
  /-- Each open node lies in the span of the one around it. -/
  stacked : (b.stack.map (·.info.span)).IsChain fun inner outer => outer.contains inner = true

namespace Sound

theorem new (source : String) (language : Language) : (TreeBuilder.new source language).Sound where
  numbered := rfl
  finished_alone := Or.inl rfl
  finished_nested := by simp [TreeBuilder.new]
  open_nested := by simp [TreeBuilder.new]
  stacked := List.IsChain.nil

/-- Where nothing has been opened yet there is no finished root. -/
theorem finished_eq_none {b : TreeBuilder} (h : b.Sound) (hn : b.opened = 0) :
    b.finished = none := by
  have hids := h.numbered
  cases hf : b.finished with
  | none => rfl
  | some n =>
      obtain ⟨info, cs⟩ := n
      rw [ids, hf, hn] at hids
      simp [Node.idsAll, Node.ids] at hids

theorem openNode {b b' : TreeBuilder} {spec : NodeSpec} {n : Nat} (h : b.Sound)
    (ho : b.openNode spec = .ok (b', n)) : b'.Sound := by
  obtain ⟨-, -, hadm, rfl⟩ := openNode_ok ho
  have hfin : b.finished = none := by
    rcases h.finished_alone with hf | hstack
    · exact hf
    · unfold Admits at hadm
      rw [hstack] at hadm
      exact h.finished_eq_none hadm
  refine ⟨?_, Or.inl hfin, h.finished_nested, ?_, ?_⟩
  · rw [ids_eq_map_infos, infos_openNode, List.map_append, ← ids_eq_map_infos, h.numbered,
      List.range_succ, List.map_singleton]
    rfl
  · intro o ho
    rcases List.mem_cons.mp ho with rfl | ho
    · intro c hc
      cases hc
    · exact h.open_nested o ho
  · have hch := h.stacked
    unfold Admits at hadm
    cases hs : b.stack with
    | nil => exact List.IsChain.singleton _
    | cons top rest =>
        rw [hs] at hadm hch
        exact List.isChain_cons_cons.mpr ⟨hadm, hch⟩

/-- The node that closing makes of an open node is nested. -/
theorem nested_of_open {o : OpenNode} (h : OpenNested o) :
    (Node.mk o.info o.children.reverse).Nested :=
  .mk (fun c hc => (h c (List.mem_reverse.mp hc)).1) (fun c hc => (h c (List.mem_reverse.mp hc)).2)

/-- A builder that can close a node has no finished root. -/
theorem finished_of_closeNode {b b' : TreeBuilder} (h : b.Sound) (hc : b.closeNode = .ok b') :
    b.finished = none := by
  rcases h.finished_alone with hf | hstack
  · exact hf
  · unfold TreeBuilder.closeNode at hc
    rw [hstack] at hc
    cases hc

theorem closeNode {b b' : TreeBuilder} (h : b.Sound) (hc : b.closeNode = .ok b') : b'.Sound := by
  have hfin := h.finished_of_closeNode hc
  have hids : b'.ids = b.ids := by
    rw [ids_eq_map_infos, ids_eq_map_infos, infos_closeNode hc hfin]
  unfold TreeBuilder.closeNode at hc
  cases hs : b.stack with
  | nil => rw [hs] at hc; cases hc
  | cons top rest =>
      have hopen := h.open_nested
      have hch := h.stacked
      have htop : (Node.mk top.info top.children.reverse).Nested :=
        nested_of_open (hopen top (by rw [hs]; exact List.mem_cons_self ..))
      rw [hs] at hc hopen hch
      cases rest with
      | nil =>
          cases hc
          refine ⟨hids.trans h.numbered, Or.inr rfl, ?_, ?_, List.IsChain.nil⟩
          · intro n hn
            obtain rfl := Option.some.inj hn
            exact htop
          · intro o ho
            cases ho
      | cons parent rest =>
          cases hc
          obtain ⟨hin, hch'⟩ := List.isChain_cons_cons.mp hch
          refine ⟨hids.trans h.numbered, Or.inl hfin, h.finished_nested, ?_, hch'⟩
          · intro o ho
            rcases List.mem_cons.mp ho with rfl | ho
            · intro c hmem
              rcases List.mem_cons.mp hmem with rfl | hmem
              · exact ⟨hin, htop⟩
              · exact hopen parent (by simp) c hmem
            · exact hopen o (by simp [ho])

theorem run {b : TreeBuilder} (h : b.Sound) (calls : List BuilderCall) : (b.run calls).Sound :=
  run_induction (fun h ho => h.openNode ho) (fun h hc => h.closeNode hc) h calls

end Sound

end TreeBuilder

/-! ## Built trees -/

theorem TreeBuilder.finish_ok {b : TreeBuilder} {t : SyntaxTree} (h : b.finish = .ok t) :
    b.stack = [] ∧ b.finished = some t.rootNode ∧ t.language = b.language
      ∧ t.source = b.source := by
  unfold TreeBuilder.finish at h
  split at h
  · cases h
  next hs =>
    split at h
    · cases h
    next root hf =>
      cases h
      exact ⟨by simpa using hs, hf, rfl, rfl⟩

namespace SyntaxTree.Built

variable {t : SyntaxTree}

theorem ids_nested (h : t.Built) :
    ∃ n, t.rootNode.ids = List.range n ∧ t.rootNode.Nested := by
  obtain ⟨source, language, calls, hf⟩ := h
  have hsound := (TreeBuilder.Sound.new source language).run calls
  obtain ⟨hs, hroot, -⟩ := TreeBuilder.finish_ok hf
  have hids := hsound.numbered
  rw [TreeBuilder.ids, hs, hroot] at hids
  exact ⟨_, by simpa [Node.idsAll] using hids, hsound.finished_nested _ hroot⟩

theorem sound (h : t.Built) : t.root.Sound := by
  obtain ⟨n, hids, hnested⟩ := h.ids_nested
  refine Place.Sound.of_node ?_ hnested
  rw [show t.root.node.ids = List.range n from hids]
  exact List.nodup_range

end SyntaxTree.Built

end CodeProfile
