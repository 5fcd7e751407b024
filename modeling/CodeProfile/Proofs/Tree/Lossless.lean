import CodeProfile.Proofs.Text.Slices
import CodeProfile.Proofs.Tree.Steps

/-!
# Built trees lose nothing

Whatever calls a builder was driven with, refused ones among them, a
tree that it finishes with is `SyntaxTree.Lossless`: its nodes are the
nodes that were opened, in the order in which they were opened, each
with the text of its span, and going down and going up in the tree are
inverse to each other.

Three invariants carry this from the calls to the tree, each kept by
every opening and every closing. `TreeBuilder.Sound` numbers the nodes
and nests the spans, `TreeBuilder.Cut` ties each text to its span, and
`TreeBuilder.Shallow` bounds what the depth of the stack alone does not:
the height of closed nodes. What the nodes are is read off the calls
that were taken (`infos_follow`).

A reader of a tree keeps a stack of the places that it has yet to visit
(`Place.traverse`); `traverse_eq` says that this is document order.
-/

namespace CodeProfile

/-! ## Reading a tree with a stack -/

namespace Place

theorem size_eq (p : Place) :
    p.node.size = Number.total (p.children.map (·.node.size)) + 1 := by
  obtain ⟨⟨info, cs⟩, above⟩ := p
  rw [children, List.map_map, Node.size, Node.sizeAll_eq]
  rfl

/-- Visits the top place and puts its children in its stead. -/
def traverse : List Place → List Place
  | [] => []
  | p :: stack => p :: traverse (p.children ++ stack)
termination_by stack => Number.total (stack.map (·.node.size))
decreasing_by
  rw [List.map_append, Number.total_append, List.map_cons, Number.total_cons, size_eq]
  omega

theorem traverse_eq (stack : List Place) : traverse stack = stack.flatMap descendants := by
  induction stack using traverse.induct with
  | case1 => rw [traverse, List.flatMap_nil]
  | case2 p stack ih =>
      rw [traverse, ih, List.flatMap_append, ← below_eq, List.flatMap_cons,
        descendants_eq_cons_below, List.cons_append]

end Place

/-! ## Heights -/

mutual

/-- How many levels there are at and below a node. -/
def Node.height : Node → Nat
  | .mk _ children => Node.heightAll children + 1

/-- The greatest height of several nodes. -/
def Node.heightAll : List Node → Nat
  | [] => 0
  | c :: cs => max c.height (Node.heightAll cs)

end

theorem Node.height_pos : ∀ n : Node, 0 < n.height
  | .mk _ _ => Nat.succ_pos _

theorem Node.heightAll_le_iff {cs : List Node} {k : Nat} :
    Node.heightAll cs ≤ k ↔ ∀ c ∈ cs, c.height ≤ k := by
  induction cs with
  | nil => simp [Node.heightAll]
  | cons c cs ih => rw [Node.heightAll, Nat.max_le, ih, List.forall_mem_cons]

mutual

theorem Node.length_infos (n : Node) : n.infos.length = n.size := by
  cases n with
  | mk info cs => rw [infos, List.length_cons, length_infosAll cs, size]

theorem Node.length_infosAll (cs : List Node) : (infosAll cs).length = sizeAll cs := by
  cases cs with
  | nil => rfl
  | cons c cs => rw [infosAll, List.length_append, length_infos c, length_infosAll cs, sizeAll]

end

theorem Place.height_of_mem_children {p c : Place} (h : c ∈ p.children) :
    c.above.length = p.above.length + 1 ∧ c.node.height < p.node.height := by
  obtain ⟨n, hn, rfl⟩ := List.mem_map.mp h
  obtain ⟨⟨info, cs⟩, above⟩ := p
  exact ⟨rfl, Nat.lt_succ_of_le (Node.heightAll_le_iff.mp (Nat.le_refl _) n hn)⟩

/-- No place stands lower in a tree than the tree is high. -/
theorem Place.depth_lt {p x : Place} (h : x ∈ p.descendants) :
    x.above.length < p.above.length + p.node.height := by
  induction p using children_induction with
  | step p ih =>
      rcases mem_descendants.mp h with rfl | h
      · exact Nat.lt_add_of_pos_right x.node.height_pos
      · obtain ⟨c, hc, hx⟩ := mem_below.mp h
        obtain ⟨habove, hheight⟩ := height_of_mem_children hc
        have hlt := ih c hc hx
        omega

/-! ## Invariants of a run -/

namespace TreeBuilder

/-- The closed nodes inside open ones reach down to the lowest level at
most. -/
def StackShallow : List OpenNode → Prop
  | [] => True
  | o :: rest =>
    rest.length < maxTreeDepth ∧ (∀ c ∈ o.children, rest.length + 1 + c.height ≤ maxTreeDepth)
      ∧ StackShallow rest

structure Shallow (b : TreeBuilder) : Prop where
  finished : ∀ n ∈ b.finished, n.height ≤ maxTreeDepth
  stacked : StackShallow b.stack

namespace Shallow

theorem new (source : String) (language : Language) :
    (TreeBuilder.new source language).Shallow where
  finished := fun _ h => nomatch h
  stacked := trivial

theorem openNode {b b' : TreeBuilder} {spec : NodeSpec} {n : Nat} (h : b.Shallow)
    (ho : b.openNode spec = .ok (b', n)) : b'.Shallow := by
  obtain ⟨-, hdepth, -, rfl⟩ := openNode_ok ho
  refine ⟨h.finished, checkDepth_ok_iff.mp hdepth, fun c hc => ?_, h.stacked⟩
  cases hc

theorem closeNode {b b' : TreeBuilder} (h : b.Shallow) (hc : b.closeNode = .ok b') :
    b'.Shallow := by
  unfold TreeBuilder.closeNode at hc
  have hstack := h.stacked
  cases hs : b.stack with
  | nil => rw [hs] at hc; cases hc
  | cons top rest =>
      rw [hs] at hc hstack
      obtain ⟨hroom, htop, hrest⟩ := hstack
      -- The closed node goes one level up, and is one level higher than its children.
      have hheight : rest.length + (Node.mk top.info top.children.reverse).height
          ≤ maxTreeDepth := by
        have hchildren : Node.heightAll top.children.reverse
            ≤ maxTreeDepth - (rest.length + 1) := by
          refine Node.heightAll_le_iff.mpr fun c hc => ?_
          have := htop c (List.mem_reverse.mp hc)
          omega
        rw [Node.height]
        omega
      cases rest with
      | nil =>
          cases hc
          refine ⟨fun n hn => ?_, trivial⟩
          obtain rfl := Option.some.inj hn
          simpa using hheight
      | cons parent rest =>
          cases hc
          obtain ⟨hroom', hparent, hrest'⟩ := hrest
          refine ⟨h.finished, hroom', fun c hc => ?_, hrest'⟩
          rcases List.mem_cons.mp hc with rfl | hc
          · exact hheight
          · exact hparent c hc

theorem run {b : TreeBuilder} (h : b.Shallow) (calls : List BuilderCall) :
    (b.run calls).Shallow :=
  run_induction (fun h ho => h.openNode ho) (fun h hc => h.closeNode hc) h calls

end Shallow

end TreeBuilder

theorem SyntaxTree.Built.height_le {t : SyntaxTree} (h : t.Built) :
    t.rootNode.height ≤ maxTreeDepth := by
  obtain ⟨source, language, calls, hfinish⟩ := h
  obtain ⟨-, hfinished, -⟩ := TreeBuilder.finish_ok hfinish
  exact ((TreeBuilder.Shallow.new source language).run calls).finished _ hfinished

/-! ## What has been opened -/

/-- The nodes that a call opens. -/
def BuilderCall.specs : BuilderCall → List NodeSpec
  | openNode spec | leaf spec => [spec]
  | closeNode => []

/-- The text of a record is the text of its span, if there is one. -/
theorem NodeSpec.slice?_record {source : String} {spec : NodeSpec} {n : Nat}
    (h : ∃ text, Text.slice? source.toList spec.startByte spec.endByte = some text) :
    Text.slice? source.toList (spec.record source n).span.startByte
      (spec.record source n).span.endByte = some (spec.record source n).text.toList := by
  obtain ⟨text, hs⟩ := h
  rw [record]
  simp only [hs, Option.map_some, Option.getD_some, String.toList_ofList]

namespace TreeBuilder

theorem source_language_closeNode {b b' : TreeBuilder} (h : b.closeNode = .ok b') :
    b'.source = b.source ∧ b'.language = b.language := by
  unfold closeNode at h
  cases hs : b.stack with
  | nil => rw [hs] at h; cases h
  | cons top rest =>
      rw [hs] at h
      cases rest <;> (cases h; exact ⟨rfl, rfl⟩)

/-- The builder holds the nodes of `specs`, opened in this order. -/
structure Records (source : String) (language : Language) (specs : List NodeSpec)
    (b : TreeBuilder) : Prop where
  source_eq : b.source = source
  language_eq : b.language = language
  sound : b.Sound
  infos_eq : b.infos = specs.mapIdx fun n spec => spec.record source n
  cut : ∀ spec ∈ specs,
    ∃ text, Text.slice? source.toList spec.startByte spec.endByte = some text

namespace Records

variable {source : String} {language : Language} {specs : List NodeSpec} {b b' : TreeBuilder}

theorem new : Records source language [] (new source language) where
  source_eq := rfl
  language_eq := rfl
  sound := Sound.new source language
  infos_eq := rfl
  cut := fun _ h => nomatch h

theorem opened_eq (h : Records source language specs b) : b.opened = specs.length := by
  have hlength := congrArg List.length h.sound.numbered
  rw [ids_eq_map_infos, h.infos_eq, List.length_map, List.length_mapIdx,
    List.length_range] at hlength
  exact hlength.symm

theorem openNode {spec : NodeSpec} {n : Nat} (h : Records source language specs b)
    (ho : b.openNode spec = .ok (b', n)) : Records source language (specs ++ [spec]) b' := by
  have hsound := h.sound.openNode ho
  obtain ⟨⟨text, htext⟩, -, -, rfl⟩ := openNode_ok ho
  refine ⟨h.source_eq, h.language_eq, hsound, ?_, fun s hs => ?_⟩
  · rw [infos_openNode, h.infos_eq, h.source_eq, h.opened_eq, List.mapIdx_concat]
  · rcases List.mem_append.mp hs with hs | hs
    · exact h.cut s hs
    · obtain rfl := List.mem_singleton.mp hs
      have hslice := spanText_ok htext
      rw [h.source_eq] at hslice
      exact ⟨_, hslice⟩

theorem closeNode (h : Records source language specs b) (hc : b.closeNode = .ok b') :
    Records source language specs b' := by
  have hinfos := infos_closeNode hc (h.sound.finished_of_closeNode hc)
  obtain ⟨hsource, hlanguage⟩ := source_language_closeNode hc
  exact ⟨hsource.trans h.source_eq, hlanguage.trans h.language_eq, h.sound.closeNode hc,
    hinfos.trans h.infos_eq, h.cut⟩

theorem call {c : BuilderCall} (h : Records source language specs b)
    (hc : b.call c = .ok b') : Records source language (specs ++ c.specs) b' := by
  cases c with
  | openNode spec =>
      obtain ⟨n, ho⟩ := call_openNode_ok hc
      exact h.openNode ho
  | leaf spec =>
      obtain ⟨b₁, n, ho, hclose⟩ := call_leaf_ok hc
      exact (h.openNode ho).closeNode hclose
  | closeNode =>
      rw [BuilderCall.specs, List.append_nil]
      exact h.closeNode hc

theorem follow {calls : List BuilderCall} (h : Records source language specs b)
    (hf : b.follow calls = .ok b') :
    Records source language (specs ++ calls.flatMap BuilderCall.specs) b' := by
  induction calls generalizing specs b with
  | nil =>
      cases hf
      rwa [List.flatMap_nil, List.append_nil]
  | cons c calls ih =>
      cases hc : b.call c with
      | error e => simp [TreeBuilder.follow, hc] at hf
      | ok b₁ =>
          simp only [TreeBuilder.follow, hc] at hf
          have := ih (h.call hc) hf
          rwa [List.append_assoc, ← List.flatMap_cons] at this

end Records

end TreeBuilder

/-! ## Lossless trees -/

/-- The nodes of the tree are those of `opened`, and the tree holds the
source between them. -/
structure SyntaxTree.Lossless (t : SyntaxTree) (opened : List NodeSpec) : Prop where
  /-- Place `n` of the tree is the `n`-th node that was opened. -/
  recorded : t.places.map Place.info = opened.mapIdx fun n spec => spec.record t.source n
  nodeCount_eq : t.nodeCount = opened.length
  traversed : Place.traverse [t.root] = t.places
  numbered : (Place.traverse [t.root]).map Place.id = List.range t.nodeCount
  /-- Up and down are inverse, and neither leads out of the tree. -/
  parent_iff : ∀ p ∈ t.places, ∀ c ∈ t.places, c.parent? = some p ↔ c ∈ p.children
  children_mem : ∀ p ∈ t.places, ∀ c ∈ p.children, c ∈ t.places
  parent_mem : ∀ c ∈ t.places, ∀ p, c.parent? = some p → p ∈ t.places
  parentless_iff : ∀ p ∈ t.places, p.parent? = none ↔ p.id = 0
  shallow : ∀ p ∈ t.places, p.ancestors.length ≤ 255
  in_source : ∀ p ∈ t.places,
    p.span.startByte ≤ p.span.endByte ∧ p.span.endByte ≤ t.source.utf8ByteSize
      ∧ String.Pos.Raw.IsValid t.source ⟨p.span.startByte⟩
      ∧ String.Pos.Raw.IsValid t.source ⟨p.span.endByte⟩
  nested : ∀ p ∈ t.places, ∀ a ∈ p.ancestors, a.span.contains p.span = true
  /-- The text of a place can be cut out of the source, and its bytes are
  those of the span. -/
  text_eq : ∀ p ∈ t.places,
    Text.slice? t.source.toList p.span.startByte p.span.endByte = some p.text.toList
      ∧ p.text.toByteArray = t.source.toByteArray.extract p.span.startByte p.span.endByte
  /-- The text of a child stands in the text of its parent, as far from its
  start as the spans say. -/
  child_text : ∀ p ∈ t.places, ∀ c ∈ p.children,
    Text.slice? p.text.toList (c.span.startByte - p.span.startByte)
      (c.span.endByte - p.span.startByte) = some c.text.toList

namespace SyntaxTree

variable {t : SyntaxTree}

theorem mem_places_of_mem_children {p c : Place} (hp : p ∈ t.places) (hc : c ∈ p.children) :
    c ∈ t.places :=
  Place.descendants_trans hp
    (Place.mem_descendants_of_mem_below (Place.mem_below_of_mem_children hc))

/-- Whatever is in a tree and has a parent is a child of it there. -/
theorem mem_children_of_parent? {p c : Place} (hc : c ∈ t.places) (h : c.parent? = some p) :
    p ∈ t.places ∧ c ∈ p.children := by
  rcases Place.mem_descendants.mp hc with rfl | hc
  · cases h
  · obtain ⟨m, hm, hcm⟩ := Place.exists_mem_children_of_mem_below hc
    rw [Place.parent?_of_mem_children hcm] at h
    obtain rfl := Option.some.inj h
    exact ⟨hm, hcm⟩

theorem parent?_eq_none_iff (h : t.root.Sound) (hroot : t.root.id = 0) {p : Place}
    (hp : p ∈ t.places) : p.parent? = none ↔ p.id = 0 := by
  constructor
  · intro hnone
    rcases Place.mem_descendants.mp hp with rfl | hp
    · exact hroot
    · obtain ⟨m, -, hpm⟩ := Place.exists_mem_children_of_mem_below hp
      rw [Place.parent?_of_mem_children hpm] at hnone
      cases hnone
  · intro hid
    have heq := h.eq_of_id_eq hp (Place.self_mem_descendants _) (hid.trans hroot.symm)
    rw [heq]
    rfl

section Recorded

variable {opened : List NodeSpec}
  (hinfos : t.places.map Place.info = opened.mapIdx fun n spec => spec.record t.source n)
include hinfos

theorem map_id_of_recorded : t.places.map Place.id = List.range opened.length := by
  have hmap : t.places.map Place.id = (t.places.map Place.info).map (·.id) := by
    rw [List.map_map]
    rfl
  rw [hmap, hinfos]
  refine List.ext_getElem (by simp) fun n _ _ => ?_
  simp [NodeSpec.record]

theorem root_id_of_recorded : t.root.id = 0 := by
  have hfirst := congrArg List.head? (map_id_of_recorded hinfos)
  rw [SyntaxTree.places, Place.descendants_eq_cons_below, List.map_cons, List.head?_cons,
    List.head?_range] at hfirst
  split at hfirst
  · cases hfirst
  · exact Option.some.inj hfirst

theorem nodeCount_of_recorded : t.nodeCount = opened.length := by
  have hlength := congrArg List.length hinfos
  rw [List.length_mapIdx, SyntaxTree.places, Place.map_info_descendants,
    Node.length_infos] at hlength
  exact hlength

theorem slice?_of_recorded
    (hcut : ∀ spec ∈ opened,
      ∃ text, Text.slice? t.source.toList spec.startByte spec.endByte = some text)
    {p : Place} (hp : p ∈ t.places) :
    Text.slice? t.source.toList p.span.startByte p.span.endByte = some p.text.toList := by
  have hinfo := List.mem_map_of_mem (f := Place.info) hp
  rw [hinfos] at hinfo
  obtain ⟨n, hn, hrecord⟩ := List.mem_mapIdx.mp hinfo
  have hslice := NodeSpec.slice?_record (n := n) (hcut _ (List.getElem_mem hn))
  rw [hrecord] at hslice
  exact hslice

/-- A sound tree of records, each cut out of the source, is lossless. -/
theorem lossless_of_recorded (hsound : t.root.Sound)
    (hcut : ∀ spec ∈ opened,
      ∃ text, Text.slice? t.source.toList spec.startByte spec.endByte = some text)
    (hheight : t.rootNode.height ≤ maxTreeDepth) : t.Lossless opened := by
  have htraversed : Place.traverse [t.root] = t.places := by
    rw [Place.traverse_eq, List.flatMap_singleton]
    rfl
  have hcount := nodeCount_of_recorded hinfos
  have htext {p : Place} (hp : p ∈ t.places) := slice?_of_recorded hinfos hcut hp
  refine
    { recorded := hinfos
      nodeCount_eq := hcount
      traversed := htraversed
      numbered := by rw [htraversed, map_id_of_recorded hinfos, hcount]
      parent_iff := fun p _ c hc =>
        ⟨fun hparent => (mem_children_of_parent? hc hparent).2, Place.parent?_of_mem_children⟩
      children_mem := fun p hp c hc => mem_places_of_mem_children hp hc
      parent_mem := fun c hc p hparent => (mem_children_of_parent? hc hparent).1
      parentless_iff := fun p hp => parent?_eq_none_iff hsound (root_id_of_recorded hinfos) hp
      shallow := fun p hp => ?_
      in_source := fun p hp => Text.exists_slice?_iff.mp ⟨_, htext hp⟩
      nested := fun p hp a ha => ?_
      text_eq := fun p hp => ⟨htext hp, ?_⟩
      child_text := fun p hp c hc => ?_ }
  · have hlt : p.above.length < t.root.above.length + t.rootNode.height := Place.depth_lt hp
    have hnone : t.root.above.length = 0 := rfl
    rw [Place.length_ancestors]
    unfold maxTreeDepth at hheight
    omega
  · obtain ⟨ha, hpa⟩ := (SyntaxTree.mem_ancestors hp).mp ha
    exact (hsound.of_mem ha).contains hpa
  · have hbytes := Text.toByteArray_slice? (htext hp)
    rwa [String.ofList_toList] at hbytes
  · have hin := hsound.nested p hp c hc
    simp only [Span.contains, Bool.and_eq_true, decide_eq_true_eq] at hin
    exact Text.slice?_within (htext hp) (htext (mem_places_of_mem_children hp hc)) hin.1 hin.2

end Recorded

end SyntaxTree

/-- The nodes of a finished tree are those of the calls that were taken, and
each can be cut out of the source. -/
theorem TreeBuilder.recorded_of_finish {source : String} {language : Language}
    {calls : List BuilderCall} {t : SyntaxTree}
    (h : ((new source language).run calls).finish = .ok t) :
    t.source = source ∧ t.language = language
      ∧ t.places.map Place.info
        = (((new source language).accepted calls).flatMap BuilderCall.specs).mapIdx
          (fun n spec => spec.record t.source n)
      ∧ ∀ spec ∈ ((new source language).accepted calls).flatMap BuilderCall.specs,
        ∃ text, Text.slice? t.source.toList spec.startByte spec.endByte = some text := by
  have hrecords := Records.new.follow (follow_accepted (new source language) calls)
  rw [List.nil_append] at hrecords
  obtain ⟨hstack, hfinished, hlanguage, hsource⟩ := finish_ok h
  have hs := hsource.trans hrecords.source_eq
  refine ⟨hs, hlanguage.trans hrecords.language_eq, ?_, hs ▸ hrecords.cut⟩
  have hinfos := hrecords.infos_eq
  rw [infos, hstack, hfinished] at hinfos
  rw [SyntaxTree.places, Place.map_info_descendants, hs, ← hinfos]
  simp [Node.infosAll, SyntaxTree.root]

theorem SyntaxTree.Built.exists_lossless {t : SyntaxTree} (h : t.Built) :
    ∃ opened, t.Lossless opened := by
  obtain ⟨source, language, calls, hfinish⟩ := id h
  obtain ⟨-, -, hinfos, hcut⟩ := TreeBuilder.recorded_of_finish hfinish
  exact ⟨_, lossless_of_recorded hinfos h.sound hcut h.height_le⟩

/-- A tree that a builder finishes with, whatever calls it took or
refused, is the tree of its source and loses nothing. -/
theorem TreeBuilder.lossless {source : String} {language : Language} {calls : List BuilderCall}
    {t : SyntaxTree} (h : ((new source language).run calls).finish = .ok t) :
    t.source = source ∧ t.language = language
      ∧ t.Lossless (((new source language).accepted calls).flatMap BuilderCall.specs) := by
  obtain ⟨hsource, hlanguage, hinfos, hcut⟩ := recorded_of_finish h
  have hbuilt : t.Built := ⟨source, language, calls, h⟩
  exact ⟨hsource, hlanguage,
    SyntaxTree.lossless_of_recorded hinfos hbuilt.sound hcut hbuilt.height_le⟩

namespace TreeBuilder.Word

/-! A word with a letter of two bytes. The calls split that letter, close
once too often and open a second root, all in vain. -/

def whole : NodeSpec := ⟨"document", 0, 4, true, false, none⟩

def letter : NodeSpec := ⟨"letter", 1, 3, true, false, some "middle"⟩

def calls : List BuilderCall :=
  [.openNode whole, .leaf { letter with endByte := 2 }, .leaf letter, .closeNode, .closeNode,
    .leaf whole]

def letterNode : Node :=
  .mk ⟨1, "letter", ⟨1, 3, ⟨0, 1⟩, ⟨0, 3⟩⟩, "ñ", true, false, some "middle"⟩ []

def tree : SyntaxTree :=
  ⟨.python, "añb",
    .mk ⟨0, "document", ⟨0, 4, ⟨0, 0⟩, ⟨0, 4⟩⟩, "añb", true, false, none⟩ [letterNode]⟩

end TreeBuilder.Word

open TreeBuilder.Word in
/-- The tree holds the whole word and its middle letter and nothing else. -/
theorem TreeBuilder.lossless_word :
    ((new "añb" .python).run calls).finish = .ok tree ∧ tree.Lossless [whole, letter] :=
  have built : ((new "añb" .python).run calls).finish = .ok tree := by rfl
  ⟨built, (lossless built).2.2⟩

end CodeProfile
