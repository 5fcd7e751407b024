import CodeProfile.Proofs.Tree.Places

/-!
# Taking a leaf out of a tree

`SyntaxTree.without` is a tree without the node of one id, with the
nodes behind it renumbered. Every other place stands in what is left
with the same text, span and field (`Place.without`), its children are
those that are left (`children_without`), and what lies at and below it
is what lay there, if a leaf was taken out (`descendants_without`).

Ids are compared and ordered as before (`without_beq`,
`renumber_le_renumber_iff`).
-/

namespace CodeProfile

/-- The id of a node once the node `k` is gone. -/
def renumber (k id : Nat) : Nat := if k < id then id - 1 else id

theorem renumber_inj {k m n : Nat} (hm : m ≠ k) (hn : n ≠ k) :
    renumber k m = renumber k n ↔ m = n := by
  unfold renumber
  constructor
  · intro h
    split at h <;> split at h <;> omega
  · rintro rfl
    rfl

theorem renumber_le_renumber_iff {k m n : Nat} (hn : n ≠ k) :
    renumber k m ≤ renumber k n ↔ m ≤ n := by
  unfold renumber
  split <;> split <;> omega

def NodeInfo.without (i : NodeInfo) (k : Nat) : NodeInfo := { i with id := renumber k i.id }

mutual

/-- The node without what has the id `k` below it. -/
def Node.without (k : Nat) : Node → Node
  | .mk info children => .mk (info.without k) (Node.withoutAll k children)

/-- Several nodes without what has the id `k` among or below them. -/
def Node.withoutAll (k : Nat) : List Node → List Node
  | [] => []
  | c :: cs => if c.info.id = k then Node.withoutAll k cs else c.without k :: Node.withoutAll k cs

end

/-- Where a place stands once the node `k` is gone. -/
def Place.without (p : Place) (k : Nat) : Place := ⟨p.node.without k, p.above.map (Node.without k)⟩

def SyntaxTree.without (t : SyntaxTree) (k : Nat) : SyntaxTree :=
  { t with rootNode := t.rootNode.without k }

namespace Node

theorem withoutAll_eq (k : Nat) (cs : List Node) :
    withoutAll k cs = (cs.filter fun c => c.info.id != k).map (without k) := by
  induction cs with
  | nil => rfl
  | cons c cs ih =>
      rw [withoutAll]
      by_cases hc : c.info.id = k
      · rw [if_pos hc, List.filter_cons_of_neg (by simp [hc]), ih]
      · rw [if_neg hc, List.filter_cons_of_pos (by simp [hc]), List.map_cons, ih]

theorem children_without (n : Node) (k : Nat) :
    (n.without k).children = (n.children.filter fun c => c.info.id != k).map (without k) := by
  cases n with
  | mk info cs => exact withoutAll_eq k cs

@[simp] theorem info_without (n : Node) (k : Nat) : (n.without k).info = n.info.without k := by
  cases n
  rfl

end Node

theorem flatMap_filter_eq {α β : Type} (l : List α) (keep : α → Bool) (f : α → List β) :
    (l.filter keep).flatMap f = l.flatMap fun x => if keep x then f x else [] := by
  induction l with
  | nil => rfl
  | cons x l ih =>
      rw [List.flatMap_cons, ← ih]
      cases hx : keep x with
      | true => rw [List.filter_cons_of_pos hx, List.flatMap_cons, if_pos rfl]
      | false =>
          rw [List.filter_cons_of_neg (by simp [hx]), if_neg Bool.false_ne_true, List.nil_append]

namespace Place

variable (p : Place) (k : Nat)

theorem info_without : (p.without k).info = p.info.without k := Node.info_without p.node k

@[simp] theorem id_without : (p.without k).id = renumber k p.id := by
  rw [id, info_without]; rfl

@[simp] theorem kind_without : (p.without k).kind = p.kind := by
  rw [kind, info_without]; rfl

@[simp] theorem text_without : (p.without k).text = p.text := by
  rw [text, info_without]; rfl

@[simp] theorem span_without : (p.without k).span = p.span := by
  rw [span, info_without]; rfl

@[simp] theorem field_without : (p.without k).field = p.field := by
  rw [field, info_without]; rfl

@[simp] theorem isNamed_without : (p.without k).isNamed = p.isNamed := by
  rw [isNamed, info_without]; rfl

@[simp] theorem isError_without : (p.without k).isError = p.isError := by
  rw [isError, isError, kind_without, info_without]; rfl

@[simp] theorem startLine_without : (p.without k).startLine = p.startLine := by
  rw [startLine, startLine, span_without]

theorem parent?_without : (p.without k).parent? = p.parent?.map (·.without k) := by
  obtain ⟨node, above⟩ := p
  cases above <;> rfl

theorem children_without :
    (p.without k).children = (p.children.filter (·.id != k)).map (·.without k) := by
  rw [children, children, List.filter_map, List.map_map]
  change ((p.node.without k).children.map _) = _
  rw [Node.children_without, List.map_map]
  rfl

/-- Selecting from what is left, and leaving what was selected. -/
theorem filter_without {ps : List Place} {keep keep' : Place → Bool}
    (h : ∀ q ∈ ps, q.id ≠ k → keep' (q.without k) = keep q) :
    ((ps.filter (·.id != k)).map (·.without k)).filter keep'
      = ((ps.filter keep).filter (·.id != k)).map (·.without k) := by
  rw [List.filter_map, List.filter_filter, List.filter_filter]
  refine congrArg _ (List.filter_congr fun q hq => ?_)
  by_cases hid : q.id = k
  · simp [hid]
  · rw [Function.comp_apply, h q hq hid, Bool.and_comm]

theorem namedChildren_without :
    (p.without k).namedChildren = (p.namedChildren.filter (·.id != k)).map (·.without k) := by
  rw [namedChildren, children_without]
  exact filter_without k fun q _ _ => isNamed_without q k

variable {p k}

theorem without_beq {q : Place} (hp : p.id ≠ k) (hq : q.id ≠ k) :
    (p.without k == q.without k) = (p == q) := by
  change ((p.without k).id == (q.without k).id) = (p.id == q.id)
  rw [id_without, id_without, Bool.eq_iff_iff, beq_iff_eq, beq_iff_eq, renumber_inj hp hq]

theorem any_beq_without {o : Option Place} {q : Place} (ho : ∀ r, o = some r → r.id ≠ k)
    (hq : q.id ≠ k) : (o.map (·.without k)).any (· == q.without k) = o.any (· == q) := by
  cases o with
  | none => rfl
  | some r => exact without_beq (ho r rfl) hq

/-- What is left at and below a place when a leaf is taken out. -/
theorem descendants_without (hk : ∀ q ∈ p.descendants, q.id = k → q.children = [])
    (hp : p.id ≠ k) :
    (p.without k).descendants = (p.descendants.filter (·.id != k)).map (·.without k) := by
  induction p using children_induction with
  | step p ih =>
      have hchild (c : Place) (hc : c ∈ p.children) :
          (if c.id != k then (c.without k).descendants else [])
            = (c.descendants.filter (·.id != k)).map (·.without k) := by
        have hcp := mem_descendants_of_mem_below (mem_below_of_mem_children hc)
        by_cases hid : c.id = k
        · have hleaf := hk c hcp hid
          rw [descendants_eq c, hleaf]
          simp [hid]
        · simpa [hid] using ih c hc (fun q hq => hk q (descendants_trans hcp hq)) hid
      rw [descendants_eq, descendants_eq p, children_without, List.filter_cons_of_pos (by simpa),
        List.map_cons, List.flatMap_map, List.filter_flatMap, List.map_flatMap,
        flatMap_filter_eq, List.flatMap_congr hchild]

end Place

end CodeProfile
