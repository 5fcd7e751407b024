import CodeProfile.SyntaxTree
import Mathlib.Data.List.Flatten
import Mathlib.Data.List.Nodup
import Mathlib.Data.List.Pairwise

/-!
# Places of a tree

A place lists what lies at and below it in document order. This file
relates that list to the two ways of moving through a tree: down to the
children (`descendants_eq`) and up to the ancestors (`ancestors_eq`).

`Place.Sound` holds the two facts about ids and spans that the builder
guarantees for a whole tree and that every place in it inherits
(`Sound.of_mem`): no id stands at two places, and no span leaves the
span of its parent. From the first, two lists of places whose
descendants fit into one tree side by side share nothing, which is what
"visited at most once" rests on.
-/

namespace CodeProfile

theorem Node.placesAll_eq (above : List Node) (cs : List Node) :
    Node.placesAll above cs = cs.flatMap (Node.places above) := by
  induction cs with
  | nil => rfl
  | cons c cs ih => rw [Node.placesAll, ih, List.flatMap_cons]

namespace Place

/-- Induction from the children up: a property of every place, given that
a place has it as soon as its children do. -/
theorem children_induction {motive : Place → Prop}
    (step : ∀ p, (∀ c ∈ p.children, motive c) → motive p) (p : Place) : motive p :=
  step p fun c _hc => children_induction step c
termination_by p.node.size
decreasing_by exact size_lt_of_mem_children _hc

/-! ## Down: what lies at and below a place -/

theorem descendants_eq (p : Place) :
    p.descendants = p :: p.children.flatMap descendants := by
  obtain ⟨⟨info, cs⟩, above⟩ := p
  rw [descendants, Node.places, Node.placesAll_eq]
  simp [children, Node.children, List.flatMap_map, descendants]

theorem below_eq (p : Place) : p.below = p.children.flatMap descendants := by
  rw [below, descendants_eq, List.tail_cons]

theorem descendants_eq_cons_below (p : Place) : p.descendants = p :: p.below := by
  rw [below_eq, ← descendants_eq]

theorem mem_below {p x : Place} : x ∈ p.below ↔ ∃ c ∈ p.children, x ∈ c.descendants := by
  rw [below_eq, List.mem_flatMap]

theorem mem_descendants {p x : Place} : x ∈ p.descendants ↔ x = p ∨ x ∈ p.below := by
  rw [descendants_eq_cons_below, List.mem_cons]

theorem self_mem_descendants (p : Place) : p ∈ p.descendants :=
  mem_descendants.mpr (Or.inl rfl)

theorem mem_descendants_of_mem_below {p x : Place} (h : x ∈ p.below) : x ∈ p.descendants :=
  mem_descendants.mpr (Or.inr h)

theorem mem_below_of_mem_children {p c : Place} (h : c ∈ p.children) : c ∈ p.below :=
  mem_below.mpr ⟨c, h, self_mem_descendants c⟩

theorem descendants_trans {p q x : Place} (hq : q ∈ p.descendants) (hx : x ∈ q.descendants) :
    x ∈ p.descendants := by
  induction p using children_induction with
  | step p ih =>
      rcases mem_descendants.mp hq with rfl | hq
      · exact hx
      · obtain ⟨c, hc, hqc⟩ := mem_below.mp hq
        exact mem_descendants_of_mem_below (mem_below.mpr ⟨c, hc, ih c hc hqc⟩)

theorem below_trans {p q x : Place} (hq : q ∈ p.below) (hx : x ∈ q.descendants) :
    x ∈ p.below := by
  obtain ⟨c, hc, hqc⟩ := mem_below.mp hq
  exact mem_below.mpr ⟨c, hc, descendants_trans hqc hx⟩

theorem size_lt_of_mem_below {p x : Place} (h : x ∈ p.below) : x.node.size < p.node.size := by
  induction p using children_induction with
  | step p ih =>
      obtain ⟨c, hc, hx⟩ := mem_below.mp h
      have hlt := size_lt_of_mem_children hc
      rcases mem_descendants.mp hx with rfl | hx
      · exact hlt
      · exact Nat.lt_trans (ih c hc hx) hlt

theorem not_mem_below_self (p : Place) : p ∉ p.below :=
  fun h => Nat.lt_irrefl _ (size_lt_of_mem_below h)

/-- Nothing lies both below a place and at or above it. -/
theorem not_mem_descendants_of_mem_below {p x : Place} (h : x ∈ p.below) :
    p ∉ x.descendants :=
  fun hp => not_mem_below_self p (below_trans h hp)

theorem descendants_sublist_of_mem_children {p c : Place} (h : c ∈ p.children) :
    c.descendants.Sublist p.below := by
  rw [below_eq]
  simpa using (List.singleton_sublist.mpr h).flatMap descendants

theorem descendants_sublist {p q : Place} (h : q ∈ p.descendants) :
    q.descendants.Sublist p.descendants := by
  induction p using children_induction with
  | step p ih =>
      rcases mem_descendants.mp h with rfl | h
      · exact List.Sublist.refl _
      · obtain ⟨c, hc, hq⟩ := mem_below.mp h
        rw [descendants_eq_cons_below p]
        exact ((ih c hc hq).trans (descendants_sublist_of_mem_children hc)).cons _

/-- What lies below a place is a child of something at or below it. -/
theorem exists_mem_children_of_mem_below {p x : Place} (h : x ∈ p.below) :
    ∃ m ∈ p.descendants, x ∈ m.children := by
  induction p using children_induction with
  | step p ih =>
      obtain ⟨c, hc, hx⟩ := mem_below.mp h
      rcases mem_descendants.mp hx with rfl | hx
      · exact ⟨p, self_mem_descendants p, hc⟩
      · obtain ⟨m, hm, hxm⟩ := ih c hc hx
        have hcp := mem_descendants_of_mem_below (mem_below_of_mem_children hc)
        exact ⟨m, descendants_trans hcp hm, hxm⟩

/-! ## Up: the ancestors of a place -/

theorem parent?_of_mem_children {p c : Place} (h : c ∈ p.children) : c.parent? = some p := by
  obtain ⟨n, -, rfl⟩ := List.mem_map.mp h
  rfl

theorem length_ancestors (p : Place) : p.ancestors.length = p.above.length := by
  obtain ⟨node, above⟩ := p
  induction above generalizing node with
  | nil => rfl
  | cons n ns ih => exact congrArg (· + 1) (ih n)

theorem ancestors_of_mem_children {p c : Place} (h : c ∈ p.children) :
    c.ancestors = p :: p.ancestors := by
  obtain ⟨n, -, rfl⟩ := List.mem_map.mp h
  rfl

/-- Going up from a place below `p` one passes places that lie below `p`
and above the start, and then `p` itself. -/
theorem ancestors_eq {p x : Place} (h : x ∈ p.below) :
    ∃ between, x.ancestors = between ++ p :: p.ancestors
      ∧ ∀ m ∈ between, m ∈ p.below ∧ x ∈ m.below := by
  induction p using children_induction with
  | step p ih =>
      obtain ⟨c, hc, hx⟩ := mem_below.mp h
      have hcp := mem_below_of_mem_children hc
      rcases mem_descendants.mp hx with rfl | hx
      · exact ⟨[], ancestors_of_mem_children hc, by simp⟩
      · obtain ⟨between, heq, hbetween⟩ := ih c hc hx
        refine ⟨between ++ [c], ?_, ?_⟩
        · rw [heq, ancestors_of_mem_children hc, List.append_assoc, List.singleton_append]
        · intro m hm
          rcases List.mem_append.mp hm with hm | hm
          · have hmc := (hbetween m hm).1
            exact ⟨below_trans hcp (mem_descendants_of_mem_below hmc), (hbetween m hm).2⟩
          · rw [List.mem_singleton.mp hm]
            exact ⟨hcp, hx⟩

theorem mem_ancestors_of_mem_below {p x : Place} (h : x ∈ p.below) : p ∈ x.ancestors := by
  obtain ⟨between, heq, -⟩ := ancestors_eq h
  rw [heq]
  exact List.mem_append_right _ (List.mem_cons_self ..)

/-- The ancestors of a place at or below `p` are those of `p` and the
places between. -/
theorem mem_ancestors_cases {p x m : Place} (hx : x ∈ p.descendants) (hm : m ∈ x.ancestors) :
    m ∈ p.ancestors ∨ (m ∈ p.descendants ∧ x ∈ m.below) := by
  rcases mem_descendants.mp hx with rfl | hx
  · exact Or.inl hm
  · obtain ⟨between, heq, hbetween⟩ := ancestors_eq hx
    rw [heq] at hm
    rcases List.mem_append.mp hm with hm | hm
    · obtain ⟨hmp, hxm⟩ := hbetween m hm
      exact Or.inr ⟨mem_descendants_of_mem_below hmp, hxm⟩
    · rcases List.mem_cons.mp hm with rfl | hm
      · exact Or.inr ⟨self_mem_descendants m, hx⟩
      · exact Or.inl hm

/-- When everything below several places is listed without repetition,
a place lies at or below at most one of them. -/
theorem eq_of_mem_descendants {qs : List Place} (h : (qs.flatMap descendants).Nodup)
    {q r x : Place} (hq : q ∈ qs) (hr : r ∈ qs) (hxq : x ∈ q.descendants)
    (hxr : x ∈ r.descendants) : q = r := by
  by_contra hne
  have hdisj := (List.nodup_flatMap.mp h).2
  have : Std.Symm (Function.onFun List.Disjoint descendants) :=
    ⟨fun _ _ hd x hx hx' => hd hx' hx⟩
  exact hdisj.forall hq hr hne hxq hxr

/-! ## Sound places -/

/-- No id stands twice at or below the place, and no span there leaves
the span of its parent. -/
structure Sound (p : Place) : Prop where
  distinct : (p.descendants.map id).Nodup
  nested : ∀ q ∈ p.descendants, ∀ c ∈ q.children, q.span.contains c.span = true

namespace Sound

theorem of_mem {p q : Place} (h : p.Sound) (hq : q ∈ p.descendants) : q.Sound where
  distinct := h.distinct.sublist ((descendants_sublist hq).map id)
  nested := fun r hr => h.nested r (descendants_trans hq hr)

theorem of_mem_below {p q : Place} (h : p.Sound) (hq : q ∈ p.below) : q.Sound :=
  h.of_mem (mem_descendants_of_mem_below hq)

theorem nodup {p : Place} (h : p.Sound) : p.descendants.Nodup := List.Nodup.of_map _ h.distinct

theorem nodup_below {p : Place} (h : p.Sound) : p.below.Nodup := by
  have := h.nodup
  rw [descendants_eq_cons_below] at this
  exact this.of_cons

/-- Two children that hold the same place are one. -/
theorem eq_of_mem_children {p c d x : Place} (h : p.Sound) (hc : c ∈ p.children)
    (hd : d ∈ p.children) (hxc : x ∈ c.descendants) (hxd : x ∈ d.descendants) : c = d := by
  have hnodup := h.nodup_below
  rw [below_eq] at hnodup
  exact eq_of_mem_descendants hnodup hc hd hxc hxd

/-- A span lies in the spans of all the places above it. -/
theorem contains {p x : Place} (h : p.Sound) (hx : x ∈ p.below) :
    p.span.contains x.span = true := by
  induction p using children_induction with
  | step p ih =>
      obtain ⟨c, hc, hxc⟩ := mem_below.mp hx
      have hpc := h.nested p (self_mem_descendants p) c hc
      rcases mem_descendants.mp hxc with rfl | hxc
      · exact hpc
      · have hcx := ih c hc (h.of_mem_below (mem_below_of_mem_children hc)) hxc
        simp only [Span.contains, Bool.and_eq_true, decide_eq_true_eq] at hpc hcx ⊢
        omega

/-- In a sound tree an id says which place is meant. -/
theorem eq_of_id_eq {p x y : Place} (h : p.Sound) (hx : x ∈ p.descendants)
    (hy : y ∈ p.descendants) (heq : x.id = y.id) : x = y :=
  List.inj_on_of_nodup_map h.distinct hx hy heq

end Sound

end Place

/-- The ancestors of a place in a tree are the places that it lies below. -/
theorem SyntaxTree.mem_ancestors {t : SyntaxTree} {x m : Place} (hx : x ∈ t.places) :
    m ∈ x.ancestors ↔ m ∈ t.places ∧ x ∈ m.below := by
  constructor
  · intro hm
    rcases Place.mem_ancestors_cases hx hm with hroot | hbelow
    · cases hroot
    · exact hbelow
  · rintro ⟨-, hxm⟩
    exact Place.mem_ancestors_of_mem_below hxm

end CodeProfile
