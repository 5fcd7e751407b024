import CodeProfile.Proofs.Comments.Overlooked
import CodeProfile.Proofs.Lowering.Statements

/-!
# Selections of parts with and without a comment

A comment is a named node, and so it turns up where the named parts of a
node are taken in order: among the arguments of a call and among the
parts of a conditional. It brings no statement of its own there, since
nothing at or below it has a class (`bears`), and such places lower to
nothing (`lower_of_not_bears`).

Two lists of parts are compared by what they bear (`SameParts`). Each
list that a reading is made of is followed from the tree with the
comment to the tree without it; `branches_without` is the one that asks
for a condition.
-/

namespace CodeProfile.Adapter

open Place

variable {a : Adapter} {t t' : SyntaxTree} {c p : Place}

/-! ## Places that bear something -/

/-- Whether anything at or below the place has a class. -/
def bears (a : Adapter) (p : Place) : Bool := p.descendants.any fun x => (a.classify x).isSome

theorem bears_of_mem_children {q : Place} (hq : q ∈ p.children) (h : a.bears p = false) :
    a.bears q = false := by
  simp only [bears, List.any_eq_false] at h ⊢
  exact fun x hx => h x (mem_descendants_of_mem_below (mem_below.mpr ⟨q, hq, hx⟩))

theorem classify_of_not_bears (h : a.bears p = false) : a.classify p = none := by
  simp only [bears, List.any_eq_false] at h
  simpa using h p (self_mem_descendants p)

theorem lower_of_not_bears (h : a.bears p = false) (inInput : Bool) :
    a.lower inInput p = ⟨[], []⟩ := by
  induction p using children_induction generalizing inInput with
  | step p ih =>
      have hreading : a.reading p = .through p.children := by
        unfold reading
        rw [classify_of_not_bears h]
      have hchild (q : Place) (hq : q ∈ p.children) : a.lower inInput q = ⟨[], []⟩ :=
        ih q hq (bears_of_mem_children hq h) inInput
      have hmap : p.children.map (a.lower inInput) = p.children.map fun _ => ⟨[], []⟩ :=
        List.map_congr_left hchild
      rw [lower_through hreading, hmap, Lowered.concat]
      simp

section

variable (ho : a.Overlooks t' c)
include ho

theorem classify_without (hp : t'.Keeps c p) : a.classify (p.without c.id) = a.classify p := by
  unfold classify
  simp only [kind_without, isNamed_without, isError_without, ho.isAllocation p hp]

variable (h : t.AddsPlainComment a.kinds t' c)
include h

theorem bears_comment : a.bears c = false := by
  rw [bears, descendants_eq, h.leaf, List.flatMap_nil]
  simp [ho.classify_comment]

theorem keeps_of_bears (hp : p ∈ t'.places) (hb : a.bears p = true) : t'.Keeps c p := by
  refine ⟨hp, fun hid => ?_⟩
  rw [h.eq_of_id_eq hp hid, bears_comment ho h] at hb
  cases hb

theorem bears_without (hp : t'.Keeps c p) : a.bears (p.without c.id) = a.bears p := by
  rw [bears, h.descendants_without hp, bears, Bool.eq_iff_iff, List.any_eq_true, List.any_eq_true]
  constructor
  · rintro ⟨y, hy, hsome⟩
    obtain ⟨x, hx, rfl⟩ := List.mem_map.mp hy
    obtain ⟨hxp, hid⟩ := List.mem_filter.mp hx
    rw [classify_without ho ⟨descendants_trans hp.1 hxp, bne_iff_ne.mp hid⟩] at hsome
    exact ⟨x, hxp, hsome⟩
  · rintro ⟨x, hx, hsome⟩
    have hid : x.id ≠ c.id := fun hid => by
      rw [h.eq_of_id_eq (descendants_trans hp.1 hx) hid, ho.classify_comment] at hsome
      cases hsome
    rw [← classify_without ho ⟨descendants_trans hp.1 hx, hid⟩] at hsome
    exact ⟨_, List.mem_map_of_mem (List.mem_filter.mpr ⟨hx, bne_iff_ne.mpr hid⟩), hsome⟩

end

/-! ## The same parts -/

/-- Without the comment, the parts that bear something are the same. -/
def SameParts (a : Adapter) (c : Place) (qs rs : List Place) : Prop :=
  rs.filter a.bears = (qs.filter a.bears).map (·.without c.id)

namespace SameParts

theorem append {qs₁ qs₂ rs₁ rs₂ : List Place} (h₁ : a.SameParts c qs₁ rs₁)
    (h₂ : a.SameParts c qs₂ rs₂) : a.SameParts c (qs₁ ++ qs₂) (rs₁ ++ rs₂) := by
  unfold SameParts at *
  rw [List.filter_append, h₁, h₂, List.filter_append, List.map_append]

theorem of_not_bears {qs rs : List Place} (hqs : ∀ q ∈ qs, a.bears q = false)
    (hrs : ∀ r ∈ rs, a.bears r = false) : a.SameParts c qs rs := by
  have hnil {ps : List Place} (hps : ∀ p ∈ ps, a.bears p = false) : ps.filter a.bears = [] :=
    List.filter_eq_nil_iff.mpr fun p hp => by simp [hps p hp]
  rw [SameParts, hnil hqs, hnil hrs, List.map_nil]

variable (ho : a.Overlooks t' c) (h : t.AddsPlainComment a.kinds t' c)
include ho h

/-- Two selections from what is left of some places, which agree on all
that bears something. -/
theorem of_filter {qs : List Place} {keep keep' : Place → Bool} (hqs : ∀ q ∈ qs, q ∈ t'.places)
    (hkeep : ∀ q ∈ qs, a.bears q = true → keep' (q.without c.id) = keep q) :
    a.SameParts c (qs.filter keep)
      (((qs.filter (·.id != c.id)).map (·.without c.id)).filter keep') := by
  rw [SameParts, List.filter_map, List.filter_map, List.filter_filter, List.filter_filter,
    List.filter_filter]
  refine congrArg _ (List.filter_congr fun q hq => ?_)
  simp only [Function.comp_apply]
  cases hb : a.bears q with
  | true =>
      have hq' := keeps_of_bears ho h (hqs q hq) hb
      rw [bears_without ho h hq', hb, hkeep q hq hb, bne_iff_ne.mpr hq'.2, Bool.and_true]
  | false =>
      by_cases hid : q.id = c.id
      · simp [hid]
      · rw [bears_without ho h ⟨hqs q hq, hid⟩, hb]
        simp

theorem of_map_filter {qs : List Place} (hqs : ∀ q ∈ qs, q ∈ t'.places) :
    a.SameParts c qs ((qs.filter (·.id != c.id)).map (·.without c.id)) := by
  have hall : a.SameParts c (qs.filter fun _ => true)
      (((qs.filter (·.id != c.id)).map (·.without c.id)).filter fun _ => true) :=
    of_filter ho h hqs fun _ _ _ => rfl
  rwa [List.filter_true, List.filter_true] at hall

theorem of_map {qs : List Place} (hqs : ∀ q ∈ qs, t'.Keeps c q) :
    a.SameParts c qs (qs.map (·.without c.id)) := by
  have hkept := of_map_filter ho h fun q hq => (hqs q hq).1
  rwa [SyntaxTree.filter_of_keeps hqs] at hkept

end SameParts

/-! ## Parts of a node -/

section Parts

theorem otherArguments_without (a : Adapter) (arguments : Place) (k : Nat) :
    a.otherArguments (arguments.without k)
      = ((a.otherArguments arguments).filter (·.id != k)).map (·.without k) := by
  rw [otherArguments, namedChildren_without]
  exact filter_without k fun q _ _ => by rw [kind_without]

theorem mem_places_of_mem_bodyParts {q : Place} (hp : p ∈ t'.places) (hq : q ∈ bodyParts p) :
    q ∈ t'.places := by
  unfold bodyParts at hq
  cases hbody : body? p with
  | none => simp [hbody] at hq
  | some body =>
      rw [hbody, Option.elim_some] at hq
      exact SyntaxTree.mem_places_of_mem_children
        (SyntaxTree.mem_places_of_mem_children hp (mem_children_of_childByField? hbody))
        (mem_children_of_namedChildren hq)

theorem mem_places_of_mem_branches {q : Place} (hp : p ∈ t'.places) (hq : q ∈ branches p) :
    q ∈ t'.places := by
  unfold branches at hq
  split at hq
  · exact SyntaxTree.mem_places_of_mem_children hp ((arms_subperm p).subset hq)
  · split at hq
    · exact mem_places_of_mem_bodyParts hp hq
    · exact SyntaxTree.mem_places_of_mem_children hp
        (mem_children_of_namedChildren (List.mem_filter.mp hq).1)

variable (h : t.AddsPlainComment a.kinds t' c)
include h

theorem body?_without (hp : p ∈ t'.places) :
    body? (p.without c.id) = (body? p).map (·.without c.id) :=
  h.childByField?_without hp (by decide)

theorem keeps_of_body? {q : Place} (hp : p ∈ t'.places) (hq : body? p = some q) :
    t'.Keeps c q :=
  h.keeps_of_childByField? hp (by decide) hq

theorem keeps_of_mem_body? {q : Place} (hp : p ∈ t'.places) (hq : q ∈ (body? p).toList) :
    t'.Keeps c q :=
  keeps_of_body? h hp (Option.mem_toList.mp hq)

theorem toList_body?_without (hp : p ∈ t'.places) :
    (body? (p.without c.id)).toList = (body? p).toList.map (·.without c.id) := by
  rw [body?_without h hp]
  cases body? p <;> rfl

theorem condition?_without (hp : p ∈ t'.places) :
    condition? (p.without c.id) = (condition? p).map (·.without c.id) := by
  rw [condition?, h.or_childByField?_without hp (by decide) (by decide), condition?]

theorem keeps_of_condition? {q : Place} (hp : p ∈ t'.places) (hq : condition? p = some q) :
    t'.Keeps c q :=
  h.keeps_of_or_childByField? hp (by decide) (by decide) hq

theorem keeps_of_mem_arms {q : Place} (hp : p ∈ t'.places) (hq : q ∈ arms p) : t'.Keeps c q := by
  rcases List.mem_append.mp hq with hq | hq
  · exact h.keeps_of_mem_childrenByField hp (by decide) hq
  · exact h.keeps_of_mem_childrenByField hp (by decide) hq

theorem arms_without (hp : p ∈ t'.places) :
    arms (p.without c.id) = (arms p).map (·.without c.id) := by
  rw [arms, h.childrenByField_without hp (by decide), h.childrenByField_without hp (by decide),
    ← List.map_append, arms]

theorem bodyParts_without (hp : p ∈ t'.places) :
    bodyParts (p.without c.id) = ((bodyParts p).filter (·.id != c.id)).map (·.without c.id) := by
  rw [bodyParts, body?_without h hp, bodyParts]
  cases body? p with
  | none => rfl
  | some body => exact namedChildren_without body c.id

theorem partsBesideCondition_without (hp : p ∈ t'.places) :
    partsBesideCondition (p.without c.id)
      = ((partsBesideCondition p).filter (·.id != c.id)).map (·.without c.id) := by
  rw [partsBesideCondition, namedChildren_without]
  refine filter_without c.id fun q _ hid => ?_
  rw [condition?_without h hp,
    any_beq_without (fun r hr => (keeps_of_condition? h hp hr).2) hid]

/-- The ways through a conditional, unless the comment is the only one
that is found in its body. -/
theorem branches_without (hp : p ∈ t'.places)
    (hne : arms p = [] → bodyParts p ≠ [] → ∃ b ∈ bodyParts p, b.id ≠ c.id) :
    branches (p.without c.id) = ((branches p).filter (·.id != c.id)).map (·.without c.id) := by
  unfold branches
  rw [arms_without h hp, List.isEmpty_map]
  by_cases ha : (arms p).isEmpty = true
  · have hparts : (bodyParts (p.without c.id)).isEmpty = (bodyParts p).isEmpty := by
      rw [bodyParts_without h hp, List.isEmpty_map, Bool.eq_iff_iff, List.isEmpty_iff,
        List.isEmpty_iff]
      constructor
      · intro hnil
        by_contra hcons
        obtain ⟨b, hb, hid⟩ := hne (List.isEmpty_iff.mp ha) hcons
        exact List.filter_eq_nil_iff.mp hnil b hb (bne_iff_ne.mpr hid)
      · intro hnil
        rw [hnil, List.filter_nil]
    rw [hparts, bodyParts_without h hp, partsBesideCondition_without h hp]
    simp only [ha, Bool.not_true, Bool.false_eq_true, if_false]
    split <;> rfl
  · simp only [ha, Bool.not_false, if_true]
    rw [SyntaxTree.filter_of_keeps fun q hq => keeps_of_mem_arms h hp hq]

/-! ### Arguments -/

theorem arguments?_without (hp : p ∈ t'.places) :
    arguments? (p.without c.id) = (arguments? p).map (·.without c.id) :=
  h.childByField?_without hp (by decide)

theorem keeps_of_mem_inPlaceFunctions {arguments q : Place} (hidle : a.kinds.Idle c.kind)
    (hp : arguments ∈ t'.places) (hq : q ∈ a.inPlaceFunctions arguments) : t'.Keeps c q := by
  obtain ⟨hmem, hlambda⟩ := List.mem_filter.mp hq
  have hqt := SyntaxTree.mem_places_of_mem_children hp (mem_children_of_namedChildren hmem)
  refine ⟨hqt, fun hid => ?_⟩
  rw [h.eq_of_id_eq hqt hid, hidle.lambda] at hlambda
  cases hlambda

theorem inPlaceFunctions_without {arguments : Place} (hidle : a.kinds.Idle c.kind)
    (hp : arguments ∈ t'.places) :
    a.inPlaceFunctions (arguments.without c.id)
      = (a.inPlaceFunctions arguments).map (·.without c.id) := by
  rw [inPlaceFunctions, namedChildren_without,
    filter_without c.id fun q _ _ => by rw [kind_without]]
  exact congrArg _ (SyntaxTree.filter_of_keeps fun q hq =>
    keeps_of_mem_inPlaceFunctions h hidle hp hq)

end Parts

end CodeProfile.Adapter
