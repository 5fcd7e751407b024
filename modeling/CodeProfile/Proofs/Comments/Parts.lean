import CodeProfile.Adapter.Registry
import CodeProfile.Proofs.Lowering.Reading
import CodeProfile.Proofs.Tree.Lossless
import CodeProfile.Proofs.Tree.Removal

/-!
# Reading past a comment

A tree is compared with the tree that has one comment more
(`SyntaxTree.AddsComment`). The adapters find most parts of a node by
their field. A comment that fills no such field
(`SyntaxTree.AddsPlainComment`) leaves them the same parts, names and
texts (`childByField?_without`).
-/

namespace CodeProfile

/-- The fields by which the parts of a node are found. -/
def readFields : List String :=
  ["name", "left", "pattern", "key", "right", "value", "parameters", "parameter", "function",
    "macro", "property", "attribute", "field", "object", "operand", "arguments", "body",
    "condition", "consequence", "alternative", "initializer", "update", "init", "increment"]

/-- The grammar has no other use for the kind, and it is no kind of names. -/
structure NodeKinds.Idle (k : NodeKinds) (kind : String) : Prop where
  function : k.isFunction kind = false
  lambda : k.lambdas.contains kind = false
  loop : k.isLoop kind = false
  conditional : k.isConditional kind = false
  call : k.calls.contains kind = false
  «return» : k.returns.contains kind = false
  «break» : k.breaks.contains kind = false
  «continue» : k.continues.contains kind = false
  allocation : k.allocations.contains kind = false
  assignment : k.assignments.contains kind = false
  update : k.updates.contains kind = false
  declaration : k.declarations.contains kind = false
  expression : k.expressions.contains kind = false
  identifier : identifierKinds.contains kind = false
  declarator : kind ≠ "variable_declarator"

/-- The tree `t'` is the tree `t` with the comment `c` added below some
node. -/
structure SyntaxTree.AddsComment (kinds : NodeKinds) (t t' : SyntaxTree) (c : Place) : Prop where
  built : t'.Built
  mem : c ∈ t'.root.below
  leaf : c.children = []
  comment : kinds.isComment c.kind = true
  removed : t'.without c.id = t

/-- The comment that is added fills no field by which parts are found. -/
structure SyntaxTree.AddsPlainComment (kinds : NodeKinds) (t t' : SyntaxTree) (c : Place) : Prop
    extends t.AddsComment kinds t' c where
  unread : ∀ f ∈ readFields, c.field ≠ some f

/-- A place of the tree other than `c`. -/
def SyntaxTree.Keeps (t : SyntaxTree) (c p : Place) : Prop := p ∈ t.places ∧ p.id ≠ c.id

theorem SyntaxTree.filter_of_keeps {t : SyntaxTree} {c : Place} {ps : List Place}
    (h : ∀ p ∈ ps, t.Keeps c p) : ps.filter (·.id != c.id) = ps :=
  List.filter_eq_self.mpr fun p hp => bne_iff_ne.mpr (h p hp).2

/-! ## Names in patterns -/

theorem Node.patternNames_eq (cs : List Node) :
    patternNames cs = cs.map fun c => (c.info, c.patternName?) := by
  induction cs with
  | nil => rfl
  | cons c cs ih => rw [patternNames, ih, List.map_cons]

theorem Place.patternName?_eq (p : Place) :
    p.patternName?
      = if identifierKinds.contains p.kind then some p.text
        else (p.childByFields? ["name", "pattern", "left"]).elim
          (p.namedChildren.findSome? patternName?) patternName? := by
  obtain ⟨⟨info, cs⟩, above⟩ := p
  have hfield (f : String) :
      (Node.patternNames cs).find? (·.1.field == some f)
        = ((Place.mk (.mk info cs) above).childByField? f).map fun q =>
          (q.info, q.patternName?) := by
    rw [Node.patternNames_eq, childByField?, children, Node.children, List.find?_map,
      List.find?_map, Option.map_map]
    rfl
  have hnamed : ((Node.patternNames cs).filter (·.1.isNamed)).findSome? (·.2)
      = (Place.mk (.mk info cs) above).namedChildren.findSome? patternName? := by
    rw [Node.patternNames_eq, namedChildren, children, Node.children, List.filter_map,
      List.filter_map, List.findSome?_map, List.findSome?_map]
    rfl
  have hparts : (["name", "pattern", "left"].findSome? fun f =>
        (Node.patternNames cs).find? (·.1.field == some f))
      = ((Place.mk (.mk info cs) above).childByFields? ["name", "pattern", "left"]).map fun q =>
        (q.info, q.patternName?) := by
    simp only [childByFields?, List.findSome?_cons, List.findSome?_nil, hfield]
    cases (Place.mk (.mk info cs) above).childByField? "name" <;>
      cases (Place.mk (.mk info cs) above).childByField? "pattern" <;>
        cases (Place.mk (.mk info cs) above).childByField? "left" <;> rfl
  rw [patternName?, Node.patternName?]
  simp only [hparts, hnamed]
  refine if_congr Iff.rfl rfl ?_
  cases (Place.mk (.mk info cs) above).childByFields? ["name", "pattern", "left"] <;> rfl

namespace SyntaxTree.AddsPlainComment

variable {kinds : NodeKinds} {t t' : SyntaxTree} {c p q : Place} {f : String}
  (h : t.AddsPlainComment kinds t' c)
include h

theorem mem_places : c ∈ t'.places := Place.mem_descendants_of_mem_below h.mem

theorem eq_of_id_eq (hp : p ∈ t'.places) (hid : p.id = c.id) : p = c :=
  h.built.sound.eq_of_id_eq hp h.mem_places hid

theorem leaf_of_id_eq (hp : p ∈ t'.places) (hid : p.id = c.id) : p.children = [] := by
  rw [h.eq_of_id_eq hp hid]
  exact h.leaf

theorem keeps_root : t'.Keeps c t'.root := by
  refine ⟨Place.self_mem_descendants _, fun hid => ?_⟩
  have hroot := h.eq_of_id_eq (Place.self_mem_descendants _) hid
  exact Place.not_mem_below_self t'.root (hroot ▸ h.mem)

theorem keeps_of_field (hp : p ∈ t'.places) (hf : f ∈ readFields) (hfield : p.field = some f) :
    t'.Keeps c p :=
  ⟨hp, fun hid => h.unread f hf (h.eq_of_id_eq hp hid ▸ hfield)⟩

/-! ## Parts by their field -/

theorem keeps_of_mem_childrenByField (hp : p ∈ t'.places) (hf : f ∈ readFields)
    (hq : q ∈ p.childrenByField f) : t'.Keeps c q := by
  obtain ⟨hmem, hfield⟩ := List.mem_filter.mp hq
  exact h.keeps_of_field (mem_places_of_mem_children hp hmem) hf (eq_of_beq hfield)

theorem childrenByField_without (hp : p ∈ t'.places) (hf : f ∈ readFields) :
    (p.without c.id).childrenByField f = (p.childrenByField f).map (·.without c.id) := by
  have hkeeps (q : Place) (hq : q ∈ p.childrenByField f) : t'.Keeps c q :=
    h.keeps_of_mem_childrenByField hp hf hq
  rw [Place.childrenByField, Place.children_without,
    Place.filter_without c.id fun q _ _ => by rw [Place.field_without], ← Place.childrenByField,
    filter_of_keeps hkeeps]

theorem childByField?_without (hp : p ∈ t'.places) (hf : f ∈ readFields) :
    (p.without c.id).childByField? f = (p.childByField? f).map (·.without c.id) := by
  have hall := congrArg List.head? (h.childrenByField_without hp hf)
  rwa [Place.childrenByField, Place.childrenByField, List.head?_filter, List.head?_map,
    List.head?_filter] at hall

theorem keeps_of_childByField? (hp : p ∈ t'.places) (hf : f ∈ readFields)
    (hq : p.childByField? f = some q) : t'.Keeps c q :=
  h.keeps_of_field (mem_places_of_mem_children hp (Place.mem_children_of_childByField? hq)) hf
    (eq_of_beq (Adapter.field_of_childByField? hq))

theorem or_childByField?_without {g : String} (hp : p ∈ t'.places) (hf : f ∈ readFields)
    (hg : g ∈ readFields) :
    ((p.without c.id).childByField? f).or ((p.without c.id).childByField? g)
      = ((p.childByField? f).or (p.childByField? g)).map (·.without c.id) := by
  rw [h.childByField?_without hp hf, h.childByField?_without hp hg, Option.map_or]

theorem keeps_of_or_childByField? {g : String} (hp : p ∈ t'.places) (hf : f ∈ readFields)
    (hg : g ∈ readFields) (hq : (p.childByField? f).or (p.childByField? g) = some q) :
    t'.Keeps c q := by
  rcases Option.or_eq_some_iff.mp hq with hq | ⟨-, hq⟩
  · exact h.keeps_of_childByField? hp hf hq
  · exact h.keeps_of_childByField? hp hg hq

theorem childByFields?_without {fields : List String} (hp : p ∈ t'.places)
    (hfs : fields ⊆ readFields) :
    (p.without c.id).childByFields? fields = (p.childByFields? fields).map (·.without c.id) := by
  unfold Place.childByFields?
  induction fields with
  | nil => rfl
  | cons f fields ih =>
      obtain ⟨hf, hfs⟩ := List.cons_subset.mp hfs
      rw [List.findSome?_cons, List.findSome?_cons, h.childByField?_without hp hf, ih hfs]
      cases p.childByField? f <;> rfl

theorem keeps_of_childByFields? {fields : List String} (hp : p ∈ t'.places)
    (hfs : fields ⊆ readFields) (hq : p.childByFields? fields = some q) : t'.Keeps c q := by
  obtain ⟨f, hf, hfq⟩ := List.exists_of_findSome?_eq_some hq
  exact h.keeps_of_childByField? hp (hfs hf) hfq

/-! ## Names -/

theorem calleeName_without (hp : p ∈ t'.places) :
    Adapter.calleeName (p.without c.id) = Adapter.calleeName p := by
  unfold Adapter.calleeName
  rw [h.or_childByField?_without hp (by decide) (by decide)]
  cases hcallee : (p.childByField? "function").or (p.childByField? "macro") with
  | none => rfl
  | some callee =>
      have hmem := (h.keeps_of_or_childByField? hp (by decide) (by decide) hcallee).1
      simp only [Option.map_some, bind, Option.bind,
        h.childByFields?_without hmem (by decide : ["property", "attribute", "field", "name"] ⊆ _),
        Option.getD_map (·.without c.id) callee, Place.text_without]

theorem calleeObject_without (hp : p ∈ t'.places) :
    Adapter.calleeObject (p.without c.id) = Adapter.calleeObject p := by
  unfold Adapter.calleeObject
  rw [h.childByField?_without hp (by decide)]
  cases hcallee : p.childByField? "function" with
  | none => rfl
  | some callee =>
      have hmem := (h.keeps_of_childByField? hp (by decide) hcallee).1
      simp only [Option.map_some, bind, Option.bind,
        h.childByFields?_without hmem (by decide : ["object", "operand", "value"] ⊆ _)]
      cases callee.childByFields? ["object", "operand", "value"] with
      | none => rfl
      | some object => exact congrArg some (Place.text_without object c.id)

theorem functionName_without (hp : t'.Keeps c p) :
    Adapter.functionName (p.without c.id) = Adapter.functionName p := by
  unfold Adapter.functionName
  rw [h.childByField?_without hp.1 (by decide)]
  cases hname : p.childByField? "name" with
  | some name => exact congrArg some (Place.text_without name c.id)
  | none =>
      rw [Place.parent?_without]
      cases hparent : p.parent? with
      | none => rfl
      | some parent =>
          have hmem := (SyntaxTree.mem_children_of_parent? hp.1 hparent).1
          simp only [Option.map_none, Option.map_some, bind, Option.bind,
            h.childByFields?_without hmem (by decide : ["name", "left", "pattern", "key"] ⊆ _)]
          cases hbinding : parent.childByFields? ["name", "left", "pattern", "key"] with
          | none => rfl
          | some binding =>
              have hkeeps := h.keeps_of_childByFields? hmem (by decide) hbinding
              simp only [Option.map_some, Place.without_beq hkeeps.2 hp.2, Place.text_without]

/-- What is collected from the named parts, if nothing is collected from
the comment. -/
theorem filterMap_namedChildren {α : Type} {f : Place → Option α} (hp : p ∈ t'.places)
    (hf : ∀ q ∈ p.namedChildren, t'.Keeps c q → f (q.without c.id) = f q) (hc : f c = none) :
    (p.without c.id).namedChildren.filterMap f = p.namedChildren.filterMap f := by
  rw [Place.namedChildren_without, List.filterMap_map, List.filterMap_filter]
  refine List.filterMap_congr fun q hq => ?_
  have hmem := mem_places_of_mem_children hp (Place.mem_children_of_namedChildren hq)
  by_cases hid : q.id = c.id
  · simp [h.eq_of_id_eq hmem hid, hc]
  · simpa [hid] using hf q hq ⟨hmem, hid⟩

theorem patternName?_comment (hidle : kinds.Idle c.kind) : c.patternName? = none := by
  have hfields (fields : List String) : c.childByFields? fields = none := by
    simp [Place.childByFields?, Place.childByField?, h.leaf]
  rw [Place.patternName?_eq, hidle.identifier, hfields]
  simp [Place.namedChildren, h.leaf]

theorem patternName?_without (hidle : kinds.Idle c.kind) (hp : t'.Keeps c p) :
    (p.without c.id).patternName? = p.patternName? := by
  induction p using Place.children_induction with
  | step p ih =>
      rw [Place.patternName?_eq, Place.patternName?_eq p, Place.kind_without, Place.text_without,
        h.childByFields?_without hp.1 (by decide)]
      refine if_congr Iff.rfl rfl ?_
      cases hpart : p.childByFields? ["name", "pattern", "left"] with
      | some q =>
          obtain ⟨f, -, hq⟩ := List.exists_of_findSome?_eq_some hpart
          exact ih q (Place.mem_children_of_childByField? hq)
            (h.keeps_of_childByFields? hp.1 (by decide) hpart)
      | none =>
          rw [Option.map_none, Option.elim_none, Option.elim_none, ← List.head?_filterMap,
            ← List.head?_filterMap, h.filterMap_namedChildren hp.1]
          · intro q hq hkeeps
            exact ih q (Place.mem_children_of_namedChildren hq) hkeeps
          · exact h.patternName?_comment hidle

theorem namedParameters_without (hidle : kinds.Idle c.kind) (hp : p ∈ t'.places) :
    Adapter.namedParameters kinds (p.without c.id) = Adapter.namedParameters kinds p := by
  unfold Adapter.namedParameters
  rw [h.or_childByField?_without hp (by decide) (by decide)]
  cases hlist : (p.childByField? "parameters").or (p.childByField? "parameter") with
  | none => rfl
  | some list =>
      have hmem := (h.keeps_of_or_childByField? hp (by decide) (by decide) hlist).1
      simp only [Option.map_some, Place.kind_without, Place.text_without]
      refine if_congr Iff.rfl rfl (congrArg (List.filter _) ?_)
      rw [List.filterMap_filter, List.filterMap_filter, h.filterMap_namedChildren hmem]
      · intro q hq hkeeps
        rw [Place.kind_without, h.patternName?_without hidle hkeeps]
      · simp [h.comment]

/-! ## Headers of loops -/

theorem iterationOver_without (hp : p ∈ t'.places) (hf : f ∈ readFields) :
    Adapter.iterationOver (p.without c.id) f = Adapter.iterationOver p f := by
  unfold Adapter.iterationOver
  rw [h.childByField?_without hp hf]
  cases p.childByField? f with
  | none => rfl
  | some iterable => exact congrArg LoopHeader.iteration (Place.text_without iterable c.id)

theorem conditionUnless_without (hp : p ∈ t'.places) (always : Option String) :
    Adapter.conditionUnless (p.without c.id) always = Adapter.conditionUnless p always := by
  unfold Adapter.conditionUnless
  rw [h.childByField?_without hp (by decide)]
  cases p.childByField? "condition" with
  | none => rfl
  | some condition => simp only [Option.map_some, Place.text_without]

theorem map_parts_without {α : Type} {fields : List String} {g : Place → α}
    (hp : p ∈ t'.places) (hfs : fields ⊆ readFields)
    (hg : ∀ q, g (q.without c.id) = g q) :
    (fields.filterMap (p.without c.id).childByField?).map g
      = (fields.filterMap p.childByField?).map g := by
  rw [List.map_filterMap, List.map_filterMap]
  refine List.filterMap_congr fun f hf => ?_
  rw [h.childByField?_without hp (hfs hf), Option.map_map]
  exact congrArg (Option.map · _) (funext hg)

theorem threePartHeader_without {fields : List String} (hp : p ∈ t'.places)
    (hfs : fields ⊆ readFields) :
    Adapter.threePartHeader (p.without c.id) fields = Adapter.threePartHeader p fields := by
  unfold Adapter.threePartHeader
  rw [h.childByField?_without hp (by decide), Option.isNone_map,
    h.map_parts_without hp hfs fun q => by rw [Place.text_without]]

/-! ## Bindings -/

theorem binding?_without (hp : p ∈ t'.places) :
    Adapter.binding? (p.without c.id) = Adapter.binding? p := by
  unfold Adapter.binding?
  rw [h.childByFields?_without hp (by decide), h.childByFields?_without hp (by decide)]
  simp only [bind, Option.bind_map, Function.comp_def, Place.text_without]

theorem descendants_without (hp : t'.Keeps c p) :
    (p.without c.id).descendants
      = (p.descendants.filter (·.id != c.id)).map (·.without c.id) :=
  Place.descendants_without
    (fun _ hq hid => h.leaf_of_id_eq (Place.descendants_trans hp.1 hq) hid) hp.2

theorem bindings_without (hidle : kinds.Idle c.kind) (hp : t'.Keeps c p) :
    Adapter.bindings kinds (p.without c.id) = Adapter.bindings kinds p := by
  unfold Adapter.bindings
  rw [h.descendants_without hp, List.filterMap_filter, List.filterMap_filter, List.filterMap_map,
    List.filterMap_filter]
  refine List.filterMap_congr fun q hq => ?_
  have hmem := Place.descendants_trans hp.1 hq
  simp only [Function.comp_apply, Place.kind_without, h.binding?_without hmem]
  by_cases hid : q.id = c.id
  · have hkind : (kinds.assignments.contains c.kind || kinds.declarations.contains c.kind
        || c.kind == "variable_declarator") = false := by
      rw [hidle.assignment, hidle.declaration, beq_eq_false_iff_ne.mpr hidle.declarator]
      rfl
    rw [h.eq_of_id_eq hmem hid, hkind, if_neg Bool.false_ne_true, bne_self_eq_false,
      if_neg Bool.false_ne_true]
  · simp [hid]

end SyntaxTree.AddsPlainComment

end CodeProfile
