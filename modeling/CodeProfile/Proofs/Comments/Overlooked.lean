import CodeProfile.Proofs.Comments.Parts

/-!
# What the adapters make of a comment

No adapter gives a comment a class, and what an adapter says about any
other node is the same with and without the comment, with one exception:
the header of a Go loop is its first named part, so that a comment in
front of the clause is taken for the header (`MisreadsHeader`).

`overlooks` states this once for all adapters.
-/

namespace CodeProfile.Adapter

variable {a : Adapter} {kinds : NodeKinds} {t t' : SyntaxTree} {c p : Place} {l : Language}

theorem idle_comment (hl : ofLanguage? l = some a) {kind : String}
    (h : a.kinds.isComment kind = true) : a.kinds.Idle kind := by
  have hmem := List.contains_iff_mem.mp h
  cases l <;> cases hl <;>
    (simp only [JavaScript.adapter, Python.adapter, Go.adapter, Java.adapter, Rust.adapter,
      javaScriptKinds, pythonKinds, goKinds, javaKinds, rustKinds, List.mem_cons,
      List.not_mem_nil, or_false] at hmem
     first
      | (subst hmem; constructor <;> decide)
      | (rcases hmem with rfl | rfl <;> constructor <;> decide))

/-- The comment stands where a loop of the language keeps its header, and
the loop has a header without it. -/
structure MisreadsHeader (a : Adapter) (c p : Place) : Prop where
  language : a.language = .go
  first : p.namedChildren.find? (·.field != some "body") = some c
  header : Go.loopHeader (p.without c.id) ≠ .infinite

/-- The adapter says the same about the places of `t'` with and without
the comment `c`. -/
structure Overlooks (a : Adapter) (t' : SyntaxTree) (c : Place) : Prop where
  classify_comment : a.classify c = none
  isAllocation : ∀ p, t'.Keeps c p → a.isAllocation (p.without c.id) = a.isAllocation p
  isSizeDependent : ∀ p, t'.Keeps c p → a.isSizeDependent (p.without c.id) = a.isSizeDependent p
  parameters : ∀ p, t'.Keeps c p → a.parameters (p.without c.id) = a.parameters p
  callTarget : ∀ p, t'.Keeps c p → a.callTarget (p.without c.id) = a.callTarget p
  callReceiver : ∀ p, t'.Keeps c p → a.callReceiver (p.without c.id) = a.callReceiver p
  loopHeader : ∀ p, t'.Keeps c p → ¬ a.MisreadsHeader c p →
    a.loopHeader (p.without c.id) = a.loopHeader p

theorem classify_of_idle (hidle : a.kinds.Idle c.kind) (ha : a.isAllocation c = false) :
    a.classify c = none := by
  unfold classify
  simp only [hidle.function, hidle.loop, hidle.conditional, ha, hidle.call, hidle.return,
    hidle.break, hidle.continue, NodeKinds.isMutation, hidle.assignment, hidle.update,
    hidle.declaration, hidle.expression, Bool.or_self, Bool.false_eq_true, if_false, ite_self]

theorem ne_of_not_contains {kind other : String} {ks : List String}
    (h : ks.contains kind = false) (hother : other ∈ ks) : kind ≠ other := by
  rintro rfl
  rw [List.contains_iff_mem.mpr hother] at h
  cases h

/-! ## One language after the other -/

open SyntaxTree.AddsPlainComment

theorem any_text_without {f : String} {test : Place → Bool}
    (h : t.AddsPlainComment kinds t' c) (hp : p ∈ t'.places) (hf : f ∈ readFields)
    (htest : ∀ q, test (q.without c.id) = test q) :
    ((p.without c.id).childByField? f).any test = (p.childByField? f).any test := by
  rw [h.childByField?_without hp hf, Option.any_map]
  exact congrArg (Option.any · _) (funext htest)

theorem JavaScript.overlooks (language : Language)
    (h : t.AddsPlainComment (JavaScript.adapter language).kinds t' c)
    (hidle : javaScriptKinds.Idle c.kind) : (JavaScript.adapter language).Overlooks t' c where
  classify_comment := classify_of_idle hidle hidle.allocation
  isAllocation := fun p _ => by simp only [JavaScript.adapter, Place.kind_without]
  isSizeDependent := fun p _ => by simp only [JavaScript.adapter, Place.text_without]
  parameters := fun p hp => h.namedParameters_without hidle hp.1
  callTarget := fun p hp => h.calleeName_without hp.1
  callReceiver := fun p hp => h.calleeObject_without hp.1
  loopHeader := fun p hp _ => by
    simp only [JavaScript.adapter, JavaScript.loopHeader, Place.kind_without]
    rw [h.iterationOver_without hp.1 (by decide), h.threePartHeader_without hp.1 (by decide),
      h.conditionUnless_without hp.1]

theorem Java.overlooks (h : t.AddsPlainComment Java.adapter.kinds t' c)
    (hidle : javaKinds.Idle c.kind) : Java.adapter.Overlooks t' c where
  classify_comment := classify_of_idle hidle hidle.allocation
  isAllocation := fun p _ => by simp only [Java.adapter, Place.kind_without]
  isSizeDependent := fun p _ => by simp only [Java.adapter, Place.text_without]
  parameters := fun p hp => h.namedParameters_without hidle hp.1
  callTarget := fun p hp => by
    simp only [Java.adapter, h.childByField?_without hp.1 (f := "name") (by decide),
      Option.map_map, Function.comp_def, Place.text_without]
  callReceiver := fun p hp => by
    simp only [Java.adapter, h.childByField?_without hp.1 (f := "object") (by decide),
      Option.map_map, Function.comp_def, Place.text_without]
  loopHeader := fun p hp _ => by
    simp only [Java.adapter, Java.loopHeader, Place.kind_without]
    rw [h.iterationOver_without hp.1 (by decide), h.threePartHeader_without hp.1 (by decide),
      h.conditionUnless_without hp.1]

theorem Python.overlooks (h : t.AddsPlainComment Python.adapter.kinds t' c)
    (hidle : pythonKinds.Idle c.kind) : Python.adapter.Overlooks t' c where
  classify_comment := classify_of_idle hidle hidle.allocation
  isAllocation := fun p _ => by simp only [Python.adapter, Place.kind_without]
  isSizeDependent := fun p _ => by
    simp only [Python.adapter, Place.kind_without, Place.text_without]
  parameters := fun p hp => h.namedParameters_without hidle hp.1
  callTarget := fun p hp => h.calleeName_without hp.1
  callReceiver := fun p hp => h.calleeObject_without hp.1
  loopHeader := fun p hp _ => by
    simp only [Python.adapter, Python.loopHeader, Place.kind_without]
    rw [h.iterationOver_without hp.1 (by decide), h.conditionUnless_without hp.1]

theorem Rust.isCollectingCall_without (h : t.AddsPlainComment kinds t' c) (hp : p ∈ t'.places) :
    Rust.isCollectingCall (p.without c.id) = Rust.isCollectingCall p := by
  unfold Rust.isCollectingCall
  rw [any_text_without h hp (by decide) fun q => by rw [Place.kind_without],
    h.calleeName_without hp]

theorem Rust.overlooks (h : t.AddsPlainComment Rust.adapter.kinds t' c)
    (hidle : rustKinds.Idle c.kind) : Rust.adapter.Overlooks t' c where
  classify_comment := by
    refine classify_of_idle hidle ?_
    have harray : c.kind ≠ "array_expression" := ne_of_not_contains hidle.allocation (by decide)
    have hmacro : c.kind ≠ "macro_invocation" := ne_of_not_contains hidle.call (by decide)
    have hcall : c.kind ≠ "call_expression" := ne_of_not_contains hidle.call (by decide)
    simp only [Rust.adapter, Rust.isAllocation, harray, hmacro, hcall, if_false]
  isAllocation := fun p hp => by
    simp only [Rust.adapter, Rust.isAllocation, Place.kind_without]
    rw [any_text_without h hp.1 (by decide) fun q => by rw [Place.text_without],
      any_text_without h hp.1 (by decide) fun q => by rw [Place.text_without],
      Rust.isCollectingCall_without h hp.1]
  isSizeDependent := fun p hp => by
    simp only [Rust.adapter, Place.kind_without, Place.text_without,
      Rust.isCollectingCall_without h hp.1]
  parameters := fun p hp => h.namedParameters_without hidle hp.1
  callTarget := fun p hp => h.calleeName_without hp.1
  callReceiver := fun p hp => h.calleeObject_without hp.1
  loopHeader := fun p hp _ => by
    simp only [Rust.adapter, Rust.loopHeader, Place.kind_without]
    rw [h.childByField?_without hp.1 (by decide), h.conditionUnless_without hp.1]
    cases p.childByField? "value" with
    | none => rfl
    | some iterable => simp only [Option.map_some, Place.text_without]

theorem Go.parameters_without (h : t.AddsPlainComment kinds t' c) (hp : p ∈ t'.places) :
    Go.parameters (p.without c.id) = Go.parameters p := by
  unfold Go.parameters
  rw [h.childByField?_without hp (by decide)]
  cases hlist : p.childByField? "parameters" with
  | none => rfl
  | some list =>
      have hmem := (h.keeps_of_childByField? hp (by decide) hlist).1
      simp only [Option.map_some, List.map_flatMap]
      rw [Place.namedChildren_without, List.flatMap_map, flatMap_filter_eq]
      refine List.flatMap_congr fun q hq => ?_
      have hqt :=
        SyntaxTree.mem_places_of_mem_children hmem (Place.mem_children_of_namedChildren hq)
      by_cases hid : q.id = c.id
      · have hnone : q.childrenByField "name" = [] := by
          rw [Place.childrenByField, h.leaf_of_id_eq hqt hid, List.filter_nil]
        rw [hnone, hid, bne_self_eq_false, if_neg Bool.false_ne_true, List.map_nil]
      · simp only [bne_iff_ne, ne_eq, hid, not_false_iff, if_true,
          h.childrenByField_without hqt (by decide : "name" ∈ readFields), List.map_map,
          Function.comp_def, Place.text_without]

/-- A filter that what is found passes does not change what is found. -/
theorem find?_filter_eq {α : Type} {l : List α} {test keep : α → Bool}
    (h : ∀ x, l.find? test = some x → keep x = true) :
    (l.filter keep).find? test = l.find? test := by
  induction l with
  | nil => rfl
  | cons x l ih =>
      cases hx : test x with
      | true =>
          have hkeep := h x (List.find?_cons_of_pos hx)
          rw [List.filter_cons_of_pos hkeep, List.find?_cons_of_pos hx, List.find?_cons_of_pos hx]
      | false =>
          rw [List.find?_cons_of_neg (by simp [hx])] at h
          rw [List.find?_cons_of_neg (by simp [hx]), ← ih h, List.filter_cons]
          split
          · rw [List.find?_cons_of_neg (by simp [hx])]
          · rfl

theorem Go.loopHeader_without (h : t.AddsPlainComment goKinds t' c) (hp : p ∈ t'.places)
    (hm : ¬ Go.adapter.MisreadsHeader c p) : Go.loopHeader (p.without c.id) = Go.loopHeader p := by
  have hmem {q : Place} (hq : p.namedChildren.find? (·.field != some "body") = some q) :
      q ∈ t'.places :=
    SyntaxTree.mem_places_of_mem_children hp
      (Place.mem_children_of_namedChildren (List.mem_of_find?_eq_some hq))
  by_cases hfirst : p.namedChildren.find? (·.field != some "body") = some c
  · -- A comment in front gives an endless loop, which is right only if the loop is one.
    have hinfinite : Go.loopHeader (p.without c.id) = .infinite :=
      by_contra fun hne => hm ⟨rfl, hfirst, hne⟩
    have hkind : c.kind = "comment" :=
      List.mem_singleton.mp (List.contains_iff_mem.mp h.comment)
    rw [hinfinite, Go.loopHeader, hfirst]
    simp only [hkind]
    rfl
  · have hother (q : Place) (hq : p.namedChildren.find? (·.field != some "body") = some q) :
        (q.id != c.id) = true :=
      bne_iff_ne.mpr fun hid => hfirst (hq.trans (congrArg some (h.eq_of_id_eq (hmem hq) hid)))
    unfold Go.loopHeader
    rw [Place.namedChildren_without, List.find?_map]
    simp only [Function.comp_def, Place.field_without]
    rw [find?_filter_eq hother]
    cases hclause : p.namedChildren.find? (·.field != some "body") with
    | none => rfl
    | some clause =>
        have hct := hmem hclause
        simp only [Option.map_some, Place.kind_without, Place.text_without]
        rw [h.iterationOver_without hct (by decide), h.childByField?_without hct (by decide),
          Option.isNone_map, h.map_parts_without hct (by decide) fun q => Place.text_without q c.id]

theorem Go.overlooks (h : t.AddsPlainComment goKinds t' c) (hidle : goKinds.Idle c.kind) :
    Go.adapter.Overlooks t' c where
  classify_comment := by
    refine classify_of_idle hidle ?_
    have hliteral : (c.kind == "composite_literal") = false :=
      beq_eq_false_iff_ne.mpr (ne_of_not_contains hidle.allocation (by decide))
    have hcall : (c.kind == "call_expression") = false :=
      beq_eq_false_iff_ne.mpr (ne_of_not_contains hidle.call (by decide))
    simp only [Go.adapter, Go.isAllocation, hliteral, hcall, Bool.false_and, Bool.or_self]
  isAllocation := fun p hp => by
    simp only [Go.adapter, Go.isAllocation, Place.kind_without]
    rw [any_text_without h hp.1 (by decide) fun q => by rw [Place.text_without]]
  isSizeDependent := fun p _ => by simp only [Go.adapter, Place.text_without]
  parameters := fun p hp => Go.parameters_without h hp.1
  callTarget := fun p hp => h.calleeName_without hp.1
  callReceiver := fun p hp => h.calleeObject_without hp.1
  loopHeader := fun p hp hm => Go.loopHeader_without h hp.1 hm

theorem overlooks (hl : ofLanguage? l = some a) (h : t.AddsPlainComment a.kinds t' c) :
    a.Overlooks t' c := by
  have hidle := idle_comment hl h.comment
  cases l <;> cases hl
  case javaScript => exact JavaScript.overlooks .javaScript h hidle
  case typeScript => exact JavaScript.overlooks .typeScript h hidle
  case python => exact Python.overlooks h hidle
  case go => exact Go.overlooks h hidle
  case java => exact Java.overlooks h hidle
  case rust => exact Rust.overlooks h hidle

end CodeProfile.Adapter
