import CodeProfile.Proofs.Comments.Selections

/-!
# Readings with and without a comment

What a comment may do to a reading is stand in the way of something
else, and `Misread` lists the ways: it is taken for the header of a
loop, for the value that a call runs over, or for a branch of a
conditional.

The headline is `reading_without`: unless the comment is misread, every
other place is read in the same way with and without it, apart from
parts that bear nothing.
-/

namespace CodeProfile.Adapter

open Place

variable {a : Adapter} {t t' : SyntaxTree} {c p : Place}

/-! ## Misread comments -/

/-- The ways in which a comment of a tree can change what is read. -/
inductive Misread (a : Adapter) (t' : SyntaxTree) (c : Place) : Prop
  /-- It fills a field by which a part of its parent is found. -/
  | field {f : String} (read : f ∈ readFields) (fills : c.field = some f)
  /-- It is taken for the header of a loop. -/
  | header {p : Place} (mem : p ∈ t'.places) (loop : a.classify p = some .loop)
      (misread : a.MisreadsHeader c p)
  /-- It is taken for what a call runs over. -/
  | iterable {p arguments : Place} (mem : p ∈ t'.places) (call : a.classify p = some .call)
      (iterates : a.Iterates p arguments) (receiver : a.callReceiver p = none)
      (first : (a.otherArguments arguments).head? = some c)
  /-- It is taken for a branch, and a child that holds it and no other
  branch is dropped for that. -/
  | hides {p s : Place} (mem : p ∈ t'.places) (conditional : a.classify p = some .conditional)
      (branch : c ∈ branches p) (child : s ∈ p.children) (bears : a.bears s = true)
      (inside : s.span.contains c.span = true)
      (alone : ∀ b ∈ branches p, s.span.contains b.span = true → b = c)
  /-- It is all that the body of a conditional holds, and is taken for the
  only branch in place of the other parts. -/
  | replaces {p s n : Place} (mem : p ∈ t'.places) (conditional : a.classify p = some .conditional)
      (arms : arms p = []) (branch : c ∈ bodyParts p) (alone : ∀ b ∈ bodyParts p, b = c)
      (child : s ∈ p.children) (bears : a.bears s = true) (part : n ∈ partsBesideCondition p)
      (inside : s.span.contains n.span = true)

/-! ## The same readings -/

/-- The second reading is the first one without the comment, up to parts
that bear nothing. -/
inductive SameReading (a : Adapter) (c : Place) : Reading → Reading → Prop
  | through {qs rs : List Place} (parts : a.SameParts c qs rs) :
      SameReading a c (.through qs) (.through rs)
  | function {qs rs : List Place} (body : a.SameParts c qs rs) :
      SameReading a c (.function qs) (.function rs)
  | statement {head : StatementHead} {before before' : List Place}
      {inside inside' : List (List Place)} (first : a.SameParts c before before')
      (inner : a.SameParts c inside.flatten inside'.flatten) :
      SameReading a c (.statement head before inside) (.statement head before' inside')

section

variable (ho : a.Overlooks t' c) (h : t.AddsPlainComment a.kinds t' c)
include ho h

theorem sameParts_children (hp : p ∈ t'.places) :
    a.SameParts c p.children (p.without c.id).children := by
  rw [children_without]
  exact .of_map_filter ho h fun q hq => SyntaxTree.mem_places_of_mem_children hp hq

theorem sameParts_body? (hp : p ∈ t'.places) :
    a.SameParts c (body? p).toList (body? (p.without c.id)).toList := by
  rw [toList_body?_without h hp]
  exact .of_map ho h fun q hq => keeps_of_mem_body? h hp hq

theorem sameParts_header (hp : p ∈ t'.places) :
    a.SameParts c (headerParts p) (headerParts (p.without c.id)) := by
  unfold headerParts
  rw [children_without]
  refine .of_filter ho h (fun q hq => SyntaxTree.mem_places_of_mem_children hp hq)
    fun q hq hb => ?_
  have hkeeps := keeps_of_bears ho h (SyntaxTree.mem_places_of_mem_children hp hq) hb
  rw [body?_without h hp, any_beq_without (fun r hr => (keeps_of_body? h hp hr).2) hkeeps.2]

theorem loopBounds_without (hidle : a.kinds.Idle c.kind) (hp : t'.Keeps c p)
    (hm : ¬ a.MisreadsHeader c p) : a.loopBounds (p.without c.id) = a.loopBounds p := by
  unfold loopBounds
  rw [ho.loopHeader p hp hm, body?_without h hp.1]
  cases hheader : a.loopHeader p with
  | condition text =>
      cases hbody : body? p with
      | none => rfl
      | some body =>
          simp only [Option.map_some, h.bindings_without hidle (keeps_of_body? h hp.1 hbody)]
  | iteration iterable => rfl
  | infinite => rfl

/-- A child that bears something holds a branch without the comment if it
does with it. -/
theorem holdsBranch_without {s : Place} (hp : p ∈ t'.places)
    (hc : a.classify p = some .conditional) (hm : ¬ a.Misread t' c)
    (hbranches : branches (p.without c.id)
      = ((branches p).filter (·.id != c.id)).map (·.without c.id))
    (hs : s ∈ p.children) (hb : a.bears s = true) :
    holdsBranch (p.without c.id) (s.without c.id) = holdsBranch p s := by
  unfold holdsBranch
  rw [hbranches, List.any_map, List.any_filter, Bool.eq_iff_iff, List.any_eq_true,
    List.any_eq_true]
  simp only [Function.comp_apply, span_without, Bool.and_eq_true, bne_iff_ne]
  constructor
  · rintro ⟨b, hbp, -, hin⟩
    exact ⟨b, hbp, hin⟩
  · rintro ⟨b, hbp, hin⟩
    -- Otherwise the comment is the only branch in the child, which would be dropped for it.
    by_contra hnone
    have hall (b : Place) (hbp : b ∈ branches p) (hin : s.span.contains b.span = true) :
        b = c :=
      h.eq_of_id_eq (mem_places_of_mem_branches hp hbp)
        (by_contra fun hid => hnone ⟨b, hbp, hid, hin⟩)
    obtain rfl := hall b hbp hin
    exact hm (.hides hp hc hbp hs hb hin hall)

theorem sameParts_branches (hp : p ∈ t'.places) (hc : a.classify p = some .conditional)
    (hm : ¬ a.Misread t' c)
    (hne : arms p = [] → bodyParts p ≠ [] → ∃ b ∈ bodyParts p, b.id ≠ c.id) :
    a.SameParts c (partsBesideBranches p) (partsBesideBranches (p.without c.id))
      ∧ a.SameParts c (branches p) (branches (p.without c.id)) := by
  have hbranches := branches_without h hp hne
  constructor
  · unfold partsBesideBranches
    rw [children_without]
    refine .of_filter ho h (fun q hq => SyntaxTree.mem_places_of_mem_children hp hq)
      fun q hq hb => congrArg _ (holdsBranch_without ho h hp hc hm hbranches hq hb)
  · rw [hbranches]
    exact .of_map_filter ho h fun q hq => mem_places_of_mem_branches hp hq

/-- Where the comment is all that the body holds, neither of the two sets
of branches bears anything. -/
theorem sameParts_replaced (hp : p ∈ t'.places) (hc : a.classify p = some .conditional)
    (hm : ¬ a.Misread t' c) (harms : arms p = []) (hparts : bodyParts p ≠ [])
    (hall : ∀ b ∈ bodyParts p, b = c) :
    a.SameParts c (partsBesideBranches p) (partsBesideBranches (p.without c.id))
      ∧ a.SameParts c (branches p) (branches (p.without c.id)) := by
  obtain ⟨b, hb⟩ := List.exists_mem_of_ne_nil _ hparts
  have hcp : c ∈ bodyParts p := hall b hb ▸ hb
  have hbranches : branches p = bodyParts p := by
    simp [branches, harms, hparts]
  have harms' : arms (p.without c.id) = [] := by
    rw [arms_without h hp, harms, List.map_nil]
  have hparts' : bodyParts (p.without c.id) = [] := by
    rw [bodyParts_without h hp, List.filter_eq_nil_iff.mpr fun b hb => by simp [hall b hb],
      List.map_nil]
  have hbranches' : branches (p.without c.id)
      = ((partsBesideCondition p).filter (·.id != c.id)).map (·.without c.id) := by
    simp [branches, harms', hparts', ← partsBesideCondition_without h hp]
  have hnot {s n : Place} (hs : s ∈ p.children) (hb : a.bears s = true)
      (hn : n ∈ partsBesideCondition p) : s.span.contains n.span = false :=
    Bool.eq_false_iff.mpr fun hin => hm (.replaces hp hc harms hcp hall hs hb hn hin)
  constructor
  · -- A bearing child is kept in both trees: it holds neither the comment nor a part beside the
    -- condition.
    unfold partsBesideBranches
    rw [children_without]
    refine .of_filter ho h (fun q hq => SyntaxTree.mem_places_of_mem_children hp hq)
      fun q hq hb => congrArg _ ?_
    have hwith : holdsBranch p q = false := by
      rw [holdsBranch, hbranches, List.any_eq_false]
      intro b hbp hin
      obtain rfl := hall b hbp
      exact hm (.hides hp hc (hbranches ▸ hbp) hq hb hin fun b hb _ => hall b (hbranches ▸ hb))
    have hwithout : holdsBranch (p.without c.id) (q.without c.id) = false := by
      rw [holdsBranch, hbranches', List.any_map, List.any_filter, List.any_eq_false]
      intro n hn hin
      simp only [Function.comp_apply, span_without, hnot hq hb hn, Bool.and_false,
        Bool.false_eq_true] at hin
    rw [hwith, hwithout]
  · -- A part beside the condition is a child that holds itself.
    refine .of_not_bears (fun b hb => ?_) fun r hr => ?_
    · rw [hall b (hbranches ▸ hb)]
      exact bears_comment ho h
    · rw [hbranches'] at hr
      obtain ⟨n, hn, rfl⟩ := List.mem_map.mp hr
      obtain ⟨hn, hid⟩ := List.mem_filter.mp hn
      have hnp := mem_children_of_namedChildren (List.mem_filter.mp hn).1
      rw [bears_without ho h ⟨SyntaxTree.mem_places_of_mem_children hp hnp, bne_iff_ne.mp hid⟩]
      refine Bool.eq_false_iff.mpr fun hb => ?_
      have := hnot hnp hb hn
      rw [contains_self] at this
      cases this

theorem sameParts_conditional (hp : p ∈ t'.places) (hc : a.classify p = some .conditional)
    (hm : ¬ a.Misread t' c) :
    a.SameParts c (partsBesideBranches p) (partsBesideBranches (p.without c.id))
      ∧ a.SameParts c (branches p) (branches (p.without c.id)) := by
  by_cases hne : arms p = [] → bodyParts p ≠ [] → ∃ b ∈ bodyParts p, b.id ≠ c.id
  case pos => exact sameParts_branches ho h hp hc hm hne
  case neg =>
    simp only [not_forall, not_exists, not_and, not_not] at hne
    obtain ⟨harms, hparts, hall⟩ := hne
    exact sameParts_replaced ho h hp hc hm harms hparts fun b hb =>
      h.eq_of_id_eq (mem_places_of_mem_bodyParts hp hb) (hall b hb)

theorem iterates_without {arguments : Place} (hidle : a.kinds.Idle c.kind) (hp : t'.Keeps c p)
    (harguments : arguments? p = some arguments) :
    a.Iterates (p.without c.id) (arguments.without c.id) ↔ a.Iterates p arguments := by
  have hmem := (h.keeps_of_childByField? hp.1 (by decide) harguments).1
  unfold Iterates
  rw [ho.callTarget p hp, arguments?_without h hp.1, harguments,
    inPlaceFunctions_without h hidle hmem, ne_eq, List.map_eq_nil_iff]
  simp

theorem iterationBounds_without {arguments : Place} (hp : t'.Keeps c p)
    (hc : a.classify p = some .call) (hit : a.Iterates p arguments) (hm : ¬ a.Misread t' c) :
    a.iterationBounds (p.without c.id) (arguments.without c.id)
      = a.iterationBounds p arguments := by
  have hmem := (h.keeps_of_childByField? hp.1 (by decide) hit.2.1).1
  unfold iterationBounds
  rw [ho.callReceiver p hp, otherArguments_without]
  cases hreceiver : a.callReceiver p with
  | some receiver => rfl
  | none =>
      cases hothers : a.otherArguments arguments with
      | nil => rfl
      | cons q qs =>
          have hq : q ∈ a.otherArguments arguments := by rw [hothers]; exact List.mem_cons_self ..
          have hqt := SyntaxTree.mem_places_of_mem_children hmem
            (mem_children_of_namedChildren (List.mem_filter.mp hq).1)
          have hid : q.id ≠ c.id := fun hid => by
            refine hm (.iterable hp.1 hc hit hreceiver ?_)
            rw [hothers, List.head?_cons, h.eq_of_id_eq hqt hid]
          rw [List.filter_cons_of_pos (by simpa using hid), List.map_cons, List.head?_cons,
            List.head?_cons, Option.map_some, Option.map_some, text_without]

theorem sameReading_iteration {arguments : Place} (hidle : a.kinds.Idle c.kind)
    (hp : t'.Keeps c p) (hc : a.classify p = some .call) (hit : a.Iterates p arguments)
    (hm : ¬ a.Misread t' c) :
    a.SameReading c (a.iterationReading p arguments)
      (a.iterationReading (p.without c.id) (arguments.without c.id)) := by
  have hmem := (h.keeps_of_childByField? hp.1 (by decide) hit.2.1).1
  have hcallee : (p.without c.id).childByField? "function"
      = (p.childByField? "function").map (·.without c.id) :=
    h.childByField?_without hp.1 (by decide)
  have hbodies : (a.inPlaceFunctions (arguments.without c.id)).filterMap body?
      = ((a.inPlaceFunctions arguments).filterMap body?).map (·.without c.id) := by
    rw [inPlaceFunctions_without h hidle hmem, List.filterMap_map, List.map_filterMap]
    exact List.filterMap_congr fun q hq =>
      body?_without h (keeps_of_mem_inPlaceFunctions h hidle hmem hq).1
  unfold iterationReading
  rw [iterationBounds_without ho h hp hc hit hm, hcallee, otherArguments_without, hbodies]
  refine .statement (.append ?_ (.of_map_filter ho h fun q hq => ?_)) ?_
  · rw [Option.toList_map]
    refine .of_map ho h fun q hq => ?_
    exact h.keeps_of_childByField? hp.1 (by decide) (Option.mem_toList.mp hq)
  · exact SyntaxTree.mem_places_of_mem_children hmem
      (mem_children_of_namedChildren (List.mem_filter.mp hq).1)
  · simp only [List.flatten_cons, List.flatten_nil, List.append_nil]
    refine .of_map ho h fun q hq => ?_
    obtain ⟨f, hf, hq⟩ := List.mem_filterMap.mp hq
    exact keeps_of_body? h (keeps_of_mem_inPlaceFunctions h hidle hmem hf).1 hq

/-- Unless the comment is misread, every other place is read in the same
way without it. -/
theorem reading_without (hidle : a.kinds.Idle c.kind) (hp : t'.Keeps c p)
    (hm : ¬ a.Misread t' c) : a.SameReading c (a.reading p) (a.reading (p.without c.id)) := by
  have hclass := classify_without ho hp
  have hchildren := sameParts_children ho h hp.1
  have hnone : a.SameParts c [].flatten [].flatten := rfl
  cases hc : a.classify p with
  | none =>
      rw [hc] at hclass
      simp only [reading, hc, hclass]
      exact .through hchildren
  | some cls =>
      rw [hc] at hclass
      cases cls with
      | function =>
          rw [reading_of_function hc, reading_of_function hclass]
          exact .function (sameParts_body? ho h hp.1)
      | loop =>
          have hheader : ¬ a.MisreadsHeader c p := fun hh => hm (.header hp.1 hc hh)
          have hbody := sameParts_body? ho h hp.1
          simp only [reading, hc, hclass, loopBounds_without ho h hidle hp hheader]
          refine .statement (sameParts_header ho h hp.1) ?_
          simpa using hbody
      | conditional =>
          obtain ⟨hbeside, hbranches⟩ := sameParts_conditional ho h hp.1 hc hm
          rw [reading_of_conditional hc, reading_of_conditional hclass]
          refine .statement hbeside ?_
          rwa [← List.flatMap_def, ← List.flatMap_def, List.flatMap_singleton',
            List.flatMap_singleton']
      | call =>
          by_cases hit : ∃ arguments, a.Iterates p arguments
          · obtain ⟨arguments, hit⟩ := hit
            rw [reading_of_iterates hc hit,
              reading_of_iterates hclass ((iterates_without ho h hidle hp hit.2.1).mpr hit)]
            exact sameReading_iteration ho h hidle hp hc hit hm
          · have hit' (arguments : Place) : ¬ a.Iterates (p.without c.id) arguments := by
              intro hits
              obtain ⟨arguments, harguments, rfl⟩ :=
                Option.map_eq_some_iff.mp ((arguments?_without h hp.1).symm.trans hits.2.1)
              exact hit ⟨arguments, (iterates_without ho h hidle hp harguments).mp hits⟩
            rw [reading_of_call hc fun arguments hits => hit ⟨arguments, hits⟩,
              reading_of_call hclass hit', ho.callTarget p hp]
            exact .statement hchildren hnone
      | allocation =>
          simp only [reading, hc, hclass, ho.isSizeDependent p hp]
          exact .statement hchildren hnone
      | _ =>
          simp only [reading, hc, hclass]
          exact .statement hchildren hnone

end

end CodeProfile.Adapter
