import CodeProfile.Adapter.Registry
import CodeProfile.Proofs.Lowering.Attribution

/-!
# What lowering leaves out

A place that has a class should turn up in the program: as a statement,
as a function, or as the body of a loop if it is a function that a call
runs once per element. `Represented` spells this out, and `Lost` says
when it fails: some place above became a statement whose reading passes
over the place (`Skips`). The headline, `represented_iff_not_lost`, is
that these are the only losses.

There are two ways to pass over a place. A conditional leaves out every
child whose span holds a branch, also the parts of that child that are
in no branch. And a call that is read as a loop follows its callee and
its arguments only. In Java the object of a call is neither, so in
`g().map(x->h())` the call of `g` is lost (`receiver_not_represented`).
-/

namespace CodeProfile

namespace Adapter

open Place

variable {a : Adapter} {t : SyntaxTree} {m x : Place}

/-! ## Passing over a place -/

/-- Every function above the place has the place in its body. -/
def InBodies (a : Adapter) (x : Place) : Prop :=
  ∀ f ∈ x.ancestors, a.classify f = some .function → ∃ b, body? f = some b ∧ x ∈ b.descendants

/-- The reading of `p` passes over `x`. -/
inductive Skips (a : Adapter) (p x : Place) : Prop
  /-- A conditional leaves out a child that holds a branch, and `x` lies in
  that child but in no branch. -/
  | besideBranches {c : Place} (conditional : a.classify p = some .conditional)
      (child : c ∈ p.children) (holds : holdsBranch p c = true) (inside : x ∈ c.descendants)
      (outside : ∀ b ∈ branches p, x ∉ b.descendants)
  /-- A call is read as a loop, and `x` lies neither in the callee nor in
  an argument, and is none of the functions written out in place. -/
  | besideArguments {arguments : Place} (call : a.classify p = some .call)
      (iterates : a.Iterates p arguments)
      (callee : ∀ f, p.childByField? "function" = some f → x ∉ f.descendants)
      (others : ∀ q ∈ a.otherArguments arguments, x ∉ q.descendants)
      (bodies : ∀ q ∈ a.inPlaceFunctions arguments,
        x ≠ q ∧ ∀ b, body? q = some b → x ∉ b.descendants)

/-- The place is a function that a call runs once per element, and the
call became a loop. -/
def RunsInLoop (a : Adapter) (t : SyntaxTree) (x : Place) : Prop :=
  ∃ call arguments, a.classify call = some .call ∧ a.Iterates call arguments
    ∧ x ∈ a.inPlaceFunctions arguments
    ∧ ∃ s ∈ (a.program t).statements, s.entry = (call.id, .loop (a.iterationBounds call arguments))

theorem mem_header_or_body {c : Place} (h : m.Sound) (hc : c ∈ m.children) :
    c ∈ headerParts m ∨ body? m = some c := by
  cases hb : body? m with
  | none => exact Or.inl (List.mem_filter.mpr ⟨hc, by rw [hb]; rfl⟩)
  | some b =>
      by_cases hid : b.id = c.id
      · have hbm := mem_below_of_mem_children (mem_children_of_childByField? hb)
        have hcm := mem_below_of_mem_children hc
        have heq := h.eq_of_id_eq (mem_descendants_of_mem_below hbm)
          (mem_descendants_of_mem_below hcm) hid
        exact Or.inr (by rw [heq])
      · refine Or.inl (List.mem_filter.mpr ⟨hc, ?_⟩)
        rw [hb]
        simpa [BEq.beq] using hid

/-- A reading reaches everything below that it does not pass over, apart
from functions that a call runs once per element. -/
theorem reaches_of_not_skips (h : m.Sound) (hx : x ∈ m.below) (hb : a.InBodies x)
    (hs : ¬ a.Skips m x) :
    a.Reaches m x ∨ ∃ arguments, a.classify m = some .call ∧ a.Iterates m arguments
      ∧ x ∈ a.inPlaceFunctions arguments := by
  obtain ⟨c, hc, hxc⟩ := mem_below.mp hx
  have hchildren (head : StatementHead) :
      ∃ q ∈ (Reading.statement head m.children []).places, x ∈ q.descendants :=
    ⟨c, List.mem_append_left _ hc, hxc⟩
  have hreads := a.reads m
  unfold Reaches
  generalize hclass : a.classify m = cls, a.reading m = r at hreads
  cases hreads with
  | through => exact Or.inl ⟨c, hc, hxc⟩
  | function =>
      obtain ⟨b, hbody, hxb⟩ := hb m (mem_ancestors_of_mem_below hx) hclass
      exact Or.inl ⟨b, Option.mem_toList.mpr hbody, hxb⟩
  | loop =>
      rcases mem_header_or_body h hc with hheader | hbody
      · exact Or.inl ⟨c, List.mem_append_left _ hheader, hxc⟩
      · refine Or.inl ⟨c, List.mem_append_right _ ?_, hxc⟩
        exact List.mem_flatten.mpr ⟨_, List.mem_singleton_self _, Option.mem_toList.mpr hbody⟩
  | conditional =>
      by_cases hbranch : ∃ b ∈ branches m, x ∈ b.descendants
      · obtain ⟨b, hmem, hxb⟩ := hbranch
        refine Or.inl ⟨b, List.mem_append_right _ ?_, hxb⟩
        exact List.mem_flatten.mpr ⟨_, List.mem_map_of_mem hmem, List.mem_singleton_self _⟩
      · cases hholds : holdsBranch m c with
        | true =>
            have houtside : ∀ b ∈ branches m, x ∉ b.descendants :=
              fun b hmem hxb => hbranch ⟨b, hmem, hxb⟩
            exact absurd (.besideBranches hclass hc hholds hxc houtside) hs
        | false =>
            refine Or.inl ⟨c, List.mem_append_left _ (List.mem_filter.mpr ⟨hc, ?_⟩), hxc⟩
            rw [hholds]
            rfl
  | @iteration arguments hit =>
      by_cases hplace : x ∈ a.inPlaceFunctions arguments
      · exact Or.inr ⟨arguments, rfl, hit, hplace⟩
      by_cases hcallee : ∃ f, m.childByField? "function" = some f ∧ x ∈ f.descendants
      · obtain ⟨f, hf, hxf⟩ := hcallee
        refine Or.inl ⟨f, List.mem_append_left _ (List.mem_append_left _ ?_), hxf⟩
        exact Option.mem_toList.mpr hf
      by_cases hother : ∃ q ∈ a.otherArguments arguments, x ∈ q.descendants
      · obtain ⟨q, hq, hxq⟩ := hother
        exact Or.inl ⟨q, List.mem_append_left _ (List.mem_append_right _ hq), hxq⟩
      by_cases hbodies : ∃ q ∈ a.inPlaceFunctions arguments, ∃ b, body? q = some b
          ∧ x ∈ b.descendants
      · obtain ⟨q, hq, b, hbody, hxb⟩ := hbodies
        refine Or.inl ⟨b, List.mem_append_right _ ?_, hxb⟩
        exact List.mem_flatten.mpr
          ⟨_, List.mem_singleton_self _, List.mem_filterMap.mpr ⟨q, hq, hbody⟩⟩
      refine absurd (.besideArguments hclass hit ?_ ?_ ?_) hs
      · exact fun f hf hxf => hcallee ⟨f, hf, hxf⟩
      · exact fun q hq hxq => hother ⟨q, hq, hxq⟩
      · refine fun q hq => ⟨?_, fun b hbody hxb => hbodies ⟨q, hq, b, hbody, hxb⟩⟩
        rintro rfl
        exact hplace hq
  | call _ => exact Or.inl (hchildren _)
  | allocation => exact Or.inl (hchildren _)
  | simple _ _ _ => exact Or.inl (hchildren _)

theorem not_reaches_of_skips (h : m.Sound) (hs : a.Skips m x) : ¬ a.Reaches m x := by
  rintro ⟨q, hq, hxq⟩
  cases hs with
  | besideBranches conditional child holds inside outside =>
      rw [reading_of_conditional conditional, Reading.places, ← List.flatMap_def,
        List.flatMap_singleton', List.mem_append] at hq
      rcases hq with hq | hq
      · obtain ⟨hqm, hheld⟩ := List.mem_filter.mp hq
        obtain rfl := h.eq_of_mem_children hqm child hxq inside
        rw [holds] at hheld
        cases hheld
      · exact outside q hq hxq
  | besideArguments call iterates callee others bodies =>
      rw [reading_of_iterates call iterates, iterationReading, Reading.places, List.mem_append,
        List.mem_append, List.flatten_singleton, List.mem_filterMap] at hq
      rcases hq with (hq | hq) | ⟨g, hg, hbody⟩
      · exact callee q (Option.mem_toList.mp hq) hxq
      · exact others q hq hxq
      · exact (bodies g hg).2 q hbody hxq

/-! ## Lost places -/

/-- Some place above became a statement, and its reading passes over this
one. -/
def Lost (a : Adapter) (t : SyntaxTree) (x : Place) : Prop :=
  ∃ p ∈ x.ancestors, p.id ∈ (a.program t).statementNodes ∧ a.Skips p x

theorem entryAt_isSome_iff :
    (a.entryAt m).isSome = true ↔ ∃ c, a.classify m = some c ∧ c ≠ .function := by
  have hreads := a.reads m
  unfold entryAt
  generalize a.classify m = cls, a.reading m = r at hreads
  cases hreads with
  | through => simp [Reading.entryAt]
  | function => simp [Reading.entryAt]
  | simple c kind hne => simpa [Reading.entryAt] using hne.1
  | _ => simp [Reading.entryAt, iterationReading]

/-- Only a place that is visited and read as a statement has the id of
one. -/
theorem mem_statementNodes_iff (h : t.root.Sound) (hm : m ∈ t.places) :
    m.id ∈ (a.program t).statementNodes
      ↔ m ∈ a.visited t.root ∧ ∃ c, a.classify m = some c ∧ c ≠ .function := by
  rw [(a.statementNodes_perm t).mem_iff, List.mem_map, ← entryAt_isSome_iff]
  constructor
  · rintro ⟨q, hq, hid⟩
    obtain ⟨hvis, he⟩ := List.mem_filter.mp hq
    obtain rfl := h.eq_of_id_eq (mem_descendants_of_mem_visited h hvis) hm hid
    exact ⟨hvis, he⟩
  · rintro ⟨hvis, he⟩
    exact ⟨m, List.mem_filter.mpr ⟨hvis, he⟩, rfl⟩

/-- A visited place has the statement that it is read as. -/
theorem exists_statement_of_visited {e : Nat × StatementLabel} (hm : m ∈ a.visited t.root)
    (he : a.entryAt m = some e) : ∃ s ∈ (a.program t).statements, s.entry = e := by
  have hmem : e ∈ (a.visited t.root).filterMap a.entryAt := List.mem_filterMap.mpr ⟨m, hm, he⟩
  exact List.mem_map.mp ((a.statements_entries t).mem_iff.mpr hmem)

theorem not_visited_of_lost (h : t.root.Sound) (hx : x ∈ t.places) (hl : a.Lost t x) :
    x ∉ a.visited t.root := by
  obtain ⟨p, hp, hnode, hs⟩ := hl
  obtain ⟨hpt, hxp⟩ := (SyntaxTree.mem_ancestors hx).mp hp
  have hvis := ((mem_statementNodes_iff h hpt).mp hnode).1
  intro hxvis
  exact not_reaches_of_skips (h.of_mem hpt) hs ((mem_visited_iff h hx).mp hxvis p hvis hxp)

/-- The argument list of a call that became a loop is not visited; only
its parts are. -/
theorem not_reaches_arguments {arguments : Place} (h : m.Sound) (hc : a.classify m = some .call)
    (hit : a.Iterates m arguments) : ¬ a.Reaches m arguments := by
  have hchild := mem_children_of_childByField? hit.2.1
  have hbelow {q : Place} (hq : q ∈ arguments.namedChildren) : q ∈ arguments.below :=
    mem_below_of_mem_children (mem_children_of_namedChildren hq)
  rintro ⟨q, hq, hin⟩
  rw [reading_of_iterates hc hit, iterationReading, Reading.places, List.mem_append,
    List.mem_append, List.flatten_singleton, List.mem_filterMap] at hq
  rcases hq with (hq | hq) | ⟨g, hg, hbody⟩
  · have hcallee := Option.mem_toList.mp hq
    obtain rfl := h.eq_of_mem_children (mem_children_of_childByField? hcallee) hchild hin
      (self_mem_descendants arguments)
    have hfunction := field_of_childByField? hcallee
    have harguments := field_of_childByField? hit.2.1
    rw [beq_iff_eq] at hfunction harguments
    rw [hfunction] at harguments
    exact absurd harguments (by decide)
  · exact not_mem_descendants_of_mem_below (hbelow (List.mem_filter.mp hq).1) hin
  · have hgb := mem_below_of_mem_children (mem_children_of_childByField? hbody)
    have hga := hbelow (List.mem_filter.mp hg).1
    have hb := below_trans hga (mem_descendants_of_mem_below hgb)
    exact not_mem_descendants_of_mem_below hb hin

theorem not_runsInLoop_of_lost (h : t.root.Sound) (hx : x ∈ t.places) (hl : a.Lost t x) :
    ¬ a.RunsInLoop t x := by
  rintro ⟨call, arguments, hc, hit, hplace, s, hs, he⟩
  obtain ⟨p, hp, hnode, hskips⟩ := hl
  obtain ⟨hpt, hxp⟩ := (SyntaxTree.mem_ancestors hx).mp hp
  have hxa := mem_children_of_namedChildren (List.mem_filter.mp hplace).1
  have hac := mem_children_of_childByField? hit.2.1
  have hcall : call ∈ x.ancestors := by
    rw [ancestors_of_mem_children hxa, ancestors_of_mem_children hac]
    exact List.mem_cons_of_mem _ (List.mem_cons_self ..)
  obtain ⟨hct, hxc⟩ := (SyntaxTree.mem_ancestors hx).mp hcall
  have hcallNode : call.id ∈ (a.program t).statementNodes :=
    List.mem_map.mpr ⟨s, hs, congrArg Prod.fst he⟩
  have hcvis := ((mem_statementNodes_iff h hct).mp hcallNode).1
  have hpvis := ((mem_statementNodes_iff h hpt).mp hnode).1
  rw [ancestors_of_mem_children hxa, ancestors_of_mem_children hac, List.mem_cons,
    List.mem_cons] at hp
  rcases hp with rfl | rfl | hp
  · have hreach := (mem_visited_iff h hpt).mp hpvis call hcvis (mem_below_of_mem_children hac)
    exact not_reaches_arguments (h.of_mem hct) hc hit hreach
  · cases hskips with
    | besideBranches conditional =>
        rw [hc] at conditional
        cases conditional
    | besideArguments _ iterates _ _ bodies =>
        obtain rfl := Option.some.inj (iterates.2.1.symm.trans hit.2.1)
        exact (bodies x hplace).1 rfl
  · -- `p` lies above the call, so what it reaches the call through holds `x` too
    obtain ⟨-, hcp⟩ := (SyntaxTree.mem_ancestors hct).mp hp
    obtain ⟨q, hq, hcq⟩ := (mem_visited_iff h hct).mp hcvis p hpvis hcp
    refine not_reaches_of_skips (h.of_mem hpt) hskips ⟨q, hq, ?_⟩
    exact descendants_trans hcq (mem_descendants_of_mem_below hxc)

/-- What is not lost is visited, or it is a function that a loop runs. -/
theorem visited_or_runsInLoop (h : t.root.Sound) (hx : x ∈ t.places) (hb : a.InBodies x)
    (hl : ¬ a.Lost t x) : x ∈ a.visited t.root ∨ a.RunsInLoop t x := by
  by_cases hloop : a.RunsInLoop t x
  · exact Or.inr hloop
  refine Or.inl ((mem_visited_iff h hx).mpr fun m hm hxm => ?_)
  have hmt := mem_descendants_of_mem_visited h hm
  have hskips : ¬ a.Skips m x := by
    intro hs
    have hclass : ∃ c, a.classify m = some c ∧ c ≠ .function := by
      cases hs with
      | besideBranches conditional => exact ⟨_, conditional, by decide⟩
      | besideArguments call => exact ⟨_, call, by decide⟩
    have hnode := (mem_statementNodes_iff h hmt).mpr ⟨hm, hclass⟩
    exact hl ⟨m, mem_ancestors_of_mem_below hxm, hnode, hs⟩
  rcases reaches_of_not_skips (h.of_mem hmt) hxm hb hskips with hreach | hplace
  · exact hreach
  · obtain ⟨arguments, hc, hit, hplace⟩ := hplace
    have he : a.entryAt m = some (m.id, .loop (a.iterationBounds m arguments)) :=
      entryAt_of_statement (reading_of_iterates hc hit)
    exact absurd ⟨m, arguments, hc, hit, hplace, exists_statement_of_visited hm he⟩ hloop

/-! ## The object of a call in Java -/

namespace IteratedCall

/-- The call of `map`, which becomes a loop. -/
def mapCall : Place := ⟨mapNode, [functionNode]⟩

/-- The call of `g`. -/
def receiver : Place := ⟨receiverNode, [mapNode, functionNode]⟩

def arguments : Place := ⟨argumentsNode, [mapNode, functionNode]⟩

theorem classify_root : Java.adapter.classify tree.root = some .function := by decide +kernel

theorem classify_mapCall : Java.adapter.classify mapCall = some .call := by decide +kernel

theorem iterates : Java.adapter.Iterates mapCall arguments :=
  ⟨⟨"map", rfl, by decide⟩, rfl, by decide +kernel⟩

theorem mapCall_mem : mapCall ∈ tree.root.below :=
  mem_below_of_mem_children (List.mem_singleton_self _)

theorem receiver_mem : receiver ∈ mapCall.below :=
  mem_below_of_mem_children (List.mem_cons_self ..)

theorem inBodies (hx : x ∈ mapCall.descendants)
    (hanc : ∀ f ∈ x.ancestors, f = mapCall ∨ f = tree.root) : Java.adapter.InBodies x := by
  intro f hf hclass
  rcases hanc f hf with rfl | rfl
  · rw [classify_mapCall] at hclass
    cases hclass
  · exact ⟨mapCall, rfl, hx⟩

theorem mapCall_visited : mapCall ∈ Java.adapter.visited tree.root := by
  refine mem_visited.mpr (Or.inr ⟨mapCall, ?_, self_mem_visited _ _⟩)
  rw [reading_of_function classify_root]
  exact List.mem_singleton_self _

theorem skips_receiver : Java.adapter.Skips mapCall receiver := by
  refine .besideArguments classify_mapCall iterates ?callee ?others ?bodies
  case callee =>
    intro f hf
    cases hf
  case others =>
    intro q hq
    cases hq
  case bodies =>
    intro q hq
    obtain rfl := List.mem_singleton.mp hq
    refine ⟨fun heq => absurd (congrArg Place.id heq) (by decide), fun b hb hx => ?_⟩
    cases hb
    exact absurd (List.mem_map_of_mem (f := Place.id) hx) (by decide)

end IteratedCall

/-! ## Represented places -/

/-- The place turns up in the program as its class asks for. -/
structure Represented (a : Adapter) (t : SyntaxTree) (x : Place) : Prop where
  /-- Exactly one statement, anywhere in the program, comes from the place. -/
  statement : a.classify x ≠ some .function → (a.program t).statementNodes.count x.id = 1
  /-- Exactly one function comes from the place, unless a loop runs it. -/
  function : a.classify x = some .function →
    (a.program t).functionNodes.count x.id = 1 ∨ a.RunsInLoop t x
  /-- A call is among the calls of the nearest function around it, unless it
  is a loop. -/
  call : a.classify x = some .call → (∀ arguments, ¬ a.Iterates x arguments) →
    ∀ f ∈ (a.program t).functions, (a.program t).owner? x = some f.origin.node →
      (a.callTarget x).getD anonymous ∈ f.calls

theorem bodyOwned_of_owner (h : t.root.Sound) (hx : x ∈ a.visited t.root)
    (hfun : a.isFunction x = false) {g : Place} (hg : g ∈ a.visited t.root)
    (hown : (a.program t).owner? x = some g.id) : x ∈ a.bodyOwned g := by
  have hmem := (a.visited_perm t.root).mem_iff.mp hx
  rcases List.mem_append.mp hmem with htop | hbodies
  · rw [owner?_of_owned_root h htop] at hown
    cases hown
  · obtain ⟨g', hg', hx'⟩ := List.mem_flatMap.mp hbodies
    obtain ⟨hvis, hfun'⟩ := List.mem_filter.mp hg'
    rcases List.mem_cons.mp hx' with rfl | hx'
    · rw [hfun] at hfun'
      cases hfun'
    · rw [owner?_of_bodyOwned h hvis hfun' hx'] at hown
      obtain rfl := h.eq_of_id_eq (mem_descendants_of_mem_visited h hvis)
        (mem_descendants_of_mem_visited h hg) (Option.some.inj hown)
      exact hx'

theorem mem_calls_of_visited (h : t.root.Sound) (hx : x ∈ a.visited t.root)
    (hc : a.classify x = some .call) (hit : ∀ arguments, ¬ a.Iterates x arguments)
    {f : Function} (hf : f ∈ (a.program t).functions)
    (hown : (a.program t).owner? x = some f.origin.node) :
    (a.callTarget x).getD anonymous ∈ f.calls := by
  have hread := reading_of_call hc hit
  obtain ⟨g, hg, -, hid, -, hcalls⟩ := a.exists_place_of_function t hf
  rw [hid] at hown
  have howned := bodyOwned_of_owner h hx (isFunction_of_statement hread) hg hown
  have hentry : (x.id, StatementLabel.call ((a.callTarget x).getD anonymous))
      ∈ (a.functionAt g).body.walk.map Statement.entry :=
    (a.body_entries g).mem_iff.mpr
      (List.mem_filterMap.mpr ⟨x, howned, entryAt_of_statement hread⟩)
  obtain ⟨s, hs, he⟩ := List.mem_map.mp hentry
  have hcallee : s.callee? = some ((a.callTarget x).getD anonymous) := by
    have hlabel := congrArg Prod.snd he
    cases s with
    | call o callee r => exact congrArg some (StatementLabel.call.inj hlabel)
    | _ => cases hlabel
  rw [hcalls]
  exact Text.mem_ordered.mpr (List.mem_filterMap.mpr ⟨s, hs, hcallee⟩)

theorem represented_of_visited (h : t.root.Sound) (hx : x ∈ a.visited t.root)
    (hc : (a.classify x).isSome = true) : a.Represented t x where
  statement := by
    intro hne
    obtain ⟨c, hclass⟩ := Option.isSome_iff_exists.mp hc
    have hcne : c ≠ .function := fun heq => hne (by rw [hclass, heq])
    have hmem := (mem_statementNodes_iff h (mem_descendants_of_mem_visited h hx)).mpr
      ⟨hx, c, hclass, hcne⟩
    exact List.count_eq_one_of_mem (List.nodup_append.mp (nodup_nodes h)).1 hmem
  function := by
    intro hfun
    have hmem := (mem_functionNodes_iff h (mem_descendants_of_mem_visited h hx)).mpr
      ⟨hx, isFunction_iff.mpr hfun⟩
    exact Or.inl (List.count_eq_one_of_mem (List.nodup_append.mp (nodup_nodes h)).2.1 hmem)
  call := fun hcall hit _ hf hown => mem_calls_of_visited h hx hcall hit hf hown

theorem lambdas_subset_functions {l : Language} (h : ofLanguage? l = some a) :
    a.kinds.lambdas ⊆ a.kinds.functions := by
  cases l <;> cases h <;> decide

/-- A function written out in place has the class of functions, if it has
one. -/
theorem classify_of_mem_inPlaceFunctions {arguments : Place}
    (hsub : a.kinds.lambdas ⊆ a.kinds.functions) (hx : x ∈ a.inPlaceFunctions arguments)
    (hc : (a.classify x).isSome = true) : a.classify x = some .function := by
  have hkind : a.kinds.isFunction x.kind = true :=
    List.contains_iff_mem.mpr (hsub (List.contains_iff_mem.mp (List.mem_filter.mp hx).2))
  unfold classify at hc ⊢
  by_cases hnone : (!x.isNamed || x.isError) = true
  · rw [if_pos hnone] at hc
    cases hc
  · rw [if_neg hnone, if_pos hkind]

/-- The places that a program of a language at hand lacks are the lost
ones. -/
theorem represented_iff_not_lost {l : Language} (hl : ofLanguage? l = some a) (ht : t.Built)
    (hx : x ∈ t.places) (hc : (a.classify x).isSome = true) (hb : a.InBodies x) :
    a.Represented t x ↔ ¬ a.Lost t x := by
  have h := ht.sound
  constructor
  · intro hrep hlost
    have hvis := not_visited_of_lost h hx hlost
    by_cases hfun : a.classify x = some .function
    · rcases hrep.function hfun with hone | hloop
      · have hmem := List.count_pos_iff.mp (by rw [hone]; exact Nat.one_pos)
        exact hvis ((mem_functionNodes_iff h hx).mp hmem).1
      · exact not_runsInLoop_of_lost h hx hlost hloop
    · have hone := hrep.statement hfun
      have hmem := List.count_pos_iff.mp (by rw [hone]; exact Nat.one_pos)
      exact hvis ((mem_statementNodes_iff h hx).mp hmem).1
  · intro hlost
    rcases visited_or_runsInLoop h hx hb hlost with hvis | hloop
    · exact represented_of_visited h hvis hc
    · obtain ⟨call, arguments, -, -, hplace, -⟩ := id hloop
      have hfun := classify_of_mem_inPlaceFunctions (lambdas_subset_functions hl) hplace hc
      refine ⟨fun hne => absurd hfun hne, fun _ => Or.inr hloop, fun hcall => ?_⟩
      rw [hfun] at hcall
      cases hcall

open IteratedCall in
/-- A call that is represented although it becomes a loop. -/
theorem mapCall_represented :
    tree.Built ∧ mapCall ∈ tree.places ∧ (Java.adapter.classify mapCall).isSome = true
      ∧ Java.adapter.InBodies mapCall ∧ Java.adapter.Represented tree mapCall := by
  have hmem := mem_descendants_of_mem_below mapCall_mem
  have hsome : (Java.adapter.classify mapCall).isSome = true := by rw [classify_mapCall]; rfl
  have hb : Java.adapter.InBodies mapCall :=
    inBodies (self_mem_descendants _) fun f hf => Or.inr (List.mem_singleton.mp hf)
  have hkept : ¬ Java.adapter.Lost tree mapCall := by
    rintro ⟨p, hp, -, hs⟩
    obtain rfl := List.mem_singleton.mp hp
    cases hs with
    | besideBranches conditional =>
        rw [show Place.mk functionNode [] = tree.root from rfl, classify_root] at conditional
        cases conditional
    | besideArguments call =>
        rw [show Place.mk functionNode [] = tree.root from rfl, classify_root] at call
        cases call
  exact ⟨built, hmem, hsome, hb,
    (represented_iff_not_lost (l := .java) rfl built hmem hsome hb).mpr hkept⟩

open IteratedCall in
/-- The call of `g` in `()->g().map(x->h())` has no statement. -/
theorem receiver_not_represented :
    ofLanguage? .java = some Java.adapter ∧ tree.Built ∧ receiver ∈ tree.places
      ∧ Java.adapter.classify receiver = some .call ∧ Java.adapter.InBodies receiver
      ∧ (Java.adapter.program tree).statementNodes.count receiver.id = 0 := by
  have hmem : receiver ∈ tree.places :=
    descendants_trans (mem_descendants_of_mem_below mapCall_mem)
      (mem_descendants_of_mem_below receiver_mem)
  have hb : Java.adapter.InBodies receiver := by
    refine inBodies (mem_descendants_of_mem_below receiver_mem) fun f hf => ?_
    rcases List.mem_cons.mp hf with rfl | hf
    · exact Or.inl rfl
    · exact Or.inr (List.mem_singleton.mp hf)
  have hroot := built.sound
  have hmap : mapCall.id ∈ (Java.adapter.program tree).statementNodes :=
    (mem_statementNodes_iff hroot (mem_descendants_of_mem_below mapCall_mem)).mpr
      ⟨mapCall_visited, .call, classify_mapCall, by decide⟩
  have hlost : Java.adapter.Lost tree receiver :=
    ⟨mapCall, List.mem_cons_self .., hmap, skips_receiver⟩
  refine ⟨rfl, built, hmem, by decide +kernel, hb, List.count_eq_zero.mpr fun hnode => ?_⟩
  exact not_visited_of_lost hroot hmem hlost ((mem_statementNodes_iff hroot hmem).mp hnode).1

end Adapter

end CodeProfile
