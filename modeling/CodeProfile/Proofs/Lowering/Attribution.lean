import CodeProfile.Adapter.Java
import CodeProfile.Proofs.Lowering.Blocks
import CodeProfile.Proofs.Tree.Building

/-!
# Every statement once, and in the right function

`Program.Attributed` relates a program to the tree that it was made of:
no node became two statements or functions, every statement is charged
to the nearest function around its node, and what stands inside a
statement comes from below its node. The headline,
`program_attributed`, is that this holds for every adapter and every
built tree.

Distinctness is the count of visits (`visited_subperm`) carried over to
entries. The charge to the nearest function joins two facts: a block
owns a place only if no function is visited in between
(`not_function_above_owned`), and the places that are passed over on the
way to an owned place are not visited at all.
-/

namespace CodeProfile

namespace Program

/-- The id of the nearest place above that became a function. -/
def owner? (p : Program) (x : Place) : Option Nat :=
  (x.ancestors.map Place.id).find? (p.functionNodes.contains ·)

/-- How the statements and functions of a program sit in a tree. -/
structure Attributed (p : Program) (t : SyntaxTree) : Prop where
  /-- No node became two statements, two functions, or one of each. -/
  distinct : (p.statementNodes ++ p.functionNodes).Nodup
  ordered : p.functionNodes.Pairwise (· < ·)
  /-- A statement of a function comes from below the node of the function,
  and no function stands between. -/
  bodies : ∀ f ∈ p.functions, ∀ s ∈ f.body.walk, ∃ g ∈ t.places, g.id = f.origin.node
    ∧ ∃ x ∈ g.below, x.id = s.origin.node ∧ p.owner? x = some g.id
  /-- A statement at the top stands in no function. -/
  topLevel : ∀ s ∈ p.topLevel.walk, ∃ x ∈ t.places, x.id = s.origin.node ∧ p.owner? x = none
  /-- What a statement holds comes from below the node of the statement. -/
  nesting : ∀ s ∈ p.statements, ∀ i ∈ Statement.walkAll s.inner,
    ∃ x ∈ t.places, x.id = s.origin.node ∧ ∃ y ∈ x.below, y.id = i.origin.node

end Program

namespace Adapter

open Place

variable {a : Adapter} {p x : Place} {t : SyntaxTree}

/-! ## Entries and ids -/

theorem fst_of_entryAt {e : Nat × StatementLabel} (h : a.entryAt p = some e) : e.1 = p.id := by
  unfold entryAt Reading.entryAt at h
  split at h
  · rw [← Option.some.inj h]
  · cases h

/-- A statement whose entry is among those of some places comes from one
of them. -/
theorem exists_place_of_entry {ss : List Statement} {qs : List Place}
    (hperm : (ss.map Statement.entry).Perm (qs.filterMap a.entryAt)) {s : Statement}
    (hs : s ∈ ss) :
    ∃ x ∈ qs, a.entryAt x = some s.entry ∧ x.id = s.origin.node := by
  obtain ⟨x, hx, he⟩ :=
    List.mem_filterMap.mp (hperm.mem_iff.mp (List.mem_map_of_mem (f := Statement.entry) hs))
  exact ⟨x, hx, he, (fst_of_entryAt he).symm⟩

theorem map_fst_filterMap_entryAt (qs : List Place) :
    (qs.filterMap a.entryAt).map Prod.fst
      = (qs.filter fun q => (a.entryAt q).isSome).map Place.id := by
  induction qs with
  | nil => rfl
  | cons q qs ih =>
      cases he : a.entryAt q with
      | none => rw [List.filterMap_cons_none he, List.filter_cons_of_neg (by simp [he]), ih]
      | some e =>
          rw [List.filterMap_cons_some he, List.filter_cons_of_pos (by simp [he]),
            List.map_cons, List.map_cons, ih, fst_of_entryAt he]

theorem statementNodes_perm (a : Adapter) (t : SyntaxTree) :
    (a.program t).statementNodes.Perm
      (((a.visited t.root).filter fun q => (a.entryAt q).isSome).map Place.id) := by
  have := (a.statements_entries t).map Prod.fst
  rwa [map_fst_filterMap_entryAt, List.map_map] at this

theorem nodup_visited_ids (h : p.Sound) : ((a.visited p).map Place.id).Nodup := by
  obtain ⟨l, hperm, hsub⟩ := visited_subperm (a := a) h
  exact (hperm.map Place.id).nodup_iff.mp (h.distinct.sublist (hsub.map Place.id))

/-- The nodes of statements and functions are places that are visited,
each for one of the two. -/
theorem nodup_nodes (h : t.root.Sound) :
    ((a.program t).statementNodes ++ (a.program t).functionNodes).Nodup := by
  have hperm := (a.statementNodes_perm t).append (a.functionNodes_perm t)
  rw [← List.map_append] at hperm
  obtain ⟨l, hl, hsub⟩ := filter_append_filter_subperm (a.visited t.root)
    (f := fun q => (a.entryAt q).isSome) (g := a.isFunction)
    fun q _ hq => by rw [entryAt_of_isFunction hq]; rfl
  refine (hperm.trans (hl.map Place.id).symm).nodup_iff.mpr ?_
  exact (nodup_visited_ids h).sublist (hsub.map Place.id)

/-! ## The nearest function -/

/-- Only a place that is visited as a function has the id of one. -/
theorem mem_functionNodes_iff (h : t.root.Sound) {m : Place} (hm : m ∈ t.places) :
    m.id ∈ (a.program t).functionNodes ↔ m ∈ a.visited t.root ∧ a.isFunction m = true := by
  rw [mem_functionNodes]
  constructor
  · rintro ⟨g, hg, hfun, hid⟩
    obtain rfl := h.eq_of_id_eq (mem_descendants_of_mem_visited h hg) hm hid
    exact ⟨hg, hfun⟩
  · rintro ⟨hvis, hfun⟩
    exact ⟨m, hvis, hfun, rfl⟩

theorem owner?_of_owned_root (h : t.root.Sound) (hx : x ∈ a.owned t.root) :
    (a.program t).owner? x = none := by
  have hxt := mem_descendants_of_mem_visited h (visited_of_owned hx)
  refine List.find?_eq_none.mpr fun n hn => ?_
  obtain ⟨m, hm, rfl⟩ := List.mem_map.mp hn
  obtain ⟨hmt, hxm⟩ := (SyntaxTree.mem_ancestors hxt).mp hm
  rw [List.contains_iff_mem, mem_functionNodes_iff h hmt]
  rintro ⟨hvis, hfun⟩
  rw [not_function_above_owned h hx hvis hxm] at hfun
  cases hfun

theorem below_of_bodyOwned {g : Place} (h : g.Sound) (hx : x ∈ a.bodyOwned g) : x ∈ g.below := by
  obtain ⟨b, hb, hxb⟩ := List.mem_flatMap.mp hx
  have hb' := Reading.bodyParts_subset _ hb
  exact mem_below_of_mem_reading h hb'
    (mem_descendants_of_mem_visited (sound_of_mem_reading h hb') (visited_of_owned hxb))

theorem owner?_of_bodyOwned (h : t.root.Sound) {g : Place} (hg : g ∈ a.visited t.root)
    (hfun : a.isFunction g = true) (hx : x ∈ a.bodyOwned g) :
    (a.program t).owner? x = some g.id := by
  have hgt := mem_descendants_of_mem_visited h hg
  have hgs := h.of_mem hgt
  obtain ⟨between, heq, hbetween⟩ := ancestors_eq (below_of_bodyOwned hgs hx)
  rw [Program.owner?, heq, List.map_append, List.map_cons, List.find?_append]
  have hnone : (between.map Place.id).find? ((a.program t).functionNodes.contains ·) = none := by
    refine List.find?_eq_none.mpr fun n hn => ?_
    obtain ⟨m, hm, rfl⟩ := List.mem_map.mp hn
    obtain ⟨hmg, hxm⟩ := hbetween m hm
    have hmg' := mem_descendants_of_mem_below hmg
    rw [List.contains_iff_mem, mem_functionNodes_iff h (descendants_trans hgt hmg')]
    rintro ⟨hvis, hmfun⟩
    -- `m` is visited from `g`, so from the part of the body that owns `x`
    obtain ⟨b, hb, hxb⟩ := List.mem_flatMap.mp hx
    have hb' := Reading.bodyParts_subset _ hb
    rcases mem_visited.mp (visited_of_mem_descendants h hg hvis hmg') with rfl | ⟨c, hc, hmc⟩
    · exact not_mem_below_self m hmg
    · have hbs := sound_of_mem_reading hgs hb'
      have hcs := sound_of_mem_reading hgs hc
      obtain rfl := eq_of_mem_descendants (nodup_reading a hgs) hb' hc
        (mem_descendants_of_mem_visited hbs (visited_of_owned hxb))
        (descendants_trans (mem_descendants_of_mem_visited hcs hmc)
          (mem_descendants_of_mem_below hxm))
      rw [not_function_above_owned hbs hxb hmc hxm] at hmfun
      cases hmfun
  have hself : (a.program t).functionNodes.contains g.id = true :=
    List.contains_iff_mem.mpr ((mem_functionNodes_iff h hgt).mpr ⟨hg, hfun⟩)
  rw [hnone, Option.none_or, List.find?_cons_of_pos hself]

/-! ## Nesting -/

theorem mem_walkAll_flatMap {qs : List Place} {f : Place → List Statement} {s : Statement} :
    s ∈ Statement.walkAll (qs.flatMap f) ↔ ∃ q ∈ qs, s ∈ Statement.walkAll (f q) := by
  rw [Statement.walkAll_flatMap, List.mem_flatMap]

/-- Every statement is what the reading of one of the owned places says. -/
theorem exists_reading_of_mem_walk {inInput : Bool} {s : Statement}
    (hs : s ∈ Statement.walkAll (a.lower inInput p).statements) :
    ∃ x ∈ a.owned p, ∃ head before inside inner, a.reading x = .statement head before inside
      ∧ s = head.statement ⟨x.id, x.startLine⟩ inner (inside.map (·.flatMap fun q =>
        (a.lower (inner || head.opensInput) q).statements)) := by
  induction p using a.reading_induction generalizing inInput with
  | step p ih =>
      have hpart {b : Bool} {q : Place} (hf : a.isFunction p = false)
          (hq : q ∈ (a.reading p).places)
          (hsq : s ∈ Statement.walkAll (a.lower b q).statements) :
          ∃ x ∈ a.owned p, ∃ head before inside inner, a.reading x = .statement head before inside
            ∧ s = head.statement ⟨x.id, x.startLine⟩ inner (inside.map (·.flatMap fun q =>
              (a.lower (inner || head.opensInput) q).statements)) := by
        obtain ⟨x, hx, hrest⟩ := ih q hq hsq
        rw [owned_of_not_function hf]
        exact ⟨x, List.mem_cons_of_mem _ (List.mem_flatMap.mpr ⟨q, hq, hx⟩), hrest⟩
      cases hr : a.reading p with
      | through parts =>
          rw [lower_through hr] at hs
          simp only [Lowered.concat, List.flatMap_map] at hs
          obtain ⟨q, hq, hsq⟩ := mem_walkAll_flatMap.mp hs
          exact hpart (isFunction_of_through hr) (by rw [hr]; exact hq) hsq
      | function body =>
          rw [lower_function hr] at hs
          cases hs
      | statement head before inside =>
          have hf := isFunction_of_statement hr
          rw [lower_statement hr, Statement.walkAll_append, List.mem_append] at hs
          rcases hs with hs | hs
          · obtain ⟨q, hq, hsq⟩ := mem_walkAll_flatMap.mp hs
            exact hpart hf (by rw [hr]; exact List.mem_append_left _ hq) hsq
          · rw [Statement.walkAll, Statement.walkAll, List.append_nil, Statement.walk_eq,
              inner_statement hr, List.mem_cons] at hs
            rcases hs with rfl | hs
            · rw [owned_of_not_function hf]
              exact ⟨p, List.mem_cons_self .., head, before, inside, inInput, hr, rfl⟩
            · obtain ⟨q, hq, hsq⟩ := mem_walkAll_flatMap.mp hs
              exact hpart hf (by rw [hr]; exact List.mem_append_right _ hq) hsq

/-- What stands inside a statement comes from below its node. -/
theorem exists_below_of_inner {inInput : Bool} (h : p.Sound) {s i : Statement}
    (hs : s ∈ Statement.walkAll (a.lower inInput p).statements)
    (hi : i ∈ Statement.walkAll s.inner) :
    ∃ x ∈ p.descendants, x.id = s.origin.node ∧ ∃ y ∈ x.below, y.id = i.origin.node := by
  obtain ⟨x, hx, head, before, inside, inner, hr, rfl⟩ := exists_reading_of_mem_walk hs
  have hxp := mem_descendants_of_mem_visited h (visited_of_owned hx)
  have hxs := h.of_mem hxp
  rw [inner_statement hr] at hi
  obtain ⟨q, hq, hiq⟩ := mem_walkAll_flatMap.mp hi
  obtain ⟨y, hy, -, hid⟩ := exists_place_of_entry (statements_perm a _ q) hiq
  have hqx : q ∈ (a.reading x).places := by
    rw [hr]
    exact List.mem_append_right _ hq
  have hyq := mem_descendants_of_mem_visited (sound_of_mem_reading hxs hqx) (visited_of_owned hy)
  refine ⟨x, hxp, ?_, y, mem_below_of_mem_reading hxs hqx hyq, hid⟩
  rw [StatementHead.origin_statement]

/-! ## A sample -/

namespace IteratedCall

/-- A node with a name whose text stands on the first line. -/
def lineNode (id : Nat) (kind text : String) (start : Nat) (field : Option String)
    (children : List Node) : Node :=
  let stop := start + text.utf8ByteSize
  .mk ⟨id, kind, ⟨start, stop, ⟨0, start⟩, ⟨0, stop⟩⟩, text, true, false, field⟩ children

def receiverNode : Node :=
  lineNode 2 "method_invocation" "g()" 4 (some "object")
    [lineNode 3 "identifier" "g" 4 (some "name") []]

def lambdaNode : Node :=
  lineNode 6 "lambda_expression" "x->h()" 12 none
    [lineNode 7 "method_invocation" "h()" 15 (some "body")
      [lineNode 8 "identifier" "h" 15 (some "name") []]]

def argumentsNode : Node :=
  lineNode 5 "argument_list" "(x->h())" 11 (some "arguments") [lambdaNode]

def mapNode : Node :=
  lineNode 1 "method_invocation" "g().map(x->h())" 4 (some "body")
    [receiverNode, lineNode 4 "identifier" "map" 8 (some "name") [], argumentsNode]

def functionNode : Node := lineNode 0 "lambda_expression" "()->g().map(x->h())" 0 none [mapNode]

/-- A Java function that calls `map` on what it gets from `g`. -/
def tree : SyntaxTree := ⟨.java, "()->g().map(x->h())", functionNode⟩

def opening (kind : String) (start stop : Nat) (field : Option String) : BuilderCall :=
  .openNode ⟨kind, start, stop, true, false, field⟩

def calls : List BuilderCall :=
  [opening "lambda_expression" 0 19 none, opening "method_invocation" 4 19 (some "body"),
    opening "method_invocation" 4 7 (some "object"), opening "identifier" 4 5 (some "name"),
    .closeNode, .closeNode, opening "identifier" 8 11 (some "name"), .closeNode,
    opening "argument_list" 11 19 (some "arguments"), opening "lambda_expression" 12 18 none,
    opening "method_invocation" 15 18 (some "body"), opening "identifier" 15 16 (some "name"),
    .closeNode, .closeNode, .closeNode, .closeNode, .closeNode, .closeNode]

set_option maxRecDepth 4000 in
theorem built : tree.Built := ⟨tree.source, .java, calls, by rfl⟩

end IteratedCall

/-! ## The whole program -/

theorem program_attributed (a : Adapter) {t : SyntaxTree} (ht : t.Built) :
    (a.program t).Attributed t := by
  have h := ht.sound
  refine ⟨nodup_nodes h, ?_, ?_, ?_, ?_⟩
  · have hlt := (a.functionNodes_sorted t).and (List.nodup_append.mp (nodup_nodes h)).2.1
    exact hlt.imp fun hle => Nat.lt_of_le_of_ne hle.1 hle.2
  · intro f hf s hs
    obtain ⟨g, hg, hfun, hid, hbody, -⟩ := a.exists_place_of_function t hf
    have hgt := mem_descendants_of_mem_visited h hg
    rw [hbody] at hs
    obtain ⟨x, hx, -, hxid⟩ := exists_place_of_entry (a.body_entries g) hs
    exact ⟨g, hgt, hid.symm, x, below_of_bodyOwned (h.of_mem hgt) hx, hxid,
      owner?_of_bodyOwned h hg hfun hx⟩
  · intro s hs
    obtain ⟨x, hx, -, hxid⟩ := exists_place_of_entry (a.topLevel_entries t) hs
    exact ⟨x, mem_descendants_of_mem_visited h (visited_of_owned hx), hxid,
      owner?_of_owned_root h hx⟩
  · intro s hs i hi
    rw [Program.statements_eq, List.mem_append, List.mem_flatMap] at hs
    rcases hs with ⟨f, hf, hs⟩ | hs
    · obtain ⟨g, hg, hfun, -, hbody, -⟩ := a.exists_place_of_function t hf
      have hgt := mem_descendants_of_mem_visited h hg
      obtain ⟨mark, hentry, hinner, hwalk⟩ := a.body_walk g
      have horigin (s : Statement) : (mark s).origin.node = s.origin.node :=
        congrArg Prod.fst (hentry s)
      rw [hbody, hwalk] at hs
      obtain ⟨s₀, hs₀, rfl⟩ := List.mem_map.mp hs
      rw [hinner] at hi
      obtain ⟨i₀, hi₀, rfl⟩ := List.mem_map.mp hi
      obtain ⟨q, hq, hsq⟩ := mem_walkAll_flatMap.mp hs₀
      have hqg := mem_below_of_mem_reading (h.of_mem hgt) (Reading.bodyParts_subset _ hq)
        (self_mem_descendants q)
      have hqt := descendants_trans hgt (mem_descendants_of_mem_below hqg)
      obtain ⟨x, hx, hxid, y, hy, hyid⟩ := exists_below_of_inner (h.of_mem hqt) hsq hi₀
      rw [horigin, horigin]
      exact ⟨x, descendants_trans hqt hx, hxid, y, hy, hyid⟩
    · exact exists_below_of_inner h hs hi

theorem iteratedCall_attributed :
    IteratedCall.tree.Built
      ∧ (Java.adapter.program IteratedCall.tree).Attributed IteratedCall.tree :=
  ⟨IteratedCall.built, program_attributed Java.adapter IteratedCall.built⟩

end Adapter

end CodeProfile
