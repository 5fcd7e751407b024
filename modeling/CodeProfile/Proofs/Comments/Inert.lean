import CodeProfile.Complexity.TreeShape
import CodeProfile.Proofs.Comments.Readings
import CodeProfile.Proofs.Complexity.Bare
import CodeProfile.Proofs.Lowering.Blocks

/-!
# Comments are inert

The headline, `complexity_of_addsComment`: adding a comment to a tree
does not change its complexity, unless the comment is misread.

Lowering follows readings, and those are the same up to parts that bear
nothing (`reading_without`). So it finds the same bare statements and
the same bare functions, whose nodes are renumbered as the tree is
(`lower_without`). Renumbering keeps functions in order, and the
complexity of a program hangs on nothing but its bare parts.
-/

namespace CodeProfile

/-! ## Bare parts of what is lowered -/

namespace Lowered

/-- The bare functions with the ids of their nodes, as `key` has them. -/
def keyed (l : Lowered) (key : Nat → Nat) : List (Nat × Function) :=
  l.functions.map fun f => (key f.origin.node, f.bare)

end Lowered

theorem StatementHead.bare_statement (head : StatementHead) (o : Origin) (inInput : Bool)
    (blocks : List (List Statement)) :
    (head.statement o inInput blocks).bare
      = head.statement ⟨0, o.line⟩ inInput [Statement.bareAll blocks.flatten] := by
  rw [Statement.bareAll_eq]
  cases head with
  | loop bounds =>
      rw [statement, statement, Statement.bare, Statement.bareAll_eq, List.flatten_singleton]
  | conditional => rw [statement, statement, Statement.bare, Statement.bareBranches_eq]
  | call callee => rfl
  | allocation sizeDependent => rfl
  | simple kind => rfl

/-- A function hangs on what its name, parameters and bare body are. -/
theorem Lowered.bare_toFunction {a : Adapter} {l l' : Lowered} {p p' : Place}
    (hname : Adapter.functionName p = Adapter.functionName p')
    (hparameters : a.parameters p = a.parameters p') (hline : p.startLine = p'.startLine)
    (hbody : Statement.bareAll l.statements = Statement.bareAll l'.statements) :
    (l.toFunction a p).bare = (l'.toFunction a p').bare := by
  have hblock (name : String) :
      (Block.ofStatements (if name != Adapter.anonymous then
          Statement.markRecursiveAll name l.statements else l.statements)).bare
        = (Block.ofStatements (if name != Adapter.anonymous then
          Statement.markRecursiveAll name l'.statements else l'.statements)).bare := by
    simp only [Block.bare, Block.ofStatements]
    split
    · rw [Statement.bareAll_markRecursiveAll, hbody, Statement.bareAll_markRecursiveAll]
    · rw [hbody]
  simp only [toFunction, Function.bare, hname, hparameters, hline, hblock]
  simp only [← Block.callTargets_bare (Block.ofStatements _), hblock]

/-! ## Lowering with and without a comment -/

namespace Adapter

open Place

variable {a : Adapter} {t t' : SyntaxTree} {c p : Place}

/-- Collected from the same parts, if nothing is collected from parts
that bear nothing. -/
theorem flatMap_of_sameParts {β : Type} {qs rs : List Place} {f g : Place → List β}
    (hs : a.SameParts c qs rs) (hf : ∀ r, a.bears r = false → f r = [])
    (hg : ∀ q, a.bears q = false → g q = [])
    (hfg : ∀ q ∈ qs, a.bears q = true → f (q.without c.id) = g q) :
    rs.flatMap f = qs.flatMap g := by
  have hbearing {ps : List Place} {f : Place → List β}
      (hf : ∀ p, a.bears p = false → f p = []) : (ps.filter a.bears).flatMap f = ps.flatMap f := by
    rw [flatMap_filter_eq]
    refine List.flatMap_congr fun p _ => ?_
    cases hb : a.bears p with
    | true => rfl
    | false => rw [hf p hb]; rfl
  rw [← hbearing hf, hs, List.flatMap_map, ← hbearing hg]
  exact List.flatMap_congr fun q hq =>
    hfg q (List.mem_filter.mp hq).1 (List.mem_filter.mp hq).2

/-- Without the comment the place lowers to the same bare statements and
the same bare functions, with their nodes renumbered. -/
def LowersAlike (a : Adapter) (c p : Place) : Prop :=
  ∀ inInput,
    Statement.bareAll (a.lower inInput (p.without c.id)).statements
        = Statement.bareAll (a.lower inInput p).statements
      ∧ (a.lower inInput (p.without c.id)).keyed (·) = (a.lower inInput p).keyed (renumber c.id)

theorem lowerAll_of_sameParts {qs rs : List Place} (hs : a.SameParts c qs rs)
    (hqs : ∀ q ∈ qs, a.bears q = true → a.LowersAlike c q) (inInput : Bool) :
    Statement.bareAll (rs.flatMap fun r => (a.lower inInput r).statements)
        = Statement.bareAll (qs.flatMap fun q => (a.lower inInput q).statements)
      ∧ (rs.flatMap fun r => (a.lower inInput r).keyed (·))
        = qs.flatMap fun q => (a.lower inInput q).keyed (renumber c.id) := by
  simp only [Statement.bareAll_eq, List.map_flatMap]
  constructor
  · refine flatMap_of_sameParts hs ?_ ?_ fun q hq hb => ?_
    · intro r hr
      rw [lower_of_not_bears hr, List.map_nil]
    · intro q hq
      rw [lower_of_not_bears hq, List.map_nil]
    · rw [← Statement.bareAll_eq, ← Statement.bareAll_eq]
      exact (hqs q hq hb inInput).1
  · refine flatMap_of_sameParts hs ?_ ?_ fun q hq hb => (hqs q hq hb inInput).2
    · intro r hr
      rw [lower_of_not_bears hr]
      rfl
    · intro q hq
      rw [lower_of_not_bears hq]
      rfl

theorem concat_map (ps : List Place) (f : Place → Lowered) :
    Lowered.concat (ps.map f)
      = ⟨ps.flatMap fun p => (f p).statements, ps.flatMap fun p => (f p).functions⟩ := by
  rw [Lowered.concat, List.flatMap_map, List.flatMap_map]

/-! ### Functions in order -/

/-- Sorting functions is sorting their bare forms by keys in the same
order. -/
theorem map_bare_sortFunctions {fs : List Function} (key : Nat → Nat)
    (hkey : ∀ f ∈ fs, ∀ g ∈ fs,
      key f.origin.node ≤ key g.origin.node ↔ f.origin.node ≤ g.origin.node) :
    (sortFunctions fs).map Function.bare
      = ((fs.map fun f => (key f.origin.node, f.bare)).mergeSort fun x y => x.1 ≤ y.1).map
        (·.2) := by
  rw [← List.map_mergeSort (f := fun f => (key f.origin.node, f.bare))
    fun f hf g hg => decide_eq_decide.mpr (hkey f hf g hg).symm, List.map_map]
  rfl

theorem map_bare_functions (a : Adapter) (u : SyntaxTree) :
    (a.program u).functions.map Function.bare
      = (sortFunctions (a.lower false u.root).functions).map Function.bare := by
  rw [program, List.map_map]
  rfl

section

variable (ho : a.Overlooks t' c) (h : t.AddsPlainComment a.kinds t' c)
include ho h

/-- The functions found are places of the tree other than the comment. -/
theorem functionNode_ne {f : Function} (hf : f ∈ (a.lower false t'.root).functions) :
    f.origin.node ≠ c.id := by
  obtain ⟨g, hg, rfl⟩ := List.mem_map.mp ((functions_perm a false t'.root).mem_iff.mp hf)
  obtain ⟨hvisited, hfunction⟩ := List.mem_filter.mp hg
  have hmem := mem_descendants_of_mem_visited h.built.sound hvisited
  intro hid
  rw [h.eq_of_id_eq hmem hid, isFunction_iff, ho.classify_comment] at hfunction
  cases hfunction

variable (hidle : a.kinds.Idle c.kind)
  (hm : ¬ a.Misread t' c)
include hidle hm

theorem lower_without (hp : t'.Keeps c p) : a.LowersAlike c p := by
  induction p using a.reading_induction with
  | step p ih =>
      -- Parts that bear nothing lower to nothing in both trees, so the hypothesis is needed for
      -- bearing parts only. The comment is none of these.
      have hall (q : Place) (hq : q ∈ (a.reading p).places) (hb : a.bears q = true) :
          a.LowersAlike c q := by
        have hqp := mem_below_of_mem_reading (h.built.sound.of_mem hp.1) hq (self_mem_descendants q)
        exact ih q hq (keeps_of_bears ho h
          (descendants_trans hp.1 (mem_descendants_of_mem_below hqp)) hb)
      have hsame := reading_without ho h hidle hp hm
      generalize hr : a.reading p = r at hsame hall
      generalize hr' : a.reading (p.without c.id) = r' at hsame
      intro inInput
      cases hsame with
      | through parts =>
          have hparts := lowerAll_of_sameParts parts hall inInput
          rw [lower_through hr, lower_through hr', concat_map, concat_map]
          simp only [Lowered.keyed, List.map_flatMap]
          exact hparts
      | @function qs rs body =>
          have hbody := lowerAll_of_sameParts body hall false
          have hfunction : (a.functionAt (p.without c.id)).bare = (a.functionAt p).bare := by
            rw [functionAt, functionAt, hr, hr']
            refine Lowered.bare_toFunction (h.functionName_without hp) (ho.parameters p hp)
              (startLine_without p c.id) ?_
            rw [Reading.bodyParts, Reading.bodyParts, concat_map, concat_map]
            exact hbody.1
          have hid : (a.functionAt (p.without c.id)).origin.node
              = renumber c.id (a.functionAt p).origin.node := id_without p c.id
          rw [lower_function hr, lower_function hr']
          refine ⟨rfl, ?_⟩
          simp only [Lowered.keyed, List.map_append, List.map_flatMap, List.map_singleton,
            hfunction, hid]
          exact congrArg (· ++ _) hbody.2
      | @statement head before before' inside inside' first inner =>
          have hfirst := lowerAll_of_sameParts first
            (fun q hq => hall q (List.mem_append_left _ hq)) inInput
          have hinner := lowerAll_of_sameParts inner
            (fun q hq => hall q (List.mem_append_right _ hq)) (inInput || head.opensInput)
          rw [lower_statement hr, lower_statement hr']
          constructor
          · simp only [Statement.bareAll_eq, List.map_append, List.map_singleton,
              StatementHead.bare_statement, ← List.flatMap_def, ← flatten_flatMap,
              startLine_without] at hfirst hinner ⊢
            rw [hfirst.1, hinner.1]
          · simp only [Lowered.keyed, List.map_append, List.map_flatMap]
            exact congrArg₂ (· ++ ·) hfirst.2 hinner.2

theorem topLevel_without :
    (a.program (t'.without c.id)).topLevel.bare = (a.program t').topLevel.bare := by
  have hlower := (lower_without ho h hidle hm h.keeps_root false).1
  exact congrArg (Block.mk · 0 false) hlower

theorem functions_without :
    (a.program (t'.without c.id)).functions.map Function.bare
      = (a.program t').functions.map Function.bare := by
  have hkeyed := (lower_without ho h hidle hm h.keeps_root false).2
  -- Only the id of the comment could change places with another, and no function has it.
  rw [map_bare_functions, map_bare_functions, map_bare_sortFunctions (·) fun _ _ _ _ => Iff.rfl,
    map_bare_sortFunctions (renumber c.id) fun _ _ _ hg =>
      renumber_le_renumber_iff (functionNode_ne ho h hg)]
  exact congrArg (fun l => (l.mergeSort fun x y => x.1 ≤ y.1).map (·.2)) hkeyed

end

end Adapter

/-- Unless it is misread, a comment that is added to a tree does not
change its complexity. -/
theorem SyntaxTree.complexity_of_addsComment {l : Language} {a : Adapter} {r : Registry}
    {t t' : SyntaxTree} {c : Place} (hl : Adapter.ofLanguage? l = some a)
    (hr : r.get? t'.language = some a) (h : t.AddsComment a.kinds t' c)
    (hm : ¬ a.Misread t' c) : t'.complexity r = t.complexity r := by
  have h : t.AddsPlainComment a.kinds t' c :=
    { toAddsComment := h, unread := fun f hf hfield => hm (.field hf hfield) }
  have ho := Adapter.overlooks hl h
  have hidle := Adapter.idle_comment hl h.comment
  have hbare : (a.program (t'.without c.id)).bare = (a.program t').bare := by
    rw [Program.bare, Adapter.functions_without ho h hidle hm,
      Adapter.topLevel_without ho h hidle hm]
    rfl
  have hlanguage : r.get? t.language = some a := by rw [← h.removed]; exact hr
  have hprogram : (a.program t').complexity = (a.program t).complexity := by
    rw [← Program.complexity_bare, ← hbare, h.removed, Program.complexity_bare]
  unfold complexity
  rw [hr, hlanguage]
  exact hprogram

/-! ## A loop with a comment in its body -/

namespace CommentInBody

def source : String := "for i<9{/**/}"

def loop : NodeSpec := ⟨"for_statement", 0, 13, true, false, none⟩

def condition : NodeSpec := ⟨"binary_expression", 4, 7, true, false, none⟩

def body : NodeSpec := ⟨"block", 7, 13, true, false, some "body"⟩

def comment : NodeSpec := ⟨"comment", 8, 12, true, false, none⟩

def bodyNode : Node := body.node source 2 [comment.node source 3 []]

def loopNode : Node := loop.node source 0 [condition.node source 1 [], bodyNode]

def tree : SyntaxTree := ⟨.go, source, loopNode⟩

def place : Place := ⟨comment.node source 3 [], [bodyNode, loopNode]⟩

theorem built : tree.Built :=
  ⟨source, .go, [.openNode loop, .leaf condition, .openNode body, .leaf comment, .closeNode,
    .closeNode], by rfl⟩

theorem addsComment : (tree.without 3).AddsComment goKinds tree place where
  built := built
  mem := List.mem_of_getElem? (i := 2) rfl
  leaf := rfl
  comment := by decide
  removed := rfl

theorem not_misread : ¬ Adapter.Go.adapter.Misread tree place := by
  have hclass : ∀ p ∈ tree.places,
      Adapter.Go.adapter.classify p ≠ some .call
        ∧ Adapter.Go.adapter.classify p ≠ some .conditional := by
    decide +kernel
  have hfirst : ∀ p ∈ tree.places, Adapter.Go.adapter.classify p = some .loop →
      (p.namedChildren.find? (·.field != some "body")).map Place.id ≠ some place.id := by
    decide +kernel
  intro hm
  cases hm with
  | field read fills => cases fills
  | header mem loop misread => exact hfirst _ mem loop (by rw [misread.first]; rfl)
  | iterable mem call => exact (hclass _ mem).1 call
  | hides mem conditional => exact (hclass _ mem).2 conditional
  | replaces mem conditional => exact (hclass _ mem).2 conditional

end CommentInBody

open CommentInBody in
theorem SyntaxTree.complexity_of_commentInBody :
    Adapter.ofLanguage? .go = some Adapter.Go.adapter
      ∧ Registry.full.get? tree.language = some Adapter.Go.adapter
      ∧ (tree.without 3).AddsComment goKinds tree place
      ∧ ¬ Adapter.Go.adapter.Misread tree place
      ∧ tree.complexity .full = (tree.without 3).complexity .full :=
  ⟨rfl, rfl, addsComment, not_misread,
    complexity_of_addsComment (l := .go) rfl rfl addsComment not_misread⟩

/-! ## A loop with a comment in front of its condition -/

namespace CommentInHeader

def source : String := "for/**/i<9{}"

def loop : NodeSpec := ⟨"for_statement", 0, 12, true, false, none⟩

def comment : NodeSpec := ⟨"comment", 3, 7, true, false, none⟩

def condition : NodeSpec := ⟨"binary_expression", 7, 10, true, false, none⟩

def body : NodeSpec := ⟨"block", 10, 12, true, false, some "body"⟩

def loopNode : Node :=
  loop.node source 0 [comment.node source 1 [], condition.node source 2 [], body.node source 3 []]

def tree : SyntaxTree := ⟨.go, source, loopNode⟩

def place : Place := ⟨comment.node source 1 [], [loopNode]⟩

theorem built : tree.Built :=
  ⟨source, .go, [.openNode loop, .leaf comment, .leaf condition, .leaf body, .closeNode], by rfl⟩

end CommentInHeader

open CommentInHeader in
/-- A comment in front of the condition makes an endless loop of one that
runs nine times. -/
theorem SyntaxTree.complexity_ne_of_commentInHeader :
    (tree.without 1).AddsComment goKinds tree place
      ∧ Registry.full.get? tree.language = some Adapter.Go.adapter
      ∧ (tree.complexity .full).time = "O(n)"
      ∧ ((tree.without 1).complexity .full).time = "O(1)" := by
  refine ⟨⟨built, List.mem_of_getElem? (i := 0) rfl, rfl, by decide, rfl⟩, rfl, ?_, ?_⟩
  · decide +kernel
  · decide +kernel

end CodeProfile
