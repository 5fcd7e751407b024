import CodeProfile.Complexity.Analysis
import CodeProfile.Proofs.Lowering.Recursion

/-!
# The loops around a statement

`Block.enclosed` lists the statements of a block at any depth, each with
the bounds of the loops around it. Conditionals add no bound, and the list
starts anew with each block, so the loops around a function are none of
the loops around what it holds.

Two passes carry a flag down that tells whether a loop over an input is
around. Each of them gives what is read off the bounds: lowering marks an
allocation (`Adapter.exists_reading_of_mem_enclosed`), and the analysis of space finds calls that
grow a collection (`growsInInputAll_iff`).
-/

namespace CodeProfile

/-! ## Walking with the loops around -/

namespace Statement

/-- The bound of the statement, if it is a loop. -/
def ownBounds : Statement → List LoopBounds
  | loop _ bounds _ => [bounds]
  | _ => []

mutual

/-- The statement and everything inside, each with the bounds of the loops around it, the innermost
first. -/
def enclosed (around : List LoopBounds) : Statement → List (List LoopBounds × Statement)
  | loop o bounds body => (around, loop o bounds body) :: enclosedAll (bounds :: around) body
  | conditional o branches => (around, conditional o branches) :: enclosedBranches around branches
  | s => [(around, s)]

/-- `enclosed` for several statements. -/
def enclosedAll (around : List LoopBounds) : List Statement → List (List LoopBounds × Statement)
  | [] => []
  | s :: ss => enclosed around s ++ enclosedAll around ss

/-- `enclosed` for several branches. -/
def enclosedBranches (around : List LoopBounds) :
    List (List Statement) → List (List LoopBounds × Statement)
  | [] => []
  | b :: bs => enclosedAll around b ++ enclosedBranches around bs

end

theorem enclosedAll_eq (around : List LoopBounds) (ss : List Statement) :
    enclosedAll around ss = ss.flatMap (enclosed around) := by
  induction ss with
  | nil => rfl
  | cons s ss ih => rw [enclosedAll, ih, List.flatMap_cons]

theorem enclosedBranches_eq (around : List LoopBounds) (branches : List (List Statement)) :
    enclosedBranches around branches = enclosedAll around branches.flatten := by
  induction branches with
  | nil => rfl
  | cons b bs ih =>
      rw [enclosedBranches, ih, List.flatten_cons, enclosedAll_eq _ (b ++ _), List.flatMap_append,
        ← enclosedAll_eq, ← enclosedAll_eq]

theorem enclosed_eq (around : List LoopBounds) (s : Statement) :
    enclosed around s = (around, s) :: enclosedAll (s.ownBounds ++ around) s.inner := by
  cases s with
  | loop o bounds body => rfl
  | conditional o branches => rw [enclosed, enclosedBranches_eq]; rfl
  | call o callee r => rfl
  | allocation o d => rfl
  | simple o kind => rfl

theorem mem_enclosedAll_flatMap {α : Type} {around : List LoopBounds} {xs : List α}
    {f : α → List Statement} {e : List LoopBounds × Statement} :
    e ∈ enclosedAll around (xs.flatMap f) ↔ ∃ x ∈ xs, e ∈ enclosedAll around (f x) := by
  simp only [enclosedAll_eq, List.flatMap_assoc, List.mem_flatMap]

theorem enclosedAll_append (around : List LoopBounds) (ss ts : List Statement) :
    enclosedAll around (ss ++ ts) = enclosedAll around ss ++ enclosedAll around ts := by
  simp only [enclosedAll_eq, List.flatMap_append]

/-- Without the bounds, it is the walk. -/
theorem map_snd_enclosedAll (around : List LoopBounds) (ss : List Statement) :
    (enclosedAll around ss).map Prod.snd = walkAll ss := by
  have hone (s : Statement) (around : List LoopBounds) :
      (enclosed around s).map Prod.snd = walk s := by
    induction s using inner_induction generalizing around with
    | step s ih =>
        rw [enclosed_eq, walk_eq, List.map_cons, enclosedAll_eq, List.map_flatMap, walkAll_eq]
        exact congrArg _ (List.flatMap_congr fun i hi => ih i hi _)
  rw [enclosedAll_eq, List.map_flatMap, walkAll_eq]
  exact List.flatMap_congr fun s _ => hone s around

/-- Marks on calls leave the loops around them as they are. -/
theorem enclosedAll_markRecursiveAll (name : String) (around : List LoopBounds)
    (ss : List Statement) :
    enclosedAll around (markRecursiveAll name ss) =
      (enclosedAll around ss).map (Prod.map id (markRecursive name)) := by
  have hbounds (s : Statement) : (markRecursive name s).ownBounds = s.ownBounds := by
    cases s <;> rfl
  have hone (s : Statement) (around : List LoopBounds) : enclosed around (markRecursive name s) =
      (enclosed around s).map (Prod.map id (markRecursive name)) := by
    induction s using inner_induction generalizing around with
    | step s ih =>
        rw [enclosed_eq, enclosed_eq, hbounds, inner_markRecursive, List.map_cons, enclosedAll_eq,
          enclosedAll_eq, List.flatMap_map, List.map_flatMap]
        exact congrArg _ (List.flatMap_congr fun i hi => ih i hi _)
  rw [markRecursiveAll_eq, enclosedAll_eq, enclosedAll_eq, List.flatMap_map, List.map_flatMap]
  exact List.flatMap_congr fun s _ => hone s around

/-! ## Growing inside loops over the input -/

/-- Whether the statement calls a method that grows a collection in place. -/
def isGrowthCall (s : Statement) : Bool := s.callee?.any growthCalls.contains

/-- Whether one of the bounds follows an input. -/
def inInput (around : List LoopBounds) : Bool := around.any (·.isInputBound)

theorem inInput_append (bounds around : List LoopBounds) :
    inInput (bounds ++ around) = (inInput bounds || inInput around) :=
  List.any_append

theorem growsInInputAll_any (k : Bool) (ss : List Statement) :
    growsInInputAll k ss = ss.any (growsInInput k) := by
  induction ss with
  | nil => rfl
  | cons s ss ih => rw [growsInInputAll, ih, List.any_cons]

theorem growsInInputBranches_eq (k : Bool) (branches : List (List Statement)) :
    growsInInputBranches k branches = growsInInputAll k branches.flatten := by
  induction branches with
  | nil => rfl
  | cons b bs ih =>
      rw [growsInInputBranches, ih, List.flatten_cons, growsInInputAll_any _ (b ++ _),
        List.any_append, ← growsInInputAll_any, ← growsInInputAll_any]

theorem growsInInput_eq (k : Bool) (s : Statement) :
    growsInInput k s = (s.isGrowthCall && k ||
      growsInInputAll (inInput s.ownBounds || k) s.inner) := by
  cases s with
  | loop o bounds body => simp [growsInInput, isGrowthCall, callee?, ownBounds, inInput, inner,
      Bool.or_comm]
  | conditional o branches =>
      simp [growsInInput, isGrowthCall, callee?, ownBounds, inInput, inner, growsInInputBranches_eq]
  | call o callee r =>
      simp [growsInInput, isGrowthCall, callee?, inner, growsInInputAll, Bool.and_comm]
  | allocation o d => rfl
  | simple o kind => rfl

/-- The flag that is carried down finds the growth calls with a bound around them that follows an
input. -/
theorem growsInInputAll_iff (around : List LoopBounds) (ss : List Statement) :
    growsInInputAll (inInput around) ss = true ↔
      ∃ e ∈ enclosedAll around ss, e.2.isGrowthCall = true ∧ inInput e.1 = true := by
  have hall {ss : List Statement} {around : List LoopBounds}
      (hone : ∀ s ∈ ss, growsInInput (inInput around) s = true ↔
        ∃ e ∈ enclosed around s, e.2.isGrowthCall = true ∧ inInput e.1 = true) :
      growsInInputAll (inInput around) ss = true ↔
        ∃ e ∈ enclosedAll around ss, e.2.isGrowthCall = true ∧ inInput e.1 = true := by
    rw [growsInInputAll_any, enclosedAll_eq, List.any_eq_true]
    constructor
    · rintro ⟨s, hs, hgrows⟩
      obtain ⟨e, he, hcall⟩ := (hone s hs).mp hgrows
      exact ⟨e, List.mem_flatMap.mpr ⟨s, hs, he⟩, hcall⟩
    · rintro ⟨e, he, hcall⟩
      obtain ⟨s, hs, he⟩ := List.mem_flatMap.mp he
      exact ⟨s, hs, (hone s hs).mpr ⟨e, he, hcall⟩⟩
  have hone (s : Statement) (around : List LoopBounds) : growsInInput (inInput around) s = true ↔
      ∃ e ∈ enclosed around s, e.2.isGrowthCall = true ∧ inInput e.1 = true := by
    induction s using inner_induction generalizing around with
    | step s ih =>
        rw [growsInInput_eq, enclosed_eq, List.exists_mem_cons_iff, ← inInput_append,
          Bool.or_eq_true, Bool.and_eq_true, hall fun i hi => ih i hi _]
  exact hall fun s _ => hone s around

end Statement

/-- The statements of a block at any depth, each with the bounds of the loops around it. -/
def Block.enclosed (b : Block) : List (List LoopBounds × Statement) :=
  Statement.enclosedAll [] b.statements

/-! ## Allocations -/

/-- What stands inside a statement is lowered with the flag that the bounds there give. -/
theorem StatementHead.inInput_ownBounds_append (head : StatementHead) (o : Origin) (flag : Bool)
    (blocks : List (List Statement)) (around : List LoopBounds) :
    Statement.inInput ((head.statement o flag blocks).ownBounds ++ around) =
      (Statement.inInput around || head.opensInput) := by
  rw [Statement.inInput_append, Bool.or_comm]
  cases head <;> simp [statement, Statement.ownBounds, Statement.inInput, opensInput]

namespace Adapter

open Statement

variable {a : Adapter} {p g : Place} {t : SyntaxTree}

/-- A statement was lowered with the flag that the loops around it give. -/
theorem exists_reading_of_mem_enclosed {around : List LoopBounds}
    {e : List LoopBounds × Statement}
    (he : e ∈ enclosedAll around (a.lower (inInput around) p).statements) :
    ∃ x ∈ a.owned p, ∃ head before inside blocks, a.reading x = .statement head before inside ∧
      e.2 = head.statement ⟨x.id, x.startLine⟩ (inInput e.1) blocks := by
  induction p using a.reading_induction generalizing around with
  | step p ih =>
      have hpart {around : List LoopBounds} {q : Place} (hf : a.isFunction p = false)
          (hq : q ∈ (a.reading p).places)
          (heq : e ∈ enclosedAll around (a.lower (inInput around) q).statements) :
          ∃ x ∈ a.owned p, ∃ head before inside blocks,
            a.reading x = .statement head before inside ∧
              e.2 = head.statement ⟨x.id, x.startLine⟩ (inInput e.1) blocks := by
        obtain ⟨x, hx, hrest⟩ := ih q hq heq
        rw [owned_of_not_function hf]
        exact ⟨x, List.mem_cons_of_mem _ (List.mem_flatMap.mpr ⟨q, hq, hx⟩), hrest⟩
      cases hr : a.reading p with
      | through parts =>
          rw [lower_through hr] at he
          simp only [Lowered.concat, List.flatMap_map] at he
          obtain ⟨q, hq, heq⟩ := mem_enclosedAll_flatMap.mp he
          exact hpart (isFunction_of_through hr) (by rw [hr]; exact hq) heq
      | function body =>
          rw [lower_function hr] at he
          cases he
      | statement head before inside =>
          have hf := isFunction_of_statement hr
          rw [lower_statement hr, enclosedAll_append, List.mem_append] at he
          rcases he with he | he
          · obtain ⟨q, hq, heq⟩ := mem_enclosedAll_flatMap.mp he
            exact hpart hf (by rw [hr]; exact List.mem_append_left _ hq) heq
          · rw [enclosedAll, enclosedAll, List.append_nil, enclosed_eq, inner_statement hr,
              List.mem_cons] at he
            rcases he with rfl | he
            · rw [owned_of_not_function hf]
              exact ⟨p, List.mem_cons_self .., head, before, inside, _, hr, rfl⟩
            · obtain ⟨q, hq, heq⟩ := mem_enclosedAll_flatMap.mp he
              generalize hbounds : (head.statement _ _ _).ownBounds ++ around = bounds at heq
              have hflag : inInput bounds = (inInput around || head.opensInput) :=
                hbounds ▸ head.inInput_ownBounds_append ..
              rw [← hflag] at heq
              exact hpart hf (by rw [hr]; exact List.mem_append_right _ hq) heq

/-- Only an allocation becomes one. -/
theorem classify_of_allocation {x : Place} {d : Bool} {before : List Place}
    {inside : List (List Place)} (h : a.reading x = .statement (.allocation d) before inside) :
    a.classify x = some .allocation ∧ d = a.isSizeDependent x := by
  have hreads := a.reads x
  rw [h] at hreads
  generalize hclass : a.classify x = c at hreads
  cases hreads
  exact ⟨rfl, rfl⟩

/-- The allocations of the block come from places whose nearest function is the owner, and each one
depends on the input if a loop around it does or the adapter says so. -/
def AllocatesAs (a : Adapter) (t : SyntaxTree) (owner : Option Nat) (b : Block) : Prop :=
  ∀ around o sized, (around, .allocation o sized) ∈ b.enclosed →
    ∃ x ∈ t.places, x.id = o.node ∧ a.classify x = some .allocation ∧
      (a.program t).owner? x = owner ∧ sized = (inInput around || a.isSizeDependent x)

theorem exists_allocation_of_mem_enclosed {around around' : List LoopBounds} {o : Origin}
    {sized : Bool}
    (he : (around', .allocation o sized) ∈
      enclosedAll around (a.lower (inInput around) p).statements) :
    ∃ x ∈ a.owned p, x.id = o.node ∧ a.classify x = some .allocation ∧
      sized = (inInput around' || a.isSizeDependent x) := by
  obtain ⟨x, hx, head, before, inside, blocks, hr, hs⟩ := exists_reading_of_mem_enclosed he
  cases head with
  | allocation d =>
      obtain ⟨hclass, rfl⟩ := classify_of_allocation hr
      obtain ⟨ho, hsized⟩ := Statement.allocation.inj hs
      exact ⟨x, hx, (congrArg Origin.node ho).symm, hclass, hsized⟩
  | _ => cases hs

theorem allocatesAs_topLevel (h : t.root.Sound) : a.AllocatesAs t none (a.program t).topLevel := by
  intro around o sized he
  have he : (around, .allocation o sized) ∈
      enclosedAll [] (a.lower (inInput []) t.root).statements := he
  obtain ⟨x, hx, hid, hclass, hsized⟩ := exists_allocation_of_mem_enclosed he
  exact ⟨x, mem_descendants_of_mem_visited h (visited_of_owned hx), hid, hclass,
    owner?_of_owned_root h hx, hsized⟩

/-- The body of a function starts without loops around it. -/
theorem mem_enclosed_functionAt {around : List LoopBounds} {o : Origin} {sized : Bool}
    (he : (around, .allocation o sized) ∈ (a.functionAt g).body.enclosed) :
    ∃ q ∈ (a.reading g).bodyParts,
      (around, .allocation o sized) ∈ enclosedAll [] (a.lower (inInput []) q).statements := by
  simp only [functionAt, Lowered.toFunction, Lowered.concat, Block.enclosed, Block.ofStatements,
    List.flatMap_map] at he
  split at he
  next =>
    rw [enclosedAll_markRecursiveAll] at he
    obtain ⟨⟨around', s⟩, hmem, heq⟩ := List.mem_map.mp he
    obtain ⟨rfl, hs⟩ := Prod.mk.inj heq
    cases s with
    | allocation o' sized' =>
        obtain ⟨rfl, rfl⟩ := Statement.allocation.inj hs
        exact mem_enclosedAll_flatMap.mp hmem
    | _ => cases hs
  next => exact mem_enclosedAll_flatMap.mp he

theorem allocatesAs_functionAt (h : t.root.Sound) (hg : g ∈ a.visited t.root)
    (hfun : a.isFunction g = true) : a.AllocatesAs t (some g.id) (a.functionAt g).body := by
  intro around o sized he
  obtain ⟨q, hq, he⟩ := mem_enclosed_functionAt he
  obtain ⟨x, hx, hid, hclass, hsized⟩ := exists_allocation_of_mem_enclosed he
  have hbody : x ∈ a.bodyOwned g := List.mem_flatMap.mpr ⟨q, hq, hx⟩
  exact ⟨x, mem_descendants_of_mem_visited h (visited_of_bodyOwned hg hfun hbody), hid, hclass,
    owner?_of_bodyOwned h hg hfun hbody, hsized⟩

end Adapter

end CodeProfile
