import CodeProfile.Complexity.Analysis
import CodeProfile.Proofs.Complexity.Nesting
import CodeProfile.Proofs.Lowering.Statements

/-!
# What the complexity of a program hangs on

The complexity of a program does not depend on the ids of its nodes, on
how the statements of a conditional are shared out to its branches, or
on where the program starts. `Program.bare` leaves these out, and
`complexity_bare` says that nothing is lost.

Each analysis of statements is shown to give the same for a bare
statement: those that look at all statements there are because a walk
through bare statements is the bare walk (`walkAll_bareAll`), the others
because they take the branches of a conditional one after the other
(`InTurn.all_bare`).
-/

namespace CodeProfile

namespace Statement

mutual

/-- The statement without ids, and with the branches of each conditional
run together. -/
def bare : Statement → Statement
  | loop o bounds body => loop ⟨0, o.line⟩ bounds (bareAll body)
  | conditional o branches => conditional ⟨0, o.line⟩ [bareBranches branches]
  | call o callee isRecursive => call ⟨0, o.line⟩ callee isRecursive
  | allocation o sizeDependent => allocation ⟨0, o.line⟩ sizeDependent
  | simple o kind => simple ⟨0, o.line⟩ kind

/-- `bare` for several statements. -/
def bareAll : List Statement → List Statement
  | [] => []
  | s :: ss => bare s :: bareAll ss

/-- `bare` for the statements of several branches. -/
def bareBranches : List (List Statement) → List Statement
  | [] => []
  | b :: bs => bareAll b ++ bareBranches bs

end

theorem bareAll_eq (ss : List Statement) : bareAll ss = ss.map bare := by
  induction ss with
  | nil => rfl
  | cons s ss ih => rw [bareAll, ih, List.map_cons]

theorem bareBranches_eq (branches : List (List Statement)) :
    bareBranches branches = branches.flatten.map bare := by
  induction branches with
  | nil => rfl
  | cons b bs ih => rw [bareBranches, ih, bareAll_eq, List.flatten_cons, List.map_append]

theorem inner_bare (s : Statement) : (bare s).inner = s.inner.map bare := by
  cases s with
  | loop o b body => exact bareAll_eq body
  | conditional o branches =>
      rw [bare, inner, bareBranches_eq, List.flatten_singleton, inner]
  | call o callee r => rfl
  | allocation o d => rfl
  | simple o kind => rfl

theorem walkAll_bareAll (ss : List Statement) :
    walkAll (bareAll ss) = (walkAll ss).map bare := by
  rw [bareAll_eq]
  exact walkAll_map_of_inner inner_bare ss

theorem bare_markRecursive (name : String) (s : Statement) :
    bare (markRecursive name s) = markRecursive name (bare s) := by
  induction s using inner_induction with
  | step s ih =>
      cases s with
      | loop o b body =>
          simp only [markRecursive, bare, bareAll_eq, markRecursiveAll_eq, List.map_map]
          exact congrArg _ (List.map_congr_left ih)
      | conditional o branches =>
          simp only [markRecursive, bare, bareBranches_eq, markRecursiveBranches_eq,
            List.map_cons, List.map_nil, ← List.map_flatten, List.map_map]
          exact congrArg (conditional _ [·]) (List.map_congr_left ih)
      | call o callee r => rfl
      | allocation o d => rfl
      | simple o kind => rfl

theorem bareAll_markRecursiveAll (name : String) (ss : List Statement) :
    bareAll (markRecursiveAll name ss) = markRecursiveAll name (bareAll ss) := by
  simp only [bareAll_eq, markRecursiveAll_eq, List.map_map]
  exact List.map_congr_left fun s _ => bare_markRecursive name s

/-! ## Analyses that take statements in turn -/

/-- The analysis takes statements one after the other, and the branches of
a conditional as if they were one block. A `κ` is what it knows of the
loops around a statement. -/
structure InTurn {κ β : Type} (op : β → β → β) (none : β) (one : κ → Statement → β)
    (all : κ → List Statement → β) (branches : κ → List (List Statement) → β) : Prop where
  op_assoc : ∀ x y z, op (op x y) z = op x (op y z)
  none_op : ∀ x, op none x = x
  all_nil : ∀ k, all k [] = none
  all_cons : ∀ k s ss, all k (s :: ss) = op (one k s) (all k ss)
  branches_nil : ∀ k, branches k [] = none
  branches_cons : ∀ k b bs, branches k (b :: bs) = op (all k b) (branches k bs)
  loop : ∀ k o bounds ss ts, (∀ k, all k ss = all k ts) →
    one k (.loop ⟨0, o.line⟩ bounds ss) = one k (.loop o bounds ts)
  conditional : ∀ k o bs, one k (.conditional o bs) = branches k bs
  call : ∀ k o callee r, one k (.call ⟨0, o.line⟩ callee r) = one k (.call o callee r)
  allocation : ∀ k o d, one k (.allocation ⟨0, o.line⟩ d) = one k (.allocation o d)
  simple : ∀ k o kind, one k (.simple ⟨0, o.line⟩ kind) = one k (.simple o kind)

namespace InTurn

variable {κ β : Type} {op : β → β → β} {none : β} {one : κ → Statement → β}
  {all : κ → List Statement → β} {branches : κ → List (List Statement) → β}
  (h : InTurn op none one all branches)
include h

theorem all_append (k : κ) (ss ts : List Statement) :
    all k (ss ++ ts) = op (all k ss) (all k ts) := by
  induction ss with
  | nil => rw [List.nil_append, h.all_nil, h.none_op]
  | cons s ss ih => rw [List.cons_append, h.all_cons, ih, h.all_cons, h.op_assoc]

theorem branches_eq (k : κ) (bs : List (List Statement)) : branches k bs = all k bs.flatten := by
  induction bs with
  | nil => rw [h.branches_nil, List.flatten_nil, h.all_nil]
  | cons b bs ih => rw [h.branches_cons, ih, List.flatten_cons, h.all_append]

theorem all_map {f : Statement → Statement} {ss : List Statement}
    (hf : ∀ s ∈ ss, ∀ k, one k (f s) = one k s) (k : κ) : all k (ss.map f) = all k ss := by
  induction ss with
  | nil => rfl
  | cons s ss ih =>
      obtain ⟨hs, hss⟩ := List.forall_mem_cons.mp hf
      rw [List.map_cons, h.all_cons, hs, ih hss, h.all_cons]

theorem one_bare (s : Statement) : ∀ k, one k (bare s) = one k s := by
  induction s using inner_induction with
  | step s ih =>
      intro k
      cases s with
      | loop o bounds body =>
          rw [bare, bareAll_eq]
          exact h.loop k o bounds _ _ (h.all_map ih)
      | conditional o bs =>
          rw [bare, bareBranches_eq, h.conditional, h.conditional, h.branches_eq, h.branches_eq,
            List.flatten_singleton]
          exact h.all_map ih k
      | call o callee r => exact h.call k o callee r
      | allocation o d => exact h.allocation k o d
      | simple o kind => exact h.simple k o kind

theorem all_bare (k : κ) (ss : List Statement) : all k (bareAll ss) = all k ss := by
  rw [bareAll_eq]
  exact h.all_map (fun s _ => h.one_bare s) k

end InTurn

theorem mergeLevels_assoc (as bs cs : List LoopGrowth) :
    mergeLevels (mergeLevels as bs) cs = mergeLevels as (mergeLevels bs cs) := by
  refine List.ext_getElem? fun level => ?_
  rw [getElem?_mergeLevels, getElem?_mergeLevels, getElem?_mergeLevels, getElem?_mergeLevels,
    LoopGrowth.merge_assoc]

theorem levels_inTurn :
    InTurn mergeLevels [] (fun _ : Unit => levels) (fun _ => levelsAll)
      fun _ => levelsBranches where
  op_assoc := mergeLevels_assoc
  none_op _ := by rw [mergeLevels]
  all_nil _ := rfl
  all_cons _ _ _ := rfl
  branches_nil _ := rfl
  branches_cons _ _ _ := rfl
  loop _ o bounds ss ts h := by rw [levels, h (), levels]
  conditional _ _ _ := rfl
  call _ _ _ _ := rfl
  allocation _ _ _ := rfl
  simple _ _ _ := rfl

theorem levelsAll_bare (ss : List Statement) : levelsAll (bareAll ss) = levelsAll ss :=
  levels_inTurn.all_bare () ss

theorem loopDepthAll_bare (ss : List Statement) : loopDepthAll (bareAll ss) = loopDepthAll ss := by
  rw [← length_levelsAll, levelsAll_bare, length_levelsAll]

theorem growsInInput_inTurn :
    InTurn or false growsInInput growsInInputAll growsInInputBranches where
  op_assoc := Bool.or_assoc
  none_op := Bool.false_or
  all_nil _ := rfl
  all_cons _ _ _ := rfl
  branches_nil _ := rfl
  branches_cons _ _ _ := rfl
  loop _ o bounds ss ts h := by rw [growsInInput, h, growsInInput]
  conditional _ _ _ := rfl
  call _ _ _ _ := rfl
  allocation _ _ _ := rfl
  simple _ _ _ := rfl

theorem nestedLinearLoop?_inTurn :
    InTurn Option.or none nestedLinearLoop? nestedLinearLoopAll? nestedLinearLoopBranches? where
  op_assoc _ _ _ := Option.or_assoc
  none_op _ := Option.none_or
  all_nil _ := rfl
  all_cons _ _ _ := rfl
  branches_nil _ := rfl
  branches_cons _ _ _ := rfl
  loop _ o bounds ss ts h := by rw [nestedLinearLoop?, h, nestedLinearLoop?]
  conditional _ _ _ := rfl
  call _ _ _ _ := rfl
  allocation _ _ _ := rfl
  simple _ _ _ := rfl

theorem allocationInLoop?_inTurn :
    InTurn Option.or none allocationInLoop? allocationInLoopAll? allocationInLoopBranches? where
  op_assoc _ _ _ := Option.or_assoc
  none_op _ := Option.none_or
  all_nil _ := rfl
  all_cons _ _ _ := rfl
  branches_nil _ := rfl
  branches_cons _ _ _ := rfl
  loop _ o bounds ss ts h := by rw [allocationInLoop?, h, allocationInLoop?]
  conditional _ _ _ := rfl
  call _ _ _ _ := rfl
  allocation _ _ _ := rfl
  simple _ _ _ := rfl

/-! ## Properties of single statements -/

theorem isSizedAllocation_bare (s : Statement) :
    (bare s).isSizedAllocation = s.isSizedAllocation := by
  cases s <;> rfl

theorem callee?_bare (s : Statement) : (bare s).callee? = s.callee? := by
  cases s <;> rfl

theorem isRecursiveCall_bare (s : Statement) : (bare s).isRecursiveCall = s.isRecursiveCall := by
  cases s <;> rfl

end Statement

namespace Block

/-- The block of the bare statements. -/
def bare (b : Block) : Block := ⟨Statement.bareAll b.statements, 0, false⟩

theorem walk_bare (b : Block) : b.bare.walk = b.walk.map Statement.bare :=
  Statement.walkAll_bareAll b.statements

theorem time_bare (b : Block) : b.bare.time = b.time := by
  rw [time, bare, Statement.levelsAll_bare, time]

theorem space_bare (b : Block) : b.bare.space = b.space := by
  rw [space, walk_bare, List.any_map, bare, Statement.growsInInput_inTurn.all_bare, space]
  simp only [Function.comp_def, Statement.isSizedAllocation_bare]

theorem loopDepth_bare (b : Block) : b.bare.loopDepth = b.loopDepth :=
  Statement.loopDepthAll_bare b.statements

theorem callTargets_bare (b : Block) : b.bare.callTargets = b.callTargets := by
  rw [callTargets, walk_bare, List.filterMap_map, callTargets]
  simp only [Function.comp_def, Statement.callee?_bare]

theorem forLoops_bare (target : String) (b : Block) :
    Suggestion.forLoops target b.bare = Suggestion.forLoops target b := by
  rw [Suggestion.forLoops, bare, Statement.nestedLinearLoop?_inTurn.all_bare,
    Statement.allocationInLoop?_inTurn.all_bare, Suggestion.forLoops]

end Block

namespace Function

/-- The function with a bare body, without its id and whether the program
starts there. -/
def bare (f : Function) : Function :=
  { f with body := f.body.bare, isEntryPoint := false, origin := ⟨0, f.origin.line⟩ }

theorem time_bare (f : Function) : f.bare.time = f.time := by
  simp only [time, bare, Block.time_bare]

theorem space_bare (f : Function) : f.bare.space = f.space := by
  rw [space, bare, Block.space_bare, space]

theorem complexity_bare (f : Function) : f.bare.complexity = f.complexity := by
  rw [complexity, time_bare, space_bare, complexity, bare, Block.loopDepth_bare]

theorem recursiveCallCount_bare (f : Function) :
    f.bare.recursiveCallCount = f.recursiveCallCount := by
  rw [recursiveCallCount, bare, Block.walk_bare, List.countP_map, recursiveCallCount]
  simp only [Function.comp_def, Statement.isRecursiveCall_bare]

theorem dominantOperation?_bare (f : Function) :
    f.bare.dominantOperation? = f.dominantOperation? := by
  rw [dominantOperation?, recursiveCallCount_bare, dominantOperation?, bare, Block.loopDepth_bare]

theorem forFunction_bare (f : Function) :
    Suggestion.forFunction f.bare = Suggestion.forFunction f := by
  rw [Suggestion.forFunction, Suggestion.forRecursion, recursiveCallCount_bare,
    Suggestion.forFunction, Suggestion.forRecursion, bare, Block.forLoops_bare]

end Function

namespace Program

/-- The program with bare functions and bare code at the top, without the
names where it starts. -/
def bare (p : Program) : Program :=
  { p with
    functions := p.functions.map Function.bare
    topLevel := p.topLevel.bare
    entryPoints := [] }

theorem loopBounds_bare (p : Program) : p.bare.loopBounds = p.loopBounds := by
  have hblocks : p.bare.blocks = p.blocks.map Block.bare := by
    simp only [blocks, bare, List.map_append, List.map_map]
    rfl
  have hwalk : p.bare.walk = p.walk.map Statement.bare := by
    rw [walk, hblocks, List.flatMap_map, walk, List.map_flatMap]
    simp only [Block.walk_bare]
  rw [loopBounds, hwalk, List.filterMap_map, loopBounds]
  refine congrArg (List.filterMap · p.walk) (funext fun s => ?_)
  cases s <;> rfl

theorem complexity_bare (p : Program) : p.bare.complexity = p.complexity := by
  have htime : p.bare.timeTerms = p.timeTerms := by
    simp only [timeTerms, bare, List.map_map, Function.comp_def, Function.time_bare,
      Block.time_bare]
  have hspace : p.bare.spaceTerms = p.spaceTerms := by
    simp only [spaceTerms, bare, List.map_map, Function.comp_def, Function.space_bare,
      Block.space_bare]
  have hinputs : p.bare.inputSizes = p.inputSizes := by
    rw [inputSizes, loopBounds_bare, bare, List.filter_map, List.filterMap_map, inputSizes]
    rfl
  have hdominant (time : String) : p.bare.dominantOperations time = p.dominantOperations time := by
    simp only [dominantOperations, bare, List.filter_map, List.filterMap_map, Function.comp_def,
      Function.complexity_bare, Function.dominantOperation?_bare, Block.loopDepth_bare,
      Block.time_bare]
  have hsuggestions : Suggestion.forProgram p.bare = Suggestion.forProgram p := by
    simp only [Suggestion.forProgram, bare, List.flatMap_map, Function.forFunction_bare,
      Block.forLoops_bare]
  have hconfidence : p.bare.confidence = p.confidence := by
    rw [confidence, loopBounds_bare, bare, List.any_map, confidence]
    rfl
  have hfunctions : p.bare.functions.map Function.complexity
      = p.functions.map Function.complexity := by
    simp only [bare, List.map_map, Function.comp_def, Function.complexity_bare]
  rw [complexity, htime, hspace, hinputs, hdominant, hsuggestions, hconfidence, hfunctions,
    complexity]

end Program

end CodeProfile
