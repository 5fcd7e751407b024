import CodeProfile.Complexity.Levels

/-!
# Advice on a program

A loop over the input inside another one can often be replaced by look-ups, an allocation inside a
loop can often be moved out of it, and a recursion can keep its results or become a loop. Each block
gets at most one piece of advice of a kind, at the first line that calls for it.
-/

namespace CodeProfile

namespace Statement

mutual

/-- The line of the first linear loop inside another linear loop. -/
def nestedLinearLoop? (insideLinear : Bool) : Statement → Option Nat
  | loop o bounds body =>
    let linear := bounds.growth == .linear
    if linear && insideLinear then some o.line
    else nestedLinearLoopAll? (insideLinear || linear) body
  | conditional _ branches => nestedLinearLoopBranches? insideLinear branches
  | _ => none

/-- `nestedLinearLoop?` for several statements. -/
def nestedLinearLoopAll? (insideLinear : Bool) : List Statement → Option Nat
  | [] => none
  | s :: ss => (nestedLinearLoop? insideLinear s).or (nestedLinearLoopAll? insideLinear ss)

/-- `nestedLinearLoop?` for several branches. -/
def nestedLinearLoopBranches? (insideLinear : Bool) : List (List Statement) → Option Nat
  | [] => none
  | b :: bs => (nestedLinearLoopAll? insideLinear b).or (nestedLinearLoopBranches? insideLinear bs)

end

mutual

/-- The line of the first allocation inside a loop. -/
def allocationInLoop? (inLoop : Bool) : Statement → Option Nat
  | allocation o _ => if inLoop then some o.line else none
  | loop _ _ body => allocationInLoopAll? true body
  | conditional _ branches => allocationInLoopBranches? inLoop branches
  | _ => none

/-- `allocationInLoop?` for several statements. -/
def allocationInLoopAll? (inLoop : Bool) : List Statement → Option Nat
  | [] => none
  | s :: ss => (allocationInLoop? inLoop s).or (allocationInLoopAll? inLoop ss)

/-- `allocationInLoop?` for several branches. -/
def allocationInLoopBranches? (inLoop : Bool) : List (List Statement) → Option Nat
  | [] => none
  | b :: bs => (allocationInLoopAll? inLoop b).or (allocationInLoopBranches? inLoop bs)

end

end Statement

namespace Suggestion

/-- Advice on the loops of a block. -/
def forLoops (target : String) (b : Block) : List Suggestion :=
  ((Statement.nestedLinearLoopAll? false b.statements).toList.map fun line =>
    { kind := .hashing, target, line
      message := "nested loops over the input in \x60" ++ target
        ++ "\x60; a hash set or map lookup can replace the inner scan"
      expectedImprovement := some "O(n^2) -> O(n)" })
  ++ ((Statement.allocationInLoopAll? false b.statements).toList.map fun line =>
    { kind := .hoistAllocation, target, line
      message := "allocation inside a loop in \x60" ++ target
        ++ "\x60; hoist it or reuse a buffer across iterations"
      expectedImprovement := none })

/-- Advice on a function that calls itself. -/
def forRecursion (f : Function) : Suggestion :=
  if 2 ≤ f.recursiveCallCount then
    { kind := .memoization, target := f.name, line := f.origin.line
      message := "\x60" ++ f.name ++ "\x60 calls itself " ++ toString f.recursiveCallCount
        ++ " times per invocation; memoize results of overlapping subproblems"
      expectedImprovement := some "O(2^n) -> O(n)" }
  else
    { kind := .iterativeConversion, target := f.name, line := f.origin.line
      message := "\x60" ++ f.name
        ++ "\x60 recurses once per call; an iterative loop avoids O(n) stack growth"
      expectedImprovement := some "O(n) stack -> O(1) stack" }

/-- Advice on a function. -/
def forFunction (f : Function) : List Suggestion :=
  (if f.isRecursive then [forRecursion f] else []) ++ forLoops f.name f.body

/-- Advice on a program: on its functions in order, then on the code at its top. -/
def forProgram (p : Program) : List Suggestion :=
  p.functions.flatMap forFunction ++ forLoops moduleScope p.topLevel

end Suggestion

end CodeProfile
