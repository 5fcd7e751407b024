import CodeProfile.Complexity
import CodeProfile.Program

/-!
# The cost of a block

Loops are folded by level of nesting: a level grows as its loosest loop does, and the time of a
block is the product of its levels. Space grows with the input if something of input size is
allocated, or a collection is grown inside a loop over the input.
-/

namespace CodeProfile

/-- The looser growth at each level of two families of loops. -/
def mergeLevels : List LoopGrowth → List LoopGrowth → List LoopGrowth
  | [], bs => bs
  | as, [] => as
  | a :: as, b :: bs => a.max b :: mergeLevels as bs

namespace Statement

mutual

/-- The growth at each level of nested loops, the outermost first. -/
def levels : Statement → List LoopGrowth
  | loop _ bounds body => bounds.growth :: levelsAll body
  | conditional _ branches => levelsBranches branches
  | _ => []

/-- The levels of several statements. -/
def levelsAll : List Statement → List LoopGrowth
  | [] => []
  | s :: ss => mergeLevels (levels s) (levelsAll ss)

/-- The levels of several branches. -/
def levelsBranches : List (List Statement) → List LoopGrowth
  | [] => []
  | b :: bs => mergeLevels (levelsAll b) (levelsBranches bs)

end

/-- Calls that grow a collection in place. -/
def growthCalls : List String :=
  ["push", "append", "add", "insert", "extend", "put", "unshift", "push_back", "concat"]

mutual

/-- Whether a collection is grown inside a loop over the input. -/
def growsInInput (inInput : Bool) : Statement → Bool
  | call _ callee _ => inInput && growthCalls.contains callee
  | loop _ bounds body => growsInInputAll (inInput || bounds.isInputBound) body
  | conditional _ branches => growsInInputBranches inInput branches
  | _ => false

/-- `growsInInput` for one of several statements. -/
def growsInInputAll (inInput : Bool) : List Statement → Bool
  | [] => false
  | s :: ss => growsInInput inInput s || growsInInputAll inInput ss

/-- `growsInInput` for one of several branches. -/
def growsInInputBranches (inInput : Bool) : List (List Statement) → Bool
  | [] => false
  | b :: bs => growsInInputAll inInput b || growsInInputBranches inInput bs

end

/-- Whether the statement allocates in proportion to the input. -/
def isSizedAllocation : Statement → Bool
  | allocation _ sized => sized
  | _ => false

end Statement

namespace Block

/-- The canonical time of a block. -/
def time (b : Block) : Cost :=
  (Cost.product ((Statement.levelsAll b.statements).map LoopGrowth.cost)).reduce

def space (b : Block) : Cost :=
  if b.walk.any Statement.isSizedAllocation || Statement.growsInInputAll false b.statements then .n
  else .one

def loopDepth (b : Block) : Nat := Statement.loopDepthAll b.statements

end Block

namespace Function

/-- A recursive function counts as exponential, since its recurrence is not solved. -/
def time (f : Function) : Cost :=
  if f.isRecursive then .exponential 2 Cost.inputSize else f.body.time

/-- A recursive function needs a stack that grows with the input. -/
def space (f : Function) : Cost :=
  .sum (f.body.space :: if f.isRecursive then [.n] else [])

end Function

end CodeProfile
