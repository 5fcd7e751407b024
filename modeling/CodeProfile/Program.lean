import CodeProfile.Loop
import CodeProfile.Language
import CodeProfile.Text.Ordered

/-!
# Programs as statements

What of a program matters for its cost: its functions and the code at its top, each as a block of
statements in which loops and conditionals hold further statements. `Block.ofStatements` works out
how deep a block is nested and whether it is left early.
-/

namespace CodeProfile

/-- The node that a statement comes from, and its line. -/
structure Origin where
  node : Nat
  line : Nat
  deriving DecidableEq, Repr, Inhabited

/-- A statement that holds no others and has no details of its own. -/
inductive SimpleStatement where
  | return
  | break
  | continue
  | assignment
  | expression
  | declaration
  deriving DecidableEq, Repr, Inhabited

/-- A statement. -/
inductive Statement where
  | loop (origin : Origin) (bounds : LoopBounds) (body : List Statement)
  | conditional (origin : Origin) (branches : List (List Statement))
  | call (origin : Origin) (callee : String) (isRecursive : Bool)
  | allocation (origin : Origin) (sizeDependent : Bool)
  | simple (origin : Origin) (kind : SimpleStatement)
  deriving Repr, Inhabited

namespace Statement

def origin : Statement → Origin
  | loop o _ _ | conditional o _ | call o _ _ | allocation o _ | simple o _ => o

/-- The statements right inside, of all branches in order. -/
def inner : Statement → List Statement
  | loop _ _ body => body
  | conditional _ branches => branches.flatten
  | _ => []

mutual

/-- The statement itself and everything inside, outer ones first. -/
def walk : Statement → List Statement
  | loop o b body => loop o b body :: walkAll body
  | conditional o branches => conditional o branches :: walkBranches branches
  | s => [s]

/-- Statements with everything inside, outer ones first. -/
def walkAll : List Statement → List Statement
  | [] => []
  | s :: ss => walk s ++ walkAll ss

/-- `walkAll` for every branch in order. -/
def walkBranches : List (List Statement) → List Statement
  | [] => []
  | b :: bs => walkAll b ++ walkBranches bs

end

mutual

/-- How deep loops and conditionals are nested, the statement itself included. -/
def depth : Statement → Nat
  | loop _ _ body => depthAll body + 1
  | conditional _ branches => depthBranches branches + 1
  | _ => 0

/-- The greatest depth of several statements. -/
def depthAll : List Statement → Nat
  | [] => 0
  | s :: ss => max (depth s) (depthAll ss)

/-- The greatest depth in several branches. -/
def depthBranches : List (List Statement) → Nat
  | [] => 0
  | b :: bs => max (depthAll b) (depthBranches bs)

end

mutual

/-- How deep loops are nested, the statement itself included. -/
def loopDepth : Statement → Nat
  | loop _ _ body => loopDepthAll body + 1
  | conditional _ branches => loopDepthBranches branches
  | _ => 0

/-- The greatest loop depth of several statements. -/
def loopDepthAll : List Statement → Nat
  | [] => 0
  | s :: ss => max (loopDepth s) (loopDepthAll ss)

/-- The greatest loop depth in several branches. -/
def loopDepthBranches : List (List Statement) → Nat
  | [] => 0
  | b :: bs => max (loopDepthAll b) (loopDepthBranches bs)

end

mutual

/-- The statement with the calls of the named function marked as recursive and all others not. -/
def markRecursive (name : String) : Statement → Statement
  | loop o b body => loop o b (markRecursiveAll name body)
  | conditional o branches => conditional o (markRecursiveBranches name branches)
  | call o callee _ => call o callee (callee == name)
  | s => s

/-- `markRecursive` for several statements. -/
def markRecursiveAll (name : String) : List Statement → List Statement
  | [] => []
  | s :: ss => markRecursive name s :: markRecursiveAll name ss

/-- `markRecursive` for several branches. -/
def markRecursiveBranches (name : String) : List (List Statement) → List (List Statement)
  | [] => []
  | b :: bs => markRecursiveAll name b :: markRecursiveBranches name bs

end

/-- Whether the statement leaves the code around it. -/
def isExit : Statement → Bool
  | simple _ .return | simple _ .break | simple _ .continue => true
  | _ => false

/-- Whether an exit stands inside the statement. -/
def holdsExit (s : Statement) : Bool := (walkAll s.inner).any isExit

/-- Whether one of the statements leaves before the end: a break or continue, a return that is not
last, or any exit inside a statement. -/
def leavesEarly : List Statement → Bool
  | [] => false
  | s :: ss =>
    (match s with
      | simple _ .break | simple _ .continue => true
      | simple _ .return => !ss.isEmpty
      | _ => false)
      || s.holdsExit || leavesEarly ss

/-- The name that a call calls. -/
def callee? : Statement → Option String
  | call _ callee _ => some callee
  | _ => none

/-- Whether the statement is a call that is marked as recursive. -/
def isRecursiveCall : Statement → Bool
  | call _ _ r => r
  | _ => false

end Statement

/-- A sequence of statements with what is known about it as a whole. -/
structure Block where
  statements : List Statement
  /-- How deep loops and conditionals are nested. -/
  maxDepth : Nat
  hasEarlyExit : Bool
  deriving Repr, Inhabited

namespace Block

def ofStatements (ss : List Statement) : Block :=
  ⟨ss, Statement.depthAll ss, Statement.leavesEarly ss⟩

def isEmpty (b : Block) : Bool := b.statements.isEmpty

/-- All statements at any depth, outer ones first. -/
def walk (b : Block) : List Statement := Statement.walkAll b.statements

/-- The names that are called anywhere in the block, in order of their characters. -/
def callTargets (b : Block) : List String := Text.ordered (b.walk.filterMap Statement.callee?)

end Block

/-- A function of a program. -/
structure Function where
  name : String
  parameters : List String
  body : Block
  /-- The names that are called anywhere in the body. -/
  calls : List String
  isRecursive : Bool
  isEntryPoint : Bool
  origin : Origin
  deriving Repr, Inhabited

namespace Function

/-- How often the function calls itself in its own body. -/
def recursiveCallCount (f : Function) : Nat := f.body.walk.countP Statement.isRecursiveCall

end Function

/-- A program: its functions in order of their place, the code at its top, and the names where it
starts. -/
structure Program where
  language : Language
  functions : List Function
  topLevel : Block
  entryPoints : List String
  deriving Repr, Inhabited

namespace Program

/-- The body of every function and the code at the top. -/
def blocks (p : Program) : List Block := p.functions.map (·.body) ++ [p.topLevel]

end Program

end CodeProfile
