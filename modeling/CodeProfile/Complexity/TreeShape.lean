import CodeProfile.Adapter.Registry
import CodeProfile.Complexity
import CodeProfile.Complexity.Analysis
import CodeProfile.Program.Lowering

/-!
# Complexity from the shape of a tree

Without an adapter the depth of nested loop nodes stands for the time, and a function whose text
names itself as a call counts as exponential. `SyntaxTree.complexity` uses this only where no
adapter is registered.
-/

namespace CodeProfile

open Text

/-- Node kinds of loops in grammars that are not bundled. -/
def extraLoopKinds : List String := ["foreach_statement", "for_range_loop", "repeat_statement"]

/-- The node kinds of all bundled grammars. -/
def allNodeKinds : List NodeKinds :=
  [javaScriptKinds, pythonKinds, goKinds, javaKinds, rustKinds, cKinds]

/-- Whether a kind is a loop in any grammar. -/
def isAnyLoopKind (kind : String) : Bool :=
  extraLoopKinds.contains kind || allNodeKinds.any (·.isLoop kind)

/-- Whether a kind is a function in any grammar. -/
def isAnyFunctionKind (kind : String) : Bool := allNodeKinds.any (·.isFunction kind)

namespace Node

mutual

/-- How deep loop nodes are nested below a node. -/
def maxLoopDepth : Node → Nat
  | mk _ children => maxLoopDepthAll children

/-- How deep loop nodes are nested in several nodes, the nodes themselves included. -/
def maxLoopDepthAll : List Node → Nat
  | [] => 0
  | c :: cs =>
    max (maxLoopDepth c + (if isAnyLoopKind c.info.kind then 1 else 0)) (maxLoopDepthAll cs)

end

mutual

/-- The name that a declarator declares, inside any declarators nested in it. -/
def declaredName : Node → String
  | mk info children => (declaredNameIn children).getD info.text

/-- The name that the first declarator among the nodes declares. -/
def declaredNameIn : List Node → Option String
  | [] => none
  | c :: cs =>
    if c.info.field == some "declarator" then some (declaredName c) else declaredNameIn cs

end

end Node

namespace SyntaxTree

/-- How often the text of a function body names the function as a call. -/
def selfCallCount (function : Place) (name : String) : Nat :=
  match function.childByField? "body" with
  | none => 0
  | some body =>
    let call := Pattern.seq (.anchor .wordEdge) (.seq (.literal name) (.ofText r"\s*\("))
    call.count body.text

/-- The cost of loops nested to a depth. -/
def nestedCost (depth : Nat) : Cost :=
  if depth = 0 then .one
  else if depth = 1 then .n
  else .polynomial (UInt32.ofNat depth) Cost.inputSize

/-- A function and how often it calls itself. -/
structure ShapedFunction where
  name : String
  line : Nat
  selfCalls : Nat
  loopDepth : Nat

/-- The functions that have a name. -/
def shapedFunctions (t : SyntaxTree) : List ShapedFunction :=
  (t.places.filter fun p => isAnyFunctionKind p.kind).filterMap fun p => do
    let named ← (p.childByField? "name").or (p.childByField? "declarator")
    let name := named.node.declaredName
    return ⟨name, p.startLine, selfCallCount p name, p.node.maxLoopDepth⟩

namespace ShapedFunction

def isRecursive (f : ShapedFunction) : Bool := 0 < f.selfCalls

def complexity (f : ShapedFunction) : FunctionComplexity :=
  let time := if f.isRecursive then .exponential 2 Cost.inputSize else nestedCost f.loopDepth
  { name := f.name
    line := f.line
    time := time.bigO
    space := (if f.isRecursive then Cost.n else .one).bigO
    isRecursive := f.isRecursive
    loopDepth := f.loopDepth }

/-- Advice on a function that calls itself. -/
def suggestion (f : ShapedFunction) : Suggestion :=
  if 2 ≤ f.selfCalls then
    { kind := .memoization, target := f.name, line := f.line
      message := "\x60" ++ f.name
        ++ "\x60 calls itself more than once; memoize overlapping subproblems"
      expectedImprovement := some "O(2^n) -> O(n)" }
  else
    { kind := .iterativeConversion, target := f.name, line := f.line
      message := "\x60" ++ f.name
        ++ "\x60 recurses once per call; an iterative loop avoids stack growth"
      expectedImprovement := none }

end ShapedFunction

/-- The line of the first loop node inside another. -/
def firstNestedLoopLine? (t : SyntaxTree) : Option Nat :=
  (t.places.find? fun p => isAnyLoopKind p.kind && p.above.any (isAnyLoopKind ·.kind)).map
    (·.startLine)

/-- The complexity that the shape of a tree suggests. -/
def shapeComplexity (t : SyntaxTree) : ComplexityReport :=
  let depth := t.rootNode.maxLoopDepth
  let functions := t.shapedFunctions
  let recursive := functions.filter (·.isRecursive)
  let costs :=
    if recursive.isEmpty then ComplexityReport.ofCosts (nestedCost depth) .one .tree
    else .ofCosts (.exponential 2 Cost.inputSize) .n .tree
  let loopOperations :=
    if 2 ≤ depth then [s!"nested loops (depth {depth})"]
    else if depth = 1 ∧ recursive.isEmpty then ["single loop"]
    else []
  let loopAdvice : List Suggestion :=
    if 2 ≤ depth then
      [{ kind := .hashing, target := moduleScope, line := t.firstNestedLoopLine?.getD 1
         message := "nested loops; a hash set or map lookup can replace the inner scan"
         expectedImprovement := some s!"O(n^{depth}) -> O(n^{depth - 1})" }]
    else []
  { costs with
    confidence := 0.4
    dominantOperations := recursive.map (fun f =>
      s!"recursive calls in {f.name} ({f.selfCalls} textual self-calls)") ++ loopOperations
    suggestions := recursive.map (·.suggestion) ++ loopAdvice
    functions := functions.map (·.complexity) }

/-- The complexity of a tree: from its statements where an adapter is registered for its language,
and from its shape otherwise. -/
def complexity (r : Registry) (t : SyntaxTree) : ComplexityReport :=
  match r.get? t.language with
  | some adapter => (adapter.program t).complexity
  | none => t.shapeComplexity

end SyntaxTree

end CodeProfile
