import CodeProfile.Cost.Reduction
import CodeProfile.Number.Scalar

/-!
# What is known about the complexity of a snippet

The report on time and space: for the whole snippet and for each function, with the inputs on whose
size the cost hangs, the operations that dominate it, and advice.
-/

namespace CodeProfile

/-- How a complexity was found. -/
inductive ComplexityMethod where
  /-- From the statements of the program. -/
  | program
  /-- From the shape of the tree alone. -/
  | tree
  /-- There was no tree. -/
  | none
  deriving DecidableEq, Repr, Inhabited

/-- What a piece of advice asks for. -/
inductive SuggestionKind where
  /-- Look values up instead of scanning for them. -/
  | hashing
  /-- Keep the results of calls that repeat. -/
  | memoization
  /-- Turn a recursion into a loop. -/
  | iterativeConversion
  /-- Move an allocation out of a loop. -/
  | hoistAllocation
  deriving DecidableEq, Repr, Inhabited

/-- A piece of advice. -/
structure Suggestion where
  kind : SuggestionKind
  target : String
  line : Nat
  message : String
  expectedImprovement : Option String
  deriving DecidableEq, Repr, Inhabited

/-- The complexity of one function. -/
structure FunctionComplexity where
  name : String
  line : Nat
  time : String
  space : String
  isRecursive : Bool
  loopDepth : Nat
  deriving DecidableEq, Repr, Inhabited

/-- The complexity of a snippet. -/
structure ComplexityReport where
  time : String
  space : String
  timeCost : Option Cost
  spaceCost : Option Cost
  inputSizes : List String
  dominantOperations : List String
  suggestions : List Suggestion
  method : ComplexityMethod
  confidence : Float
  functions : List FunctionComplexity
  deriving Inhabited

namespace ComplexityReport

/-- What is reported when there is no tree. -/
def unknown : ComplexityReport :=
  { time := "unknown", space := "unknown", timeCost := none, spaceCost := none, inputSizes := []
    dominantOperations := [], suggestions := [], method := .none, confidence := 0.0
    functions := [] }

/-- A report with these costs and nothing else. -/
def ofCosts (time space : Cost) (method : ComplexityMethod) : ComplexityReport :=
  let time := time.reduce
  let space := space.reduce
  { unknown with
    time := time.bigO, space := space.bigO, timeCost := some time, spaceCost := some space, method }

def isExponential (r : ComplexityReport) : Bool := r.timeCost.any Cost.isExponential

end ComplexityReport

/-- The name under which the code at the top of a snippet is reported. -/
def moduleScope : String := "<module>"

end CodeProfile
