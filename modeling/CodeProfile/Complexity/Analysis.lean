import CodeProfile.Complexity.Advice

/-!
# The complexity of a program

The time and space of a program are the sums over its functions and the code at its top, so that
only what dominates remains. `Program.complexity` reports them together with the inputs that loops
and recursive functions run over, what makes the dominant cost, and advice.
-/

namespace CodeProfile

open Text

namespace Function

def complexity (f : Function) : FunctionComplexity :=
  { name := f.name
    line := f.origin.line
    time := f.time.reduce.bigO
    space := f.space.reduce.bigO
    isRecursive := f.isRecursive
    loopDepth := f.body.loopDepth }

/-- What makes the time of a function, if it is a recursion or a loop. -/
def dominantOperation? (f : Function) : Option String :=
  let depth := f.body.loopDepth
  if f.isRecursive then
    let calls := f.recursiveCallCount
    let plural := if calls = 1 then "" else "s"
    some s!"recursive calls in {f.name} ({calls} self-call{plural})"
  else if 1 < depth then
    some s!"nested loops (depth {depth}) in {f.name} at line {f.origin.line}"
  else if depth = 1 then some s!"loop in {f.name} at line {f.origin.line}"
  else none

end Function

namespace Program

/-- The time of every function and of the code at the top. -/
def timeTerms (p : Program) : List Cost := p.functions.map (·.time.reduce) ++ [p.topLevel.time]

/-- The space of every function and of the code at the top. -/
def spaceTerms (p : Program) : List Cost := p.functions.map (·.space.reduce) ++ [p.topLevel.space]

/-- All statements of the program. -/
def walk (p : Program) : List Statement := p.blocks.flatMap (·.walk)

/-- The bounds of all loops. -/
def loopBounds (p : Program) : List LoopBounds :=
  p.walk.filterMap fun s => match s with
    | .loop _ bounds _ => some bounds
    | _ => none

/-- Names in a bound that name no input. -/
def boundWords : List String := ["self", "this", "range", "len"]

/-- The first name in a bound that names an input. -/
def inputName? (bound : String) : Option String :=
  (splitWhere (fun c => !(isAlphanumeric c || c == '_')) bound).find? fun part =>
    !part.isEmpty && !boundWords.contains part && !part.toList.head?.any Char.isDigit

/-- The inputs that loops run over, and the first parameters of recursive functions, in order of
their characters. -/
def inputSizes (p : Program) : List String :=
  ordered (((p.loopBounds.filter (·.isInputBound)).filterMap fun b => b.boundBy.bind inputName?)
    ++ (p.functions.filter (·.isRecursive)).filterMap (·.parameters.head?))

/-- What makes the time of the program. -/
def dominantOperations (p : Program) (time : String) : List String :=
  let depth := p.topLevel.loopDepth
  (p.functions.filter (·.complexity.time == time)).filterMap (·.dominantOperation?)
    ++ (if 0 < depth && p.topLevel.time.bigO == time then
      [s!"module-level loops (depth {depth})"] else [])

/-- Each loop without a known bound takes a tenth from the confidence, down to three tenths, and a
recursion keeps it at a half or below. -/
def confidence (p : Program) : Float :=
  let unknown := p.loopBounds.countP (·.kind == .unknown)
  let base := Scalar.greatest (0.7 - 0.1 * Float.ofNat unknown) 0.3
  Scalar.clampUnit (if p.functions.any (·.isRecursive) then Scalar.least base 0.5 else base)

/-- The complexity of a program. -/
def complexity (p : Program) : ComplexityReport :=
  let costs := ComplexityReport.ofCosts (.sum p.timeTerms) (.sum p.spaceTerms) .program
  { costs with
    inputSizes := p.inputSizes
    dominantOperations := p.dominantOperations costs.time
    suggestions := Suggestion.forProgram p
    confidence := p.confidence
    functions := p.functions.map (·.complexity) }

end Program

end CodeProfile
