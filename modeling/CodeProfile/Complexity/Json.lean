import CodeProfile.Complexity
import CodeProfile.Cost.Json

/-!
# Complexity reports as JSON
-/

namespace CodeProfile

open Json

namespace ComplexityMethod

def id : ComplexityMethod → String
  | program => "ir"
  | tree => "legacy"
  | none => "none"

def ofId? (s : String) : Option ComplexityMethod := [program, tree, none].find? (·.id = s)

end ComplexityMethod

namespace SuggestionKind

def id : SuggestionKind → String
  | hashing => "hashing"
  | memoization => "memoization"
  | iterativeConversion => "iterative-conversion"
  | hoistAllocation => "hoist-allocation"

def ofId? (s : String) : Option SuggestionKind :=
  [hashing, memoization, iterativeConversion, hoistAllocation].find? (·.id = s)

end SuggestionKind

namespace Suggestion

def toJson (s : Suggestion) : Json :=
  .object [("kind", .string s.kind.id), ("target", .string s.target), ("line", .nat s.line),
    ("message", .string s.message), ("expectedImprovement", optionalString s.expectedImprovement)]

def ofJson? (j : Json) : Option Suggestion := do
  let j ← j.record? ["kind", "target", "line", "message", "expectedImprovement"]
  return {
    kind := ← (← j.field "kind" toName?) |> SuggestionKind.ofId?
    target := ← j.field "target" toText?
    line := ← j.field "line" toWord64?
    message := ← j.field "message" toText?
    expectedImprovement := ← j.optionalField "expectedImprovement" toText? }

end Suggestion

namespace FunctionComplexity

def toJson (f : FunctionComplexity) : Json :=
  .object [("name", .string f.name), ("line", .nat f.line), ("timeComplexity", .string f.time),
    ("spaceComplexity", .string f.space), ("isRecursive", .bool f.isRecursive),
    ("loopDepth", .nat f.loopDepth)]

def ofJson? (j : Json) : Option FunctionComplexity := do
  let j ← j.record? ["name", "line", "timeComplexity", "spaceComplexity", "isRecursive",
    "loopDepth"]
  return {
    name := ← j.field "name" toText?
    line := ← j.field "line" toWord64?
    time := ← j.field "timeComplexity" toText?
    space := ← j.field "spaceComplexity" toText?
    isRecursive := ← j.field "isRecursive" toBool?
    loopDepth := ← j.field "loopDepth" toWord64? }

end FunctionComplexity

namespace ComplexityReport

def toJson (r : ComplexityReport) : Json :=
  .object [("timeComplexity", .string r.time), ("spaceComplexity", .string r.space),
    ("timeCost", ofOption Cost.toJson r.timeCost), ("spaceCost", ofOption Cost.toJson r.spaceCost),
    ("inputSizes", strings r.inputSizes), ("dominantOperations", strings r.dominantOperations),
    ("optimizationSuggestions", ofList Suggestion.toJson r.suggestions),
    ("method", .string r.method.id), ("confidence", .float r.confidence),
    ("functions", ofList FunctionComplexity.toJson r.functions)]

def ofJson? (j : Json) : Option ComplexityReport := do
  let j ← j.record? ["timeComplexity", "spaceComplexity", "timeCost", "spaceCost", "inputSizes",
    "dominantOperations", "optimizationSuggestions", "method", "confidence", "functions"]
  return {
    time := ← j.field "timeComplexity" toText?
    space := ← j.field "spaceComplexity" toText?
    timeCost := ← j.optionalField "timeCost" (Cost.ofJson? false)
    spaceCost := ← j.optionalField "spaceCost" (Cost.ofJson? false)
    inputSizes := ← j.field "inputSizes" (toList? toText?)
    dominantOperations := ← j.field "dominantOperations" (toList? toText?)
    suggestions := ← j.field "optimizationSuggestions" (toList? Suggestion.ofJson?)
    method := ← (← j.field "method" toName?) |> ComplexityMethod.ofId?
    confidence := ← j.field "confidence" toFloat?
    functions := ← j.field "functions" (toList? FunctionComplexity.ofJson?) }

end ComplexityReport

end CodeProfile
