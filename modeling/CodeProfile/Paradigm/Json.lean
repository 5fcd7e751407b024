import CodeProfile.Json
import CodeProfile.Paradigm

/-!
# Paradigm reports as JSON
-/

namespace CodeProfile

open Json

namespace Paradigm

def ofName? (s : String) : Option Paradigm :=
  [objectOriented, functional, procedural, unknown].find? (·.name = s)

def toJson (p : Paradigm) : Json := .string p.name

def ofJson? (j : Json) : Option Paradigm := j.toName?.bind ofName?

end Paradigm

namespace PatternCounts

def toJson (c : PatternCounts Float) : Json :=
  .object [("classes", .nat c.classes), ("functions", .nat c.functions),
    ("methods", .nat c.methods), ("loops", .nat c.loops), ("lambdas", .nat c.lambdas),
    ("higherOrderFunctions", .nat c.higherOrderFunctions),
    ("arrayCombinators", .nat c.arrayCombinators), ("mutations", .nat c.mutations),
    ("sideEffectCalls", .nat c.sideEffectCalls), ("receiverReferences", .nat c.receiverReferences),
    ("inheritance", .nat c.inheritance), ("topLevelStatements", .nat c.topLevelStatements),
    ("pureFunctions", .float c.pureFunctions)]

def ofJson? (j : Json) : Option (PatternCounts Float) := do
  let j ← j.record? ["classes", "functions", "methods", "loops", "lambdas", "higherOrderFunctions",
    "arrayCombinators", "mutations", "sideEffectCalls", "receiverReferences", "inheritance",
    "topLevelStatements", "pureFunctions"]
  return {
    classes := ← j.field "classes" toWord64?
    functions := ← j.field "functions" toWord64?
    methods := ← j.field "methods" toWord64?
    loops := ← j.field "loops" toWord64?
    lambdas := ← j.field "lambdas" toWord64?
    higherOrderFunctions := ← j.field "higherOrderFunctions" toWord64?
    arrayCombinators := ← j.field "arrayCombinators" toWord64?
    mutations := ← j.field "mutations" toWord64?
    sideEffectCalls := ← j.field "sideEffectCalls" toWord64?
    receiverReferences := ← j.field "receiverReferences" toWord64?
    inheritance := ← j.field "inheritance" toWord64?
    topLevelStatements := ← j.field "topLevelStatements" toWord64?
    pureFunctions := ← j.field "pureFunctions" toFloat? }

end PatternCounts

namespace ParadigmScores

def toJson (s : ParadigmScores Float) : Json :=
  .object [("objectOriented", .float s.objectOriented), ("functional", .float s.functional),
    ("procedural", .float s.procedural)]

def ofJson? (j : Json) : Option (ParadigmScores Float) := do
  let j ← j.record? ["objectOriented", "functional", "procedural"]
  return {
    objectOriented := ← j.field "objectOriented" toFloat?
    functional := ← j.field "functional" toFloat?
    procedural := ← j.field "procedural" toFloat? }

end ParadigmScores

namespace ParadigmReport

def toJson (r : ParadigmReport Float) : Json :=
  .object [("primary", r.primary.toJson), ("secondary", ofOption Paradigm.toJson r.secondary),
    ("confidence", .float r.confidence), ("scores", r.scores.toJson),
    ("patternCounts", r.counts.toJson), ("details", strings r.details)]

def ofJson? (j : Json) : Option (ParadigmReport Float) := do
  let j ← j.record? ["primary", "secondary", "confidence", "scores", "patternCounts", "details"]
  return {
    primary := ← j.field "primary" Paradigm.ofJson?
    secondary := ← j.optionalField "secondary" Paradigm.ofJson?
    confidence := ← j.field "confidence" toFloat?
    scores := ← j.field "scores" ParadigmScores.ofJson?
    counts := ← j.field "patternCounts" PatternCounts.ofJson?
    details := ← j.field "details" (toList? toText?) }

end ParadigmReport

end CodeProfile
