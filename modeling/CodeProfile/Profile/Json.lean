import CodeProfile.CodeType.Json
import CodeProfile.Complexity.Json
import CodeProfile.Language.Json
import CodeProfile.Library.Json
import CodeProfile.Paradigm.Json
import CodeProfile.Profile

/-!
# Profiles as JSON

The keys stand in the order in which the parts are declared.
-/

namespace CodeProfile

open Json

namespace Metrics

def toJson (m : Metrics) : Json :=
  .object [("lines", .nat m.lines), ("nonEmptyLines", .nat m.nonEmptyLines),
    ("commentLines", .nat m.commentLines), ("functionCount", .nat m.functions),
    ("classCount", .nat m.classes), ("loopCount", .nat m.loops),
    ("decisionPoints", .nat m.decisionPoints), ("cyclomaticComplexity", .nat m.cyclomatic),
    ("maxNesting", .nat m.maxNesting), ("syntaxErrors", .nat m.syntaxErrors)]

def ofJson? (j : Json) : Option Metrics := do
  let j ← j.record? ["lines", "nonEmptyLines", "commentLines", "functionCount", "classCount",
    "loopCount", "decisionPoints", "cyclomaticComplexity", "maxNesting", "syntaxErrors"]
  return {
    lines := ← j.field "lines" toWord64?
    nonEmptyLines := ← j.field "nonEmptyLines" toWord64?
    commentLines := ← j.field "commentLines" toWord64?
    functions := ← j.field "functionCount" toWord64?
    classes := ← j.field "classCount" toWord64?
    loops := ← j.field "loopCount" toWord64?
    decisionPoints := ← j.field "decisionPoints" toWord64?
    cyclomatic := ← j.field "cyclomaticComplexity" toWord64?
    maxNesting := ← j.field "maxNesting" toWord64?
    syntaxErrors := ← j.field "syntaxErrors" toWord64? }

end Metrics

namespace SignalKind

def id : SignalKind → String
  | console => "console"
  | fileSystem => "file-system"
  | network => "network"
  | process => "process"
  | dom => "dom"
  | storage => "storage"
  | random => "random"
  | clock => "clock"
  | async => "async"

def ofId? (s : String) : Option SignalKind :=
  [console, fileSystem, network, process, dom, storage, random, clock, async].find? (·.id = s)

end SignalKind

namespace SignalHit

def toJson (h : SignalHit) : Json :=
  .object [("kind", .string h.kind.id), ("label", .string h.label), ("count", .nat h.count)]

def ofJson? (j : Json) : Option SignalHit := do
  let j ← j.record? ["kind", "label", "count"]
  return ⟨← (← j.field "kind" toName?) |> SignalKind.ofId?, ← j.field "label" toText?,
    ← j.field "count" toWord64?⟩

end SignalHit

namespace Behavior

def toJson (b : Behavior) : Json :=
  .object [("isDeterministic", .bool b.isDeterministic), ("hasSideEffects", .bool b.hasSideEffects),
    ("hasIo", .bool b.hasInputOutput), ("isAsync", .bool b.isAsync),
    ("sources", ofList SignalHit.toJson b.sources)]

def ofJson? (j : Json) : Option Behavior := do
  let j ← j.record? ["isDeterministic", "hasSideEffects", "hasIo", "isAsync", "sources"]
  return {
    isDeterministic := ← j.field "isDeterministic" toBool?
    hasSideEffects := ← j.field "hasSideEffects" toBool?
    hasInputOutput := ← j.field "hasIo" toBool?
    isAsync := ← j.field "isAsync" toBool?
    sources := ← j.field "sources" (toList? SignalHit.ofJson?) }

end Behavior

namespace FunctionElement

def toJson (f : FunctionElement) : Json :=
  .object [("name", .string f.name), ("params", strings f.parameters), ("line", .nat f.line),
    ("isMethod", .bool f.isMethod)]

def ofJson? (j : Json) : Option FunctionElement := do
  let j ← j.record? ["name", "params", "line", "isMethod"]
  return ⟨← j.field "name" toText?, ← j.field "params" (toList? toText?),
    ← j.field "line" toWord64?, ← j.field "isMethod" toBool?⟩

end FunctionElement

namespace ClassElement

def toJson (c : ClassElement) : Json :=
  .object [("name", .string c.name), ("line", .nat c.line), ("methods", strings c.methods)]

def ofJson? (j : Json) : Option ClassElement := do
  let j ← j.record? ["name", "line", "methods"]
  return ⟨← j.field "name" toText?, ← j.field "line" toWord64?,
    ← j.field "methods" (toList? toText?)⟩

end ClassElement

namespace ConditionElement

def toJson (c : ConditionElement) : Json :=
  .object [("condition", .string c.condition), ("outcomes", strings c.outcomes),
    ("line", .nat c.line)]

def ofJson? (j : Json) : Option ConditionElement := do
  let j ← j.record? ["condition", "outcomes", "line"]
  return ⟨← j.field "condition" toText?, ← j.field "outcomes" (toList? toText?),
    ← j.field "line" toWord64?⟩

end ConditionElement

namespace Elements

def toJson (e : Elements) : Json :=
  .object [("functions", ofList FunctionElement.toJson e.functions),
    ("classes", ofList ClassElement.toJson e.classes),
    ("conditions", ofList ConditionElement.toJson e.conditions), ("imports", strings e.imports),
    ("entryPoints", ofList EntryPoint.toJson e.entryPoints)]

def ofJson? (j : Json) : Option Elements := do
  let j ← j.record? ["functions", "classes", "conditions", "imports", "entryPoints"]
  return {
    functions := ← j.field "functions" (toList? FunctionElement.ofJson?)
    classes := ← j.field "classes" (toList? ClassElement.ofJson?)
    conditions := ← j.field "conditions" (toList? ConditionElement.ofJson?)
    imports := ← j.field "imports" (toList? toText?)
    entryPoints := ← j.field "entryPoints" (toList? EntryPoint.ofJson?) }

end Elements

namespace Purpose

def ofName? (s : String) : Option Purpose := all.find? (·.name = s)

def toJson (p : Purpose) : Json := .string p.name

def ofJson? (j : Json) : Option Purpose := j.toName?.bind ofName?

end Purpose

namespace Intent

def scoreJson (s : PurposeScore) : Json :=
  .object [("category", s.purpose.toJson), ("score", .float s.score),
    ("keywords", strings s.keywords)]

def readScore? (j : Json) : Option PurposeScore := do
  let j ← j.record? ["category", "score", "keywords"]
  return ⟨← j.field "category" Purpose.ofJson?, ← j.field "score" toFloat?,
    ← j.field "keywords" (toList? toText?)⟩

def toJson (i : Intent) : Json :=
  .object [("primary", ofOption Purpose.toJson i.primary), ("confidence", .float i.confidence),
    ("scores", ofList scoreJson i.scores)]

def ofJson? (j : Json) : Option Intent := do
  let j ← j.record? ["primary", "confidence", "scores"]
  return ⟨← j.optionalField "primary" Purpose.ofJson?, ← j.field "confidence" toFloat?,
    ← j.field "scores" (toList? readScore?)⟩

end Intent

namespace Readiness

def factorsJson (f : ReadinessFactors Float) : Json :=
  .object [("structuralClarity", .float f.structuralClarity),
    ("semanticCompleteness", .float f.semanticCompleteness),
    ("contextSufficiency", .float f.contextSufficiency), ("risk", .float f.risk)]

def readFactors? (j : Json) : Option (ReadinessFactors Float) := do
  let j ← j.record? ["structuralClarity", "semanticCompleteness", "contextSufficiency", "risk"]
  return ⟨← j.field "structuralClarity" toFloat?, ← j.field "semanticCompleteness" toFloat?,
    ← j.field "contextSufficiency" toFloat?, ← j.field "risk" toFloat?⟩

def toJson (r : Readiness) : Json :=
  .object [("review", .float r.scores.review), ("refactor", .float r.scores.refactor),
    ("execution", .float r.scores.execution), ("factors", factorsJson r.scores.factors),
    ("blockingIssues", strings r.blockingIssues)]

def ofJson? (j : Json) : Option Readiness := do
  let j ← j.record? ["review", "refactor", "execution", "factors", "blockingIssues"]
  let scores : ReadinessScores Float := {
    review := ← j.field "review" toFloat?
    refactor := ← j.field "refactor" toFloat?
    execution := ← j.field "execution" toFloat?
    factors := ← j.field "factors" readFactors? }
  return ⟨scores, ← j.field "blockingIssues" (toList? toText?)⟩

end Readiness

namespace Guidance

def toJson (g : Guidance) : Json :=
  .object [("promptHints", strings g.hints), ("focusAreas", strings g.focusAreas)]

def ofJson? (j : Json) : Option Guidance := do
  let j ← j.record? ["promptHints", "focusAreas"]
  return ⟨← j.field "promptHints" (toList? toText?), ← j.field "focusAreas" (toList? toText?)⟩

end Guidance

namespace Profile

def toJson (p : Profile) : Json :=
  .object [("version", .string p.version), ("language", p.findings.language.toJson),
    ("libraries", p.findings.libraries.toJson), ("paradigm", p.findings.paradigm.toJson),
    ("codeType", p.findings.codeType.toJson), ("complexity", p.findings.complexity.toJson),
    ("structure", p.metrics.toJson), ("behavior", p.behavior.toJson),
    ("elements", p.elements.toJson), ("intent", p.intent.toJson),
    ("readiness", p.readiness.toJson), ("guidance", p.guidance.toJson)]

def ofJson? (j : Json) : Option Profile := do
  let j ← j.record? ["version", "language", "libraries", "paradigm", "codeType", "complexity",
    "structure", "behavior", "elements", "intent", "readiness", "guidance"]
  let findings : Findings := {
    language := ← j.field "language" LanguageReport.ofJson?
    libraries := ← j.field "libraries" LibraryReport.ofJson?
    paradigm := ← j.field "paradigm" ParadigmReport.ofJson?
    codeType := ← j.field "codeType" CodeTypeReport.ofJson?
    complexity := ← j.field "complexity" ComplexityReport.ofJson? }
  return {
    version := ← j.field "version" toText?
    findings
    metrics := ← j.field "structure" Metrics.ofJson?
    behavior := ← j.field "behavior" Behavior.ofJson?
    elements := ← j.field "elements" Elements.ofJson?
    intent := ← j.field "intent" Intent.ofJson?
    readiness := ← j.field "readiness" Readiness.ofJson?
    guidance := ← j.field "guidance" Guidance.ofJson? }

end Profile

end CodeProfile
