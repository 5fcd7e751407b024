import CodeProfile.Adapter.Json
import CodeProfile.CodeType.Classification

/-!
# Kinds of code as JSON
-/

namespace CodeProfile

open Json

namespace CodeType

def ofName? (s : String) : Option CodeType :=
  [test, script, library, application, configuration, unknown].find? (·.name = s)

def toJson (c : CodeType) : Json := .string c.name

def ofJson? (j : Json) : Option CodeType := j.toName?.bind ofName?

end CodeType

namespace CodeTypeScore

def toJson (s : CodeTypeScore) : Json :=
  .object [("codeType", s.codeType.toJson), ("score", .float s.score),
    ("indicators", strings s.indicators)]

def ofJson? (j : Json) : Option CodeTypeScore := do
  let j ← j.record? ["codeType", "score", "indicators"]
  return ⟨← j.field "codeType" CodeType.ofJson?, ← j.field "score" toFloat?,
    ← j.field "indicators" (toList? toText?)⟩

end CodeTypeScore

namespace ExecutionIntent

def toJson (i : ExecutionIntent) : Json :=
  .object [("isRunnable", .bool i.isRunnable), ("runnability", .float i.runnability),
    ("entryPoint", optionalString i.entryPoint), ("blockers", strings i.blockers)]

def ofJson? (j : Json) : Option ExecutionIntent := do
  let j ← j.record? ["isRunnable", "runnability", "entryPoint", "blockers"]
  return {
    isRunnable := ← j.field "isRunnable" toBool?
    runnability := ← j.field "runnability" toFloat?
    entryPoint := ← j.optionalField "entryPoint" toText?
    blockers := ← j.field "blockers" (toList? toText?) }

end ExecutionIntent

namespace ExecutionContext

def toJson (c : ExecutionContext) : Json :=
  .object [("runtime", .string c.runtime), ("buildSteps", strings c.buildSteps),
    ("installCommand", optionalString c.installCommand),
    ("runCommand", optionalString c.runCommand),
    ("environmentVariables", strings c.environmentVariables)]

def ofJson? (j : Json) : Option ExecutionContext := do
  let j ← j.record? ["runtime", "buildSteps", "installCommand", "runCommand",
    "environmentVariables"]
  return {
    runtime := ← j.field "runtime" toText?
    buildSteps := ← j.field "buildSteps" (toList? toText?)
    installCommand := ← j.optionalField "installCommand" toText?
    runCommand := ← j.optionalField "runCommand" toText?
    environmentVariables := ← j.field "environmentVariables" (toList? toText?) }

end ExecutionContext

namespace CodeTypeReport

def toJson (r : CodeTypeReport) : Json :=
  .object [("codeType", r.codeType.toJson), ("confidence", .float r.confidence),
    ("secondary", ofOption CodeType.toJson r.secondary),
    ("scores", ofList CodeTypeScore.toJson r.scores),
    ("entryPoints", ofList EntryPoint.toJson r.entryPoints), ("exports", strings r.exports),
    ("executionIntent", ofOption ExecutionIntent.toJson r.intent),
    ("executionContext", ofOption ExecutionContext.toJson r.context)]

def ofJson? (j : Json) : Option CodeTypeReport := do
  let j ← j.record? ["codeType", "confidence", "secondary", "scores", "entryPoints", "exports",
    "executionIntent", "executionContext"]
  return {
    codeType := ← j.field "codeType" CodeType.ofJson?
    confidence := ← j.field "confidence" toFloat?
    secondary := ← j.optionalField "secondary" CodeType.ofJson?
    scores := ← j.field "scores" (toList? CodeTypeScore.ofJson?)
    entryPoints := ← j.field "entryPoints" (toList? EntryPoint.ofJson?)
    exports := ← j.field "exports" (toList? toText?)
    intent := ← j.optionalField "executionIntent" ExecutionIntent.ofJson?
    context := ← j.optionalField "executionContext" ExecutionContext.ofJson? }

end CodeTypeReport

end CodeProfile
