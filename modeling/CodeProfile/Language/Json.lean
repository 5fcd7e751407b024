import CodeProfile.Language.Detection
import CodeProfile.Program.Json

/-!
# Language reports as JSON
-/

namespace CodeProfile

open Json

namespace DetectionMethod

def id : DetectionMethod → String
  | telltale => "smoking-gun"
  | clues => "weighted-scoring"
  | fallback => "fallback"

def ofId? (s : String) : Option DetectionMethod := [telltale, clues, fallback].find? (·.id = s)

end DetectionMethod

namespace LanguageReport

def toJson (r : LanguageReport) : Json :=
  .object [("language", r.language.toJson), ("dialect", optionalString r.dialect),
    ("confidence", .float r.confidence), ("indicators", strings r.indicators),
    ("detectionMethod", .string r.method.id)]

def ofJson? (j : Json) : Option LanguageReport := do
  let j ← j.record? ["language", "dialect", "confidence", "indicators", "detectionMethod"]
  return {
    language := ← j.field "language" Language.ofJson?
    dialect := ← j.optionalField "dialect" toText?
    confidence := ← j.field "confidence" toFloat?
    indicators := ← j.field "indicators" (toList? toText?)
    method := ← (← j.field "detectionMethod" toName?) |> DetectionMethod.ofId? }

end LanguageReport

end CodeProfile
