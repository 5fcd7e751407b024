import CodeProfile.Adapter
import CodeProfile.Json

/-!
# Entry points as JSON
-/

namespace CodeProfile

open Json

namespace EntryPointKind

def id : EntryPointKind → String
  | mainFunction => "main-function"
  | mainGuard => "main-guard"
  | topLevelCall => "top-level-call"
  | serverListen => "server-listen"

def ofId? (s : String) : Option EntryPointKind :=
  [mainFunction, mainGuard, topLevelCall, serverListen].find? (·.id = s)

end EntryPointKind

namespace EntryPoint

def toJson (e : EntryPoint) : Json :=
  .object [("name", .string e.name), ("kind", .string e.kind.id), ("line", .nat e.line)]

def ofJson? (j : Json) : Option EntryPoint := do
  let j ← j.record? ["name", "kind", "line"]
  return ⟨← j.field "name" toText?, ← (← j.field "kind" toName?) |> EntryPointKind.ofId?,
    ← j.field "line" toWord64?⟩

end EntryPoint

end CodeProfile
