import CodeProfile.Json
import CodeProfile.Library.Analysis

/-!
# Libraries and frameworks as JSON
-/

namespace CodeProfile

open Json

namespace LibraryCategory

def id : LibraryCategory → String
  | standardLibrary => "standard-library"
  | framework => "framework"
  | utility => "utility"
  | testing => "testing"
  | database => "database"
  | ui => "ui"
  | unknown => "unknown"

def ofId? (s : String) : Option LibraryCategory :=
  [standardLibrary, framework, utility, testing, database, ui, unknown].find? (·.id = s)

def toJson (c : LibraryCategory) : Json := .string c.id

def ofJson? (j : Json) : Option LibraryCategory := j.toName?.bind ofId?

end LibraryCategory

namespace LibraryInfo

def toJson (l : LibraryInfo) : Json :=
  .object [("name", .string l.name), ("package", .string l.package),
    ("category", l.category.toJson), ("isLocal", .bool l.isLocal), ("line", .nat l.line)]

def ofJson? (j : Json) : Option LibraryInfo := do
  let j ← j.record? ["name", "package", "category", "isLocal", "line"]
  return {
    name := ← j.field "name" toText?
    package := ← j.field "package" toText?
    category := ← j.field "category" LibraryCategory.ofJson?
    isLocal := ← j.field "isLocal" toBool?
    line := ← j.field "line" toWord64? }

end LibraryInfo

namespace Framework

def id : Framework → String
  | react => "react"
  | vue => "vue"
  | angular => "angular"
  | express => "express"
  | jest => "jest"
  | mocha => "mocha"
  | django => "django"
  | flask => "flask"
  | fastApi => "fast-api"
  | pytest => "pytest"
  | unittest => "unittest"
  | spring => "spring"
  | jUnit => "j-unit"
  | gin => "gin"
  | goTesting => "go-testing"
  | actixWeb => "actix-web"
  | axum => "axum"
  | tokio => "tokio"
  | rustTest => "rust-test"
  | tkinter => "tkinter"

def ofId? (s : String) : Option Framework := all.find? (·.id = s)

end Framework

namespace FrameworkInfo

def toJson (f : FrameworkInfo) : Json :=
  .object [("framework", .string f.framework.id), ("name", .string f.name),
    ("category", f.category.toJson), ("confidence", .float f.confidence),
    ("indicators", strings f.indicators)]

def ofJson? (j : Json) : Option FrameworkInfo := do
  let j ← j.record? ["framework", "name", "category", "confidence", "indicators"]
  return {
    framework := ← (← j.field "framework" toName?) |> Framework.ofId?
    name := ← j.field "name" toText?
    category := ← j.field "category" LibraryCategory.ofJson?
    confidence := ← j.field "confidence" toFloat?
    indicators := ← j.field "indicators" (toList? toText?) }

end FrameworkInfo

namespace LibraryReport

def toJson (r : LibraryReport) : Json :=
  .object [("libraries", ofList LibraryInfo.toJson r.libraries),
    ("frameworks", ofList FrameworkInfo.toJson r.frameworks),
    ("packageManager", optionalString r.packageManager)]

def ofJson? (j : Json) : Option LibraryReport := do
  let j ← j.record? ["libraries", "frameworks", "packageManager"]
  return {
    libraries := ← j.field "libraries" (toList? LibraryInfo.ofJson?)
    frameworks := ← j.field "frameworks" (toList? FrameworkInfo.ofJson?)
    packageManager := ← j.optionalField "packageManager" toText? }

end LibraryReport

end CodeProfile
