import CodeProfile.Framework
import CodeProfile.SyntaxTree
import CodeProfile.Text.Ordered

/-!
# The libraries of a snippet

Imports are read from the tree, each language in its own way, and each module is listed once, in
order of first import.
-/

namespace CodeProfile

open Text

/-- An import as it stands in the text. -/
structure Import where
  module : String
  /-- Whether the form of the import says that the module is a local file. -/
  isQuotedLocal : Bool
  line : Nat
  deriving DecidableEq, Repr

/-- The libraries of a snippet, its frameworks, and the tool that installs what it needs. -/
structure LibraryReport where
  libraries : List LibraryInfo
  frameworks : List FrameworkInfo
  packageManager : Option String
  deriving Inhabited

namespace LibraryReport

def empty : LibraryReport := ⟨[], [], none⟩

def thirdParty (r : LibraryReport) : List LibraryInfo := r.libraries.filter (·.isThirdParty)

/-- Whether a library or framework is of the category. -/
def hasCategory (r : LibraryReport) (c : LibraryCategory) : Bool :=
  r.libraries.any (·.category == c) || r.frameworks.any (·.category == c)

end LibraryReport

namespace Import

/-- Without quotation marks and angle brackets around it. -/
def unquote (s : String) : String :=
  trimWhere (fun c => c == '"' || c == '\'' || c == '\x60' || c == '<' || c == '>') s

/-- The module that a call of `require` or `import` loads. -/
def ofCall? (call : Place) : Option String := do
  let function ← call.childByField? "function"
  if function.kind != "import" && function.text != "require" then none
  let first ← (← call.childByField? "arguments").namedChildren.head?
  if first.kind == "string" || first.kind == "template_string" then some (unquote first.text)
  else none

/-- The modules that a node imports. -/
def modulesAt (l : Language) (p : Place) : List String :=
  let fieldText := fun field => ((p.childByField? field).map (·.text)).toList
  match l, p.kind with
  | .javaScript, "import_statement" | .typeScript, "import_statement" =>
    (fieldText "source").map unquote
  | .javaScript, "call_expression" | .typeScript, "call_expression" => (ofCall? p).toList
  | .python, "import_statement" =>
    (p.childrenByField "name").map fun name => ((name.childByField? "name").getD name).text
  | .python, "import_from_statement" => fieldText "module_name"
  | .go, "import_spec" => (fieldText "path").map unquote
  | .java, "import_declaration" =>
    ((p.namedChildren.find? fun c => c.kind == "scoped_identifier" || c.kind == "identifier").map
      (·.text)).toList
  | .rust, "use_declaration" => fieldText "argument"
  | .rust, "extern_crate_declaration" => fieldText "name"
  | .c, "preproc_include" => (fieldText "path").map unquote
  | _, _ => []

/-- Whether the node includes a file by its quoted name. -/
def isQuotedInclude (l : Language) (p : Place) : Bool :=
  l == .c && (p.childByField? "path").any (·.kind == "string_literal")

end Import

namespace SyntaxTree

/-- All imports in order of the text. -/
def imports (t : SyntaxTree) : List Import :=
  t.places.flatMap fun p => (Import.modulesAt t.language p).map fun m =>
    ⟨m, Import.isQuotedInclude t.language p, p.startLine⟩

end SyntaxTree

namespace Import

/-- What is known about an imported module. -/
def toLibrary (l : Language) (i : Import) : LibraryInfo :=
  let package := Library.packageRoot i.module l
  let isLocal := i.isQuotedLocal || Library.isLocalModule i.module l
  { name := i.module
    package
    category := if isLocal then .unknown else Library.categorize i.module package l
    isLocal
    line := i.line }

/-- The first import of each module. -/
def firstOfEach (imports : List Import) : List Import :=
  imports.foldl (fun seen i => if seen.any (·.module == i.module) then seen else seen ++ [i]) []

end Import

namespace SyntaxTree

/-- The libraries and frameworks of a snippet. -/
def libraries (t : SyntaxTree) : LibraryReport :=
  let libraries := (Import.firstOfEach t.imports).map (Import.toLibrary t.language)
  { libraries
    frameworks := Framework.detect t.source t.language libraries
    packageManager :=
      if libraries.any (·.isThirdParty) then Library.packageManager? t.language else none }

end SyntaxTree

end CodeProfile
