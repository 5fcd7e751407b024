import CodeProfile.SyntaxTree
import CodeProfile.Text.Ordered
import CodeProfile.Text.Pattern.Reader

/-!
# Exports

The names that a module hands to those who import it, told by the rules of each language: export
declarations, a list of public names, visibility marks, or capital initials.
-/

namespace CodeProfile.Exports

open CodeProfile Text

/-- The text of a field. -/
def fieldText (p : Place) (field : String) : List String :=
  ((p.childByField? field).map (·.text)).toList

/-! ## JavaScript -/

/-- Kinds of values that an exported object hands out as functions. -/
def functionValues : List String :=
  ["identifier", "function_expression", "function", "arrow_function"]

/-- The names that a member of an exported object exports. Members that hold plain data export
nothing. -/
def ofMember (member : Place) : List String :=
  if member.kind = "shorthand_property_identifier" then [member.text]
  else if member.kind = "pair" then
    if (member.childByField? "value").any (functionValues.contains ·.kind) then
      fieldText member "key"
    else []
  else if member.kind = "method_definition" then fieldText member "name"
  else []

/-- The names that an exported value exports. -/
def ofValue (value : Place) : List String :=
  if value.kind = "identifier" then [value.text]
  else if value.kind = "object" then value.namedChildren.flatMap ofMember
  else []

/-- The names that an export declaration exports. -/
def ofDeclaration (statement : Place) : List String :=
  (match statement.childByField? "declaration" with
    | some declaration =>
      fieldText declaration "name"
        ++ (declaration.namedChildren.filter (·.kind == "variable_declarator")).flatMap
          (fieldText · "name")
    | none => if statement.children.any (·.kind == "default") then ["default"] else [])
  ++ (statement.descendants.filter (·.kind == "export_specifier")).flatMap fun s =>
    (((s.childByField? "alias").or (s.childByField? "name")).map (·.text)).toList

/-- The names that an assignment to the exports of a module exports. -/
def ofAssignment (assignment : Place) : List String :=
  match assignment.childByField? "left", assignment.childByField? "right" with
  | some left, some right =>
    if left.text = "module.exports" then ofValue right
    else ((afterStart? left.text "module.exports.").or (afterStart? left.text "exports.")).toList
  | _, _ => []

def javaScript (root : Place) : List String :=
  root.descendants.flatMap fun p =>
    if p.kind = "export_statement" then ofDeclaration p
    else if p.kind = "assignment_expression" then ofAssignment p
    else []

/-! ## Python -/

/-- The list of public names. -/
def publicNames : Pattern := .ofText r"__all__\s*=\s*[\[(]([^\])]*)[\])]"

def quotedName : Pattern := .ofText r#"["']([\w.]+)["']"#

/-- The names in the list of public names, or else those of functions and classes that do not start
with an underscore. -/
def python (source : String) (root : Place) : List String :=
  match (publicNames.find? source).bind (·.group? 1) with
  | some list => (quotedName.matchesIn list).filterMap (·.group? 1)
  | none =>
    let items := root.namedChildren.map fun item =>
      if item.kind = "decorated_definition" then (item.childByField? "definition").getD item
      else item
    ((items.filter fun i => i.kind == "function_definition" || i.kind == "class_definition").flatMap
      (fieldText · "name")).filter (!hasStart · "_")

/-! ## Go, Rust and Java -/

/-- The names that begin with a capital. -/
def go (root : Place) : List String :=
  let names := root.namedChildren.flatMap fun item =>
    if item.kind = "function_declaration" ∨ item.kind = "method_declaration" then
      fieldText item "name"
    else if item.kind = "type_declaration" then item.namedChildren.flatMap (fieldText · "name")
    else []
  names.filter (·.toList.head?.any Char.isUpper)

/-- The names of items that are marked as public. -/
def rust (root : Place) : List String :=
  (root.namedChildren.filter fun item => item.namedChildren.any fun c =>
    c.kind == "visibility_modifier" && hasStart c.text "pub").flatMap (fieldText · "name")

/-- The names of declarations that are marked as public. -/
def java (root : Place) : List String :=
  let declared := root.namedChildren.filter fun item =>
    hasEnd item.kind "_declaration" && item.kind != "import_declaration"
  (declared.filter fun item => item.namedChildren.any fun c =>
    c.kind == "modifiers" && (words c.text).contains "public").flatMap (fieldText · "name")

end CodeProfile.Exports

namespace CodeProfile.SyntaxTree

open Text

/-- The names that a module exports, each once. -/
def exports (t : SyntaxTree) : List String :=
  distinct (match t.language with
    | .javaScript | .typeScript => Exports.javaScript t.root
    | .python => Exports.python t.source t.root
    | .go => Exports.go t.root
    | .rust => Exports.rust t.root
    | .java => Exports.java t.root
    | _ => [])

end CodeProfile.SyntaxTree
