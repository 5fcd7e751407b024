import CodeProfile.Cost.Json
import CodeProfile.Program

/-!
# Programs as JSON

Statements carry what they are under `kind` and where they come from under `node` and `line`.
-/

namespace CodeProfile

open Json

def Language.toJson (l : Language) : Json := .string l.id

/-- Reads a language by its exact identifier. -/
def Language.ofJson? (j : Json) : Option Language :=
  j.toName?.bind fun name => (Language.unknown :: Language.all).find? (·.id = name)

namespace BoundKind

def id : BoundKind → String
  | constant => "constant"
  | input => "input"
  | symbolic => "symbolic"
  | unknown => "unknown"

def ofId? (s : String) : Option BoundKind := [constant, input, symbolic, unknown].find? (·.id = s)

/-- Reads a kind by its name, which may also be the only key of an object and hold nothing. -/
def ofJson? : Json → Option BoundKind
  | .object [(key, .object [])] => ofId? key
  | j => j.toName?.bind ofId?

end BoundKind

namespace LoopGrowth

def id : LoopGrowth → String
  | constant => "constant"
  | logarithmic => "logarithmic"
  | linear => "linear"

end LoopGrowth

namespace LoopBounds

def toJson (b : LoopBounds) : Json :=
  .object [("kind", .string b.kind.id), ("cost", b.cost.toJson),
    ("variable", optionalString b.boundBy)]

def ofJson? (j : Json) : Option LoopBounds := do
  let j ← j.record? ["kind", "cost", "variable"]
  return ⟨← j.field "kind" BoundKind.ofJson?, ← j.field "cost" (Cost.ofJson? true),
    ← j.optionalField "variable" toText?⟩

end LoopBounds

namespace SimpleStatement

def id : SimpleStatement → String
  | .return => "return"
  | .break => "break"
  | .continue => "continue"
  | assignment => "assignment"
  | expression => "expression"
  | declaration => "declaration"

def ofId? (s : String) : Option SimpleStatement :=
  [.return, .break, .continue, assignment, expression, declaration].find? (·.id = s)

end SimpleStatement

namespace Statement

/-- A statement with its kind and origin. -/
def wrapJson (kind : List (String × Json)) (o : Origin) : Json :=
  .object [("kind", .object kind), ("node", .nat o.node), ("line", .nat o.line)]

mutual

def toJson : Statement → Json
  | loop o bounds body =>
    wrapJson
      [("type", .string "loop"), ("bounds", bounds.toJson), ("body", .array (toJsonAll body))] o
  | conditional o branches =>
    wrapJson [("type", .string "conditional"), ("branches", .array (toJsonBranches branches))] o
  | call o callee r =>
    wrapJson [("type", .string "call"), ("callee", .string callee), ("is_recursive", .bool r)] o
  | allocation o sized =>
    wrapJson [("type", .string "allocation"), ("size_dependent", .bool sized)] o
  | simple o kind => wrapJson [("type", .string kind.id)] o

/-- The JSON of several statements. -/
def toJsonAll : List Statement → List Json
  | [] => []
  | s :: ss => toJson s :: toJsonAll ss

/-- The JSON of several branches. -/
def toJsonBranches : List (List Statement) → List Json
  | [] => []
  | b :: bs => .array (toJsonAll b) :: toJsonBranches bs

end

/-- Reads an origin. -/
def originOf? (j : Json) : Option Origin := do
  return ⟨← j.field "node" toWord32?, ← j.field "line" toWord64?⟩

/-- The kinds of statements with the keys of their parts. -/
def shapes : List (String × List String) :=
  [("loop", ["bounds", "body"]), ("conditional", ["branches"]),
    ("call", ["callee", "is_recursive"]), ("return", []), ("break", []), ("continue", []),
    ("allocation", ["size_dependent"]), ("assignment", []), ("expression", []), ("declaration", [])]

/-- Reads a statement, with at most `fuel` levels inside it. In another statement its kind may also
be given by number. -/
def ofJsonWithin? : Bool → Nat → Json → Option Statement
  | _, 0, _ => none
  | isInner, fuel + 1, j => do
    let j ← j.record? ["kind", "node", "line"]
    let (kind, parts) ← j.field "kind" (tagged? "type" shapes isInner)
    let o ← originOf? j
    let statements := toList? (ofJsonWithin? true fuel)
    match kind with
    | "loop" =>
      return loop o (← parts.field "bounds" LoopBounds.ofJson?) (← parts.field "body" statements)
    | "conditional" => return conditional o (← parts.field "branches" (toList? statements))
    | "call" =>
      return call o (← parts.field "callee" toText?) (← parts.field "is_recursive" toBool?)
    | "allocation" => return allocation o (← parts.field "size_dependent" toBool?)
    | kind => return simple o (← SimpleStatement.ofId? kind)

/-- How deep JSON values may be nested. -/
def maxJsonDepth : Nat := 128

def ofJson? (j : Json) : Option Statement := ofJsonWithin? false maxJsonDepth j

end Statement

namespace Block

def toJson (b : Block) : Json :=
  .object [("statements", .array (Statement.toJsonAll b.statements)), ("maxDepth", .nat b.maxDepth),
    ("hasEarlyExit", .bool b.hasEarlyExit)]

def ofJson? (j : Json) : Option Block := do
  let j ← j.record? ["statements", "maxDepth", "hasEarlyExit"]
  return ⟨← j.field "statements" (toList? Statement.ofJson?), ← j.field "maxDepth" toWord64?,
    ← j.field "hasEarlyExit" toBool?⟩

end Block

namespace Function

def toJson (f : Function) : Json :=
  .object [("name", .string f.name), ("parameters", strings f.parameters), ("body", f.body.toJson),
    ("calls", strings f.calls), ("isRecursive", .bool f.isRecursive),
    ("isEntryPoint", .bool f.isEntryPoint), ("node", .nat f.origin.node),
    ("line", .nat f.origin.line)]

def ofJson? (j : Json) : Option Function := do
  let j ← j.record? ["name", "parameters", "body", "calls", "isRecursive", "isEntryPoint", "node",
    "line"]
  return {
    name := ← j.field "name" toText?
    parameters := ← j.field "parameters" (toList? toText?)
    body := ← j.field "body" Block.ofJson?
    calls := Text.ordered (← j.field "calls" (toList? toText?))
    isRecursive := ← j.field "isRecursive" toBool?
    isEntryPoint := ← j.field "isEntryPoint" toBool?
    origin := ← Statement.originOf? j }

end Function

namespace Program

def toJson (p : Program) : Json :=
  .object [("language", p.language.toJson), ("functions", ofList Function.toJson p.functions),
    ("topLevel", p.topLevel.toJson), ("entryPoints", strings p.entryPoints)]

def ofJson? (j : Json) : Option Program := do
  let j ← j.record? ["language", "functions", "topLevel", "entryPoints"]
  return {
    language := ← j.field "language" Language.ofJson?
    functions := ← j.field "functions" (toList? Function.ofJson?)
    topLevel := ← j.field "topLevel" Block.ofJson?
    entryPoints := ← j.field "entryPoints" (toList? toText?) }

end Program

end CodeProfile
