import CodeProfile.Adapter.Registry
import CodeProfile.Library.Analysis

/-!
# Named elements

The functions, classes, conditions and imports of a snippet, with their text as it stands in the
tree. Texts are shortened where a profile is put together, not here.
-/

namespace CodeProfile

open Text

/-- A function of a snippet. -/
structure FunctionElement where
  name : String
  parameters : List String
  line : Nat
  isMethod : Bool
  deriving DecidableEq, Repr, Inhabited

/-- A class of a snippet with the names of its methods. -/
structure ClassElement where
  name : String
  line : Nat
  methods : List String
  deriving DecidableEq, Repr, Inhabited

/-- A decision with the code to which each branch leads. -/
structure ConditionElement where
  condition : String
  outcomes : List String
  line : Nat
  deriving DecidableEq, Repr, Inhabited

/-- The named elements of a snippet. -/
structure Elements where
  functions : List FunctionElement
  classes : List ClassElement
  conditions : List ConditionElement
  imports : List String
  entryPoints : List EntryPoint
  deriving DecidableEq, Repr, Inhabited

namespace Elements

def empty : Elements := ⟨[], [], [], [], []⟩

def functionNames (e : Elements) : List String := e.functions.map (·.name)

/-- What stands in the place of a missing name. -/
def nameless : String := "<anonymous>"

/-- The name of a function; without an adapter, that of the field that usually holds it. -/
def functionName (adapter : Option Adapter) (p : Place) : Option String :=
  match adapter with
  | some _ => Adapter.functionName p
  | none => (Place.childByFields? p ["name", "declarator"]).map (simpleName ·.text)

def functionElement (k : NodeKinds) (adapter : Option Adapter) (p : Place) : FunctionElement :=
  { name := (functionName adapter p).getD nameless
    parameters := adapter.elim [] (·.parameters p)
    line := p.startLine
    isMethod := p.hasAncestorOfKind k.methodScopes }

/-- Whether a class is the innermost one around a place. -/
def isOwner (k : NodeKinds) (cls p : Place) : Bool :=
  (p.ancestors.find? (k.isClass ·.kind)).any (· == cls)

/-- The names of the functions whose innermost class is the given one. -/
def methodNames (k : NodeKinds) (adapter : Option Adapter) (cls : Place) : List String :=
  let functions := cls.descendants.filter fun p => p.isNamed && k.isFunction p.kind
  (functions.filter (isOwner k cls)).filterMap (functionName adapter)

def classElement (k : NodeKinds) (adapter : Option Adapter) (p : Place) : ClassElement :=
  { name := ((p.childByField? "name").map (·.text)).getD nameless
    line := p.startLine
    methods := methodNames k adapter p }

/-- The condition of a conditional and where its branches stand. -/
def conditionAndBranches (adapter : Option Adapter) (p : Place) : Option Place × List Place :=
  match adapter with
  | some _ => (Adapter.condition? p, Adapter.branches p)
  | none => (p.childByField? "condition", Adapter.arms p)

/-- A conditional that has a condition. -/
def conditionElement? (adapter : Option Adapter) (p : Place) : Option ConditionElement :=
  let (condition, branches) := conditionAndBranches adapter p
  condition.map fun c =>
    { condition := trim c.text
      outcomes := (branches.map (trim ·.text)).filter (!·.isEmpty)
      line := p.startLine }

/-- The elements of a tree whose node kinds are known. -/
def ofTree (k : NodeKinds) (t : SyntaxTree) (adapter : Option Adapter) (imports : List String)
    (entryPoints : List EntryPoint) : Elements :=
  let named := t.places.filter (·.isNamed)
  { functions := (named.filter (k.isFunction ·.kind)).map (functionElement k adapter)
    classes := (named.filter (k.isClass ·.kind)).map (classElement k adapter)
    conditions := (named.filter (k.isConditional ·.kind)).filterMap (conditionElement? adapter)
    imports
    entryPoints }

end Elements

namespace SyntaxTree

/-- The named elements of a tree; without known node kinds, only what was found before. -/
def elements (t : SyntaxTree) (adapter : Option Adapter) (libraries : LibraryReport)
    (entryPoints : List EntryPoint) : Elements :=
  let imports := libraries.libraries.map (·.name)
  match nodeKinds? t.language with
  | some k => .ofTree k t adapter imports entryPoints
  | none => { Elements.empty with imports, entryPoints }

end SyntaxTree

end CodeProfile
