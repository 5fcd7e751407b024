import CodeProfile.Loop
import CodeProfile.NodeKinds
import CodeProfile.SyntaxTree

/-!
# Reading trees of a language

An `Adapter` knows the node kinds of one language and the few rules in which it differs from the
others: which nodes allocate, how a loop states its bound, how a call names its target, and where a
program starts. What all languages share stands here: the class of a node, the name of a function,
and the parts of loops, conditionals and calls.
-/

namespace CodeProfile

open Text

/-- What a node does, if it does anything that matters for the flow of a program. -/
inductive NodeClass where
  | loop
  | function
  | conditional
  | allocation
  | call
  | return
  | break
  | continue
  | assignment
  | declaration
  | expression
  deriving DecidableEq, Repr

/-- The header of a loop. -/
inductive LoopHeader where
  /-- The loop runs while a condition holds; the text holds the initial value and the step too. -/
  | condition (text : String)
  /-- The loop runs over something. -/
  | iteration (iterable : String)
  /-- Nothing in the header ends the loop. -/
  | infinite
  deriving DecidableEq, Repr

def LoopHeader.bounds : LoopHeader → LoopBounds
  | condition text => .ofHeader text
  | iteration iterable => .ofIterable iterable
  | infinite => .unknown

/-- How a program is started at an entry point. -/
inductive EntryPointKind where
  | mainFunction
  | mainGuard
  | topLevelCall
  | serverListen
  deriving DecidableEq, Repr

/-- A place where a program starts. -/
structure EntryPoint where
  name : String
  kind : EntryPointKind
  line : Nat
  deriving DecidableEq, Repr

/-- The rules by which trees of one language are read. -/
structure Adapter where
  language : Language
  kinds : NodeKinds
  /-- Whether a node takes memory. -/
  isAllocation : Place → Bool
  /-- Whether what an allocation takes depends on the size of a value. -/
  isSizeDependent : Place → Bool
  parameters : Place → List String
  loopHeader : Place → LoopHeader
  /-- The name of what a call calls. -/
  callTarget : Place → Option String
  /-- The text of the value whose method a call calls. -/
  callReceiver : Place → Option String
  /-- The entry points below the root. -/
  entryPoints : Place → List EntryPoint

/-! ## Names -/

/-- Kinds of nodes that are a plain name. -/
def identifierKinds : List String :=
  ["identifier", "shorthand_property_identifier_pattern", "simple_identifier"]

/-- Names of the object that a method works on. -/
def receiverNames : List String := ["self", "cls", "this"]

/-- The last segment of a path, without type arguments, call parentheses and marks at its end. -/
def simpleName (text : String) : String :=
  let head := text.toList.takeWhile fun c => !(c == '<' || c == '(' || c == '!')
  let isMark := fun c : Char => c == '.' || c == ':'
  let path := (head.reverse.dropWhile isMark)
  String.ofList (trimChars (path.takeWhile (!isMark ·)).reverse)

mutual

/-- The first plain name in a pattern: of its `name`, `pattern` or `left` part if it has one, and
otherwise of its named parts in order. -/
def Node.patternName? : Node → Option String
  | .mk info children =>
    if identifierKinds.contains info.kind then some info.text
    else
      let named := Node.patternNames children
      match ["name", "pattern", "left"].findSome? fun f => named.find? (·.1.field == some f) with
      | some (_, name) => name
      | none => (named.filter (·.1.isNamed)).findSome? (·.2)

/-- Several nodes, each with the first plain name in it. -/
def Node.patternNames : List Node → List (NodeInfo × Option String)
  | [] => []
  | c :: cs => (c.info, c.patternName?) :: Node.patternNames cs

end

namespace Place

/-- The first child that fills one of the fields, tried in order. -/
def childByFields? (p : Place) (fields : List String) : Option Place :=
  fields.findSome? p.childByField?

def patternName? (p : Place) : Option String := p.node.patternName?

end Place

namespace Adapter

/-! ## Defaults -/

/-- A size is mentioned. -/
def sizeHint : Pattern := .ofText
  r"(\.length\b|\.size\(\)|\.len\(\)|\blen\(|\.count\b|\.\.\.|\bn\b|\bsize\b|\blength\b)"

/-- The parameters of a function, without the object that a method works on. -/
def namedParameters (kinds : NodeKinds) (function : Place) : List String :=
  match (function.childByField? "parameters").or (function.childByField? "parameter") with
  | none => []
  | some list =>
    if identifierKinds.contains list.kind then [list.text]
    else
      ((list.namedChildren.filter fun c => !kinds.isComment c.kind).filterMap
        (·.patternName?)).filter fun name => !receiverNames.contains name

/-- The last segment of the name that a call calls. -/
def calleeName (call : Place) : Option String := do
  let callee ← (call.childByField? "function").or (call.childByField? "macro")
  let member := (callee.childByFields? ["property", "attribute", "field", "name"]).getD callee
  let name := simpleName member.text
  if name.isEmpty then none else some name

/-- The object part of what a call calls. -/
def calleeObject (call : Place) : Option String := do
  let callee ← call.childByField? "function"
  return (← callee.childByFields? ["object", "operand", "value"]).text

/-! ## Classes of nodes -/

/-- The class of a node. Nodes without a name and nodes that do not fit the grammar have none. -/
def classify (a : Adapter) (p : Place) : Option NodeClass :=
  let kind := p.kind
  let k := a.kinds
  if !p.isNamed || p.isError then none
  else if k.isFunction kind then some .function
  else if k.isLoop kind then some .loop
  else if k.isConditional kind then some .conditional
  else if a.isAllocation p then some .allocation
  else if k.calls.contains kind then some .call
  else if k.returns.contains kind then some .return
  else if k.breaks.contains kind then some .break
  else if k.continues.contains kind then some .continue
  else if k.isMutation kind then some .assignment
  else if k.declarations.contains kind then some .declaration
  else if k.expressions.contains kind then some .expression
  else none

/-- The places of a class, in document order. -/
def extract (a : Adapter) (root : Place) (cls : NodeClass) : List Place :=
  root.descendants.filter fun p => a.classify p == some cls

/-! ## Parts of nodes -/

/-- The name of a function: its own, or that of what it is bound to. -/
def functionName (function : Place) : Option String :=
  match function.childByField? "name" with
  | some name => some name.text
  | none => do
    let parent ← function.parent?
    let binding ← parent.childByFields? ["name", "left", "pattern", "key"]
    if binding == function then none else some (simpleName binding.text)

/-- The body of a function or loop. -/
def body? (p : Place) : Option Place := p.childByField? "body"

/-- What a conditional decides on. -/
def condition? (p : Place) : Option Place :=
  (p.childByField? "condition").or (p.childByField? "value")

/-- The consequences of a conditional, then its alternatives. -/
def arms (p : Place) : List Place :=
  p.childrenByField "consequence" ++ p.childrenByField "alternative"

/-- The named parts of the body. -/
def bodyParts (p : Place) : List Place := (body? p).elim [] (·.namedChildren)

/-- The named parts apart from the condition. -/
def partsBesideCondition (p : Place) : List Place :=
  p.namedChildren.filter fun c => !(condition? p).any (· == c)

/-- The ways through a conditional: its consequences and alternatives, or else the parts of its
body, or else its named parts apart from the condition. -/
def branches (p : Place) : List Place :=
  if !(arms p).isEmpty then arms p
  else if !(bodyParts p).isEmpty then bodyParts p
  else partsBesideCondition p

def arguments? (call : Place) : Option Place := call.childByField? "arguments"

/-! ## Entry points -/

/-- Calls with which a server starts to listen. -/
def listenCalls : List String := ["listen", "ListenAndServe", "run_forever"]

/-- The calls that stand as statements of their own at the top of the tree. -/
def topLevelCalls (kinds : NodeKinds) (target : Place → Option String) (root : Place) :
    List EntryPoint :=
  (root.namedChildren.filter fun s => kinds.expressions.contains s.kind).filterMap fun s => do
    let call ← s.namedChildren.head?
    if !kinds.calls.contains call.kind then none
    let name ← target call
    let kind := if listenCalls.contains name then .serverListen else .topLevelCall
    return ⟨name, kind, call.startLine⟩

/-- The calls of a kind below a place, as functions that a main guard runs. -/
def guardedCalls (callKind : String) (body : Place) : List EntryPoint :=
  (body.descendants.filter (·.kind == callKind)).filterMap fun call =>
    (calleeName call).map fun name => ⟨name, .mainFunction, call.startLine⟩

/-- The functions of a kind that stand at the top of the tree under the name `main`. -/
def topLevelMains (functionKind : String) (root : Place) : List EntryPoint :=
  (root.namedChildren.filter fun n =>
    n.kind == functionKind && (n.childByField? "name").any (·.text == "main")).map fun n =>
      ⟨"main", .mainFunction, n.startLine⟩

/-! ## Loop headers -/

/-- The text of a field as what a loop runs over. -/
def iterationOver (p : Place) (field : String) : LoopHeader :=
  match p.childByField? field with
  | some iterable => .iteration iterable.text
  | none => .infinite

/-- The condition as the header, unless it is the text that always holds. -/
def conditionUnless (p : Place) (always : Option String) : LoopHeader :=
  match p.childByField? "condition" with
  | some c => if some c.text = always then .infinite else .condition c.text
  | none => .infinite

/-- Without the semicolons at the end. -/
def dropSemicolons (s : String) : String :=
  String.ofList (s.toList.reverse.dropWhile (· == ';')).reverse

/-- Initial value, condition and step as one header; without a condition the loop is infinite. -/
def threePartHeader (p : Place) (fields : List String) : LoopHeader :=
  if (p.childByField? "condition").isNone then .infinite
  else .condition (join "; " ((fields.filterMap p.childByField?).map fun part =>
    dropSemicolons part.text))

end Adapter

end CodeProfile
