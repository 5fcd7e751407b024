import CodeProfile.Adapter
import CodeProfile.Program

/-!
# From trees to statements

Lowering turns the tree of a program into its functions and statements. What happens at one node is
laid down by its `Reading`: which places come in front of its statement, and which go inside it. The
recursion then only follows readings, and it ends because every place of a reading lies below the
node. A call such as `xs.map(f)` whose argument is written out in place is read as a loop over `xs`.
-/

namespace CodeProfile

open Text

/-! ## Readings -/

/-- What kind of statement a node becomes. -/
inductive StatementHead where
  | loop (bounds : LoopBounds)
  | conditional
  | call (callee : String)
  | allocation (sizeDependent : Bool)
  | simple (kind : SimpleStatement)
  deriving Repr

namespace StatementHead

/-- Whether what stands inside runs as often as an input is long. -/
def opensInput : StatementHead → Bool
  | loop bounds => bounds.isInputBound
  | _ => false

/-- The statement with the given blocks inside. An allocation in a loop over an input depends on the
size of that input. -/
def statement (origin : Origin) (inInput : Bool) (blocks : List (List Statement)) :
    StatementHead → Statement
  | loop bounds => .loop origin bounds blocks.flatten
  | conditional => .conditional origin blocks
  | call callee => .call origin callee false
  | allocation sizeDependent => .allocation origin (inInput || sizeDependent)
  | simple kind => .simple origin kind

end StatementHead

/-- How a node is lowered. -/
inductive Reading where
  /-- The node is no statement; its parts are. -/
  | through (parts : List Place)
  /-- The node is a function with this body. -/
  | function (body : List Place)
  /-- The node is a statement, with parts that come before it and parts inside it. -/
  | statement (head : StatementHead) (before : List Place) (inside : List (List Place))

namespace Reading

/-- All places that are lowered for the node. -/
def places : Reading → List Place
  | through parts => parts
  | function body => body
  | statement _ before inside => before ++ inside.flatten

end Reading

namespace Adapter

/-- The name of a function or call target that has none. -/
def anonymous : String := "<anonymous>"

/-- Methods and functions that call a function once per element. -/
def iterationCalls : List String :=
  ["map", "forEach", "filter", "reduce", "flatMap", "some", "every", "find", "findIndex",
   "for_each", "filter_map", "flat_map", "fold", "any", "all", "stream"]

/-! ### Loop bounds -/

def identifier : Pattern := .ofText r"[A-Za-z_]\w*"

def identifiersIn (text : String) : List String := (identifier.matchesIn text).map (·.text)

def isIdentifier (text : String) : Bool := (identifier.find? text).any (·.text == text)

/-- A variable that gets a value, the names in that value, and the text of the whole binding. -/
structure Binding where
  target : String
  sources : List String
  text : String

/-- The binding of a plain variable that a node is, if it is one. -/
def binding? (p : Place) : Option Binding := do
  let target ← p.childByFields? ["left", "name", "pattern"]
  let value ← p.childByFields? ["right", "value"]
  let name := trim target.text
  if isIdentifier name then some ⟨name, identifiersIn value.text, p.text⟩ else none

/-- The bindings below a place. -/
def bindings (kinds : NodeKinds) (body : Place) : List Binding :=
  (body.descendants.filter fun p =>
    kinds.assignments.contains p.kind || kinds.declarations.contains p.kind
      || p.kind == "variable_declarator").filterMap binding?

/-- Adds the texts of the bindings that set a relevant variable, and the names they read. -/
def addSteps (bindings : List Binding) (relevant steps : List String) : List String × List String :=
  bindings.foldl (fun (found, steps) b =>
    if !steps.contains b.text && relevant.contains b.target then
      (found ++ b.sources, steps ++ [b.text])
    else (found, steps)) (relevant, steps)

/-- The bound of a loop. A condition counts together with the bindings in the body that set its
variables, directly or through one other variable, so that halving inside the body is seen. -/
def loopBounds (a : Adapter) (p : Place) : LoopBounds :=
  match a.loopHeader p, body? p with
  | .condition text, some body =>
    let bindings := bindings a.kinds body
    let (relevant, steps) := addSteps bindings (identifiersIn text) []
    let (_, steps) := addSteps bindings relevant steps
    if steps.isEmpty then .ofHeader text else .ofHeader (text ++ "; " ++ join "; " steps)
  | header, _ => header.bounds

/-! ### Reading a node -/

/-- The arguments of a call that are functions written out in place. -/
def inPlaceFunctions (a : Adapter) (arguments : Place) : List Place :=
  arguments.namedChildren.filter (a.kinds.lambdas.contains ·.kind)

/-- All other arguments of a call. -/
def otherArguments (a : Adapter) (arguments : Place) : List Place :=
  arguments.namedChildren.filter (!a.kinds.lambdas.contains ·.kind)

/-- The bound of a call that runs once per element of its object or first argument. -/
def iterationBounds (a : Adapter) (call arguments : Place) : LoopBounds :=
  let iterable := (a.callReceiver call).or ((a.otherArguments arguments).head?.map (·.text))
  (iterable.map LoopBounds.ofIterable).getD .unknown

/-- A call that runs a function written out in place once per element, read as a loop. -/
def iteration? (a : Adapter) (call : Place) : Option Reading :=
  match a.callTarget call, arguments? call with
  | some callee, some arguments =>
    if iterationCalls.contains callee && !(a.inPlaceFunctions arguments).isEmpty then
      some (.statement (.loop (a.iterationBounds call arguments))
        ((call.childByField? "function").toList ++ a.otherArguments arguments)
        [(a.inPlaceFunctions arguments).filterMap body?])
    else none
  | _, _ => none

/-- How a node is lowered. -/
def reading (a : Adapter) (p : Place) : Reading :=
  let simple := fun kind => Reading.statement (.simple kind) p.children []
  match a.classify p with
  | none => .through p.children
  | some .function => .function (body? p).toList
  | some .loop =>
    let body := body? p
    let header := p.children.filter fun c => !body.any (· == c)
    .statement (.loop (a.loopBounds p)) header [body.toList]
  | some .conditional =>
    let branches := branches p
    .statement .conditional
      (p.children.filter fun c => !branches.any fun b => c.span.contains b.span)
      (branches.map ([·]))
  | some .call =>
    (a.iteration? p).getD (.statement (.call ((a.callTarget p).getD anonymous)) p.children [])
  | some .allocation => .statement (.allocation (a.isSizeDependent p)) p.children []
  | some .return => simple .return
  | some .break => simple .break
  | some .continue => simple .continue
  | some .assignment => simple .assignment
  | some .declaration => simple .declaration
  | some .expression => simple .expression

theorem size_lt_of_body? {p q : Place} (h : body? p = some q) : q.node.size < p.node.size :=
  Place.size_lt_of_mem_children (Place.mem_children_of_childByField? h)

theorem size_lt_of_mem_branches {p q : Place} (h : q ∈ branches p) : q.node.size < p.node.size := by
  unfold branches at h
  split at h
  · rcases List.mem_append.1 h with h | h <;>
      exact Place.size_lt_of_mem_children (Place.mem_children_of_childrenByField h)
  · split at h
    · unfold bodyParts at h
      cases hb : body? p with
      | none => simp [hb] at h
      | some b =>
        rw [hb] at h
        exact Nat.lt_trans (Place.size_lt_of_mem_children (Place.mem_children_of_namedChildren h))
          (size_lt_of_body? hb)
    · exact Place.size_lt_of_mem_children
        (Place.mem_children_of_namedChildren (List.mem_filter.1 h).1)

theorem size_lt_of_iteration? {a : Adapter} {p q : Place} {r : Reading}
    (h : a.iteration? p = some r) (hq : q ∈ r.places) : q.node.size < p.node.size := by
  unfold iteration? at h
  split at h
  next callee arguments hcallee harguments =>
    have inArguments : ∀ c ∈ arguments.namedChildren, c.node.size < p.node.size := fun c hc =>
      Nat.lt_trans (Place.size_lt_of_mem_children (Place.mem_children_of_namedChildren hc))
        (Place.size_lt_of_mem_children (Place.mem_children_of_childByField? harguments))
    split at h
    · cases h
      simp only [Reading.places, List.flatten_cons, List.flatten_nil, List.append_nil,
        List.mem_append, Option.mem_toList, List.mem_filterMap] at hq
      rcases hq with (hq | hq) | ⟨c, hc, hq⟩
      · exact Place.size_lt_of_mem_children (Place.mem_children_of_childByField? hq)
      · exact inArguments q (List.mem_filter.1 hq).1
      · exact Nat.lt_trans (size_lt_of_body? hq) (inArguments c (List.mem_filter.1 hc).1)
    · cases h
  · cases h

/-- Every place that is lowered for a node lies below it. -/
theorem size_lt_of_mem_reading {a : Adapter} {p q : Place} (h : q ∈ (a.reading p).places) :
    q.node.size < p.node.size := by
  have fromChildren : ∀ r ∈ p.children, r.node.size < p.node.size := fun _ =>
    Place.size_lt_of_mem_children
  unfold reading at h
  simp only at h
  split at h
  · exact fromChildren q h
  · exact size_lt_of_body? (Option.mem_toList.1 h)
  · simp only [Reading.places, List.flatten_cons, List.flatten_nil, List.append_nil,
      List.mem_append, Option.mem_toList] at h
    rcases h with h | h
    · exact fromChildren q (List.mem_filter.1 h).1
    · exact size_lt_of_body? h
  · simp only [Reading.places, List.mem_append] at h
    rcases h with h | h
    · exact fromChildren q (List.mem_filter.1 h).1
    · obtain ⟨b, hb, hq⟩ := List.mem_flatten.1 h
      obtain ⟨c, hc, rfl⟩ := List.mem_map.1 hb
      rw [List.mem_singleton.1 hq]
      exact size_lt_of_mem_branches hc
  · cases hi : a.iteration? p with
    | none =>
      rw [hi] at h
      exact fromChildren q (by simpa [Reading.places] using h)
    | some r =>
      rw [hi] at h
      exact size_lt_of_iteration? hi h
  all_goals exact fromChildren q (by simpa [Reading.places] using h)

end Adapter

/-! ## Lowering -/

/-- The statements and functions found so far. -/
structure Lowered where
  statements : List Statement
  functions : List Function
  deriving Repr, Inhabited

namespace Lowered

def concat (parts : List Lowered) : Lowered :=
  ⟨parts.flatMap (·.statements), parts.flatMap (·.functions)⟩

/-- The function at a place, with what its body was lowered to. Its calls of its own name are
marked, unless it has no name. -/
def toFunction (a : Adapter) (p : Place) (body : Lowered) : Function :=
  let name := (Adapter.functionName p).getD Adapter.anonymous
  let isNamed := name != Adapter.anonymous
  let block := Block.ofStatements
    (if isNamed then Statement.markRecursiveAll name body.statements else body.statements)
  let calls := block.callTargets
  { name
    parameters := a.parameters p
    body := block
    calls
    isRecursive := isNamed && calls.contains name
    isEntryPoint := false
    origin := ⟨p.id, p.startLine⟩ }

end Lowered

/-- Lowers everything at and below a place. The flag tells whether the place runs once per element
of an input. -/
def Adapter.lower (a : Adapter) (inInput : Bool) (p : Place) : Lowered :=
  match _h : a.reading p with
  | .through parts => .concat (parts.attach.map fun ⟨q, _⟩ => a.lower inInput q)
  | .function body =>
    let inner := Lowered.concat (body.attach.map fun ⟨q, _⟩ => a.lower false q)
    ⟨[], inner.functions ++ [inner.toFunction a p]⟩
  | .statement head before inside =>
    let first := Lowered.concat (before.attach.map fun ⟨q, _⟩ => a.lower inInput q)
    let blocks := inside.attach.map fun ⟨block, _⟩ =>
      Lowered.concat (block.attach.map fun ⟨q, _⟩ => a.lower (inInput || head.opensInput) q)
    let all := Lowered.concat blocks
    ⟨first.statements
        ++ [head.statement ⟨p.id, p.startLine⟩ inInput (blocks.map (·.statements))],
      first.functions ++ all.functions⟩
termination_by p.node.size
decreasing_by
  all_goals
    apply size_lt_of_mem_reading (a := a)
    rw [_h]
    simp only [Reading.places]
    first
      | assumption
      | exact List.mem_append_left _ ‹_›
      | exact List.mem_append_right _ (List.mem_flatten.2 ⟨_, ‹_›, ‹_›⟩)

/-- Puts functions in order of their place. -/
def sortFunctions (fs : List Function) : List Function :=
  fs.mergeSort fun f g => f.origin.node ≤ g.origin.node

/-- The program that a tree holds. -/
def Adapter.program (a : Adapter) (t : SyntaxTree) : Program :=
  let entries := a.entryPoints t.root
  let lowered := a.lower false t.root
  let starts := entries.filter fun e => e.kind = .mainFunction ∨ e.kind = .topLevelCall
  let started := starts.map (·.name)
  { language := a.language
    functions := (sortFunctions lowered.functions).map fun f =>
      { f with isEntryPoint := started.contains f.name }
    topLevel := .ofStatements lowered.statements
    entryPoints := distinct (entries.map (·.name)) }

end CodeProfile
