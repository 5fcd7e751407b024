import CodeProfile.AnalysisError
import CodeProfile.SyntaxTree

/-!
# Building a tree

A tree is built in document order by opening and closing nodes. The builder keeps the open nodes
with the children they have so far, and `TreeBuilder.openNode` refuses a node whose span does not
lie on character boundaries inside the span of the innermost open node, a second root, and nesting
that is too deep. A refused step leaves the builder as it was.
-/

namespace CodeProfile

/-- How deep nodes may be nested. -/
def maxTreeDepth : Nat := 256

/-- What a caller says about a node to be opened. -/
structure NodeSpec where
  kind : String
  startByte : Nat
  endByte : Nat
  isNamed : Bool
  isMissing : Bool
  field : Option String
  deriving DecidableEq, Repr

/-- An open node with the children that it has so far, the newest first. -/
structure OpenNode where
  info : NodeInfo
  children : List Node
  deriving Repr

/-- A tree under construction. -/
structure TreeBuilder where
  language : Language
  source : String
  /-- How many nodes have been opened, which is the number of the next node. -/
  opened : Nat
  /-- The open nodes, the innermost first. -/
  stack : List OpenNode
  /-- The root, once it is closed. -/
  finished : Option Node
  deriving Repr

namespace TreeBuilder

def new (source : String) (language : Language) : TreeBuilder := ⟨language, source, 0, [], none⟩

/-- The text of a span, if the span lies in the source on character boundaries. -/
def spanText (b : TreeBuilder) (spec : NodeSpec) : Except AnalysisError String :=
  match Text.slice? b.source.toList spec.startByte spec.endByte with
  | some cs => .ok (String.ofList cs)
  | none =>
    .error (.malformedTree
      (s!"node '{spec.kind}' has invalid span [{spec.startByte}..{spec.endByte}] "
        ++ s!"for source of {b.source.utf8ByteSize} bytes"))

/-- Whether another node may be nested in the open ones. -/
def checkDepth (b : TreeBuilder) : Except AnalysisError Unit :=
  if b.stack.length ≥ maxTreeDepth then
    .error (.parse b.language s!"syntax tree nested deeper than {maxTreeDepth} levels")
  else .ok ()

/-- Whether the node fits where the builder stands: as the only root, or inside the innermost open
node. -/
def checkParent (b : TreeBuilder) (spec : NodeSpec) : Except AnalysisError Unit :=
  match b.stack with
  | [] =>
    if b.opened = 0 then .ok ()
    else .error (.malformedTree s!"second root node '{spec.kind}' opened")
  | top :: _ =>
    let outer := top.info.span
    if outer.startByte ≤ spec.startByte ∧ spec.endByte ≤ outer.endByte then .ok ()
    else
      .error (.malformedTree
        (s!"node '{spec.kind}' [{spec.startByte}..{spec.endByte}] escapes parent "
          ++ s!"'{top.info.kind}' [{outer.startByte}..{outer.endByte}]"))

/-- Opens a node inside the innermost open one and gives its number. -/
def openNode (b : TreeBuilder) (spec : NodeSpec) : Except AnalysisError (TreeBuilder × Nat) := do
  let text ← b.spanText spec
  b.checkDepth
  b.checkParent spec
  let source := b.source.toList
  let span : Span :=
    { startByte := spec.startByte
      endByte := spec.endByte
      start := Text.positionAt source spec.startByte
      stop := Text.positionAt source spec.endByte }
  let info : NodeInfo :=
    { id := b.opened, kind := spec.kind, span, text, isNamed := spec.isNamed
      isMissing := spec.isMissing, field := spec.field }
  return ({ b with opened := b.opened + 1, stack := ⟨info, []⟩ :: b.stack }, b.opened)

/-- Closes the innermost open node. -/
def closeNode (b : TreeBuilder) : Except AnalysisError TreeBuilder :=
  match b.stack with
  | [] => .error (.malformedTree "close() without open node")
  | top :: rest =>
    let node := Node.mk top.info top.children.reverse
    match rest with
    | [] => .ok { b with stack := [], finished := some node }
    | parent :: rest =>
      .ok { b with stack := { parent with children := node :: parent.children } :: rest }

/-- Opens a node and closes it at once. -/
def leaf (b : TreeBuilder) (spec : NodeSpec) : Except AnalysisError (TreeBuilder × Nat) := do
  let (b, id) ← b.openNode spec
  return (← b.closeNode, id)

/-- The tree, once a root has been opened and every node closed. -/
def finish (b : TreeBuilder) : Except AnalysisError SyntaxTree :=
  if !b.stack.isEmpty then
    .error (.malformedTree s!"{b.stack.length} node(s) left open")
  else
    match b.finished with
    | none => .error (.malformedTree "tree has no root")
    | some root => .ok ⟨b.language, b.source, root⟩

/-- Closes nodes until at most `depth` are open. -/
def closeTo (depth : Nat) : Nat → TreeBuilder → Except AnalysisError TreeBuilder
  | 0, b => .ok b
  | fuel + 1, b => if depth < b.stack.length then b.closeNode >>= closeTo depth fuel else .ok b

/-- Opens each node at its depth, closing the deeper ones before it. -/
def addRows : List (Nat × NodeSpec) → TreeBuilder → Except AnalysisError TreeBuilder
  | [], b => .ok b
  | (depth, spec) :: rows, b => do
    let b ← closeTo depth b.stack.length b
    let (b, _) ← b.openNode spec
    addRows rows b

end TreeBuilder

/-- The tree whose nodes are listed in document order, each with its depth. -/
def SyntaxTree.ofRows (source : String) (language : Language) (rows : List (Nat × NodeSpec)) :
    Except AnalysisError SyntaxTree := do
  let b ← TreeBuilder.addRows rows (.new source language)
  let b ← TreeBuilder.closeTo 0 b.stack.length b
  b.finish

end CodeProfile
