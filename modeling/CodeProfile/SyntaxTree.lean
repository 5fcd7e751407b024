import CodeProfile.Language
import CodeProfile.Number.Total
import CodeProfile.Text.Bytes

/-!
# Syntax trees

A tree of the nodes of a text: each node has a kind, the span of text that it covers, and the name
of the field of its parent that it fills, if any. Tokens such as brackets and keywords are nodes
without a name of their own. A `Place` is a node together with the nodes above it, so that
questions about parents are answered without links between nodes.
-/

namespace CodeProfile

/-- A range of text, as byte offsets and as positions. -/
structure Span where
  startByte : Nat
  endByte : Nat
  start : Position
  stop : Position
  deriving DecidableEq, Repr, Inhabited

namespace Span

def length (s : Span) : Nat := s.endByte - s.startByte

def isEmpty (s : Span) : Bool := s.startByte = s.endByte

/-- Whether one span lies inside another. -/
def contains (s t : Span) : Bool := s.startByte ≤ t.startByte && t.endByte ≤ s.endByte

end Span

/-- What a node is, apart from its children. -/
structure NodeInfo where
  /-- The position of the node in document order. -/
  id : Nat
  kind : String
  span : Span
  /-- The text that the span covers. -/
  text : String
  isNamed : Bool
  /-- Whether the parser put the node in where the text lacks it. -/
  isMissing : Bool
  /-- The field of the parent that the node fills. -/
  field : Option String
  deriving DecidableEq, Repr, Inhabited

/-- A node with everything below it. -/
inductive Node where
  | mk (info : NodeInfo) (children : List Node)
  deriving Repr, Inhabited

namespace Node

def info : Node → NodeInfo
  | mk i _ => i

def children : Node → List Node
  | mk _ cs => cs

def id (n : Node) : Nat := n.info.id

def kind (n : Node) : String := n.info.kind

mutual

/-- How many nodes there are, the node itself included. -/
def size : Node → Nat
  | mk _ cs => sizeAll cs + 1

/-- How many nodes there are in several trees. -/
def sizeAll : List Node → Nat
  | [] => 0
  | c :: cs => size c + sizeAll cs

end

end Node

/-- A node and the nodes above it, the nearest first. -/
structure Place where
  node : Node
  above : List Node
  deriving Repr, Inhabited

/-- The tree of a text. -/
structure SyntaxTree where
  language : Language
  source : String
  rootNode : Node
  deriving Repr, Inhabited

mutual

/-- A node and everything below it in document order, each as a place. -/
def Node.places (above : List Node) : Node → List Place
  | .mk info children =>
    ⟨.mk info children, above⟩ :: Node.placesAll (.mk info children :: above) children

/-- `Node.places` for several nodes with the same nodes above them. -/
def Node.placesAll (above : List Node) : List Node → List Place
  | [] => []
  | c :: cs => Node.places above c ++ Node.placesAll above cs

end

namespace Place

def info (p : Place) : NodeInfo := p.node.info

def id (p : Place) : Nat := p.info.id

def kind (p : Place) : String := p.info.kind

def text (p : Place) : String := p.info.text

def span (p : Place) : Span := p.info.span

def field (p : Place) : Option String := p.info.field

def isNamed (p : Place) : Bool := p.info.isNamed

/-- Whether the parser marked the place as not fitting the grammar. -/
def isError (p : Place) : Bool := p.kind = "ERROR" || p.info.isMissing

/-- The number of the first line, from one. -/
def startLine (p : Place) : Nat := p.span.start.row + 1

/-- The number of the line on which the span ends, from one. -/
def endLine (p : Place) : Nat := p.span.stop.row + 1

def parent? (p : Place) : Option Place :=
  match p.above with
  | [] => none
  | n :: ns => some ⟨n, ns⟩

/-- The places above, the nearest first. -/
def ancestors (p : Place) : List Place := go p.above where
  go : List Node → List Place
    | [] => []
    | n :: ns => ⟨n, ns⟩ :: go ns

def children (p : Place) : List Place := p.node.children.map fun c => ⟨c, p.node :: p.above⟩

def namedChildren (p : Place) : List Place := p.children.filter (·.isNamed)

def child? (p : Place) (index : Nat) : Option Place := p.children[index]?

/-- The first child that fills a field. -/
def childByField? (p : Place) (field : String) : Option Place :=
  p.children.find? (·.field == some field)

def childrenByField (p : Place) (field : String) : List Place :=
  p.children.filter (·.field == some field)

def firstChildOfKind? (p : Place) (kinds : List String) : Option Place :=
  p.children.find? (kinds.contains ·.kind)

/-- The place itself and everything below it in document order. -/
def descendants (p : Place) : List Place := p.node.places p.above

/-- Everything below the place in document order. -/
def below (p : Place) : List Place := p.descendants.tail

def hasAncestorOfKind (p : Place) (kinds : List String) : Bool :=
  p.above.any (kinds.contains ·.kind)

/-- The kind and the byte offsets, as shown to a developer. -/
def describe (p : Place) : String := s!"{p.kind}[{p.span.startByte}..{p.span.endByte}]"

instance : BEq Place := ⟨fun p q => p.id == q.id⟩

end Place

/-! ## What lies below is smaller -/

namespace Node

theorem sizeAll_eq (cs : List Node) : sizeAll cs = Number.total (cs.map size) := by
  induction cs with
  | nil => rfl
  | cons c cs ih => simp [sizeAll, ih]

theorem size_lt_of_mem {c : Node} {n : Node} (h : c ∈ n.children) : c.size < n.size := by
  cases n with
  | mk info cs =>
    simp only [children] at h
    simp only [size, sizeAll_eq]
    have := Number.le_total_of_mem (List.mem_map_of_mem (f := size) h)
    omega

end Node

namespace Place

theorem size_lt_of_mem_children {p q : Place} (h : q ∈ p.children) : q.node.size < p.node.size := by
  obtain ⟨c, hc, rfl⟩ := List.mem_map.1 h
  exact Node.size_lt_of_mem hc

theorem mem_children_of_namedChildren {p q : Place} (h : q ∈ p.namedChildren) : q ∈ p.children :=
  (List.mem_filter.1 h).1

theorem mem_children_of_childrenByField {p q : Place} {f : String} (h : q ∈ p.childrenByField f) :
    q ∈ p.children :=
  (List.mem_filter.1 h).1

theorem mem_children_of_childByField? {p q : Place} {f : String} (h : p.childByField? f = some q) :
    q ∈ p.children :=
  List.mem_of_find?_eq_some h

end Place

namespace SyntaxTree

def root (t : SyntaxTree) : Place := ⟨t.rootNode, []⟩

/-- All places in document order. -/
def places (t : SyntaxTree) : List Place := t.root.descendants

def place? (t : SyntaxTree) (id : Nat) : Option Place := t.places.find? (·.id = id)

def nodeCount (t : SyntaxTree) : Nat := t.rootNode.size

def lineCount (t : SyntaxTree) : Nat := (Text.linesOf t.source.toList).length

/-- How many places do not fit the grammar. -/
def errorCount (t : SyntaxTree) : Nat := t.places.countP (·.isError)

end SyntaxTree

end CodeProfile
