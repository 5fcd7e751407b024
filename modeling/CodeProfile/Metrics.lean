import CodeProfile.Adapter.Registry
import CodeProfile.Number.Scalar
import CodeProfile.Text.Ordered

/-!
# Structural metrics

Counts of lines, definitions, loops and decisions, and how deeply control structures nest. A tree of
a known grammar gives all of them; a text alone gives the counts of lines.
-/

namespace CodeProfile

open Text

/-- The counts that describe the shape of a snippet. -/
structure Metrics where
  lines : Nat
  nonEmptyLines : Nat
  commentLines : Nat
  functions : Nat
  classes : Nat
  loops : Nat
  /-- Conditionals, loops, further branches and operators that may skip their right side. -/
  decisionPoints : Nat
  cyclomatic : Nat
  maxNesting : Nat
  syntaxErrors : Nat
  deriving DecidableEq, Repr, Inhabited

namespace Metrics

def zero : Metrics :=
  { lines := 0, nonEmptyLines := 0, commentLines := 0, functions := 0, classes := 0, loops := 0
    decisionPoints := 0, cyclomatic := 0, maxNesting := 0, syntaxErrors := 0 }

/-! ## From the text alone -/

/-- What a comment line begins with in one language or another. -/
def commentMarks : List String := ["//", "/*", "*", "#", "--"]

def countNonEmptyLines (source : String) : Nat := (Text.lines source).countP (!isBlankText ·)

/-- The counts that need no tree. -/
def ofText (source : String) : Metrics :=
  { zero with
    lines := (Text.lines source).length
    nonEmptyLines := countNonEmptyLines source
    commentLines := (Text.lines source).countP fun line =>
      commentMarks.any (hasStart (trimStart line)) }

/-! ## From the tree -/

/-- Operators that may skip their right side. -/
def skippingOperators : List String := ["&&", "||", "and", "or", "??"]

/-- Whether a token is such an operator. -/
def isSkippingOperator (p : Place) : Bool :=
  !p.isNamed && p.field == some "operator" && skippingOperators.contains p.kind

def isControl (k : NodeKinds) (p : Place) : Bool := k.isLoop p.kind || k.isConditional p.kind

/-- Whether a conditional hangs off the `else` of another one. -/
def isElseIf (k : NodeKinds) (p : Place) : Bool :=
  k.isConditional p.kind
    && (p.field == some "alternative" || p.parent?.any (·.kind == "else_clause"))

/-- How many control structures enclose a place, the place itself counted. An `if` that hangs off an
`else` stays on the level of the `if` before it. -/
def nestingDepth (k : NodeKinds) (p : Place) : Nat :=
  (p :: p.ancestors).countP fun q => isControl k q && !isElseIf k q

/-- How many decisions a place brings. -/
def decisionsAt (k : NodeKinds) (p : Place) : Nat :=
  if p.isNamed then
    (if k.isLoop p.kind then 1 else 0)
      + (if k.isConditional p.kind || k.branches.contains p.kind then 1 else 0)
  else if isSkippingOperator p then 1
  else 0

/-- The numbers of the lines that a place touches. -/
def linesOf (p : Place) : List Nat := List.range' p.startLine (p.endLine + 1 - p.startLine)

/-- The greatest of some numbers, nought for none. -/
def greatest (ns : List Nat) : Nat := ns.foldl max 0

/-- The counts of a tree whose node kinds are known. -/
def ofTree (k : NodeKinds) (t : SyntaxTree) : Metrics :=
  let places := t.places
  let named := places.filter (·.isNamed)
  let functions := named.countP (k.isFunction ·.kind)
  let decisionPoints := Number.total (places.map (decisionsAt k))
  { lines := (Text.lines t.source).length
    nonEmptyLines := countNonEmptyLines t.source
    commentLines := (distinct ((named.filter (k.isComment ·.kind)).flatMap linesOf)).length
    functions
    classes := named.countP (k.isClass ·.kind)
    loops := named.countP (k.isLoop ·.kind)
    decisionPoints
    cyclomatic := decisionPoints + max functions 1
    maxNesting := greatest ((named.filter (isControl k)).map (nestingDepth k))
    syntaxErrors := t.errorCount }

section

variable {R : Type} [Scalar R]

/-- A cyclomatic number shared out to the functions; code without a function counts as one. -/
def perFunction (cyclomatic functions : Nat) : R :=
  Scalar.ofNat cyclomatic / Scalar.ofNat (max functions 1)

end

end Metrics

namespace SyntaxTree

/-- The metrics of a tree; those of its text alone if the node kinds are not known. -/
def metrics (t : SyntaxTree) : Metrics :=
  match nodeKinds? t.language with
  | some k => .ofTree k t
  | none => { Metrics.ofText t.source with syntaxErrors := t.errorCount }

end SyntaxTree

end CodeProfile
