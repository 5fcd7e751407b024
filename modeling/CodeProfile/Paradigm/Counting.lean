import CodeProfile.Adapter.Registry
import CodeProfile.Paradigm
import CodeProfile.Signal

/-!
# Counting evidence for paradigms

Every node of the tree is looked at once. A lambda is counted apart from the functions with a name,
and a use of functions as values counts as higher order.
-/

namespace CodeProfile

open Text

namespace PatternCounts

/-- Calls that work on a collection as a whole. -/
def combinators : List String :=
  ["map", "filter", "reduce", "forEach", "flatMap", "some", "every", "find", "findIndex",
   "reduceRight", "fold", "filter_map", "flat_map", "for_each", "any", "all", "zip", "sorted",
   "collect", "stream"]

/-- Kinds of nodes at the top of a tree that declare something and run nothing. -/
def declaringKinds : List String :=
  ["package_clause", "package_declaration", "type_declaration", "decorated_definition",
   "export_statement", "impl_item", "mod_item", "struct_item", "enum_item", "trait_item",
   "type_item", "const_item", "static_item", "attribute_item", "interface_declaration",
   "enum_declaration", "record_declaration", "preproc_include", "preproc_def", "type_definition",
   "struct_specifier"]

/-- The object that a method works on is named. -/
def receiverReference : Pattern := .ofText r"\b(this|self)\s*\.|\$this->"

/-- Whether a function is a method. -/
def isMethod (k : NodeKinds) (p : Place) : Bool :=
  p.kind == "method_definition" || p.kind == "method_declaration"
    || p.hasAncestorOfKind k.methodScopes

/-- Whether a node names a parent of a class. -/
def isInheritance (k : NodeKinds) (p : Place) : Bool :=
  k.inheritance.contains p.kind
    || p.kind == "class_definition"
      && (p.childByField? "superclasses").any (!·.namedChildren.isEmpty)
    || p.kind == "impl_item" && (p.childByField? "trait").isSome

/-- The name that a call calls. -/
def calleeName (call : Place) : Option String := do
  let method := if call.kind == "method_invocation" then call.childByField? "name" else none
  let target ← (method.or (call.childByField? "function")).or (call.childByField? "macro")
  let name := simpleName target.text
  if name.isEmpty then none else some name

/-- Whether an argument of the call is a function written out in place. -/
def passesFunction (k : NodeKinds) (call : Place) : Bool :=
  (call.childByField? "arguments").any fun args =>
    args.namedChildren.any fun a => k.isFunction a.kind

/-- Whether the lambda is the whole body of another function. -/
def isFunctionBody (k : NodeKinds) (lambda : Place) : Bool :=
  lambda.field == some "body" && lambda.parent?.any fun q => k.isFunction q.kind

/-- Whether a lambda is handed back. -/
def returnsLambda (k : NodeKinds) (p : Place) : Bool :=
  k.returns.contains p.kind && p.namedChildren.any fun c => k.lambdas.contains c.kind

/-- How often functions are used as values at a node. -/
def higherOrderUses (k : NodeKinds) (p : Place) : Nat :=
  (if k.lambdas.contains p.kind && isFunctionBody k p then 1 else 0)
    + (if k.calls.contains p.kind && passesFunction k p then 1 else 0)
    + (if returnsLambda k p then 1 else 0)

/-- Whether a node is a function with a name of its own. -/
def isNamedFunction (k : NodeKinds) (kind : String) : Bool :=
  k.isFunction kind && !k.lambdas.contains kind

/-- Whether a node at the top of the tree runs something. -/
def isTopLevelStatement (k : NodeKinds) (p : Place) : Bool :=
  let kind := p.kind
  !(k.isFunction kind || k.isClass kind || k.imports.contains kind || k.isComment kind
    || declaringKinds.contains kind || holds kind "class")

end PatternCounts

namespace SyntaxTree

/-- The evidence in a tree, for languages whose node kinds are known. -/
def patternCounts? (t : SyntaxTree) : Option (PatternCounts Float) :=
  (nodeKinds? t.language).map fun k =>
    let places := t.places
    let count := fun test : Place → Bool => places.countP test
    let functions := count fun p => PatternCounts.isNamedFunction k p.kind
    let mutations := count fun p => k.isMutation p.kind
    let effects := sideEffectCount (Signal.scan t.source t.language)
    { classes := count fun p => k.isClass p.kind
      functions
      methods := count fun p => PatternCounts.isNamedFunction k p.kind && PatternCounts.isMethod k p
      loops := count fun p => k.isLoop p.kind
      lambdas := count fun p => k.lambdas.contains p.kind
      higherOrderFunctions := Number.total (places.map (PatternCounts.higherOrderUses k))
      arrayCombinators := count fun p =>
        k.calls.contains p.kind
          && (PatternCounts.calleeName p).any PatternCounts.combinators.contains
      mutations
      sideEffectCalls := effects
      receiverReferences := PatternCounts.receiverReference.count t.source
      inheritance := count (PatternCounts.isInheritance k)
      topLevelStatements := t.root.namedChildren.countP (PatternCounts.isTopLevelStatement k)
      pureFunctions := Scalar.greatest
        (Float.ofNat functions - Float.ofNat effects - 0.3 * Float.ofNat mutations) 0.0 }

/-- The paradigm of a snippet. -/
def paradigm (t : SyntaxTree) : ParadigmReport Float :=
  match t.patternCounts? with
  | some c => .ofCounts c t.language
  | none => .unknown

end SyntaxTree

end CodeProfile
