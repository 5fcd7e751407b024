import CodeProfile.Adapter

/-!
# Rust

Memory is taken by arrays, by the macros that build collections and texts, by the constructors of
collection types, and by methods that collect or copy. A program starts at `main`.
-/

namespace CodeProfile.Adapter.Rust

open Text

/-- Types that own memory on the heap. -/
def collectionTypes : List String :=
  ["Vec", "VecDeque", "HashMap", "HashSet", "BTreeMap", "BTreeSet", "String", "Box"]

/-- Functions of these types that make a new value. -/
def constructors : List String := ["new", "with_capacity", "from", "from_iter"]

/-- Methods that make a new collection or copy. -/
def collectingMethods : List String := ["collect", "to_vec", "to_owned", "to_string", "clone"]

/-- What stands before and after the last `::`. -/
def splitPath? (cs : List Char) : Option (List Char × List Char) :=
  (splitAtFirst? [':', ':'] cs.reverse).map fun (after, before) => (before.reverse, after.reverse)

/-- Whether the path names a constructor of a collection type, type arguments apart. -/
def isConstructorPath (path : String) : Bool :=
  match splitPath? path.toList with
  | none => false
  | some (owner, method) =>
    collectionTypes.contains (String.ofList (owner.takeWhile (· != '<')))
      && constructors.contains (String.ofList method)

def isCollectingCall (call : Place) : Bool :=
  (call.childByField? "function").any (fun f =>
      f.kind == "field_expression" || f.kind == "generic_function")
    && (calleeName call).any collectingMethods.contains

def isAllocation (p : Place) : Bool :=
  if p.kind = "array_expression" then true
  else if p.kind = "macro_invocation" then
    (p.childByField? "macro").any fun m => m.text == "vec" || m.text == "format"
  else if p.kind = "call_expression" then
    (p.childByField? "function").any (isConstructorPath ·.text) || isCollectingCall p
  else false

/-- Without the marks of a borrow. -/
def withoutBorrow (s : String) : String :=
  let cs := s.toList.dropWhile (· == '&')
  let mark := "mut ".toList
  String.ofList (dropMarks mark cs.length cs)
where
  /-- Without the mark at the start, as often as it stands there. -/
  dropMarks (mark : List Char) : Nat → List Char → List Char
    | 0, cs => cs
    | fuel + 1, cs => if mark.isPrefixOf cs then dropMarks mark fuel (cs.drop mark.length) else cs

def loopHeader (p : Place) : LoopHeader :=
  if p.kind = "for_expression" then
    match p.childByField? "value" with
    | some iterable => .iteration (withoutBorrow iterable.text)
    | none => .infinite
  else if p.kind = "while_expression" then conditionUnless p (some "true")
  else .infinite

def adapter : Adapter :=
  { language := .rust
    kinds := rustKinds
    isAllocation
    isSizeDependent := fun p =>
      p.kind == "call_expression" && isCollectingCall p || sizeHint.isMatch p.text
    parameters := namedParameters rustKinds
    loopHeader
    callTarget := calleeName
    callReceiver := calleeObject
    entryPoints := topLevelMains "function_item" }

end CodeProfile.Adapter.Rust
