import CodeProfile.Adapter

/-!
# Go

Memory is taken by composite literals and by the built-in functions `make` and `new`. One
declaration may name several parameters. A program starts at `main` and where a server starts to
listen.
-/

namespace CodeProfile.Adapter.Go

def isAllocation (p : Place) : Bool :=
  p.kind == "composite_literal"
    || p.kind == "call_expression" && (p.childByField? "function").any fun f =>
      f.text == "make" || f.text == "new"

def parameters (function : Place) : List String :=
  match function.childByField? "parameters" with
  | none => []
  | some list =>
    (list.namedChildren.flatMap fun declaration => declaration.childrenByField "name").map (·.text)

/-- The header of a loop, which is the first named part that is not its body. -/
def loopHeader (p : Place) : LoopHeader :=
  match p.namedChildren.find? (·.field != some "body") with
  | none => .infinite
  | some clause =>
    if clause.kind = "range_clause" then iterationOver clause "right"
    else if clause.kind = "for_clause" then
      if (clause.childByField? "condition").isNone then .infinite
      else .condition (Text.join "; "
        ((["initializer", "condition", "update"].filterMap clause.childByField?).map (·.text)))
    else if clause.kind = "block" ∨ clause.kind = "comment" then .infinite
    else .condition clause.text

/-- Calls that start the standard server. -/
def serverStarts (root : Place) : List EntryPoint :=
  (root.descendants.filter fun p =>
    p.kind == "call_expression" && calleeName p == some "ListenAndServe").map fun call =>
      ⟨"ListenAndServe", .serverListen, call.startLine⟩

def adapter : Adapter :=
  { language := .go
    kinds := goKinds
    isAllocation
    isSizeDependent := fun p => sizeHint.isMatch p.text
    parameters
    loopHeader
    callTarget := calleeName
    callReceiver := calleeObject
    entryPoints := fun root =>
      topLevelMains "function_declaration" root ++ serverStarts root
        ++ topLevelCalls goKinds calleeName root }

end CodeProfile.Adapter.Go
