import CodeProfile.Adapter

/-!
# JavaScript and TypeScript

Both languages share one grammar as far as the shape of a program goes. A program starts at the
calls at its top, and at what the check for being the main module guards.
-/

namespace CodeProfile.Adapter.JavaScript

def loopHeader (p : Place) : LoopHeader :=
  if p.kind = "for_in_statement" then iterationOver p "right"
  else if p.kind = "for_statement" then threePartHeader p ["initializer", "condition", "increment"]
  else conditionUnless p none

/-- The entry points that the check for being the main module guards. -/
def mainModule (root : Place) : List EntryPoint :=
  match root.descendants.find? fun p =>
    p.kind == "if_statement" && Text.holds p.text "require.main === module" with
  | none => []
  | some guard =>
    ⟨"require.main", .mainGuard, guard.startLine⟩
      :: (guard.childByField? "consequence").elim [] (guardedCalls "call_expression")

/-- The adapter for a language with this grammar. -/
def adapter (language : Language) : Adapter :=
  { language
    kinds := javaScriptKinds
    isAllocation := fun p => javaScriptKinds.allocations.contains p.kind
    isSizeDependent := fun p => sizeHint.isMatch p.text
    parameters := namedParameters javaScriptKinds
    loopHeader
    callTarget := calleeName
    callReceiver := calleeObject
    entryPoints := fun root => topLevelCalls javaScriptKinds calleeName root ++ mainModule root }

end CodeProfile.Adapter.JavaScript
