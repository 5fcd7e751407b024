import CodeProfile.Adapter

/-!
# Python

The clauses of a comprehension are loops, and what it builds depends on their size. A program starts
at the calls at its top and at what the check of the module name guards.
-/

namespace CodeProfile.Adapter.Python

/-- Kinds of comprehensions that build a collection. -/
def comprehensions : List String :=
  ["list_comprehension", "dictionary_comprehension", "set_comprehension"]

def loopHeader (p : Place) : LoopHeader :=
  if p.kind = "for_statement" ∨ p.kind = "for_in_clause" then iterationOver p "right"
  else conditionUnless p (some "True")

def isMainGuard (p : Place) : Bool :=
  p.kind == "if_statement" && (p.childByField? "condition").any fun c =>
    Text.holds c.text "__name__" && Text.holds c.text "__main__"

def entryPoints (root : Place) : List EntryPoint :=
  topLevelCalls pythonKinds calleeName root
    ++ (root.namedChildren.filter isMainGuard).flatMap fun guard =>
      ⟨"__main__", .mainGuard, guard.startLine⟩
        :: (guard.childByField? "consequence").elim [] (guardedCalls "call")

def adapter : Adapter :=
  { language := .python
    kinds := pythonKinds
    isAllocation := fun p => pythonKinds.allocations.contains p.kind
    isSizeDependent := fun p => comprehensions.contains p.kind || sizeHint.isMatch p.text
    parameters := namedParameters pythonKinds
    loopHeader
    callTarget := calleeName
    callReceiver := calleeObject
    entryPoints }

end CodeProfile.Adapter.Python
