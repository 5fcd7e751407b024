import CodeProfile.Adapter

/-!
# Java

A call names its target and its object directly. A program starts at a static method `main`.
-/

namespace CodeProfile.Adapter.Java

def loopHeader (p : Place) : LoopHeader :=
  if p.kind = "enhanced_for_statement" then iterationOver p "value"
  else if p.kind = "for_statement" then threePartHeader p ["init", "condition", "update"]
  else conditionUnless p none

def isStaticMain (p : Place) : Bool :=
  p.kind == "method_declaration" && (p.childByField? "name").any (·.text == "main")
    && (p.namedChildren.find? (·.kind == "modifiers")).any fun m => Text.holds m.text "static"

def adapter : Adapter :=
  { language := .java
    kinds := javaKinds
    isAllocation := fun p => javaKinds.allocations.contains p.kind
    isSizeDependent := fun p => sizeHint.isMatch p.text
    parameters := namedParameters javaKinds
    loopHeader
    callTarget := fun call => (call.childByField? "name").map (·.text)
    callReceiver := fun call => (call.childByField? "object").map (·.text)
    entryPoints := fun root =>
      (root.descendants.filter isStaticMain).map fun p => ⟨"main", .mainFunction, p.startLine⟩ }

end CodeProfile.Adapter.Java
