import CodeProfile.Adapter.Go
import CodeProfile.Adapter.Java
import CodeProfile.Adapter.JavaScript
import CodeProfile.Adapter.Python
import CodeProfile.Adapter.Rust

/-!
# The adapters at hand

A registry holds at most one adapter for each language, in the order of the languages.
`Registry.full` holds all adapters there are.
-/

namespace CodeProfile

/-- The node kinds of a language whose grammar is bundled. -/
def nodeKinds? : Language → Option NodeKinds
  | .javaScript | .typeScript => some javaScriptKinds
  | .python => some pythonKinds
  | .go => some goKinds
  | .java => some javaKinds
  | .rust => some rustKinds
  | .c => some cKinds
  | _ => none

/-- The adapter of a language, if there is one. -/
def Adapter.ofLanguage? : Language → Option Adapter
  | .javaScript => some (Adapter.JavaScript.adapter .javaScript)
  | .typeScript => some (Adapter.JavaScript.adapter .typeScript)
  | .python => some Adapter.Python.adapter
  | .go => some Adapter.Go.adapter
  | .java => some Adapter.Java.adapter
  | .rust => some Adapter.Rust.adapter
  | _ => none

/-- The languages for which an adapter is registered. -/
structure Registry where
  adapters : List Adapter

namespace Registry

def empty : Registry := ⟨[]⟩

/-- Puts an adapter in its place, over one for the same language. -/
def register (r : Registry) (a : Adapter) : Registry :=
  ⟨r.adapters.takeWhile (·.language.rank < a.language.rank) ++ a
    :: r.adapters.filter (a.language.rank < ·.language.rank)⟩

/-- All adapters there are. -/
def full : Registry := ⟨Language.all.filterMap Adapter.ofLanguage?⟩

def get? (r : Registry) (l : Language) : Option Adapter := r.adapters.find? (·.language = l)

def supports (r : Registry) (l : Language) : Bool := (r.get? l).isSome

def languages (r : Registry) : List Language := r.adapters.map (·.language)

/-- The languages of the registry as shown to a developer. -/
def describe (r : Registry) : String :=
  "AdapterRegistry \x7b languages: [" ++ Text.join ", " (r.languages.map (·.label)) ++ "] \x7d"

end Registry

end CodeProfile
