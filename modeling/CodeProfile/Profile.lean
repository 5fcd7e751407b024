import CodeProfile.Elements
import CodeProfile.Guidance
import CodeProfile.Intent
import CodeProfile.Readiness

/-!
# Profiles

All that is known about a snippet in one record. `Profile.ofTree` puts it together from the
findings on a tree. `Profile.withoutTree` does so for a text that could not be parsed: the record
has the same parts, each analysis reports that it knows nothing, and what the text alone shows is
filled in.
-/

namespace CodeProfile

open Text

/-- All that is known about a snippet. -/
structure Profile where
  /-- The version of the form of the record. -/
  version : String
  findings : Findings
  metrics : Metrics
  behavior : Behavior
  elements : Elements
  intent : Intent
  readiness : Readiness
  guidance : Guidance
  deriving Inhabited

namespace Profile

def currentVersion : String := "1.0"

/-- The profile of nothing. -/
def empty : Profile :=
  { version := currentVersion
    findings :=
      { language := ⟨.unknown, none, 0.0, [], .fallback⟩, libraries := .empty, paradigm := .unknown
        codeType := .unknown, complexity := .unknown }
    metrics := .zero, behavior := .pure, elements := .empty, intent := .none, readiness := .zero
    guidance := .empty }

/-- How many bytes a condition has at most. -/
def conditionBudget : Nat := 120

/-- How many bytes the code of a branch has at most. -/
def outcomeBudget : Nat := 80

/-- Shortens what is shown of conditions and branches. -/
def shortenElements (e : Elements) : Elements :=
  { e with
    conditions := e.conditions.map fun c =>
      { c with
        condition := shorten conditionBudget c.condition
        outcomes := c.outcomes.map (shorten outcomeBudget) } }

/-- Adds what follows from the findings, the metrics, the behaviour and the elements. -/
def assemble (source : String) (f : Findings) (m : Metrics) (b : Behavior) (e : Elements) :
    Profile :=
  { version := currentVersion
    findings := f
    metrics := m
    behavior := b
    elements := shortenElements e
    intent := .of e.functionNames source
    readiness := f.readiness m b
    guidance := f.guidance m b }

/-- The profile of a tree with the findings on it. -/
def ofTree (t : SyntaxTree) (adapter : Option Adapter) (f : Findings) : Profile :=
  assemble t.source f t.metrics (.ofText t.source t.language)
    (t.elements adapter f.libraries f.codeType.entryPoints)

/-- The profile of a text without a tree. The language that the text suggests only chooses the
signals of behaviour. -/
def withoutTree (source : String) (guess : LanguageReport) : Profile :=
  assemble source (.withoutTree guess) (.ofText source) (.ofText source guess.language) .empty

end Profile

end CodeProfile
