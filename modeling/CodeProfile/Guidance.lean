import CodeProfile.Behavior
import CodeProfile.Findings
import CodeProfile.Metrics
import CodeProfile.Text.Budget

/-!
# Guidance

Hints in words for whoever works on a snippet next, and the areas on which to look first.
-/

namespace CodeProfile

open Text

/-- What to tell, and where to look first. -/
structure Guidance where
  hints : List String
  focusAreas : List String
  deriving DecidableEq, Repr, Inhabited

namespace Guidance

def empty : Guidance := ⟨[], []⟩

/-- How many hints there are at most. -/
def hintLimit : Nat := 8

/-- How many bytes a hint has at most. -/
def hintBudget : Nat := 160

/-- A cyclomatic number for each function above this calls for attention. -/
def highCyclomatic : Float := 10.0

/-- Nesting above this calls for attention. -/
def deepNesting : Nat := 3

/-- Where a piece of advice directs the look. -/
def areaOf : SuggestionKind → String
  | .hashing => "nested loops"
  | .memoization | .iterativeConversion => "recursion"
  | .hoistAllocation => "allocation in loops"

/-- A text if the condition holds. -/
def textIf (condition : Bool) (text : String) : List String := if condition then [text] else []

end Guidance

namespace Findings

open Guidance

def languageHint (l : LanguageReport) : List String :=
  let dialect := l.dialect.elim "" fun d => " (" ++ d ++ ")"
  textIf (l.method != .fallback) ("Source language is " ++ l.language.name ++ dialect)

def paradigmHint (p : ParadigmReport Float) : List String :=
  let secondary := p.secondary.elim "" fun s => ", secondary " ++ s.name
  textIf (p.primary != .unknown) ("Primary paradigm: " ++ p.primary.name ++ secondary)

def costHint (c : ComplexityReport) : List String :=
  textIf c.timeCost.isSome
    ("Preserve time complexity " ++ c.time ++ " and space complexity " ++ c.space)

/-- All hints in full, the most important first. -/
def allHints (f : Findings) (m : Metrics) (b : Behavior) : List String :=
  languageHint f.language
    ++ paradigmHint f.paradigm
    ++ textIf (f.codeType.codeType != .unknown) ("Code type: " ++ f.codeType.codeType.name)
    ++ textIf (!f.libraries.frameworks.isEmpty)
      ("Uses frameworks: " ++ join ", " (f.libraries.frameworks.map (·.name)))
    ++ costHint f.complexity
    ++ textIf (!b.isDeterministic)
      ("Nondeterministic: " ++ join ", " (b.labels SignalKind.isNondeterministic))
    ++ textIf b.hasSideEffects
      ("Side effects: " ++ join ", " (b.labels SignalKind.isSideEffect))
    ++ textIf b.isAsync "Keep asynchronous semantics"
    ++ textIf (0 < m.syntaxErrors)
      s!"Input has {m.syntaxErrors} syntax error(s); infer intent conservatively"

/-- The areas on which to look first, each once. -/
def focusAreas (f : Findings) (m : Metrics) (b : Behavior) : List String :=
  distinct (f.complexity.suggestions.map (areaOf ·.kind)
    ++ textIf (highCyclomatic < Metrics.perFunction m.cyclomatic m.functions
      || deepNesting < m.maxNesting) "control flow"
    ++ textIf b.hasSideEffects "side effects"
    ++ textIf (!b.isDeterministic) "determinism"
    ++ textIf b.isAsync "concurrency"
    ++ textIf (0 < m.syntaxErrors) "syntax errors"
    ++ textIf (!f.libraries.thirdParty.isEmpty) "external dependencies"
    ++ textIf f.language.language.isUnknown "language identification")

def guidance (f : Findings) (m : Metrics) (b : Behavior) : Guidance :=
  ⟨((f.allHints m b).take hintLimit).map (shorten hintBudget), f.focusAreas m b⟩

end Findings

end CodeProfile
