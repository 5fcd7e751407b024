import CodeProfile.Behavior
import CodeProfile.Findings
import CodeProfile.Metrics

/-!
# Readiness

How ready a snippet is to be reviewed, refactored and run. Four factors between zero and one are
weighed: how clear its structure is, how sure the analyses are of it, whether it has what it needs
to stand alone, and how risky it is. The formulas are stated over a `Scalar` on the
`ReadinessFacts`, which are all that they look at.
-/

namespace CodeProfile

/-- The facts on which readiness hangs. -/
structure ReadinessFacts (R : Type) where
  maxNesting : Nat
  cyclomatic : Nat
  functions : Nat
  nonEmptyLines : Nat
  syntaxErrors : Nat
  localImports : Nat
  thirdPartyImports : Nat
  readsEnvironment : Bool
  hasSideEffects : Bool
  hasInputOutput : Bool
  isDeterministic : Bool
  isAsync : Bool
  isExponential : Bool
  languageConfidence : R
  paradigmConfidence : R
  codeTypeConfidence : R
  complexityConfidence : R
  runnability : R

/-- What is weighed into the scores, each between zero and one. -/
structure ReadinessFactors (R : Type) where
  structuralClarity : R
  semanticCompleteness : R
  contextSufficiency : R
  risk : R
  deriving Inhabited

/-- The scores with the factors they come from. -/
structure ReadinessScores (R : Type) where
  review : R
  refactor : R
  execution : R
  factors : ReadinessFactors R
  deriving Inhabited

/-- How ready a snippet is, and what stands in the way. -/
structure Readiness where
  scores : ReadinessScores Float
  blockingIssues : List String
  deriving Inhabited

section

variable {R : Type} [Scalar R]

namespace ReadinessFacts

/-- Nesting up to here costs nothing. -/
def nestingLimit : Nat := 3

/-- A cyclomatic number for each function up to here costs nothing. -/
def cyclomaticLimit : R := 10.0

/-- More lines than these need at least one function. -/
def unstructuredLimit : Nat := 30

/-- A weight if the condition holds. -/
def weightIf (condition : Bool) (weight : R) : R := if condition then weight else 0.0

/-- What many ways through each function cost. -/
def cyclomaticPenalty (f : ReadinessFacts R) : R :=
  let perFunction := Metrics.perFunction f.cyclomatic f.functions
  if cyclomaticLimit < perFunction then
    Scalar.least (0.05 * (perFunction - cyclomaticLimit)) 0.3
  else 0.0

/-- Nesting, many ways through a function, syntax errors and long code without a function make the
structure less clear. -/
def structuralClarity (f : ReadinessFacts R) : R :=
  Scalar.clampUnit
    (1.0 - 0.1 * Scalar.ofNat (f.maxNesting - nestingLimit) - f.cyclomaticPenalty
      - Scalar.least (0.2 * Scalar.ofNat f.syntaxErrors) 0.6
      - weightIf (f.functions == 0 && unstructuredLimit < f.nonEmptyLines) 0.2)

/-- The mean confidence of the analyses. -/
def semanticCompleteness (f : ReadinessFacts R) : R :=
  Scalar.clampUnit
    ((f.languageConfidence + f.paradigmConfidence + f.codeTypeConfidence + f.complexityConfidence)
      / 4.0)

/-- What the snippet cannot bring along itself makes it less sufficient. -/
def contextSufficiency (f : ReadinessFacts R) : R :=
  Scalar.clampUnit
    (1.0 - Scalar.least (0.15 * Scalar.ofNat f.localImports) 0.45
      - Scalar.least (0.05 * Scalar.ofNat f.thirdPartyImports) 0.3
      - weightIf f.readsEnvironment 0.2)

/-- What makes a snippet risky, added up. -/
def risk (f : ReadinessFacts R) : R :=
  Scalar.clampUnit
    (weightIf f.hasSideEffects 0.2 + weightIf f.hasInputOutput 0.15
      + weightIf (!f.isDeterministic) 0.15 + weightIf f.isAsync 0.1
      + weightIf f.isExponential 0.25 + weightIf (0 < f.syntaxErrors) 0.25)

def factors (f : ReadinessFacts R) : ReadinessFactors R :=
  { structuralClarity := Scalar.round2 f.structuralClarity
    semanticCompleteness := Scalar.round2 f.semanticCompleteness
    contextSufficiency := Scalar.round2 f.contextSufficiency
    risk := Scalar.round2 f.risk }

/-- A weighed sum as a score. -/
def settle (x : R) : R := Scalar.round2 (Scalar.clampUnit x)

/-- The scores; execution also weighs whether the snippet can be run at all. -/
def scores (f : ReadinessFacts R) : ReadinessScores R :=
  let x := f.factors
  let safety := 1.0 - x.risk
  { review := settle (0.35 * x.structuralClarity + 0.25 * x.semanticCompleteness
      + 0.2 * x.contextSufficiency + 0.2 * safety)
    refactor := settle (0.3 * x.structuralClarity + 0.2 * x.semanticCompleteness
      + 0.2 * x.contextSufficiency + 0.3 * safety)
    execution := settle (0.15 * x.structuralClarity + 0.15 * x.semanticCompleteness
      + 0.3 * x.contextSufficiency + 0.2 * safety + 0.2 * f.runnability)
    factors := x }

end ReadinessFacts

end

namespace Findings

/-- The facts on which readiness hangs. -/
def readinessFacts (f : Findings) (m : Metrics) (b : Behavior) : ReadinessFacts Float :=
  { maxNesting := m.maxNesting
    cyclomatic := m.cyclomatic
    functions := m.functions
    nonEmptyLines := m.nonEmptyLines
    syntaxErrors := m.syntaxErrors
    localImports := f.libraries.libraries.countP (·.isLocal)
    thirdPartyImports := f.libraries.thirdParty.length
    readsEnvironment := f.codeType.context.any (!·.environmentVariables.isEmpty)
    hasSideEffects := b.hasSideEffects
    hasInputOutput := b.hasInputOutput
    isDeterministic := b.isDeterministic
    isAsync := b.isAsync
    isExponential := f.complexity.isExponential
    languageConfidence := f.language.confidence
    paradigmConfidence := f.paradigm.confidence
    codeTypeConfidence := f.codeType.confidence
    complexityConfidence := f.complexity.confidence
    runnability := (f.codeType.intent.map (·.runnability)).getD 0.0 }

/-- What stands in the way of working with the snippet. -/
def blockingIssues (f : Findings) (m : Metrics) : List String :=
  let plural := if m.syntaxErrors = 1 then "" else "s"
  let errors :=
    if 0 < m.syntaxErrors then [s!"{m.syntaxErrors} syntax error{plural} in the snippet"] else []
  let language :=
    if f.language.method = .fallback then ["language could not be identified"] else []
  let modules := (f.libraries.libraries.filter (·.isLocal)).map fun l =>
    "depends on local module " ++ l.name
  let exponential :=
    if f.complexity.isExponential then
      ["exponential time complexity (" ++ f.complexity.time ++ ")"]
    else []
  errors ++ language ++ modules ++ exponential

/-- How ready the snippet is. -/
def readiness (f : Findings) (m : Metrics) (b : Behavior) : Readiness :=
  ⟨(f.readinessFacts m b).scores, f.blockingIssues m⟩

end Findings

namespace Readiness

/-- The readiness of nothing. -/
def zero : Readiness := ⟨⟨0.0, 0.0, 0.0, ⟨0.0, 0.0, 0.0, 0.0⟩⟩, []⟩

end Readiness

end CodeProfile
