import CodeProfile.Profile

/-!
# Agreement of two profiles

The profile of a snippet is compared with that of its counterpart in another language. Counts must
agree within a tolerance of their own, and these checks decide whether the counterpart is valid.
Paradigm, time and determinism are compared as well, but a difference in them is only worth a
warning.
-/

namespace CodeProfile

open Text

/-- How far two values may be apart. -/
inductive Tolerance where
  | exact
  | absolute
  /-- In proportion to the first value. -/
  | relative
  /-- A difference is only worth a warning. -/
  | advisory
  deriving DecidableEq, Repr, Inhabited

/-- The comparison of one value. -/
structure AgreementCheck where
  field : String
  source : String
  target : String
  /-- By how much the second count exceeds the first. -/
  delta : Float
  tolerance : Tolerance
  passed : Bool
  deriving Inhabited

/-- The comparison of two profiles. -/
structure AgreementReport where
  isValid : Bool
  checks : List AgreementCheck
  warnings : List String
  deriving Inhabited

namespace AgreementCheck

/-- Whether a check speaks against the agreement. -/
def isFailure (c : AgreementCheck) : Bool := !c.passed && c.tolerance != .advisory

/-- Whether a difference is within a tolerance. -/
def isWithin (t : Tolerance) (allowed delta : Float) (source : Nat) : Bool :=
  match t with
  | .exact => delta == 0.0
  | .absolute => delta.abs ≤ allowed
  | .relative => delta.abs / Float.ofNat (max source 1) ≤ allowed
  | .advisory => true

/-- Compares two counts. -/
def ofCounts (field : String) (source target : Nat) (t : Tolerance) (allowed : Float) :
    AgreementCheck :=
  let delta := Float.ofNat target - Float.ofNat source
  { field, source := toString source, target := toString target, delta, tolerance := t
    passed := isWithin t allowed delta source }

/-- Compares two texts, for a warning only. -/
def ofTexts (field source target : String) : AgreementCheck :=
  { field, source, target, delta := 0.0, tolerance := .advisory, passed := source == target }

/-- What is said about a check that did not pass. -/
def warning (c : AgreementCheck) : String :=
  if c.tolerance = .advisory then
    c.field ++ " differs: " ++ c.source ++ " vs " ++ c.target ++ " (advisory)"
  else c.field ++ " out of tolerance: " ++ c.source ++ " vs " ++ c.target

end AgreementCheck

namespace AgreementReport

/-- How far the numbers of decision points may be apart. -/
def decisionTolerance : Float := 1.0

/-- How far the cyclomatic numbers may be apart. -/
def cyclomaticTolerance : Float := 2.0

/-- How far the numbers of lines may be apart in proportion to the first. -/
def lineTolerance : Float := 0.5

def truthText (b : Bool) : String := if b then "true" else "false"

/-- All checks, those of the counts first. -/
def checksOf (p q : Profile) : List AgreementCheck :=
  let s := p.metrics
  let t := q.metrics
  [ .ofCounts "functionCount" s.functions t.functions .exact 0.0,
    .ofCounts "classCount" s.classes t.classes .exact 0.0,
    .ofCounts "decisionPoints" s.decisionPoints t.decisionPoints .absolute decisionTolerance,
    .ofCounts "cyclomaticComplexity" s.cyclomatic t.cyclomatic .absolute cyclomaticTolerance,
    .ofCounts "lines" s.lines t.lines .relative lineTolerance,
    .ofTexts "paradigm" p.findings.paradigm.primary.name q.findings.paradigm.primary.name,
    .ofTexts "timeComplexity" p.findings.complexity.time q.findings.complexity.time,
    .ofTexts "isDeterministic" (truthText p.behavior.isDeterministic)
      (truthText q.behavior.isDeterministic)]

/-- Compares the profile of a snippet with that of its counterpart. -/
def of (source target : Profile) : AgreementReport :=
  let checks := checksOf source target
  { isValid := !checks.any (·.isFailure)
    checks
    warnings := (checks.filter (!·.passed)).map (·.warning) }

/-- The checks that speak against the agreement. -/
def failures (r : AgreementReport) : List AgreementCheck := r.checks.filter (·.isFailure)

end AgreementReport

end CodeProfile
