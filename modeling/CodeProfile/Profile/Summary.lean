import CodeProfile.Painter
import CodeProfile.Profile

/-!
# Summaries of profiles

A few lines for a reader, each with a label in a column of its own. Lines for which there is
nothing to tell are left out.
-/

namespace CodeProfile

open Text

namespace DetectionMethod

/-- How the language was told, as shown to a reader. -/
def label : DetectionMethod → String
  | telltale => "SmokingGun"
  | clues => "WeightedScoring"
  | fallback => "Fallback"

end DetectionMethod

namespace ComplexityMethod

/-- How the complexity was found, as shown to a reader. -/
def label : ComplexityMethod → String
  | program => "Ir"
  | tree => "Legacy"
  | none => "None"

end ComplexityMethod

namespace Profile

variable (r : Profile) (p : Painter)

def languageLine : String :=
  let l := r.findings.language
  let dialect := l.dialect.elim "" fun d => " (" ++ d ++ ")"
  p.labelColumn "Language" ++ " " ++ l.language.name ++ dialect ++ " " ++ p.score l.confidence
    ++ " " ++ p.paint .dim ("[" ++ l.method.label ++ "]")

def paradigmLine : String :=
  let d := r.findings.paradigm
  let secondary := d.secondary.elim "" fun s => ", secondary " ++ s.name
  p.labelColumn "Paradigm" ++ " " ++ d.primary.name ++ secondary ++ " " ++ p.score d.confidence

def codeTypeLine : String :=
  let c := r.findings.codeType
  p.labelColumn "Code type" ++ " " ++ c.codeType.name ++ " " ++ p.score c.confidence

def complexityLine : String :=
  let c := r.findings.complexity
  let time := if c.isExponential then p.paint .failure c.time else c.time
  p.labelColumn "Complexity" ++ " time " ++ time ++ ", space " ++ c.space ++ " "
    ++ p.paint .dim ("[" ++ c.method.label ++ "]")

def metricsLine : String :=
  let m := r.metrics
  p.labelColumn "Structure" ++ s!" {m.lines} lines, {m.functions} functions, {m.classes} classes, "
    ++ s!"cyclomatic {m.cyclomatic}, nesting {m.maxNesting}"

/-- A line with names, if there are any. -/
def namesLine (label : String) (names : List String) : List String :=
  if names.isEmpty then [] else [p.labelColumn label ++ " " ++ join ", " names]

def intentLine : List String :=
  (r.intent.primary.map fun i =>
    p.labelColumn "Intent" ++ " " ++ i.name ++ " " ++ p.score r.intent.confidence).toList

def readinessLine : String :=
  let s := r.readiness.scores
  p.labelColumn "Readiness" ++ " review " ++ p.score s.review ++ ", refactor " ++ p.score s.refactor
    ++ ", execution " ++ p.score s.execution

def issueLines : List String :=
  r.readiness.blockingIssues.map fun i => "    " ++ p.paint .failure "!" ++ " " ++ i

/-- Items under a header, if there are any. -/
def titled (title : String) (items : List String) : List String :=
  if items.isEmpty then [] else p.paint .header title :: items.map ("  - " ++ ·)

def suggestionTexts : List String :=
  r.findings.complexity.suggestions.map fun s =>
    s.message ++ " " ++ p.paint .dim s!"(line {s.line})"

/-- All lines of the summary. -/
def summaryLines : List String :=
  [ p.paint .header "Code characterization", r.languageLine p, r.paradigmLine p, r.codeTypeLine p,
    r.complexityLine p, r.metricsLine p]
  ++ namesLine p "Libraries" (r.findings.libraries.libraries.map (·.name))
  ++ namesLine p "Frameworks" (r.findings.libraries.frameworks.map (·.name))
  ++ r.intentLine p
  ++ [r.readinessLine p]
  ++ r.issueLines p
  ++ titled p "Suggestions" (r.suggestionTexts p)
  ++ titled p "Hints" r.guidance.hints

/-- The summary, each line ended. -/
def summary : String := String.join ((r.summaryLines p).map (· ++ "\n"))

end Profile

end CodeProfile
