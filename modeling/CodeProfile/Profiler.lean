import CodeProfile.Agreement
import CodeProfile.AnalysisError
import CodeProfile.Complexity.TreeShape
import CodeProfile.Phase
import CodeProfile.Profile

/-!
# Profiling a text

The profiler tells the language of a text, has it parsed, runs the analyses on the tree and puts
the profile together. A text that cannot be parsed still gets a profile, and an empty one gets
none. A step that breaks down makes the run fail with a message that names the phase of that step.
Whatever happens, the context is afterwards what it was before.
-/

namespace CodeProfile

open Text

/-- Parses texts of the languages that it supports. It may break down at either question. -/
structure Parser where
  supports : Language → Step Bool
  parse : String → Language → Step (Except AnalysisError SyntaxTree)

/-- The parser that supports no language. -/
def Parser.none : Parser := ⟨fun _ => false, fun _ l => .ok (.error (.unsupportedLanguage l))⟩

/-- The steps of a run, each of which may break down. -/
structure Profiler where
  detect : String → Step LanguageReport
  parser : Parser
  libraries : SyntaxTree → Step LibraryReport
  paradigm : SyntaxTree → Step (ParadigmReport Float)
  codeType : SyntaxTree → LibraryReport → Step CodeTypeReport
  complexity : SyntaxTree → Step ComplexityReport
  assemble : SyntaxTree → Findings → Step Profile
  withoutTree : String → LanguageReport → Step Profile

namespace Profiler

/-- The profiler with a parser, adapters and a language detector. Only the parser can break down. -/
def of (p : Parser) (r : Registry) (d : LanguageDetector) : Profiler :=
  { detect := fun source => .ok (d.detect source)
    parser := p
    libraries := fun t => .ok t.libraries
    paradigm := fun t => .ok t.paradigm
    codeType := fun t libraries => .ok (t.codeType libraries (r.get? t.language))
    complexity := fun t => .ok (t.complexity r)
    assemble := fun t f => .ok (.ofTree t (r.get? t.language) f)
    withoutTree := fun source l => .ok (.withoutTree source l) }

/-- The tree of a text. There is none if its language is not supported or it does not parse. -/
def tree (p : Profiler) (source : String) (l : Language) : Step (Option SyntaxTree) := do
  if ← p.parser.supports l then
    let parsed ← p.parser.parse source l
    return parsed.toOption
  else return none

/-- The analyses of a tree and the profile from them. -/
def profileTree (p : Profiler) (t : SyntaxTree) (language : LanguageReport) : Traced Profile :=
  (Traced.inPhase .libraryDetection (p.libraries t)).next fun libraries =>
  (Traced.inPhase .paradigmDetection (p.paradigm t)).next fun paradigm =>
  (Traced.inPhase .codeTypeClassification (p.codeType t libraries)).next fun codeType =>
  (Traced.inPhase .complexityAnalysis (p.complexity t)).next fun complexity =>
  Traced.inPhase .assembly (p.assemble t { language, libraries, paradigm, codeType, complexity })

/-- All steps for a text. -/
def run (p : Profiler) (source : String) : Traced Profile :=
  (Traced.inPhase .languageDetection (p.detect source)).next fun language =>
  (Traced.inPhase .parsing (p.tree source language.language)).next fun tree =>
  match tree with
  | some t => p.profileTree t language
  | none => Traced.inPhase .assembly (p.withoutTree source language)

/-- What is reported when a step broke down in a context. -/
def fault (message : String) (c : RunContext) : AnalysisError :=
  .analysis (message ++ " (during " ++ c.phaseName ++ ")")

/-- Profiles a text in a context. An empty text has no profile. -/
def profileIn (p : Profiler) (label source : String) :
    InContext (Except AnalysisError (Option Profile)) :=
  if isBlankText source then InContext.done (.ok none)
  else
    InContext.guarded (fun _ => false) (·.onInput label)
      (((p.run source).caught fault).map (·.map some))

/-- Profiles a text. -/
def profile (p : Profiler) (label source : String) : Except AnalysisError (Option Profile) :=
  (p.profileIn label source .idle).1

/-- Profiles a text and its counterpart in a context and compares the two. There is nothing to
compare if one of them is empty. -/
def compareIn (p : Profiler) (source target : String) :
    InContext (Except AnalysisError (Option AgreementReport)) := fun c =>
  match p.profileIn "<source>" source c with
  | (.error e, c) => (.error e, c)
  | (.ok first, c) =>
    match p.profileIn "<target>" target c with
    | (.error e, c) => (.error e, c)
    | (.ok second, c) =>
      match first, second with
      | some first, some second =>
        InContext.guarded (fun _ => false) (·.inPhase .validation)
          (InContext.done (.ok (some (AgreementReport.of first second)))) c
      | _, _ => (.ok none, c)

/-- Compares a text with its counterpart. -/
def compare (p : Profiler) (source target : String) :
    Except AnalysisError (Option AgreementReport) :=
  (p.compareIn source target .idle).1

/-- Profiles several texts, each on its own, in their order. -/
def profileAll (p : Profiler) (inputs : List (String × String)) :
    List (String × Except AnalysisError (Option Profile)) :=
  inputs.map fun (label, source) => (label, p.profile label source)

end Profiler

end CodeProfile
