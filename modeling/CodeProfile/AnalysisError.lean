import CodeProfile.Language

/-!
# Faults

What can go wrong while a snippet is profiled. A missing grammar or a tree that does not parse is no
fault of the profile itself: the profiler then falls back to what the text alone shows.
-/

namespace CodeProfile

/-- A fault, by its cause. -/
inductive AnalysisError where
  /-- The parser gave no tree. -/
  | parse (language : Language) (message : String)
  /-- A tree broke the rules on spans, nesting or a single root. -/
  | malformedTree (message : String)
  /-- A step of the analysis itself failed. -/
  | analysis (message : String)
  /-- A configuration could not be read. -/
  | configuration (message : String)
  /-- No grammar is bundled for the language. -/
  | unsupportedLanguage (language : Language)
  deriving DecidableEq, Repr, Inhabited

namespace AnalysisError

/-- The text shown for a fault. -/
def message : AnalysisError → String
  | parse language m => s!"Parse error ({language.name}): {m}"
  | malformedTree m => s!"Malformed syntax tree: {m}"
  | analysis m => s!"Analysis failed: {m}"
  | configuration m => s!"Configuration error: {m}"
  | unsupportedLanguage language => s!"Unsupported language: {language.name}"

/-- Whether the analysis is at fault, so that no profile can be given at all. -/
def isAnalysisFault : AnalysisError → Bool
  | malformedTree _ | analysis _ => true
  | _ => false

end AnalysisError

end CodeProfile
