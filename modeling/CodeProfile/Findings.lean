import CodeProfile.CodeType.Classification
import CodeProfile.Complexity
import CodeProfile.Language.Detection

/-!
# Findings

What the five analyses say about a snippet. All that a profile adds is computed from these reports,
the text and the tree.
-/

namespace CodeProfile

/-- What the analyses say about a snippet. -/
structure Findings where
  language : LanguageReport
  libraries : LibraryReport
  paradigm : ParadigmReport Float
  codeType : CodeTypeReport
  complexity : ComplexityReport
  deriving Inhabited

namespace Findings

/-- The findings on a text that has no tree: only the language of the text was looked at. -/
def withoutTree (l : LanguageReport) : Findings :=
  { language := l.withoutTree, libraries := .empty, paradigm := .unknown, codeType := .unknown
    complexity := .unknown }

end Findings

end CodeProfile
