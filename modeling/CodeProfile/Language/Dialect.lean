import CodeProfile.Language
import CodeProfile.Text.Pattern.Reader

/-!
# Dialects

Marks in a text by which a version or style of its language is told.
-/

namespace CodeProfile.Language

open Text

namespace Dialect

/-- A tag stands as a value. -/
def jsx : Pattern := .ofText
  r"(return|=>|=)\s*\(?\s*<[A-Za-z][\w.]*(\s+[\w-]+=|\s*/?>)"

/-- The text imports or exports by declaration. -/
def esModule : Pattern := .ofText
  (r#"(?m)^\s*(import\s+.*\bfrom\s+['"]|import\s+['"]|export\s+(default|const|function|class|l"#
  ++ r"et|\x7b))")

/-- The text imports or exports by call and assignment. -/
def commonJs : Pattern := .ofText
  r#"\brequire\s*\(\s*['"]|\bmodule\.exports\b|\bexports\.\w+\s*="#

/-- Statements and functions that only Python 2 has. -/
def python2 : Pattern := .ofText
  (r"(?m)^\s*print\s+[^\s(=]|\bxrange\s*\(|\braw_input\s*\(|except\s+\w+\s*,\s*\w+\s*:|\.has_"
  ++ r"key\s*\(|\bunicode\s*\(")

/-- Forms that only Python 3 has. -/
def python3 : Pattern := .ofText
  (r#"\bprint\s*\(|\bf["'][^"']*\x7b|\basync\s+def\b|\)\s*->\s*\w+|\bnonlocal\b|:=|\w+\s*:\s*("#
  ++ r"int|str|float|bool|list|dict)\b")

/-- Forms that C++20 brought. -/
def cpp20 : Pattern := .ofText
  r"\bconcept\s+\w+|\bco_(await|return|yield)\b|\bstd::span\b|<=>|\brequires\s|\bstd::ranges::"

/-- Forms that C++17 brought. -/
def cpp17 : Pattern := .ofText
  (r"\bstd::(optional|variant|string_view|any|filesystem)\b|\bif\s+constexpr\b|\bauto\s*&?\s*"
  ++ r"\[\w+\s*,")

/-- Forms that C++11 brought. -/
def cpp11 : Pattern := .ofText
  (r"\bauto\s|\bnullptr\b|\bstd::(unique_ptr|shared_ptr|move|thread)\b|\[[&=]?\]\s*\(|\bconst"
  ++ r"expr\b|\boverride\b")

/-- Forms that Java got between 9 and 17. -/
def java17 : Pattern := .ofText
  r#"\brecord\s+\w+\s*\(|\bsealed\s+(class|interface)\b|\bvar\s+\w+\s*=|case\s+[^:]+->|""""#

/-- Forms that Java 8 brought. -/
def java8 : Pattern := .ofText
  r"->|\w::\w|\.stream\s*\(\s*\)|\bOptional<|@FunctionalInterface"

/-- The marks of each language with the dialects they tell, the decisive ones first. -/
def marks : Language → List (Pattern × String)
  | javaScript => [(jsx, "jsx"), (esModule, "esm"), (commonJs, "commonjs")]
  | typeScript => [(jsx, "tsx")]
  | python => [(python2, "python2"), (python3, "python3")]
  | cpp => [(cpp20, "cpp20"), (cpp17, "cpp17"), (cpp11, "cpp11")]
  | java => [(java17, "java17"), (java8, "java8")]
  | _ => []

end Dialect

/-- The dialect of a text in a language, if there is any mark of one. -/
def dialect? (l : Language) (source : String) : Option String :=
  ((Dialect.marks l).find? fun (mark, _) => mark.isMatch source).map (·.2)

end CodeProfile.Language
