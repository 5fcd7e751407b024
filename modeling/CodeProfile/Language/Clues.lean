import CodeProfile.Language
import CodeProfile.Text.Pattern.Reader

/-!
# Clues to a language

Patterns that speak for or against a language when they occur in a text. A telltale settles the
language alone; a clue only adds its weight, or takes it away.
-/

namespace CodeProfile

open Text

/-- A pattern that settles the language. -/
structure Telltale where
  language : Language
  confidence : Float
  indicator : String
  pattern : Pattern

/-- A pattern that speaks for or against a language. -/
structure Clue where
  indicator : String
  pattern : Pattern
  weight : Float
  /-- By how much the clue counts more in a short snippet. -/
  shortFactor : Float

/-- The clues for and against a language. -/
structure ClueSet where
  language : Language
  supporting : List Clue
  opposing : List Clue

namespace Clue

/-- A clue from the written form of its pattern. -/
def of (indicator pattern : String) (weight : Float) (shortFactor : Float := 1.0) : Clue :=
  ⟨indicator, .ofText pattern, weight, shortFactor⟩

/-- What speaks for JavaScript. -/
def javaScriptFor : List Clue :=
  [ of "variable declaration" r"\b(const|let|var)\s+\w+\s*=" 1.0,
    of "arrow function" r"=>" 1.0,
    of "function keyword" r"\bfunction\s*\*?\s*\w*\s*\(" 1.5 1.5,
    of "console api" r"\bconsole\.(log|error|warn|info)\s*\(" 2.0 1.5,
    of "require call" r#"\brequire\s*\(\s*['"]"# 2.0,
    of "commonjs export" r"\bmodule\.exports\b|\bexports\.\w+\s*=" 2.0,
    of "es import" r#"(?m)^\s*import\s+.*\bfrom\s+['"]"# 1.5,
    of "browser globals" r"\bdocument\.\w+|\bwindow\.\w+" 1.5,
    of "strict equality" r"===|!==" 1.0,
    of "promise chain" r"\.then\s*\(|\basync\s+function\b" 0.5,
    of "undefined" r"\bundefined\b" 0.5]

/-- What speaks against JavaScript. -/
def javaScriptAgainst : List Clue :=
  [ of "type annotation" r"[\w)]\s*:\s*(string|number|boolean|any|void)\b" 1.5,
    of "interface" r"\binterface\s+\w+\s*\x7b" 1.5,
    of "python def" r"(?m)^\s*def\s+\w+\s*\(.*\)\s*:" 2.0,
    of "rust fn" r"\bfn\s+\w+" 1.0]

/-- What speaks for TypeScript. -/
def typeScriptFor : List Clue :=
  [ of "type annotation" r"[\w)]\s*:\s*(string|number|boolean|any|void|unknown|never)\b" 2.0 1.5,
    of "interface" r"\binterface\s+\w+\s*(<[^>]*>)?\s*\x7b" 2.0,
    of "type alias" r"\btype\s+\w+\s*(<[^>]*>)?\s*=" 1.5,
    of "access modifier" r"\b(public|private|protected|readonly)\s+\w+\s*[:(]" 1.5,
    of "type assertion" r"\bas\s+(string|number|const|any|unknown)\b" 1.5,
    of "typed declaration" r"\b(const|let)\s+\w+\s*:\s*\w+" 1.5,
    of "es import" r#"(?m)^\s*import\s+.*\bfrom\s+['"]"# 1.0,
    of "enum" r"\benum\s+\w+\s*\x7b" 1.0,
    of "arrow function" r"=>" 0.5]

/-- What speaks against TypeScript. -/
def typeScriptAgainst : List Clue :=
  [ of "python def" r"(?m)^\s*def\s+\w+\s*\(" 2.0,
    of "go func" r"\bfunc\s+\w+\s*\(" 1.0]

/-- What speaks for Python. -/
def pythonFor : List Clue :=
  [ of "def" r"(?m)^\s*(async\s+)?def\s+\w+\s*\(.*\)\s*(->\s*[^:]+)?:" 2.0 1.5,
    of "from import" r"(?m)^\s*from\s+[\w.]+\s+import\s+" 2.0,
    of "import" r"(?m)^\s*import\s+[\w.]+(\s+as\s+\w+)?\s*$" 1.0,
    of "print call" r"\bprint\s*\(" 1.0 1.5,
    of "self reference" r"\bself\." 1.5,
    of "python keywords" r"(?m)^\s*(elif|except|finally)\b" 1.5,
    of "python constants" r"\b(None|True|False)\b" 1.0,
    of "block colon" r"(?m)^\s*(if|for|while|with|class|try|else)\b[^;\x7b]*:\s*$" 1.0,
    of "lambda" r"\blambda\s+[\w, ]*:" 1.0,
    of "f-string" r#"\bf["'][^"']*\x7b"# 1.0,
    of "dunder" r"__init__|__name__|__main__" 1.5]

/-- What speaks against Python. -/
def pythonAgainst : List Clue :=
  [ of "semicolon lines" r"(?m);\s*$" 0.5,
    of "js declaration" r"\b(const|let|var)\s+\w+\s*=" 1.0,
    of "braces" r"(?m)\x7b\s*$" 1.0]

/-- What speaks for Go. -/
def goFor : List Clue :=
  [ of "package clause" r"(?m)^package\s+\w+" 2.0,
    of "func" r"\bfunc\s+(\(\w+\s+\*?\w+\)\s*)?\w+\s*\(" 2.0 1.5,
    of "short declaration" r"\w\s*:=" 1.5 1.5,
    of "fmt call" r"\bfmt\.\w+\s*\(" 2.0,
    of "error check" r"\berr\s*!=\s*nil\b" 2.0,
    of "channels" r"\bgo\s+func\b|\bchan\b|<-" 1.0,
    of "defer" r"\bdefer\s" 1.5,
    of "import block" r"(?m)^import\s*\(" 1.5,
    of "struct type" r"\btype\s+\w+\s+struct\s*\x7b" 1.5]

/-- What speaks against Go. -/
def goAgainst : List Clue :=
  [ of "python def" r"\bdef\s" 1.0,
    of "swift arrow" r"\bfunc\s+\w+\s*\(.*\)\s*->" 2.0]

/-- What speaks for Java. -/
def javaFor : List Clue :=
  [ of "public class" r"\bpublic\s+(abstract\s+|final\s+)*class\s+\w+" 2.0,
    of "method signature"
      r"\b(public|private|protected)\s+(static\s+)?(final\s+)?[\w<>\[\], ]+\s+\w+\s*\(" 1.5,
    of "System.out" r"\bSystem\.out\.print" 2.0 1.5,
    of "java import" r"(?m)^import\s+(static\s+)?java\w*\." 2.0,
    of "annotations" r"@(Override|Test|Autowired|Entity|Inject)\b" 1.5,
    of "typed declaration" r"\b(String|int|long|double|boolean)(\[\])?\s+\w+\s*[=;]" 1.0,
    of "extends clause" r"\b(extends|implements)\s+\w+" 0.5,
    of "object creation" r"\bnew\s+[A-Z]\w*(<[^>]*>)?\s*\(" 0.5]

/-- What speaks against Java. -/
def javaAgainst : List Clue :=
  [ of "C# console" r"\bConsole\.Write" 2.0,
    of "namespace" r"\bnamespace\s" 1.5,
    of "using directive" r"\busing\s+System" 2.0,
    of "kotlin fun" r"\bfun\s+\w+" 1.0,
    of "kotlin val" r"\bval\s+\w+\s*=" 1.0]

/-- What speaks for Rust. -/
def rustFor : List Clue :=
  [ of "fn item" r"\bfn\s+\w+\s*(<[^>]*>)?\s*\(" 2.0 1.5,
    of "let mut" r"\blet\s+mut\s" 2.0,
    of "impl block" r"\bimpl\b" 1.5,
    of "type items" r"\b(pub\s+)?(struct|enum|trait)\s+\w+" 1.0,
    of "borrows" r"&mut\s|&self\b" 1.5,
    of "macro call" r"\b\w+!\s*[\(\[]" 1.0,
    of "match" r"\bmatch\s+[\w.&]+\s*\x7b" 1.0,
    of "return type" r"->\s*(Result|Option|Self|Vec|String|bool|i32|i64|u8|u32|u64|usize)\b" 1.5,
    of "use path" r"(?m)^\s*use\s+(std|crate|super|self)::" 2.0]

/-- What speaks against Rust. -/
def rustAgainst : List Clue :=
  [ of "include" r"#include" 2.0]

/-- What speaks for C. -/
def cFor : List Clue :=
  [ of "header include" r#"#include\s*[<"][\w/]+\.h[>"]"# 2.0 1.5,
    of "c function" r"\b(int|void|char|float|double|long|unsigned)\s+\*?\w+\s*\(" 1.5,
    of "printf" r"\bprintf\s*\(" 1.5,
    of "manual memory" r"\bmalloc\s*\(|\bfree\s*\(" 1.5,
    of "struct" r"\bstruct\s+\w+\s*\x7b" 1.0,
    of "arrow access" r"\w->\w" 0.5,
    of "NULL" r"\bNULL\b" 1.0]

/-- What speaks against C. -/
def cAgainst : List Clue :=
  [ of "std namespace" r"\bstd::" 2.0,
    of "class" r"\bclass\s+\w+" 1.5,
    of "iostream" r"\bcout\b" 2.0,
    of "template" r"\btemplate\s*<" 2.0,
    of "namespace" r"\bnamespace\b" 1.5]

/-- What speaks for C++. -/
def cppFor : List Clue :=
  [ of "std namespace" r"\bstd::\w+" 2.0 1.5,
    of "stl include"
      r"#include\s*<(vector|string|map|memory|algorithm|iostream|unordered_map|set)>" 2.0,
    of "class" r"\bclass\s+\w+\s*(:\s*(public|private|protected)\s+\w+)?\s*\x7b" 1.5,
    of "template" r"\btemplate\s*<" 2.0,
    of "stream operators" r"\bcout\s*<<|\bcin\s*>>" 2.0,
    of "modern keywords" r"\bnullptr\b|\bauto\s+\w+\s*=" 1.5,
    of "namespace" r"\bnamespace\s+\w+" 1.0]

/-- What speaks against C++. -/
def cppAgainst : List Clue :=
  [ of "python def" r"\bdef\s" 1.0,
    of "go func" r"\bfunc\s" 1.0]

/-- What speaks for C#. -/
def cSharpFor : List Clue :=
  [ of "using directive" r"\busing\s+System(\.\w+)*\s*;" 2.0,
    of "namespace" r"\bnamespace\s+[\w.]+" 1.5,
    of "Console" r"\bConsole\.(Write|WriteLine|ReadLine)\s*\(" 2.0 1.5,
    of "method signature"
      (r"\b(public|private|internal)\s+(static\s+)?(async\s+)?(void|string|int|bool|Task)\s+"
      ++ r"\w+\s*\(") 1.5,
    of "auto property" r"\x7b\s*get;\s*(set;)?\s*\x7d" 2.0,
    of "var new" r"\bvar\s+\w+\s*=\s*new\b" 1.0]

/-- What speaks against C#. -/
def cSharpAgainst : List Clue :=
  [ of "System.out" r"\bSystem\.out" 2.0,
    of "java import" r"(?m)^import\s+java" 2.0]

/-- What speaks for PHP. -/
def phpFor : List Clue :=
  [ of "variable sigil" r"\$\w+\s*=" 2.0 1.5,
    of "echo" r"\becho\s" 1.5,
    of "php function" r"\bfunction\s+\w+\s*\(\s*\$" 2.0,
    of "this arrow" r"\$this->" 2.0,
    of "array()" r"\barray\s*\(" 1.0]

/-- What speaks for Ruby. -/
def rubyFor : List Clue :=
  [ of "def without colon" r"(?m)^\s*def\s+[\w.]+[?!]?(\(.*\))?\s*$" 2.0,
    of "end keyword" r"(?m)^\s*end\s*$" 2.0 1.5,
    of "puts" r"\bputs\s" 2.0,
    of "require" r#"(?m)^\s*require\s+['"]"# 1.5,
    of "block" r"\.each\s+do\s*\||\bdo\s*\|\w+\|" 2.0,
    of "instance variable" r"@\w+" 0.5,
    of "attr macros" r"\battr_(reader|writer|accessor)\b" 2.0,
    of "ruby keywords" r"\bunless\b|\belsif\b" 1.5]

/-- What speaks against Ruby. -/
def rubyAgainst : List Clue :=
  [ of "python block colon" r"(?m)\)\s*:\s*$" 1.0]

/-- What speaks for Kotlin. -/
def kotlinFor : List Clue :=
  [ of "fun" r"\bfun\s+\w+\s*\(" 2.0 1.5,
    of "val" r"\bval\s+\w+(\s*:\s*\w+)?\s*=" 1.5,
    of "typed var" r"\bvar\s+\w+\s*:\s*\w+" 1.0,
    of "println" r"\bprintln\s*\(" 1.0,
    of "data class" r"\bdata\s+class\b" 2.0,
    of "when" r"\bwhen\s*(\(.*\))?\s*\x7b" 1.5,
    of "null safety" r"\?\.|\?:|!!" 1.0]

/-- What speaks against Kotlin. -/
def kotlinAgainst : List Clue :=
  [ of "js function" r"\bfunction\b" 1.0,
    of "rust fn" r"\bfn\s" 1.0]

/-- What speaks for Swift. -/
def swiftFor : List Clue :=
  [ of "func with arrow" r"\bfunc\s+\w+\s*(<[^>]*>)?\(.*\)\s*->" 2.0,
    of "let binding" r"\blet\s+\w+\s*(:\s*\w+)?\s*=" 0.5,
    of "typed var" r"\bvar\s+\w+\s*:\s*[A-Z]\w*" 1.0,
    of "optional binding" r"\bguard\s+let\b|\bif\s+let\s+\w+\s*=" 2.0,
    of "property wrappers" r"@(State|Published|IBOutlet|IBAction|Binding)\b" 2.0,
    of "protocol conformance" r"\b(struct|class)\s+\w+\s*:\s*\w+" 1.0,
    of "print" r"\bprint\s*\(" 0.5]

/-- What speaks against Swift. -/
def swiftAgainst : List Clue :=
  [ of "go short declaration" r":=" 2.0,
    of "package clause" r"(?m)^package\s" 2.0]

/-- The clues for each language; of two languages with the same score the earlier one wins. -/
def sets : List ClueSet :=
  [ ⟨.javaScript, javaScriptFor, javaScriptAgainst⟩,
    ⟨.typeScript, typeScriptFor, typeScriptAgainst⟩,
    ⟨.python, pythonFor, pythonAgainst⟩,
    ⟨.go, goFor, goAgainst⟩,
    ⟨.java, javaFor, javaAgainst⟩,
    ⟨.rust, rustFor, rustAgainst⟩,
    ⟨.c, cFor, cAgainst⟩,
    ⟨.cpp, cppFor, cppAgainst⟩,
    ⟨.cSharp, cSharpFor, cSharpAgainst⟩,
    ⟨.php, phpFor, []⟩,
    ⟨.ruby, rubyFor, rubyAgainst⟩,
    ⟨.kotlin, kotlinFor, kotlinAgainst⟩,
    ⟨.swift, swiftFor, swiftAgainst⟩]

end Clue

namespace Telltale

/-- A telltale from the written form of its pattern. -/
def of (language : Language) (confidence : Float) (indicator pattern : String) : Telltale :=
  ⟨language, confidence, indicator, .ofText pattern⟩

/-- All telltales; the first that occurs settles the language. -/
def all : List Telltale :=
  [ of .php 0.98 "php open tag" r"<\?php",
    of .python 0.97 "python shebang" r"\A#!.*\bpython[0-9.]*\b",
    of .javaScript 0.97 "node shebang" r"\A#!.*\bnode\b",
    of .ruby 0.97 "ruby shebang" r"\A#!.*\bruby\b",
    of .php 0.97 "php shebang" r"\A#!.*\bphp\b",
    of .go 0.95 "package main" r"(?m)^package\s+main\s*$",
    of .java 0.95 "java main method" r"public\s+static\s+void\s+main\s*\(\s*String",
    of .python 0.95 "__main__ guard" r#"if\s+__name__\s*==\s*['"]__main__['"]"#,
    of .cSharp 0.93 "using System" r"(?m)^\s*using\s+System\s*;",
    of .rust 0.93 "fn main" r"\bfn\s+main\s*\(\s*\)",
    of .rust 0.92 "println! macro" r"\bprintln!\s*\(",
    of .cpp 0.95 "iostream include" r"#include\s*<iostream>",
    of .cpp 0.92 "std::cout" r"\bstd::cout\b",
    of .cpp 0.93 "using namespace std" r"\busing\s+namespace\s+std\s*;",
    of .c 0.9 "C standard header"
      r"#include\s*<(stdio|stdlib|string|math|stdbool|stdint|ctype)\.h>",
    of .swift 0.9 "swift framework import" r"(?m)^\s*import\s+(SwiftUI|UIKit|Foundation)\s*$",
    of .kotlin 0.9 "fun main" r"\bfun\s+main\s*\(",
    of .ruby 0.88 "attr_accessor" r"\battr_accessor\s+:"]

end Telltale

end CodeProfile
