import CodeProfile.Library
import CodeProfile.Number.Scalar
import CodeProfile.Text.Pattern.Reader

/-!
# Frameworks

A framework is told by its import or by what of it the text uses. An import alone counts nine
tenths; uses alone count less, in full from two kinds of use on; both together count a tenth more.
-/

namespace CodeProfile

open Text

/-- A framework that can be told. -/
inductive Framework where
  | react
  | vue
  | angular
  | express
  | jest
  | mocha
  | django
  | flask
  | fastApi
  | pytest
  | unittest
  | spring
  | jUnit
  | gin
  | goTesting
  | actixWeb
  | axum
  | tokio
  | rustTest
  | tkinter
  deriving DecidableEq, Repr, Inhabited

/-- A framework that was found. -/
structure FrameworkInfo where
  framework : Framework
  name : String
  category : LibraryCategory
  confidence : Float
  indicators : List String
  deriving Inhabited

namespace Framework

/-- All frameworks; of two equally likely ones the earlier is listed first. -/
def all : List Framework :=
  [react, vue, angular, express, jest, mocha, django, flask, fastApi, pytest,
   unittest, spring, jUnit, gin, goTesting, actixWeb, axum, tokio, rustTest,
   tkinter]

def name : Framework → String
  | react => "React"
  | vue => "Vue"
  | angular => "Angular"
  | express => "Express"
  | jest => "Jest"
  | mocha => "Mocha"
  | django => "Django"
  | flask => "Flask"
  | fastApi => "FastAPI"
  | pytest => "pytest"
  | unittest => "unittest"
  | spring => "Spring"
  | jUnit => "JUnit"
  | gin => "Gin"
  | goTesting => "go test"
  | actixWeb => "Actix Web"
  | axum => "Axum"
  | tokio => "Tokio"
  | rustTest => "cargo test"
  | tkinter => "Tkinter"

/-- The languages in which the framework is used. -/
def languages : Framework → List Language
  | react | vue | angular | express | jest | mocha => [.javaScript, .typeScript]
  | django | flask | fastApi | pytest | unittest | tkinter => [.python]
  | spring | jUnit => [.java, .kotlin]
  | gin | goTesting => [.go]
  | actixWeb | axum | tokio | rustTest => [.rust]

def category : Framework → LibraryCategory
  | jest | mocha | pytest | unittest | jUnit | goTesting | rustTest => .testing
  | tkinter => .ui
  | tokio => .utility
  | _ => .framework

/-- The packages whose import shows the framework. -/
def packages : Framework → List String
  | react => ["react", "react-dom", "next"]
  | vue => ["vue"]
  | angular => ["@angular/core"]
  | express => ["express"]
  | jest => ["jest", "@jest/globals"]
  | mocha => ["mocha", "chai"]
  | django => ["django"]
  | flask => ["flask"]
  | fastApi => ["fastapi"]
  | pytest => ["pytest"]
  | unittest => ["unittest"]
  | spring => ["org.springframework"]
  | jUnit => ["org.junit"]
  | gin => ["github.com/gin-gonic/gin"]
  | goTesting => ["testing"]
  | actixWeb => ["actix_web"]
  | axum => ["axum"]
  | tokio => ["tokio"]
  | rustTest => []
  | tkinter => ["tkinter", "Tkinter"]

/-- Uses of the framework, as written patterns. -/
def uses : Framework → List String
  | react =>
    [ r"\buse(State|Effect|Memo|Callback|Ref|Context)\s*\(",
      r"\bReact\.\w+",
      r"\bclassName\s*=",
      r"\b(ReactDOM\.render|createRoot)\s*\("]
  | vue =>
    [ r"\bcreateApp\s*\(",
      r"\bdefineComponent\s*\(",
      r"\bv-(if|for|model|bind)\b",
      r"\b(ref|reactive|computed)\s*\("]
  | angular => [r"@Component\s*\(", r"@NgModule\s*\(", r"@Injectable\s*\("]
  | express =>
    [ r"\bexpress\s*\(\s*\)",
      r"\b(app|router)\.(get|post|put|delete|use)\s*\(",
      r"\bres\.(send|json|status|render)\s*\(",
      r"\bapp\.listen\s*\("]
  | jest =>
    [ r"\bexpect\s*\(.*\)\.(toBe|toEqual|toHaveBeenCalled\w*|toThrow)\b",
      r"\bjest\.(fn|mock|spyOn)\s*\(",
      r#"\b(test|it)\s*\(\s*['"`]"#]
  | mocha =>
    [ r#"\bdescribe\s*\(\s*['"`]"#,
      r#"\bit\s*\(\s*['"`]"#,
      r"\bexpect\s*\(.*\)\.to\.",
      r"\bassert\.(equal|strictEqual|deepEqual)\s*\("]
  | django =>
    [ r"\bmodels\.Model\b",
      r"\brender\s*\(\s*request",
      r"\burlpatterns\b",
      r"\bHttpResponse\s*\("]
  | flask =>
    [ r"\bFlask\s*\(\s*__name__\s*\)",
      r"@\w+\.route\s*\(",
      r"\bjsonify\s*\(",
      r"\brequest\.(args|form|json)\b"]
  | fastApi =>
    [ r"\bFastAPI\s*\(\s*\)",
      r"@\w+\.(get|post|put|delete)\s*\(",
      r"\bDepends\s*\(",
      r"\bHTTPException\b"]
  | pytest => [r"(?m)^\s*def\s+test_\w+\s*\(", r"@pytest\.\w+", r"(?m)^\s*assert\s"]
  | unittest =>
    [ r"\bunittest\.TestCase\b",
      r"\bself\.assert\w+\s*\(",
      r"\bdef\s+test_\w+\s*\(\s*self"]
  | spring =>
    [ r"@SpringBootApplication\b",
      r"@(Rest)?Controller\b",
      r"@(Get|Post|Put|Delete|Request)Mapping\b",
      r"@Autowired\b"]
  | jUnit =>
    [ r"@Test\b",
      r"\bassert(Equals|True|False|NotNull|Throws)\s*\(",
      r"@(Before|After)(Each|All)?\b"]
  | gin =>
    [ r"\bgin\.(Default|New)\s*\(\s*\)",
      r"\*gin\.Context\b",
      r"\.(GET|POST|PUT|DELETE)\s*\("]
  | goTesting =>
    [ r"\bfunc\s+Test\w+\s*\(\s*t\s+\*testing\.T\s*\)",
      r"\bt\.(Error|Errorf|Fatal|Fatalf|Run)\s*\(",
      r"\bfunc\s+Benchmark\w+\s*\("]
  | actixWeb =>
    [ r"\bHttpServer::new\b",
      r"#\[(get|post|put|delete)\(",
      r"\bweb::(Json|Path|Data|resource)\b"]
  | axum => [r"\bRouter::new\s*\(\s*\)", r"\.route\s*\(", r"\baxum::serve\b"]
  | tokio => [r"#\[tokio::main\]", r"\btokio::spawn\s*\(", r"\.await\b"]
  | rustTest => [r"#\[test\]", r"#\[cfg\(test\)\]", r"\bassert(_eq|_ne)?!\s*\("]
  | tkinter => [r"\bTk\s*\(\s*\)", r"\.mainloop\s*\(", r"\b(Button|Label|Entry|Frame)\s*\("]

/-- The uses of all frameworks, each with its written form. -/
def usePatterns : List (Framework × List (String × Pattern)) :=
  all.map fun f => (f, f.uses.map fun u => (u, .ofText u))

/-- Whether a library is the framework or a part of it. -/
def isShownBy (f : Framework) (l : LibraryInfo) : Bool :=
  f.packages.any fun p => l.package == p || l.name == p || hasStart l.name (p ++ ".")

/-- What an import of a framework counts. -/
def importSignal : Float := 0.9

/-- What the uses of a framework count at most. -/
def useSignal : Float := 0.9 * 0.7

/-- Weighs the imports and uses of a framework. -/
def info? (f : Framework) (patterns : List (String × Pattern)) (source : String)
    (libraries : List LibraryInfo) : Option FrameworkInfo :=
  let imported := (libraries.filter f.isShownBy).map (·.name)
  let used := (patterns.filter (·.2.isMatch source)).map (·.1)
  let byImport := if imported.isEmpty then 0.0 else importSignal
  let byUse := useSignal * Scalar.least (Float.ofNat used.length / 2.0) 1.0
  let bonus := if imported.isEmpty || used.isEmpty then 0.0 else 0.1
  if imported.isEmpty && used.isEmpty then none
  else
    some {
      framework := f
      name := f.name
      category := f.category
      confidence := Scalar.round2 (Scalar.least (Scalar.greatest byImport byUse + bonus) 1.0)
      indicators := imported.map ("import " ++ ·) ++ used.map ("api " ++ ·) }

/-- The frameworks that are more likely than not, the likeliest first. -/
def detect (source : String) (l : Language) (libraries : List LibraryInfo) : List FrameworkInfo :=
  let found := (usePatterns.filter fun (f, _) => f.languages.contains l).filterMap fun (f, ps) =>
    f.info? ps source libraries
  (found.filter (0.5 < ·.confidence)).mergeSort fun a b => b.confidence ≤ a.confidence

end Framework

end CodeProfile
