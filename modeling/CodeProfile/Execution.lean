import CodeProfile.Adapter
import CodeProfile.Library.Analysis
import CodeProfile.Signal

/-!
# Running a snippet

Whether a snippet can be run as it stands, what stands in the way, and the commands to install what
it needs, build it and run it.
-/

namespace CodeProfile

open Text

/-- What kind of code a snippet is. -/
inductive CodeType where
  | test
  | script
  | library
  | application
  | configuration
  | unknown
  deriving DecidableEq, Repr, Inhabited

namespace CodeType

def name : CodeType → String
  | test => "test"
  | script => "script"
  | library => "library"
  | application => "application"
  | configuration => "configuration"
  | unknown => "unknown"

end CodeType

/-- Whether a snippet can be run. -/
structure ExecutionIntent where
  isRunnable : Bool
  runnability : Float
  entryPoint : Option String
  blockers : List String
  deriving Inhabited

/-- How a snippet is run. -/
structure ExecutionContext where
  runtime : String
  buildSteps : List String
  installCommand : Option String
  runCommand : Option String
  environmentVariables : List String
  deriving Inhabited

namespace EntryPoint

/-- The entry point that starts the program, by how directly each kind does. -/
def primary? (entries : List EntryPoint) : Option EntryPoint :=
  [EntryPointKind.mainFunction, .mainGuard, .serverListen, .topLevelCall].findSome? fun k =>
    entries.find? (·.kind == k)

end EntryPoint

namespace LibraryReport

/-- The packages to install, each once, in order of first import. -/
def thirdPartyPackages (r : LibraryReport) : List String := distinct (r.thirdParty.map (·.package))

/-- What runs the tests of a snippet. -/
def testRunner (r : LibraryReport) : String :=
  ((r.frameworks.find? (·.category == .testing)).map (·.name)).getD "a test runner"

end LibraryReport

namespace ExecutionIntent

/-- A snippet is runnable from this value on. -/
def threshold : Float := 0.6

/-- What the kind of code adds to the runnability. -/
def typeBonus : CodeType → Float
  | .script | .application => 0.1
  | .library | .configuration => -0.3
  | .test => -0.2
  | .unknown => 0.0

/-- What stands in the way by the kind of code. -/
def typeBlockers (libraries : LibraryReport) : CodeType → List String
  | .configuration => ["configuration only; nothing to execute"]
  | .test => ["needs " ++ libraries.testRunner ++ " to run"]
  | _ => []

/-- Weighs what speaks for and against running the snippet. -/
def of (codeType : CodeType) (entries : List EntryPoint) (libraries : LibraryReport) :
    ExecutionIntent :=
  let entry := EntryPoint.primary? entries
  let packages := libraries.thirdPartyPackages
  let withEntry := if entry.isSome then 0.5 + 0.3 else 0.5
  let withType := withEntry + typeBonus codeType
  let withPackages := if packages.isEmpty then withType else withType - 0.2
  let runnability := Scalar.round2 (Scalar.clampUnit withPackages)
  let noEntry :=
    if entry.isNone && codeType != .test && codeType != .configuration then ["no entry point"]
    else []
  let needs :=
    if packages.isEmpty then [] else ["requires third-party packages: " ++ join ", " packages]
  let runtimes := (libraries.frameworks.filter (·.category == .framework)).map fun f =>
    "requires the " ++ f.name ++ " runtime"
  { isRunnable := threshold ≤ runnability
    runnability
    entryPoint := entry.map (·.name)
    blockers := noEntry ++ typeBlockers libraries codeType ++ needs ++ runtimes }

end ExecutionIntent

namespace ExecutionContext

/-- A public class, the second group being its name. -/
def publicClass : Pattern := .ofText r"\bpublic\s+(final\s+)?class\s+(\w+)"

def runtimeOf : Language → String
  | .javaScript => "node"
  | .typeScript => "node (ts-node)"
  | .python => "python3"
  | .go => "go"
  | .java => "jvm"
  | .rust => "cargo"
  | .c => "cc"
  | .cpp => "c++"
  | .cSharp => "dotnet"
  | .php => "php"
  | .ruby => "ruby"
  | .kotlin => "kotlin (jvm)"
  | .swift => "swift"
  | .unknown => "unknown"

def buildStepsOf (className : String) : Language → List String
  | .typeScript => ["tsc"]
  | .go => ["go build"]
  | .java => ["javac " ++ className ++ ".java"]
  | .rust => ["cargo build"]
  | .c => ["cc main.c -o main"]
  | .cpp => ["c++ main.cpp -o main"]
  | .kotlin => ["kotlinc main.kt -include-runtime -d main.jar"]
  | .swift => ["swiftc main.swift"]
  | .cSharp => ["dotnet build"]
  | _ => []

/-- The command that installs packages, if there are any. -/
def installCommandOf (packages : List String) (l : Language) : Option String :=
  let list := join " " packages
  if packages.isEmpty then none
  else
    match l with
    | .javaScript | .typeScript => some ("npm install " ++ list)
    | .python => some ("pip install " ++ list)
    | .go => some ("go get " ++ list)
    | .rust => some ("cargo add " ++ list)
    | .java | .kotlin => some "mvn dependency:resolve"
    | .ruby => some ("gem install " ++ list)
    | .php => some ("composer require " ++ list)
    | .cSharp => some ("dotnet add package " ++ list)
    | _ => none

def testCommandOf : Language → Option String
  | .javaScript | .typeScript => some "npm test"
  | .python => some "pytest"
  | .go => some "go test ./..."
  | .rust => some "cargo test"
  | .java | .kotlin => some "mvn test"
  | _ => none

def programCommandOf (className : String) : Language → Option String
  | .javaScript => some "node main.js"
  | .typeScript => some "npx ts-node main.ts"
  | .python => some "python3 main.py"
  | .go => some "go run main.go"
  | .java => some ("java " ++ className)
  | .rust => some "cargo run"
  | .c | .cpp | .swift => some "./main"
  | .ruby => some "ruby main.rb"
  | .php => some "php main.php"
  | .kotlin => some "java -jar main.jar"
  | .cSharp => some "dotnet run"
  | .unknown => none

/-- The command that runs the snippet; a library or configuration is not run. -/
def runCommandOf (className : String) (l : Language) : CodeType → Option String
  | .library | .configuration => none
  | .test => testCommandOf l
  | _ => programCommandOf className l

/-- How a snippet in a language is run. -/
def of (source : String) (l : Language) (codeType : CodeType) (libraries : LibraryReport) :
    ExecutionContext :=
  let className := ((publicClass.find? source).bind (·.group? 2)).getD "Main"
  { runtime := runtimeOf l
    buildSteps := buildStepsOf className l
    installCommand := installCommandOf libraries.thirdPartyPackages l
    runCommand := runCommandOf className l codeType
    environmentVariables := Signal.environmentVariables source }

end ExecutionContext

end CodeProfile
