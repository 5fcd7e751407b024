import CodeProfile.Adapter.Registry
import CodeProfile.CodeType.Exports
import CodeProfile.Execution
import CodeProfile.Number.Shortest
import CodeProfile.Paradigm.Counting

/-!
# Kinds of code

Five hypotheses on what a snippet is are weighed on the same evidence. A clear test is a test at
once; otherwise the best hypothesis counts if it is more likely than not.
-/

namespace CodeProfile

open Text

/-- A hypothesis with its score and what speaks for it. -/
structure CodeTypeScore where
  codeType : CodeType
  score : Float
  indicators : List String
  deriving Inhabited

/-- What is known about the kind of a snippet. -/
structure CodeTypeReport where
  codeType : CodeType
  confidence : Float
  secondary : Option CodeType
  scores : List CodeTypeScore
  entryPoints : List EntryPoint
  exports : List String
  intent : Option ExecutionIntent
  context : Option ExecutionContext
  deriving Inhabited

def CodeTypeReport.unknown : CodeTypeReport :=
  { codeType := .unknown, confidence := 0.0, secondary := none, scores := [], entryPoints := []
    exports := [], intent := none, context := none }

namespace CodeType

/-! ## Patterns -/

/-- A test case is declared. -/
def testName : Pattern := .ofText
  (r"\bdef\s+test_\w+|\bfunc\s+Test\w+|\bfn\s+test_\w+|@Test\b|\bvoid\s+test\w*\s*\(|\b(descr"
  ++ r#"ibe|it|test)\s*\(\s*['"`]"#)

/-- Something is asserted. -/
def assertion : Pattern := .ofText
  r"\bassert\w*!?\s*\(|\bexpect\s*\(|(?m)^\s*assert\s|\bt\.(Error|Errorf|Fatal|Fatalf)\s*\("

/-- A documentation comment. -/
def documentation : Pattern := .ofText
  r#"/\*\*|(?m)^\s*///|(?m)^\s*//!|(?m)^\s*("""|''')|(?m)^//\s+[A-Z]\w*\s"#

/-- Something is set up. -/
def initialization : Pattern := .ofText
  r"\b(init|initialize|setup|bootstrap|configure|createApp|start)\s*\("

/-- A server or main loop is started. -/
def runCall : Pattern := .ofText
  (r"\.(listen|run|serve|mainloop)\s*\(|\bListenAndServe\s*\(|\buvicorn\.run\s*\(|\bSpringApp"
  ++ r"lication\.run\b")

/-- A key that usually stands in a configuration. -/
def settingKey : Pattern := .ofText
  (r#"(?m)^\s*["']?((?i:port|host|hostname|url|timeout|debug|env|database|db_\w+|api_key|secre"#
  ++ r#"t\w*|log_level)|[A-Z][A-Z0-9_][A-Z0-9_][A-Z0-9_]*)["']?\s*[:=]"#)

/-- A module exports a plain object. -/
def exportedObject : Pattern := .ofText
  r"\bmodule\.exports\s*=\s*\x7b|\bexport\s+default\s+\x7b"

/-- A line with a key and a value. -/
def keyValueLine : Pattern := .ofText
  r#"^\s*["']?[\w.$-]+["']?\s*[:=]\s*\S"#

/-- A line with a literal or a closing bracket. -/
def literalLine : Pattern := .ofText
  r#"^\s*([\]\x7d\)]+[,;]?|["'\d\[\x7b-].*)\s*$"#

/-- The main function of C. -/
def cMain : Pattern := .ofText
  r"(?m)^\s*(int|void)\s+main\s*\("

/-- A main function in other notations. -/
def anyMain : Pattern := .ofText
  r"(?m)^\s*(public\s+static\s+void|static\s+void|func|fn|def|fun)\s+[Mm]ain\s*\("

/-! ## Evidence -/

/-- What all hypotheses look at. -/
structure Evidence where
  source : String
  nonEmptyLines : Nat
  functions : Nat
  classes : Nat
  entryPoints : List EntryPoint
  exports : List String
  libraries : LibraryReport

namespace Evidence

def hasEntry (e : Evidence) (k : EntryPointKind) : Bool := e.entryPoints.any (·.kind == k)

def isShort (e : Evidence) : Bool := e.nonEmptyLines < 50

/-- Whether a framework runs the program. -/
def hasRuntimeFramework (e : Evidence) : Bool :=
  e.libraries.frameworks.any fun f => f.category == .framework || f.category == .ui

end Evidence

/-- The lines that hold more than blanks. -/
def nonEmptyLines (source : String) : List String := (lines source).filter (!isBlankText ·)

/-- Whether a line holds data only: a key with a value or a literal, and no call or function. -/
def isDataLine (line : String) : Bool :=
  !holds line "(" && !holds line "=>" && (keyValueLine.isMatch line || literalLine.isMatch line)

/-- The share of data lines among those that hold more than blanks. -/
def dataLineRatio (source : String) : Float :=
  let all := nonEmptyLines source
  if all.isEmpty then 0.0 else Float.ofNat (all.countP isDataLine) / Float.ofNat all.length

/-- The main function that a text shows, for languages without an adapter. -/
def textualEntryPoints (source : String) (l : Language) : List EntryPoint :=
  let main := match l with
    | .c | .cpp => cMain
    | _ => anyMain
  ((main.find? source).map fun m => ⟨"main", .mainFunction, m.line⟩).toList

/-- The numbers of functions with a name and of classes in a tree. -/
def countDefinitions (t : SyntaxTree) : Nat × Nat :=
  match nodeKinds? t.language with
  | none => (0, 0)
  | some k =>
    (t.places.countP fun p => PatternCounts.isNamedFunction k p.kind,
      t.places.countP fun p => k.isClass p.kind)

/-! ## Hypotheses -/

/-- A hypothesis from the weights of what speaks for it. -/
def tally (codeType : CodeType) (parts : List (Float × String)) : CodeTypeScore :=
  { codeType
    score := Scalar.round2 (Scalar.clampUnit (parts.foldl (fun s (w, _) => s + w) 0.0))
    indicators := parts.map (·.2) }

/-- One part of a score, if it applies. -/
def part (applies : Bool) (weight : Float) (indicator : String) : List (Float × String) :=
  if applies then [(weight, indicator)] else []

/-- A weight for each occurrence, up to a limit. -/
def perCount (count : Nat) (weight limit : Float) : Float :=
  Scalar.least (weight * Float.ofNat count) limit

def scoreTest (e : Evidence) : CodeTypeScore :=
  let names := testName.count e.source
  let asserts := assertion.count e.source
  tally .test
    (part (e.libraries.hasCategory .testing) 0.4 "test framework"
      ++ part (0 < names) (perCount names 0.15 0.45) s!"{names} test case(s)"
      ++ part (0 < asserts) (perCount asserts 0.05 0.2) s!"{asserts} assertion(s)")

def scoreScript (e : Evidence) : CodeTypeScore :=
  tally .script
    (part (hasStart e.source "#!") 0.3 "shebang"
      ++ part (e.hasEntry .topLevelCall) 0.35 "top-level calls"
      ++ part (e.hasEntry .mainGuard) 0.35 "__main__ guard"
      ++ part (e.hasEntry .mainFunction && e.isShort) 0.3 "main in a short file"
      ++ part (e.functions ≤ 2) 0.1 "few functions"
      ++ part e.isShort 0.15 "short file"
      ++ part e.hasRuntimeFramework (-0.2) "framework runtime")

def scoreLibrary (e : Evidence) : CodeTypeScore :=
  let exported := e.exports.length
  let definitions := e.functions + e.classes
  tally .library
    (part (0 < exported) (perCount exported 0.15 0.45) s!"{exported} export(s)"
      ++ part e.entryPoints.isEmpty 0.2 "no entry point"
      ++ part (6 ≤ definitions) 0.2 "many definitions"
      ++ part (3 ≤ definitions && definitions < 6) 0.1 "several definitions"
      ++ part (documentation.isMatch e.source) 0.1 "documentation comments"
      ++ part (!e.hasEntry .topLevelCall) 0.1 "no top-level side effects")

def scoreApplication (e : Evidence) : CodeTypeScore :=
  tally .application
    (part (e.hasEntry .mainFunction) 0.4 "main function"
      ++ part e.hasRuntimeFramework 0.35 "web or UI framework"
      ++ part (e.hasEntry .serverListen || runCall.isMatch e.source) 0.25 "listen/run call"
      ++ part (initialization.isMatch e.source) 0.1 "initialization"
      ++ part (!e.isShort) 0.1 "long file")

def scoreConfiguration (e : Evidence) : CodeTypeScore :=
  let ratio := dataLineRatio e.source
  tally .configuration
    (part (0.0 < ratio) (0.5 * ratio) (Number.fixedPlaces 0 (ratio * 100.0) ++ "% data lines")
      ++ part (e.functions == 0 && e.classes == 0 && 0 < e.nonEmptyLines) 0.2 "no functions"
      ++ part (3 ≤ settingKey.count e.source) 0.15 "configuration keys"
      ++ part (exportedObject.isMatch e.source) 0.15 "exported object literal")

/-! ## The verdict -/

/-- The verdict on scored hypotheses: the kind of code, the confidence in it and a second kind that
is nearly as likely. -/
structure Verdict where
  codeType : CodeType
  confidence : Float
  secondary : Option CodeType
  scores : List CodeTypeScore

/-- Whether the second hypothesis is likely enough to be named. -/
def isSecondary (best second : Float) : Bool := 0.4 ≤ second && 0.6 * best ≤ second

/-- Weighs all hypotheses, the test first. -/
def judge (e : Evidence) : Verdict :=
  let test := scoreTest e
  if 0.6 < test.score then ⟨.test, test.score, none, [test]⟩
  else
    let scores := [test, scoreScript e, scoreLibrary e, scoreApplication e, scoreConfiguration e]
    let ranked := scores.mergeSort fun a b => b.score ≤ a.score
    match ranked with
    | best :: rest =>
      if 0.5 < best.score then
        let second := rest.head?.filter fun s => isSecondary best.score s.score
        let secondary := second.map (·.codeType)
        ⟨best.codeType, best.score, secondary, ranked⟩
      else ⟨.unknown, 0.0, none, ranked⟩
    | [] => ⟨.unknown, 0.0, none, []⟩

end CodeType

namespace SyntaxTree

/-- The kind of code that a tree holds. -/
def codeType (t : SyntaxTree) (libraries : LibraryReport) (adapter : Option Adapter) :
    CodeTypeReport :=
  let entryPoints := match adapter with
    | some a => a.entryPoints t.root
    | none => CodeType.textualEntryPoints t.source t.language
  let exports := t.exports
  let (functions, classes) := CodeType.countDefinitions t
  let verdict := CodeType.judge
    { source := t.source, nonEmptyLines := (CodeType.nonEmptyLines t.source).length, functions
      classes, entryPoints, exports, libraries }
  { codeType := verdict.codeType
    confidence := verdict.confidence
    secondary := verdict.secondary
    scores := verdict.scores
    entryPoints
    exports
    intent := some (.of verdict.codeType entryPoints libraries)
    context := some (.of t.source t.language verdict.codeType libraries) }

end SyntaxTree

end CodeProfile
