import CodeProfile.Agreement.Json
import CodeProfile.Agreement.Summary
import CodeProfile.CommandLine
import CodeProfile.Profile.Json
import CodeProfile.Profile.Summary
import CodeProfile.Profiler
import CodeProfile.Settings.Search

/-!
# Outcomes of commands

What a command prints, why it fails, and whether it writes a settings file, as a function of the
files that it can read.
-/

namespace CodeProfile

/-- What a command can see. -/
structure Host where
  read : FileReader
  workingDirectory : String
  standardInput : Except FileFault String
  parser : Parser
  painter : Painter

/-- What a command has come to. -/
structure Outcome where
  output : String
  /-- Why the command failed, the outermost reason first; empty for success. -/
  failure : List String
  /-- The text to write as the settings file of the working directory. -/
  newSettings : Option String
  deriving DecidableEq, Repr, Inhabited

namespace Outcome

def printed (output : String) : Outcome := ⟨output, [], none⟩

def failed (reasons : List String) : Outcome := ⟨"", reasons, none⟩

end Outcome

/-- A result, or the reasons why there is none, the outermost first. -/
abbrev Attempt (α : Type) := Except (List String) α

namespace Attempt

/-- Puts a reason in front of those of a failure. -/
def because {α : Type} (reason : String) : Except String α → Attempt α
  | .ok x => .ok x
  | .error m => .error [reason, m]

end Attempt

namespace Profiler

/-- The profiler that settings ask for. -/
def ofSettings (p : Parser) (d : DetectionSettings) : Profiler :=
  .of p (if d.useAdapters then .full else .empty) ⟨d.fallback⟩

end Profiler

namespace Profile

/-- A profile in the form that settings ask for; an empty text has none. -/
def render (r : Option Profile) (o : OutputSettings) (p : Painter) : String :=
  match o.format with
  | .json =>
    let j := Json.ofOption Profile.toJson r
    (if o.pretty then j.pretty else j.compact) ++ "\n"
  | .summary =>
    match r with
    | some r => r.summary p
    | none => p.paint .dim "No code to characterize." ++ "\n"

end Profile

namespace AgreementReport

/-- A check in the form that settings ask for. -/
def render (r : AgreementReport) (o : OutputSettings) (p : Painter) : String :=
  match o.format with
  | .json => (if o.pretty then r.toJson.pretty else r.toJson.compact) ++ "\n"
  | .summary => r.summary p

end AgreementReport

namespace Host

/-- The settings of the named file, or else those that hold in the working directory. -/
def settings (h : Host) : Option String → Attempt Settings
  | some path =>
    Attempt.because ("Failed to load config from " ++ path)
      ((Settings.load h.read path).mapError fun fault => fault.toError.message)
  | none => .ok (Settings.search h.read h.workingDirectory)

def readFile (h : Host) (path : String) : Attempt String :=
  Attempt.because ("Failed to read " ++ path) ((h.read path).mapError (·.message))

/-- The name that stands for standard input. -/
def standardInputName : String := "-"

def readInput (h : Host) (input : String) : Attempt String :=
  if input = standardInputName then
    Attempt.because "Failed to read stdin" (h.standardInput.mapError (·.message))
  else h.readFile input

/-- The output settings with the format of the command, if it names one. -/
def outputFor (s : Settings) (format : Option OutputFormat) : OutputSettings :=
  let o := s.outputOrDefault
  { o with format := format.getD o.format }

/-- Profiles one text. -/
def analyze (h : Host) (input : String) (format : Option OutputFormat) (path : Option String) :
    Attempt Outcome := do
  let s ← h.settings path
  let source ← h.readInput input
  let profiler := Profiler.ofSettings h.parser s.detectionOrDefault
  let r ← Attempt.because ("Failed to characterize " ++ input)
    ((profiler.profile input source).mapError (·.message))
  return .printed (Profile.render r (outputFor s format) h.painter)

/-- Why a counterpart is refused. -/
def refusal (r : AgreementReport) : List String :=
  if r.isValid then []
  else ["Translation check failed: " ++ Text.join ", " (r.failures.map (·.field))]

/-- Checks a counterpart; the result is printed even if the check fails. -/
def compare (h : Host) (source target : String) (format : Option OutputFormat)
    (path : Option String) : Attempt Outcome := do
  let s ← h.settings path
  let first ← h.readFile source
  let second ← h.readFile target
  let profiler := Profiler.ofSettings h.parser s.detectionOrDefault
  let r ← Attempt.because "Failed to compare snippets"
    ((profiler.compare first second).mapError (·.message))
  match r with
  | none => throw ["Both SOURCE and TARGET must contain code"]
  | some r => return ⟨r.render (outputFor s format) h.painter, refusal r, none⟩

/-- Writes a settings file, over an old one only by force. -/
def init (h : Host) (force : Bool) : Attempt Outcome :=
  let created : Outcome :=
    ⟨"Created " ++ Settings.fileName ++ " configuration file\n", [], some Settings.template⟩
  match h.read Settings.fileName with
  | .error .missing => .ok created
  | .error .isDirectory =>
    if force then .error ["Failed to write " ++ Settings.fileName, FileFault.isDirectory.message]
    else .error ["Configuration file already exists. Use --force to overwrite."]
  | _ =>
    if force then .ok created
    else .error ["Configuration file already exists. Use --force to overwrite."]

/-- What a command comes to. -/
def run (h : Host) (c : Command) : Outcome :=
  let attempt := match c with
    | .analyze input format path => h.analyze input format path
    | .compare source target format path => h.compare source target format path
    | .init force => h.init force
  match attempt with
  | .ok o => o
  | .error reasons => .failed reasons

end Host

end CodeProfile
