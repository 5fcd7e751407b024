import CodeProfile.Command.Outcome

/-!
# The program

Reads the arguments and the files that the command may look at, runs the command, prints its output
and writes the settings file if one is to be written. No grammar is linked in, so the profile of a
text is the one without a tree.
-/

namespace CodeProfile.Program

/-- How the program is called. -/
def usage : String :=
  "Characterize a source snippet: language, libraries, paradigm, code type and complexity\n\n"
  ++ "Usage: codeprint [OPTIONS] <COMMAND>\n\n"
  ++ "Commands:\n"
  ++ "  analyze  Characterize one snippet\n"
  ++ "  compare  Check that TARGET is a faithful translation of SOURCE\n"
  ++ "  init     Write a default .codeprint.toml in the current directory\n\n"
  ++ "Options:\n"
  ++ "  -v, --verbose...  Increase log verbosity\n"
  ++ "  -h, --help        Print help\n"
  ++ "  -V, --version     Print version\n"

/-- What is said about arguments that make no command. -/
def complaint : UsageFault → String
  | .invalidSubcommand => "unrecognized subcommand"
  | .missingSubcommand => "a subcommand is required but one was not provided"
  | .missingRequiredArgument => "the required arguments were not provided"
  | .unknownArgument => "unexpected argument found"
  | .invalidValue => "invalid value"
  | .argumentConflict => "an argument cannot be used multiple times"
  | .tooManyValues => "unexpected value for an argument"
  | .displayHelp | .helpInsteadOfSubcommand => usage
  | .displayVersion => "codeprint 0.1.0"

/-- The files at which a command may look. -/
def wantedFiles (workingDirectory : String) (c : Command) : List String :=
  let settings := fun path : Option String => match path with
    | some path => [path]
    | none =>
      (Path.ancestors Settings.searchDepth workingDirectory).map (Path.join · Settings.fileName)
  match c with
  | .analyze input _ path => settings path ++ [input]
  | .compare source target _ path => settings path ++ [source, target]
  | .init _ => [Settings.fileName]

def readOne (path : String) : IO (Except FileFault String) := do
  try
    return .ok (← IO.FS.readFile path)
  catch
    | .noFileOrDirectory .. => return .error .missing
    | e => return .error (.other (toString e))

/-- Reads all files at which a command may look. -/
def readAll (paths : List String) : IO FileReader := do
  let files ← paths.mapM fun path => return (path, ← readOne path)
  return fun path => ((files.find? (·.1 == path)).map (·.2)).getD (.error .missing)

def readStandardInput (c : Command) : IO (Except FileFault String) := do
  match c with
  | .analyze input _ _ =>
    if input == Host.standardInputName then return .ok (← (← IO.getStdin).readToEnd)
    else return .ok ""
  | _ => return .ok ""

/-- When to colour, by what the environment says. -/
def colorMode : IO ColorMode := do
  if (← IO.getEnv "NO_COLOR").isSome then return .never
  if (← IO.getEnv "CLICOLOR_FORCE") == some "1" then return .always
  return .auto

/-- The reasons of a failure as they are printed. -/
def failureText : List String → String
  | [] => ""
  | [reason] => "Error: " ++ reason ++ "\n"
  | reason :: causes =>
    "Error: " ++ reason ++ "\n\nCaused by:\n"
      ++ String.join (causes.map fun c => "    " ++ c ++ "\n")

/-- Runs a command. -/
def runCommand (c : Command) : IO UInt32 := do
  let workingDirectory := toString (← IO.currentDir)
  let read ← readAll (wantedFiles workingDirectory c)
  let isTerminal ← (← IO.getStdout).isTty
  let host : Host := {
    read, workingDirectory
    standardInput := ← readStandardInput c
    parser := .none
    painter := ⟨(← colorMode).isColored isTerminal⟩ }
  let outcome := host.run c
  if let some text := outcome.newSettings then IO.FS.writeFile Settings.fileName text
  IO.print outcome.output
  IO.eprint (failureText outcome.failure)
  return if outcome.failure.isEmpty then 0 else 1

end CodeProfile.Program

def main (args : List String) : IO UInt32 := do
  match CodeProfile.CommandLine.parse args with
  | .ok invocation => CodeProfile.Program.runCommand invocation.command
  | .error fault =>
    let text := CodeProfile.Program.complaint fault
    match fault with
    | .displayHelp | .displayVersion =>
      IO.println text
      return 0
    | _ =>
      IO.eprintln ("error: " ++ text)
      return 2
