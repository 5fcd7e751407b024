import CodeProfile.AnalysisError
import CodeProfile.Settings.Toml

/-!
# Finding settings

Settings are taken from the nearest file that can be read and understood, and are the defaults if
there is none. A file that is named outright must be there and be well formed.
-/

namespace CodeProfile

/-- Why a file cannot be read. -/
inductive FileFault where
  | missing
  | isDirectory
  | notDirectory
  | nameTooLong
  /-- A path with a character of code zero is no path at all. -/
  | nulInPath
  /-- Anything else that the system reports. -/
  | other (message : String)
  deriving DecidableEq, Repr, Inhabited

namespace FileFault

/-- The text that the system shows for a fault. -/
def message : FileFault → String
  | missing => "No such file or directory (os error 2)"
  | isDirectory => "Is a directory (os error 21)"
  | notDirectory => "Not a directory (os error 20)"
  | nameTooLong => "File name too long (os error 36)"
  | nulInPath => "file name contained an unexpected NUL byte"
  | other m => m

end FileFault

/-- Reads files by path. -/
abbrev FileReader := String → Except FileFault String

/-- Why settings that are named outright cannot be used. -/
inductive SettingsFault where
  | unreadable (fault : FileFault)
  | malformed
  deriving DecidableEq, Repr, Inhabited

namespace SettingsFault

/-- The fault as it is reported. -/
def toError : SettingsFault → AnalysisError
  | unreadable fault => .configuration ("cannot read config: " ++ fault.message)
  | malformed => .configuration "TOML parse error"

end SettingsFault

namespace Settings

/-- The name under which settings are looked for. -/
def fileName : String := ".codeprint.toml"

/-- In how many directories settings are looked for, the first one counted. -/
def searchDepth : Nat := 10

/-- The settings of a file, if it can be read and understood. -/
def ofFile? (file : Except FileFault String) : Option Settings :=
  match file with
  | .ok text => ofText? text
  | .error _ => none

/-- The settings of the first file that can be read and understood. -/
def ofChain (files : List (Except FileFault String)) : Settings :=
  (files.findSome? ofFile?).getD default

/-- The settings that hold in a directory. -/
def search (read : FileReader) (start : String) : Settings :=
  ofChain ((Path.ancestors searchDepth start).map fun d => read (Path.join d fileName))

/-- The settings of a file that is named outright. -/
def load (read : FileReader) (path : String) : Except SettingsFault Settings :=
  match read path with
  | .error fault => .error (.unreadable fault)
  | .ok text =>
    match ofText? text with
    | some s => .ok s
    | none => .error .malformed

/-- What is written as a new settings file. -/
def template : String := "# codeprint configuration\n\n" ++ full.toToml

end Settings

end CodeProfile
