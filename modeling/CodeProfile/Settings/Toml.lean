import CodeProfile.Number.Saturating
import CodeProfile.Settings
import CodeProfile.Toml.Reader

/-!
# Settings as TOML

A section is a table whose keys may be missing, or an array with its values in order. Unknown keys
are passed over. `Settings.toToml` writes settings in a form that reads back.
-/

namespace CodeProfile

namespace OutputFormat

/-- Whether a value holds nothing. -/
def isEmptyToml : Toml → Bool
  | .array [] | .table [] => true
  | _ => false

/-- Reads a format from its name, or from a table whose only key is the name. -/
def ofToml? : Toml → Option OutputFormat
  | .string s => ofId? s
  | .table [(key, v)] => if isEmptyToml v then ofId? key else none
  | _ => none

end OutputFormat

namespace DetectionSettings

def ofToml? (v : Toml) : Option DetectionSettings := do
  let p ← v.parts?
  return {
    defaultLanguage := ← p.part "default_language" 0 Toml.toText? default.defaultLanguage
    useAdapters := ← p.part "use_adapters" 1 Toml.toBool? default.useAdapters }

end DetectionSettings

namespace OutputSettings

def ofToml? (v : Toml) : Option OutputSettings := do
  let p ← v.parts?
  return {
    format := ← p.part "format" 0 OutputFormat.ofToml? default.format
    pretty := ← p.part "pretty" 1 Toml.toBool? default.pretty }

end OutputSettings

namespace CacheSettings

/-- A natural number that fits a 64-bit word. -/
def word? : Toml → Option Nat := Toml.toNat? maxWord64

def ofToml? (v : Toml) : Option CacheSettings := do
  let p ← v.parts?
  return {
    enabled := ← p.part "enabled" 0 Toml.toBool? default.enabled
    capacity := ← p.part "capacity" 1 word? default.capacity
    debounceMs := ← p.part "debounce_ms" 2 word? default.debounceMs }

end CacheSettings

namespace Settings

def ofToml? (v : Toml) : Option Settings := do
  let p ← v.parts?
  return {
    detection := ← p.part "detection" 0 (fun v => (DetectionSettings.ofToml? v).map some) none
    output := ← p.part "output" 1 (fun v => (OutputSettings.ofToml? v).map some) none
    cache := ← p.part "cache" 2 (fun v => (CacheSettings.ofToml? v).map some) none }

/-- Reads and repairs settings. -/
def ofText? (text : String) : Option Settings :=
  ((Toml.ofText? text).bind ofToml?).map (·.repair)

/-! ## Writing -/

/-- A character of a quoted string. -/
def tomlChar (c : Char) : List Char :=
  if c = '"' ∨ c = '\\' then ['\\', c] else [c]

def tomlString (s : String) : String :=
  "\"" ++ String.ofList (s.toList.flatMap tomlChar) ++ "\""

def tomlBool (b : Bool) : String := if b then "true" else "false"

/-- A section with its header. -/
def tomlSection (name : String) (entries : List (String × String)) : String :=
  "[" ++ name ++ "]\n" ++ String.join (entries.map fun (k, v) => k ++ " = " ++ v ++ "\n")

/-- The sections that are set, with blank lines between them. -/
def toToml (s : Settings) : String :=
  let detection := s.detection.map fun d => tomlSection "detection"
    [("default_language", tomlString d.defaultLanguage), ("use_adapters", tomlBool d.useAdapters)]
  let output := s.output.map fun o => tomlSection "output"
    [("format", tomlString o.format.id), ("pretty", tomlBool o.pretty)]
  let cache := s.cache.map fun c => tomlSection "cache"
    [("enabled", tomlBool c.enabled), ("capacity", toString c.capacity),
      ("debounce_ms", toString c.debounceMs)]
  Text.join "\n" (detection.toList ++ output.toList ++ cache.toList)

end Settings

end CodeProfile
