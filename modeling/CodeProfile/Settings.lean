import CodeProfile.Language
import CodeProfile.Path

/-!
# Settings

What a settings file can set, and how the file is found. Every section may be missing, and so may
every value in it. The file is looked for in a directory and in the directories above it; one that
cannot be read is passed over.
-/

namespace CodeProfile

/-- How a snippet is looked at. -/
structure DetectionSettings where
  /-- The language that is assumed when a text gives no hint. -/
  defaultLanguage : String
  /-- Whether programs are read through adapters. -/
  useAdapters : Bool
  deriving DecidableEq, Repr, Inhabited

/-- The form of the output. -/
inductive OutputFormat where
  | json
  | summary
  deriving DecidableEq, Repr, Inhabited

/-- How results are shown. -/
structure OutputSettings where
  format : OutputFormat
  /-- Whether JSON is written on several lines. -/
  pretty : Bool
  deriving DecidableEq, Repr, Inhabited

/-- How results are kept. -/
structure CacheSettings where
  enabled : Bool
  /-- How many results are kept at most. -/
  capacity : Nat
  /-- How long a changed text must rest before it is looked at. -/
  debounceMs : Nat
  deriving DecidableEq, Repr, Inhabited

/-- All settings. -/
structure Settings where
  detection : Option DetectionSettings
  output : Option OutputSettings
  cache : Option CacheSettings
  deriving DecidableEq, Repr, Inhabited

namespace DetectionSettings

def default : DetectionSettings := ⟨Language.javaScript.id, true⟩

def fallback (d : DetectionSettings) : Language := Language.ofId d.defaultLanguage

/-- An unknown language gives way to the default. -/
def repair (d : DetectionSettings) : DetectionSettings :=
  if d.fallback.isUnknown then { d with defaultLanguage := default.defaultLanguage } else d

end DetectionSettings

namespace OutputFormat

def id : OutputFormat → String
  | json => "json"
  | summary => "summary"

def ofId? (s : String) : Option OutputFormat := [json, summary].find? (·.id = s)

end OutputFormat

namespace OutputSettings

def default : OutputSettings := ⟨.json, true⟩

end OutputSettings

namespace CacheSettings

def default : CacheSettings := ⟨true, 64, 300⟩

/-- A capacity of nought gives way to the default. -/
def repair (c : CacheSettings) : CacheSettings :=
  if c.capacity = 0 then { c with capacity := default.capacity } else c

end CacheSettings

namespace Settings

def default : Settings := ⟨none, none, none⟩

/-- The settings with every section written out. -/
def full : Settings := ⟨some .default, some .default, some .default⟩

def detectionOrDefault (s : Settings) : DetectionSettings := s.detection.getD .default

def outputOrDefault (s : Settings) : OutputSettings := s.output.getD .default

def cacheOrDefault (s : Settings) : CacheSettings := s.cache.getD .default

/-- Values that make no sense give way to the defaults; all else stays as it is. -/
def repair (s : Settings) : Settings :=
  { s with
    detection := s.detection.map (·.repair)
    cache := s.cache.map (·.repair) }

end Settings

end CodeProfile
