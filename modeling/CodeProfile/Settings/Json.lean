import CodeProfile.Json
import CodeProfile.Settings

/-!
# Settings as JSON

A missing key stands for the default.
-/

namespace CodeProfile

open Json

/-- A record as an object. It may also be an array with the values of the first keys in order. -/
def Json.partialRecord? (keys : List String) : Json → Option Json
  | .object fields => some (.object fields)
  | .array items => if items.length ≤ keys.length then some (.object (keys.zip items)) else none
  | _ => none

/-- The value of a key; the default where the key is missing. -/
def Json.fieldOr {α : Type} (key : String) (read : Json → Option α) (default : α) (j : Json) :
    Option α :=
  ((j.get? key).map read).getD (some default)

namespace DetectionSettings

def toJson (d : DetectionSettings) : Json :=
  .object [("default_language", .string d.defaultLanguage), ("use_adapters", .bool d.useAdapters)]

def ofJson? (j : Json) : Option DetectionSettings := do
  let j ← j.partialRecord? ["default_language", "use_adapters"]
  return ⟨← j.fieldOr "default_language" toText? default.defaultLanguage,
    ← j.fieldOr "use_adapters" toBool? default.useAdapters⟩

end DetectionSettings

namespace OutputSettings

def toJson (o : OutputSettings) : Json :=
  .object [("format", .string o.format.id), ("pretty", .bool o.pretty)]

end OutputSettings

namespace CacheSettings

def toJson (c : CacheSettings) : Json :=
  .object [("enabled", .bool c.enabled), ("capacity", .nat c.capacity),
    ("debounce_ms", .nat c.debounceMs)]

def ofJson? (j : Json) : Option CacheSettings := do
  let j ← j.partialRecord? ["enabled", "capacity", "debounce_ms"]
  return ⟨← j.fieldOr "enabled" toBool? default.enabled,
    ← j.fieldOr "capacity" toWord64? default.capacity,
    ← j.fieldOr "debounce_ms" toWord64? default.debounceMs⟩

end CacheSettings

namespace Settings

def toJson (s : Settings) : Json :=
  .object [("detection", ofOption DetectionSettings.toJson s.detection),
    ("output", ofOption OutputSettings.toJson s.output),
    ("cache", ofOption CacheSettings.toJson s.cache)]

end Settings

end CodeProfile
