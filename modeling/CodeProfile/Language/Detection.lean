import CodeProfile.Language.Clues
import CodeProfile.Language.Dialect
import CodeProfile.Number.Scalar
import CodeProfile.Number.Shortest

/-!
# Telling the language of a text

A telltale settles the language at once. Without one, each language scores the clues that occur,
more for repeated ones and less for those that speak against it, and the best score wins if it is
high enough. `LanguageDetector.detect` falls back to a default language otherwise.
-/

namespace CodeProfile

open Text

/-- How the language was told. -/
inductive DetectionMethod where
  | telltale
  | clues
  | fallback
  deriving DecidableEq, Repr, Inhabited

/-- What is known about the language of a text. -/
structure LanguageReport where
  language : Language
  dialect : Option String
  confidence : Float
  indicators : List String
  method : DetectionMethod
  deriving Inhabited

/-- Tells languages, with one to fall back to. -/
structure LanguageDetector where
  fallback : Language
  deriving DecidableEq, Repr

namespace LanguageDetector

/-- The language that is assumed when a text gives no hint. -/
def standard : LanguageDetector := ⟨.javaScript⟩

/-- The least score that tells a language. -/
def leastScore : Float := 0.5

/-- A language with its score and the clues that occur. -/
structure Candidate where
  language : Language
  score : Float
  indicators : List String

/-- What a clue that occurs `count` times is worth: its weight, and a quarter more for each of up to
three repetitions. -/
def worth (clue : Clue) (count : Nat) (short : Bool) : Float :=
  let hit := clue.weight * (1.0 + 0.25 * Float.ofNat (min (count - 1) 3))
  if short then hit * clue.shortFactor else hit

/-- Scores a language. A text of fewer than five lines is short. -/
def score (source : String) (lineCount : Nat) (set : ClueSet) : Candidate :=
  let found := (set.supporting.map fun c => (c, c.pattern.count source)).filter (0 < ·.2)
  let gained := found.foldl (fun s (c, count) => s + worth c count (lineCount < 5)) 0.0
  let against := set.opposing.filter (·.pattern.isMatch source)
  let lost := against.foldl (fun s c => s - c.weight) gained
  ⟨set.language, lost, found.map (·.1.indicator)⟩

/-- The candidate of the highest score, the earliest of equal ones. -/
def best : List Candidate → Option Candidate
  | [] => none
  | c :: cs => some (cs.foldl (fun b c => if c.score ≤ b.score then b else c) c)

/-- The confidence in a winner: its score in proportion to the length of the text, up to a cap. -/
def confidence (score : Float) (lineCount distinctIndicators : Nat) : Float :=
  let (raw, cap) : Float × Float :=
    if lineCount ≤ 3 then (score / 4.0, 0.85)
    else if lineCount ≤ 10 then (score / 8.0, 0.90)
    else if lineCount ≤ 50 then (score / 15.0, 0.95)
    else
      let diversity := Scalar.least (0.02 * Float.ofNat (distinctIndicators - 3)) 0.1
      (score / 25.0 + diversity, 0.95)
  Scalar.round2 (Scalar.clampUnit (Scalar.least raw cap))

/-- The language that a telltale settles. -/
def byTelltale? (source : String) : Option LanguageReport :=
  (Telltale.all.find? (·.pattern.isMatch source)).map fun t =>
    { language := t.language, dialect := t.language.dialect? source, confidence := t.confidence
      indicators := [t.indicator], method := .telltale }

/-- The language that the clues speak for, if their score is high enough. -/
def byClues? (source : String) : Option LanguageReport := do
  let lineCount := (lines source).length
  let winner ← best (Clue.sets.map (score source lineCount))
  if leastScore ≤ winner.score then
    some {
      language := winner.language
      dialect := winner.language.dialect? source
      confidence := confidence winner.score lineCount winner.indicators.length
      indicators := winner.indicators
      method := .clues }
  else none

/-- Tells the language of a text. -/
def detect (d : LanguageDetector) (source : String) : LanguageReport :=
  ((byTelltale? source).or (byClues? source)).getD
    { language := d.fallback, dialect := none, confidence := 0.1, indicators := []
      method := .fallback }

end LanguageDetector

namespace LanguageReport

/-- The report on a text that has no tree. The language is unknown then, and what the text suggested
is only listed among the indicators. -/
def withoutTree (r : LanguageReport) : LanguageReport :=
  let guess :=
    if r.language.isUnknown then []
    else ["text-guess:" ++ r.language.id ++ " (" ++ Number.fixedPlaces 2 r.confidence ++ ")"]
  { language := .unknown, dialect := none, confidence := 0.0, indicators := guess ++ r.indicators
    method := .fallback }

end LanguageReport

end CodeProfile
