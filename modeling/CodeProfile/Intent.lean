import CodeProfile.Number.Scalar
import CodeProfile.Text.Basic

/-!
# Intent

What a snippet is for, told by the words in its identifiers. Names are cut into words at underscores
and at humps, and each word may begin with a stem of some purposes. A word in the name of a function
counts twice as much as a word elsewhere.
-/

namespace CodeProfile

open Text

/-- What a snippet may be for. -/
inductive Purpose where
  | dataTransformation
  | validation
  | parsing
  | aggregation
  | routing
  | formatting
  | calculation
  | orchestration
  deriving DecidableEq, Repr, Inhabited

namespace Purpose

/-- Every purpose; of two equally likely ones the earlier comes first. -/
def all : List Purpose :=
  [dataTransformation, validation, parsing, aggregation, routing, formatting, calculation,
   orchestration]

def name : Purpose → String
  | dataTransformation => "data-transformation"
  | validation => "validation"
  | parsing => "parsing"
  | aggregation => "aggregation"
  | routing => "routing"
  | formatting => "formatting"
  | calculation => "calculation"
  | orchestration => "orchestration"

/-- What the words that speak for a purpose begin with. -/
def stems : Purpose → List String
  | dataTransformation =>
    ["map", "transform", "convert", "normaliz", "flatten", "reshape", "serializ", "deserializ",
     "encode", "decode"]
  | validation => ["valid", "check", "verif", "ensure", "sanitiz", "guard", "assert"]
  | parsing => ["pars", "token", "lex", "scan", "extract", "grammar"]
  | aggregation =>
    ["sum", "count", "total", "aggregat", "reduce", "group", "accumul", "average", "avg",
     "collect"]
  | routing =>
    ["rout", "handl", "dispatch", "endpoint", "controller", "middleware", "request"]
  | formatting => ["format", "render", "print", "display", "stringif", "pad", "templat"]
  | calculation =>
    ["calc", "comput", "math", "factorial", "fib", "sqrt", "pow", "multipl", "divid", "area",
     "interest"]
  | orchestration =>
    ["run", "main", "start", "init", "execut", "pipeline", "schedul", "workflow", "orchestr",
     "bootstrap"]

/-- Whether a word speaks for the purpose. -/
def isShownBy (p : Purpose) (word : String) : Bool := p.stems.any (hasStart word)

end Purpose

/-- How much speaks for a purpose, and the words that do. -/
structure PurposeScore where
  purpose : Purpose
  score : Float
  keywords : List String
  deriving Inhabited

/-- What a snippet is for. -/
structure Intent where
  primary : Option Purpose
  confidence : Float
  /-- The purposes for which something speaks, the likeliest first. -/
  scores : List PurposeScore
  deriving Inhabited

namespace Intent

def none : Intent := ⟨.none, 0.0, []⟩

/-! ## Words -/

def isIdentifierChar (c : Char) : Bool := c.isAlphanum || c == '_'

/-- The identifiers of a text; an identifier does not begin with a digit. -/
def identifiers (text : List Char) : List (List Char) :=
  ((splitChars (!isIdentifierChar ·) text).map (·.dropWhile Char.isDigit)).filter (!·.isEmpty)

/-- Whether a capital after the character begins a new word. -/
def endsHump (c : Char) : Bool := c.isLower || c.isDigit

/-- A name without underscores, as far as it is read. -/
structure HumpScan where
  /-- The words that are complete, in small letters. -/
  done : List (List Char)
  /-- The word that is not, in small letters. -/
  current : List Char
  /-- Whether the last character ends its word if a capital follows. -/
  afterEnd : Bool

/-- Reads one more character; a capital begins a new word if the character before it allows. -/
def HumpScan.step (s : HumpScan) (c : Char) : HumpScan :=
  let cuts := c.isUpper && s.afterEnd && !s.current.isEmpty
  { done := if cuts then s.done ++ [s.current] else s.done
    current := (if cuts then [] else s.current) ++ [c.toLower]
    afterEnd := endsHump c }

/-- The words that have been read. -/
def HumpScan.words (s : HumpScan) : List (List Char) :=
  if s.current.isEmpty then s.done else s.done ++ [s.current]

/-- The words of a name without underscores, cut before each capital that begins a new one. -/
def humps (name : List Char) : List (List Char) := (name.foldl HumpScan.step ⟨[], [], false⟩).words

/-- The words of an identifier in small letters. -/
def wordsOfIdentifier (name : List Char) : List (List Char) :=
  (splitChars (· == '_') name).flatMap humps

/-- The words of all identifiers of a text. -/
def words (text : String) : List String :=
  (identifiers text.toList).flatMap fun name => (wordsOfIdentifier name).map String.ofList

/-! ## Scores -/

/-- What has been found for a purpose so far. -/
structure Evidence where
  weight : Nat
  /-- The words that were found, each once. -/
  keywords : List String

/-- Adds a word with its weight, if it speaks for the purpose. -/
def Evidence.add (p : Purpose) (weight : Nat) (e : Evidence) (word : String) : Evidence :=
  if p.isShownBy word then
    { weight := e.weight + weight
      keywords := if e.keywords.contains word then e.keywords else e.keywords ++ [word] }
  else e

/-- How much a word in the name of a function counts. -/
def nameWeight : Nat := 2

/-- How much a word in the text counts. -/
def textWeight : Nat := 1

/-- What words from names of functions and words from the whole text say for a purpose. -/
def evidence (p : Purpose) (fromNames fromText : List String) : Evidence :=
  fromText.foldl (Evidence.add p textWeight) (fromNames.foldl (Evidence.add p nameWeight) ⟨0, []⟩)

/-- The score of a purpose, if anything speaks for it. -/
def score? (fromNames fromText : List String) (p : Purpose) : Option PurposeScore :=
  let e := evidence p fromNames fromText
  if e.weight = 0 then .none else some ⟨p, Float.ofNat e.weight, e.keywords⟩

/-- The total weight from which on the confidence is not lowered. -/
def fullEvidence : Float := 6.0

/-- The purposes for which something speaks, the likeliest first. -/
def ranking (fromNames fromText : List String) : List PurposeScore :=
  (Purpose.all.filterMap (score? fromNames fromText)).mergeSort fun a b => b.score ≤ a.score

/-- What a snippet is for, by a ranking of the purposes. -/
def ofRanking (ranked : List PurposeScore) : Intent :=
  match ranked with
  | [] => none
  | top :: _ =>
    let total := ranked.foldl (fun s p => s + p.score) 0.0
    let evidence := Scalar.least (total / fullEvidence) 1.0
    { primary := some top.purpose
      confidence := Scalar.round2 (Scalar.clampUnit (top.score / total * evidence))
      scores := ranked }

/-- What a snippet is for, by the names of its functions and its text. -/
def of (functionNames : List String) (source : String) : Intent :=
  ofRanking (ranking (functionNames.flatMap words) (words source))

end Intent

end CodeProfile
