import CodeProfile.Language
import CodeProfile.Number.Scalar

/-!
# Paradigms

Structural evidence is weighed into an object-oriented, a functional and a procedural score, which
are normalised to sum to a hundred. The best score names the primary paradigm, and thin evidence
lowers the confidence in it. All formulas are stated over a `Scalar`.
-/

namespace CodeProfile

/-- A style of programming. -/
inductive Paradigm where
  | objectOriented
  | functional
  | procedural
  | unknown
  deriving DecidableEq, Repr, Inhabited

namespace Paradigm

def name : Paradigm → String
  | objectOriented => "object-oriented"
  | functional => "functional"
  | procedural => "procedural"
  | unknown => "unknown"

end Paradigm

/-- How often each piece of evidence occurs. -/
structure PatternCounts (R : Type) where
  classes : Nat
  /-- Functions and methods that have a name of their own. -/
  functions : Nat
  methods : Nat
  loops : Nat
  lambdas : Nat
  higherOrderFunctions : Nat
  arrayCombinators : Nat
  mutations : Nat
  sideEffectCalls : Nat
  receiverReferences : Nat
  inheritance : Nat
  topLevelStatements : Nat
  /-- An estimate of how many functions have no side effects. -/
  pureFunctions : R
  deriving Inhabited

/-- The three scores, which sum to a hundred if there is any evidence. -/
structure ParadigmScores (R : Type) where
  objectOriented : R
  functional : R
  procedural : R
  deriving Inhabited

/-- What is known about the paradigm of a snippet. -/
structure ParadigmReport (R : Type) where
  primary : Paradigm
  secondary : Option Paradigm
  confidence : R
  scores : ParadigmScores R
  counts : PatternCounts R
  details : List String
  deriving Inhabited

section

variable {R : Type} [Scalar R]

namespace PatternCounts

def zero : PatternCounts R :=
  { classes := 0, functions := 0, methods := 0, loops := 0, lambdas := 0, higherOrderFunctions := 0
    arrayCombinators := 0, mutations := 0, sideEffectCalls := 0, receiverReferences := 0
    inheritance := 0, topLevelStatements := 0, pureFunctions := 0.0 }

/-- Functions that are no methods. -/
def freeFunctions (c : PatternCounts R) : Nat := c.functions - c.methods

/-- How much evidence there is. -/
def structuralTotal (c : PatternCounts R) : Nat :=
  c.classes + c.functions + c.lambdas + c.loops + c.mutations + c.sideEffectCalls
    + c.higherOrderFunctions + c.arrayCombinators + c.inheritance

/-- The evidence in words. -/
def details (c : PatternCounts R) : List String :=
  let when := fun (present : Bool) (text : String) => if present then [text] else []
  when (0 < c.classes) s!"{c.classes} class(es) with {c.methods} method(s)"
    ++ when (0 < c.inheritance) s!"{c.inheritance} inheritance clause(s)"
    ++ when (0 < c.freeFunctions) s!"{c.freeFunctions} free function(s)"
    ++ when (0 < c.lambdas || 0 < c.higherOrderFunctions)
      s!"{c.lambdas} lambda(s), {c.higherOrderFunctions} higher-order use(s)"
    ++ when (0 < c.arrayCombinators) s!"{c.arrayCombinators} collection combinator call(s)"
    ++ when (0 < c.loops) s!"{c.loops} loop(s)"
    ++ when (0 < c.mutations) s!"{c.mutations} mutation site(s)"
    ++ when (0 < c.sideEffectCalls) s!"{c.sideEffectCalls} side-effect call(s)"

end PatternCounts

namespace ParadigmScores

/-- What the three scores are multiplied by in a language. -/
def multipliers : Language → ParadigmScores R
  | .c => ⟨0.3, 1.0, 1.5⟩
  | .go => ⟨1.0, 1.0, 1.2⟩
  | .java | .cSharp | .kotlin => ⟨1.3, 1.0, 1.0⟩
  | .javaScript | .typeScript | .rust => ⟨1.0, 1.1, 1.0⟩
  | _ => ⟨1.0, 1.0, 1.0⟩

/-- The weighed evidence. -/
def weigh (c : PatternCounts R) (l : Language) : ParadigmScores R :=
  let count : Nat → R := Scalar.ofNat
  let m : ParadigmScores R := multipliers l
  let objectOriented :=
    3.0 * count c.classes + 1.5 * count c.methods + 2.0 * count c.inheritance
      + 0.5 * count (min c.receiverReferences 10)
  let functional :=
    Scalar.greatest
      (2.0 * c.pureFunctions + 2.5 * count c.higherOrderFunctions + 1.5 * count c.arrayCombinators
        + count c.lambdas - 0.5 * count c.mutations) 0.0
  let procedural :=
    count c.freeFunctions + count c.loops + 0.5 * count c.mutations + 0.5 * count c.sideEffectCalls
      + 0.5 * count c.topLevelStatements
  ⟨objectOriented * m.objectOriented, functional * m.functional, procedural * m.procedural⟩

/-- The scores as parts of a hundred; nothing without evidence. -/
def normalized? (c : PatternCounts R) (l : Language) : Option (ParadigmScores R) :=
  let raw := weigh c l
  let total := raw.objectOriented + raw.functional + raw.procedural
  if total ≤ 0.0 then none
  else
    some ⟨raw.objectOriented / total * 100.0, raw.functional / total * 100.0,
      raw.procedural / total * 100.0⟩

/-- The paradigms with their scores, in a fixed order. -/
def toList (s : ParadigmScores R) : List (Paradigm × R) :=
  [(.objectOriented, s.objectOriented), (.functional, s.functional), (.procedural, s.procedural)]

/-- The paradigms from the best score down; equal ones keep their order. -/
def ranked (s : ParadigmScores R) : List (Paradigm × R) :=
  s.toList.mergeSort fun a b => decide (b.2 ≤ a.2)

end ParadigmScores

/-- By how much thin evidence lowers the confidence. -/
def evidenceFactor (total : Nat) : R :=
  if total < 5 then 0.6 else if total < 10 then 0.75 else if total < 20 then 0.9 else 1.0

namespace ParadigmReport

def unknown : ParadigmReport R :=
  { primary := .unknown, secondary := none, confidence := 0.0, scores := ⟨0.0, 0.0, 0.0⟩
    counts := .zero, details := [] }

/-- Whether the second best score is high enough to be named: at least twenty, and at least four
tenths of the best. -/
def isSecondary (best second : R) : Bool := decide (20.0 ≤ second) && decide (0.4 * best ≤ second)

/-- The report on evidence in a language. The confidence is cut and not rounded, so that it never
exceeds what the evidence allows. -/
def ofCounts (c : PatternCounts R) (l : Language) : ParadigmReport R :=
  match ParadigmScores.normalized? c l with
  | none => { unknown with counts := c }
  | some scores =>
    match scores.ranked with
    | (primary, best) :: rest =>
      let secondary := match rest with
        | (p, score) :: _ => if isSecondary best score then some p else none
        | [] => none
      { primary
        secondary
        confidence :=
          Scalar.floor2 (Scalar.clampUnit (best / 100.0 * evidenceFactor c.structuralTotal))
        scores := ⟨Scalar.round2 scores.objectOriented, Scalar.round2 scores.functional,
          Scalar.round2 scores.procedural⟩
        counts := c
        details := c.details }
    | [] => { unknown with counts := c }

end ParadigmReport

end

end CodeProfile
