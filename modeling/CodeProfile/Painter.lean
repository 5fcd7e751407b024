import CodeProfile.Number.Shortest
import CodeProfile.Text.Basic

/-!
# Coloured text

A painter wraps text in the escape sequences of a terminal, or leaves it alone. Where painted text
itself holds painted text, the outer style is taken up again after each inner end.
-/

namespace CodeProfile

open Text

/-- When to colour. -/
inductive ColorMode where
  /-- If the output is a terminal. -/
  | auto
  | always
  | never
  deriving DecidableEq, Repr, Inhabited

namespace ColorMode

def name : ColorMode → String
  | auto => "Auto"
  | always => "Always"
  | never => "Never"

/-- Reads a mode in any letter case. -/
def ofText? (s : String) : Option ColorMode :=
  [auto, always, never].find? fun m => lowerCase s == lowerAscii m.name

/-- Whether to colour, given whether the output is a terminal. -/
def isColored (isTerminal : Bool) : ColorMode → Bool
  | auto => isTerminal
  | always => true
  | never => false

end ColorMode

/-- What a piece of text is shown as. -/
inductive TextStyle where
  | header
  | label
  | success
  | warning
  | failure
  | dim
  deriving DecidableEq, Repr, Inhabited

namespace TextStyle

/-- The parameters of the escape sequence. -/
def codes : TextStyle → String
  | header => "1;34"
  | label => "1"
  | success => "32"
  | warning => "33"
  | failure => "31"
  | dim => "2"

/-- The sequence that begins the style. -/
def opening (s : TextStyle) : List Char := "\x1b[".toList ++ s.codes.toList ++ ['m']

/-- The sequence that ends all styles. -/
def closing : List Char := "\x1b[0m".toList

/-- Takes up the style again after each end of an inner one; `skip` counts the characters up to the
next such end. -/
def reopen (s : TextStyle) : List Char → Nat → List Char
  | [], _ => []
  | c :: cs, 0 =>
    if closing.isPrefixOf (c :: cs) then c :: reopen s cs (closing.length - 1)
    else c :: reopen s cs 0
  | c :: cs, skip + 1 =>
    if skip = 0 then c :: s.opening ++ reopen s cs 0 else c :: reopen s cs skip

/-- The text in the style. -/
def wrap (s : TextStyle) (text : String) : String :=
  String.ofList (s.opening ++ reopen s text.toList 0 ++ closing)

end TextStyle

/-- Colours text or leaves it alone. -/
structure Painter where
  color : Bool
  deriving DecidableEq, Repr, Inhabited

namespace Painter

def paint (p : Painter) (s : TextStyle) (text : String) : String :=
  if p.color then s.wrap text else text

/-- Good from seven tenths on, poor below four tenths. -/
def scoreStyle (x : Float) : TextStyle :=
  if 0.7 ≤ x then .success else if 0.4 ≤ x then .warning else .failure

/-- A score with two decimals, in the colour of how good it is. -/
def score (p : Painter) (x : Float) : String := p.paint (scoreStyle x) (Number.fixedPlaces 2 x)

/-- A text filled up with blanks to a width in characters; escape sequences count as well. -/
def padTo (width : Nat) (text : String) : String :=
  String.ofList (text.toList ++ List.replicate (width - text.length) ' ')

/-- A label in a column of its own, with the start of the line before it. -/
def labelColumn (p : Painter) (text : String) : String := "  " ++ padTo 12 (p.paint .label text)

end Painter

end CodeProfile
