/-!
# Numerals

Reads the number that digits write, and the double that is nearest to a decimal numeral. A numeral
may have a sign, a point and an exponent, and at least one digit; the names of infinity and of what
is no number are known in any letter case.
-/

namespace CodeProfile.Number

/-- The number that decimal digits write. -/
def numeral (digits : List Char) : Nat := digits.foldl (fun n d => 10 * n + (d.toNat - '0'.toNat)) 0

/-- Whether the text starts with a minus sign, and the text after its sign. -/
def splitSign : List Char → Bool × List Char
  | '-' :: cs => (true, cs)
  | '+' :: cs => (false, cs)
  | cs => (false, cs)

/-- The exponent after its mark; nought for no exponent. -/
def exponent? : List Char → Option Int
  | [] => some 0
  | mark :: cs =>
    let (negative, digits) := splitSign cs
    if mark != 'e' && mark != 'E' then none
    else if digits.isEmpty || !digits.all Char.isDigit then none
    else some (if negative then -(numeral digits : Int) else numeral digits)

/-- The digits after the point, if there is one, and the text after them. -/
def splitFraction : List Char → List Char × List Char
  | '.' :: cs => cs.span Char.isDigit
  | cs => ([], cs)

/-- The double nearest to `digits · 10 ^ scale`. Where that lies so far out that nothing but
infinity or nought is near, it is given at once, without computing the power. -/
def nearest (digits : Nat) (scale : Int) : Float :=
  if digits = 0 then 0.0
  else if 400 < scale then 1.0 / 0.0
  else if scale + digits.log2 < -400 then 0.0
  else Float.ofScientific digits (scale < 0) scale.natAbs

/-- The double nearest to a numeral without a sign. -/
def positive? (cs : List Char) : Option Float :=
  let name := cs.map Char.toLower
  if name = "inf".toList ∨ name = "infinity".toList then some (1.0 / 0.0)
  else if name = "nan".toList then some (0.0 / 0.0)
  else
    let (whole, rest) := cs.span Char.isDigit
    let (fraction, rest) := splitFraction rest
    if whole.isEmpty && fraction.isEmpty then none
    else
      (exponent? rest).map fun e => nearest (numeral (whole ++ fraction)) (e - fraction.length)

/-- The double nearest to what a numeral writes. -/
def ofText? (s : String) : Option Float :=
  let (negative, cs) := splitSign s.toList
  (positive? cs).map fun x => if negative then -x else x

end CodeProfile.Number
