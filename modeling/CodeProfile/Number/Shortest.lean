/-!
# The fewest digits that read back

A positive double stands for an interval of reals, those that round to it. The text of a double is
the shortest decimal in that interval, of several equally short ones the nearest to the double. Each
number of digits gives a grid of decimals, and if the grid meets the interval at all then one of the
two grid points next to the double does; so the search tries one digit, two digits, and so on, and
tests these two points in exact arithmetic.
-/

namespace CodeProfile.Number

/-- A positive decimal `digits * 10 ^ exponent`. -/
structure Decimal where
  digits : Nat
  exponent : Int
  deriving DecidableEq, Repr, Inhabited

namespace Decimal

/-- The same number without trailing zero digits; `fuel` bounds how many are dropped. -/
def trim (fuel : Nat) (d : Decimal) : Decimal :=
  match fuel with
  | 0 => d
  | fuel + 1 =>
    if d.digits ≠ 0 ∧ d.digits % 10 = 0 then trim fuel ⟨d.digits / 10, d.exponent + 1⟩ else d

end Decimal

/-- A positive double as `mantissa * 2 ^ exponent`, with the distance to the double below halved
when the mantissa is the least of its binade. -/
structure Binary where
  mantissa : Nat
  exponent : Int
  narrowBelow : Bool
  deriving DecidableEq, Repr

/-- The leading bit of a mantissa, which is not stored. -/
def leadingBit : Nat := Nat.pow 2 52

/-- The bit that holds the sign of a double. -/
def signBit : Nat := Nat.pow 2 63

/-- The value of the bits of a positive finite double. -/
def Binary.ofBits (bits : Nat) : Binary :=
  let field : Nat := bits / leadingBit % Nat.pow 2 11
  let low : Nat := bits % leadingBit
  if field = 0 then ⟨low, -1074, false⟩
  else ⟨leadingBit + low, (field : Int) - 1075, low = 0 ∧ 1 < field⟩

namespace Shortest

/-- A power with an integer exponent as numerator and denominator. -/
def powFraction (base : Nat) (e : Int) : Nat × Nat :=
  if 0 ≤ e then (Nat.pow base e.toNat, 1) else (1, Nat.pow base (-e).toNat)

/-- The interval of a double in quarter units of its last place, over a common denominator. -/
structure Interval where
  low : Nat
  mid : Nat
  high : Nat
  denominator : Nat
  closed : Bool

def Interval.ofBinary (b : Binary) : Interval :=
  let (num, den) := powFraction 2 (b.exponent - 2)
  { low := (4 * b.mantissa - (if b.narrowBelow then 1 else 2)) * num
    mid := 4 * b.mantissa * num
    high := (4 * b.mantissa + 2) * num
    denominator := den
    closed := b.mantissa % 2 = 0 }

/-- Whether `n / d` lies in the interval. -/
def Interval.contains (i : Interval) (n d : Nat) : Bool :=
  let x := n * i.denominator
  if i.closed then decide (i.low * d ≤ x) && decide (x ≤ i.high * d)
  else decide (i.low * d < x) && decide (x < i.high * d)

/-- The least `k` with the middle below `10 ^ k`, searched downwards from `k`. -/
def magnitude (i : Interval) : Nat → Int → Int
  | 0, k => k
  | fuel + 1, k =>
    let (n, d) := powFraction 10 (k - 1)
    if i.mid * d < n * i.denominator then magnitude i fuel (k - 1) else k

/-- The grid point of step `10 ^ e` in the interval that is nearest to the middle, an even one of
two equally near. -/
def onGrid? (i : Interval) (e : Int) : Option Decimal :=
  let (gn, gd) := powFraction 10 e
  let below := i.mid * gd / (i.denominator * gn)
  let above := below + 1
  let fits := fun c => i.contains (c * gn) gd
  let twice := 2 * i.mid * gd
  let middle := (below + above) * gn * i.denominator
  match fits below && decide (0 < below), fits above with
  | true, true =>
    if twice < middle ∨ (twice = middle ∧ below % 2 = 0) then some ⟨below, e⟩ else some ⟨above, e⟩
  | true, false => some ⟨below, e⟩
  | false, true => some ⟨above, e⟩
  | false, false => none

/-- Tries `count`, `count + 1`, … digits. -/
def search (i : Interval) (k : Int) : Nat → Nat → Decimal
  | 0, count => (onGrid? i (k - count)).getD ⟨0, 0⟩
  | fuel + 1, count => (onGrid? i (k - count)).getD (search i k fuel (count + 1))

end Shortest

/-- The shortest decimal of a positive finite double. -/
def Binary.shortest (b : Binary) : Decimal :=
  let i := Shortest.Interval.ofBinary b
  let k := Shortest.magnitude i 700 310
  (Shortest.search i k 17 1).trim 20

/-- How a number text is laid out. -/
structure DecimalStyle where
  /-- Numbers below `10 ^ positionalAbove` are written without an exponent. -/
  positionalAbove : Int
  /-- Numbers from `10 ^ positionalBelow` on are written without an exponent. -/
  positionalBelow : Int
  /-- Whether a whole number ends in a point and a zero. -/
  wholeHasPoint : Bool
  /-- Whether a positive exponent carries a plus sign. -/
  exponentPlus : Bool

/-- The text of a positive decimal. -/
def DecimalStyle.write (style : DecimalStyle) (d : Decimal) : String :=
  let ds := (toString d.digits).toList
  let count : Int := ds.length
  let point := count + d.exponent
  if style.positionalBelow < point ∧ point ≤ style.positionalAbove then
    if point ≤ 0 then
      "0." ++ String.ofList (List.replicate (-point).toNat '0' ++ ds)
    else if count ≤ point then
      String.ofList (ds ++ List.replicate d.exponent.toNat '0')
        ++ (if style.wholeHasPoint then ".0" else "")
    else
      String.ofList (ds.take point.toNat) ++ "." ++ String.ofList (ds.drop point.toNat)
  else
    let e := point - 1
    let mark := if e < 0 then "e-" else if style.exponentPlus then "e+" else "e"
    let head := String.ofList (ds.take 1)
    let tail := if count ≤ 1 then "" else "." ++ String.ofList (ds.drop 1)
    head ++ tail ++ mark ++ toString e.natAbs

/-- The text of a double in a style, with the sign of a negative zero kept. -/
def DecimalStyle.writeFloat (style : DecimalStyle) (x : Float) : String :=
  let bits := x.toBits.toNat
  let sign := if bits / signBit = 1 then "-" else ""
  let magnitude := bits % signBit
  if x.isNaN then "NaN"
  else if x.isInf then sign ++ "inf"
  else if magnitude = 0 then sign ++ (if style.wholeHasPoint then "0.0" else "0")
  else sign ++ style.write (Binary.ofBits magnitude).shortest

/-- Record texts write a double positionally from `0.00001` up to below `10 ^ 16`, always with a
point, and signed exponents beyond. -/
def recordStyle : DecimalStyle := ⟨16, -5, true, true⟩

/-- Tenfold, hundredfold, … fixed places: the exact value of a double rounded to `places` decimals,
an exact half going to the even neighbour. -/
def fixedPlaces (places : Nat) (x : Float) : String :=
  let bits := x.toBits.toNat
  let negative := bits / signBit = 1
  let b := Binary.ofBits (bits % signBit)
  let (num, den) := Shortest.powFraction 2 b.exponent
  let unit := Nat.pow 10 places
  let scaled := b.mantissa * num * unit
  let q := scaled / den
  let r := scaled % den
  let whole := if 2 * r > den ∨ (2 * r = den ∧ q % 2 = 1) then q + 1 else q
  let frac := (toString (whole % unit)).toList
  let padded := String.ofList (List.replicate (places - frac.length) '0' ++ frac)
  (if negative then "-" else "") ++ toString (whole / unit)
    ++ (if places = 0 then "" else "." ++ padded)

end CodeProfile.Number
