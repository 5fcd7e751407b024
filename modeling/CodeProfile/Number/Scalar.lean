import CodeProfile.Number.Rounding

/-!
# Numbers that scores are computed in

Scores are computed in double precision, in the order in which each formula is written. The laws of
the scoring rules are laws of exact arithmetic, so every rule is stated over a `Scalar`: at run time
that is `Float`, and a law may read the same rule over the rationals.
-/

namespace CodeProfile

/-- Numbers with the operations that scoring rules use. -/
class Scalar (R : Type) extends Add R, Sub R, Mul R, Div R, LE R, LT R, OfScientific R where
  ofNat : Nat → R
  decLE : ∀ a b : R, Decidable (a ≤ b)
  decLT : ∀ a b : R, Decidable (a < b)
  /-- Whether the value is not a number at all. -/
  isNaN : R → Bool
  /-- The nearest integer, a half going away from zero. -/
  round : R → R
  /-- The greatest integer that is not above. -/
  floor : R → R

instance Scalar.decidableLE {R : Type} [Scalar R] (a b : R) : Decidable (a ≤ b) := decLE a b
instance Scalar.decidableLT {R : Type} [Scalar R] (a b : R) : Decidable (a < b) := decLT a b

instance : Scalar Float where
  ofNat n := Float.ofNat n
  decLE := inferInstance
  decLT := inferInstance
  isNaN := Float.isNaN
  round := Number.roundAway
  floor := Float.floor

namespace Scalar

variable {R : Type} [Scalar R]

/-- The smaller of two; of two equal ones the first. -/
def least (a b : R) : R := if b < a then b else a

/-- The larger of two; of two equal ones the first. -/
def greatest (a b : R) : R := if a < b then b else a

/-- A score brought into the range from zero to one; what is not a number counts as zero. -/
def clampUnit (x : R) : R :=
  if isNaN x then 0.0
  else if x < 0.0 then 0.0
  else if 1.0 < x then 1.0
  else x

/-- Two decimals, a half going away from zero. -/
def round2 (x : R) : R := round (x * 100.0) / 100.0

/-- Two decimals, never above the value, so that a value below a bound stays below it. -/
def floor2 (x : R) : R := floor (x * 100.0) / 100.0

end Scalar

end CodeProfile
