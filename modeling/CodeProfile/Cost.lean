import CodeProfile.Number.Saturating

/-!
# Growth of a cost

`Cost` is an expression for how the time or space of a computation grows with the size of its input:
constants, logarithms, powers and exponentials of named sizes, and their products and sums. Products
and sums are built with `Cost.product` and `Cost.sum`, which merge a product inside a product and a
sum inside a sum. `Cost.rank` places an expression in the order of dominance: every expression
without an exponential stays below every exponential.
-/

namespace CodeProfile

/-- An expression for the growth of a cost. -/
inductive Cost where
  | constant (value : UInt64)
  | logarithmic (base : UInt32) (size : String)
  | linear (size : String)
  | polynomial (degree : UInt32) (size : String)
  | exponential (base : UInt32) (size : String)
  | multiply (factors : List Cost)
  | add (terms : List Cost)
  /-- A cost that is known by name only. -/
  | symbolic (name : String) (description : String)
  deriving Repr, Inhabited

namespace Cost

mutual

/-- Whether two expressions are written alike. -/
def beq : Cost → Cost → Bool
  | constant a, constant b => a == b
  | logarithmic a x, logarithmic b y => a == b && x == y
  | linear x, linear y => x == y
  | polynomial a x, polynomial b y => a == b && x == y
  | exponential a x, exponential b y => a == b && x == y
  | multiply as, multiply bs => beqList as bs
  | add as, add bs => beqList as bs
  | symbolic a x, symbolic b y => a == b && x == y
  | _, _ => false

/-- `beq` on lists. -/
def beqList : List Cost → List Cost → Bool
  | [], [] => true
  | a :: as, b :: bs => beq a b && beqList as bs
  | _, _ => false

end

instance : BEq Cost := ⟨beq⟩

/-! ## Building -/

/-- The size of the whole input. -/
def inputSize : String := "n"

def one : Cost := constant 1

def logN : Cost := logarithmic 2 inputSize

def n : Cost := linear inputSize

/-- The factors of a product, and any other expression as its own only factor. -/
def factorsOf : Cost → List Cost
  | multiply fs => fs
  | c => [c]

/-- The terms of a sum, and any other expression as its own only term. -/
def termsOf : Cost → List Cost
  | add ts => ts
  | c => [c]

/-- The product of expressions, with products among them merged. -/
def product (cs : List Cost) : Cost := multiply (cs.flatMap factorsOf)

/-- The sum of expressions, with sums among them merged. -/
def sum (cs : List Cost) : Cost := add (cs.flatMap termsOf)

/-! ## Dominance -/

/-- From this rank on an expression is exponential. -/
def exponentialRank : Nat := 1000

/-- The rank of a cost known by name only: above linear and below quadratic. -/
def symbolicRank : Nat := 15

/-- The rank of a product: the sum of the ranks of its factors, held below the exponentials unless
a factor is exponential itself. -/
def productRank (ranks : List Nat) : Nat :=
  let total := ranks.foldl (fun a b => min (a + b) maxWord32) 0
  if ranks.any (exponentialRank ≤ ·) then total else min total (exponentialRank - 1)

/-- The rank of a sum: that of its largest term. -/
def sumRank (ranks : List Nat) : Nat := ranks.foldl max 0

mutual

/-- Position in the order of dominance. -/
def rank : Cost → Nat
  | constant _ => 0
  | logarithmic _ _ => 1
  | linear _ => 10
  | polynomial degree _ => min (min (degree.toNat * 10) maxWord32) (exponentialRank - 1)
  | exponential base _ => min (exponentialRank + base.toNat) maxWord32
  | symbolic _ _ => symbolicRank
  | multiply fs => productRank (rankAll fs)
  | add ts => sumRank (rankAll ts)

/-- The ranks of several expressions. -/
def rankAll : List Cost → List Nat
  | [] => []
  | c :: cs => rank c :: rankAll cs

end

theorem rankAll_eq_map (cs : List Cost) : rankAll cs = cs.map rank := by
  induction cs with
  | nil => rfl
  | cons c cs ih => simp [rankAll, ih]

end Cost

end CodeProfile
