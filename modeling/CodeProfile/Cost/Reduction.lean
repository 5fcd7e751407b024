import CodeProfile.Cost

/-!
# Canonical growth

`Cost.reduce` brings an expression to the form in which it is compared and shown. A product folds
its constants into one coefficient, which is dropped when it is one, and merges powers of the same
size. A sum keeps only its terms of greatest rank, one for each shape. `Cost.bigO` writes the
result.
-/

namespace CodeProfile

namespace Cost

/-! ## The growth term -/

/-- The text of a product: its powers, sums and exponentials joined by `*`, then its logarithms
joined by blanks; constants are not shown. -/
def productText (parts : List (Cost × String)) : String :=
  let shown := parts.filter fun p => !p.1 matches constant _
  let logs := (shown.filter fun p => p.1 matches logarithmic _ _).map (·.2)
  let main := (shown.filter fun p => !p.1 matches logarithmic _ _).map fun p =>
    if p.1 matches add _ then "(" ++ p.2 ++ ")" else p.2
  match main.isEmpty, logs.isEmpty with
  | true, true => "1"
  | true, false => String.intercalate " " logs
  | false, true => String.intercalate "*" main
  | false, false => String.intercalate "*" main ++ " " ++ String.intercalate " " logs

mutual

/-- The growth without constant coefficients, such as `n log n`. -/
def growthTerm : Cost → String
  | constant _ => "1"
  | logarithmic _ size => "log " ++ size
  | linear size => size
  | polynomial degree size => size ++ "^" ++ toString degree.toNat
  | exponential base size => toString base.toNat ++ "^" ++ size
  | symbolic name _ => name
  | multiply fs => productText (growthTerms fs)
  | add ts => String.intercalate " + " ((growthTerms ts).map (·.2))

/-- Several expressions, each with its growth term. -/
def growthTerms : List Cost → List (Cost × String)
  | [] => []
  | c :: cs => (c, growthTerm c) :: growthTerms cs

end

/-- The constant factor of an expression. -/
def coefficient : Cost → UInt64
  | constant v => v
  | multiply fs => fs.foldl (fun a f => if let constant v := f then mulSaturating64 a v else a) 1
  | _ => 1

/-! ## Products -/

/-- A product sorted into a coefficient, powers by size in order of occurrence, and the rest. -/
structure ProductParts where
  coefficient : UInt64
  powers : List (String × UInt32)
  others : List Cost
  deriving Inhabited

/-- Adds a power, to the one of the same size if there is one. -/
def addPower (size : String) (degree : UInt32) : List (String × UInt32) → List (String × UInt32)
  | [] => [(size, degree)]
  | p :: ps =>
    if p.1 = size then (size, addSaturating32 p.2 degree) :: ps else p :: addPower size degree ps

def ProductParts.empty : ProductParts := ⟨1, [], []⟩

/-- Sorts one more reduced factor in. -/
def ProductParts.insert (p : ProductParts) : Cost → ProductParts
  | constant v => { p with coefficient := mulSaturating64 p.coefficient v }
  | linear size => { p with powers := addPower size 1 p.powers }
  | polynomial degree size => { p with powers := addPower size degree p.powers }
  | other => { p with others := p.others ++ [other] }

/-- A power in its simplest form. -/
def power (size : String) (degree : UInt32) : Cost :=
  if degree = 1 then linear size else polynomial degree size

/-- The canonical factors of a product. -/
def ProductParts.factors (p : ProductParts) : List Cost :=
  (if p.coefficient = 1 then [] else [constant p.coefficient])
    ++ p.powers.map (fun q => power q.1 q.2) ++ p.others

/-- A product of canonical factors; a single factor stands for itself, and none for one. -/
def ofFactors : List Cost → Cost
  | [] => one
  | [f] => f
  | fs => multiply fs

/-- The product of reduced expressions. -/
def combineProduct (reduced : List Cost) : Cost :=
  ofFactors ((reduced.flatMap factorsOf).foldl ProductParts.insert .empty).factors

/-! ## Sums -/

/-- Keeps one term for each shape: the first, replaced by a later one of larger coefficient. -/
def keepTerm (term : Cost) : List Cost → List Cost
  | [] => [term]
  | k :: ks =>
    if k.growthTerm = term.growthTerm then
      (if k.coefficient < term.coefficient then term else k) :: ks
    else k :: keepTerm term ks

/-- A sum of canonical terms; a single term stands for itself. -/
def ofTerms : List Cost → Cost
  | [t] => t
  | ts => add ts

/-- The sum of reduced expressions: their terms of greatest rank, and zero if there are none. -/
def combineSum (reduced : List Cost) : Cost :=
  let flat := reduced.flatMap termsOf
  if flat.isEmpty then constant 0
  else
    let top := sumRank (flat.map rank)
    ofTerms ((flat.filter (·.rank = top)).foldl (fun ks t => keepTerm t ks) [])

/-! ## Reduction -/

mutual

/-- The canonical form. -/
def reduce : Cost → Cost
  | polynomial degree size =>
    if degree = 0 then one else if degree = 1 then linear size else polynomial degree size
  | multiply fs => combineProduct (reduceAll fs)
  | add ts => combineSum (reduceAll ts)
  | c => c

/-- The canonical forms of several expressions. -/
def reduceAll : List Cost → List Cost
  | [] => []
  | c :: cs => reduce c :: reduceAll cs

end

theorem reduceAll_eq_map (cs : List Cost) : reduceAll cs = cs.map reduce := by
  induction cs with
  | nil => rfl
  | cons c cs ih => simp [reduceAll, ih]

/-- The usual notation for the growth. -/
def bigO (c : Cost) : String := "O(" ++ c.reduce.growthTerm ++ ")"

/-- Compares how two costs grow. -/
def compareGrowth (a b : Cost) : Ordering := compare a.reduce.rank b.reduce.rank

def isConstant (c : Cost) : Bool := c.reduce matches constant _

def isExponential (c : Cost) : Bool := exponentialRank ≤ c.reduce.rank

end Cost

end CodeProfile
