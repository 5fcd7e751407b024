import CodeProfile.Cost.Reduction
import CodeProfile.Json

/-!
# Costs as JSON

A cost is a record whose `kind` tells what it is. Reading a product or sum merges products and sums
inside it, as building one does.
-/

namespace CodeProfile.Cost

open CodeProfile

mutual

def toJson : Cost → Json
  | constant value => .object [("kind", .string "constant"), ("value", .nat value.toNat)]
  | logarithmic base size =>
    .object [("kind", .string "logarithmic"), ("base", .nat base.toNat), ("variable", .string size)]
  | linear size => .object [("kind", .string "linear"), ("variable", .string size)]
  | polynomial degree size =>
    .object [("kind", .string "polynomial"), ("degree", .nat degree.toNat),
      ("variable", .string size)]
  | exponential base size =>
    .object [("kind", .string "exponential"), ("base", .nat base.toNat), ("variable", .string size)]
  | multiply factors =>
    .object [("kind", .string "multiply"), ("factors", .array (toJsonAll factors))]
  | add terms => .object [("kind", .string "add"), ("terms", .array (toJsonAll terms))]
  | symbolic name description =>
    .object [("kind", .string "symbolic"), ("name", .string name),
      ("description", .string description)]

/-- The JSON of several costs. -/
def toJsonAll : List Cost → List Json
  | [] => []
  | c :: cs => toJson c :: toJsonAll cs

end

/-- The kinds of costs with the keys of their parts. -/
def shapes : List (String × List String) :=
  [("constant", ["value"]), ("logarithmic", ["base", "variable"]), ("linear", ["variable"]),
    ("polynomial", ["degree", "variable"]), ("exponential", ["base", "variable"]),
    ("multiply", ["factors"]), ("add", ["terms"]), ("symbolic", ["name", "description"])]

/-- The cost that a record describes, given the costs in its lists of factors or terms. -/
def ofRecord? (isInner : Bool) (j : Json) (factors terms : Option (List Cost)) : Option Cost := do
  let (kind, parts) ← j.tagged? "kind" shapes isInner
  let size := parts.field "variable" Json.toText?
  let word32 := fun key => (parts.field key Json.toWord32?).map UInt32.ofNat
  match kind with
  | "constant" => return constant (UInt64.ofNat (← parts.field "value" Json.toWord64?))
  | "logarithmic" => return logarithmic (← word32 "base") (← size)
  | "linear" => return linear (← size)
  | "polynomial" => return polynomial (← word32 "degree") (← size)
  | "exponential" => return exponential (← word32 "base") (← size)
  | "multiply" => return product (← factors)
  | "add" => return sum (← terms)
  | "symbolic" =>
    return symbolic (← parts.field "name" Json.toText?) (← parts.field "description" Json.toText?)
  | _ => none

mutual

/-- Reads a cost. Inside another one its kind may also be given by number. -/
def ofJson? (isInner : Bool) : Json → Option Cost
  | .object fields =>
    ofRecord? isInner (.object fields) (listOf? "factors" fields) (listOf? "terms" fields)
  | .array items =>
    let inner := secondOf? items
    ofRecord? isInner (.array items) inner inner
  | _ => none

/-- Reads the costs in the list under a key. -/
def listOf? (key : String) : List (String × Json) → Option (List Cost)
  | [] => none
  | (k, v) :: rest => if k = key then itemsOf? v else listOf? key rest

/-- Reads the costs in the list that stands after the kind. -/
def secondOf? : List Json → Option (List Cost)
  | [_, v] => itemsOf? v
  | _ => none

/-- Reads the costs in a list. -/
def itemsOf? : Json → Option (List Cost)
  | .array items => allOf? items
  | _ => none

/-- Reads several costs. -/
def allOf? : List Json → Option (List Cost)
  | [] => some []
  | j :: js => do return (← ofJson? true j) :: (← allOf? js)

end

end CodeProfile.Cost
