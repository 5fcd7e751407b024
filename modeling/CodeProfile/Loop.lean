import CodeProfile.Cost
import CodeProfile.Text.Pattern.Reader

/-!
# Loop bounds

How often a loop runs, as far as the text of its header tells. `LoopBounds.ofHeader` reads a
condition, together with the initial value and the step where there are any, and
`LoopBounds.ofIterable` reads what a loop runs over.
-/

namespace CodeProfile

open Text

/-- What limits the number of iterations of a loop. -/
inductive BoundKind where
  /-- A fixed number. -/
  | constant
  /-- A named input, such as the length of a collection. -/
  | input
  /-- A variable whose relation to the input is not known. -/
  | symbolic
  | unknown
  deriving DecidableEq, Repr, Inhabited

/-- How the number of iterations grows with the input. -/
inductive LoopGrowth where
  | constant
  | logarithmic
  | linear
  deriving DecidableEq, Repr, Inhabited

namespace LoopGrowth

/-- The faster of two growths. -/
def max : LoopGrowth → LoopGrowth → LoopGrowth
  | linear, _ | _, linear => linear
  | logarithmic, _ | _, logarithmic => logarithmic
  | constant, constant => constant

/-- The cost of running once per iteration. -/
def cost : LoopGrowth → Cost
  | constant => .one
  | logarithmic => .logN
  | linear => .n

end LoopGrowth

/-- The bound of a loop. -/
structure LoopBounds where
  kind : BoundKind
  cost : Cost
  /-- The variable or collection that the bound hangs on, if one was found. -/
  boundBy : Option String
  deriving Repr, Inhabited

namespace LoopBounds

def constant (iterations : UInt64) : LoopBounds := ⟨.constant, .constant iterations, none⟩

def input (name : String) : LoopBounds := ⟨.input, .n, some name⟩

def logarithmic (name : Option String) : LoopBounds := ⟨.input, .logN, name⟩

def symbolic (name : String) : LoopBounds := ⟨.symbolic, .n, some name⟩

def unknown : LoopBounds := ⟨.unknown, .symbolic "k" "unclassified loop bound", none⟩

/-- Unknown and symbolic bounds count as linear. -/
def growth (b : LoopBounds) : LoopGrowth :=
  match b.kind, b.cost with
  | .constant, _ => .constant
  | _, .logarithmic _ _ => .logarithmic
  | _, _ => .linear

/-- Whether the number of iterations follows an input. -/
def isInputBound (b : LoopBounds) : Bool := b.kind matches .input | .symbolic

/-! ## Reading headers -/

/-- A variable is doubled or halved at each step. -/
def halving : Pattern := .ofText
  r"(\*=\s*2\b|/=\s*2\b|//=\s*2\b|>>=\s*1\b|<<=\s*1\b|[\w)\]]\s*(\*|/|//)\s*2\b|[\w)\]]\s*>>\s*1\b)"

/-- The size of a collection is asked for as a member of it. -/
def sizeAccess : Pattern := .ofText
  (r"([A-Za-z_][\w.]*?)\s*(\.length\b|\.size\(\)|\.size\b|\.count\(\)|\.Count\b|" ++
    r"\.Length\b|\.len\(\))")

/-- The size of a collection is asked for by a function. -/
def lengthCall : Pattern := .ofText r"\b(len|count|size|sizeof)\(\s*([A-Za-z_][\w.]*)"

/-- A numeral bounds the loop from above. -/
def numericUpper : Pattern := .ofText
  r"(<=?\s*(\d+)\b|\brange\(\s*(?:\d+\s*,\s*)?(\d+)\s*[,)]|\b(\d+)\s*>=?|\.\.=?\s*(\d+)\b)"

/-- A name bounds the loop from above. -/
def nameUpper : Pattern := .ofText
  (r"(<=?\s*([A-Za-z_]\w*)\b|\brange\(\s*(?:\w+\s*,\s*)?([A-Za-z_]\w*)\s*[,)]"
    ++ r"|\b([A-Za-z_]\w*)\s*>=?|\.\.=?\s*([A-Za-z_]\w*)\b)")

/-- The groups of an upper bound, one for each way to write it. -/
def upperGroups : List Nat := [2, 3, 4, 5]

/-- Words that look like names and are none. -/
def isKeyword (word : String) : Bool :=
  ["true", "false", "True", "False", "None", "null", "nil", "undefined", "in", "of"].contains word

/-- The number that ASCII digits write, if it fits a 64-bit word. -/
def readWord64? (s : String) : Option UInt64 :=
  let cs := s.toList
  if cs.isEmpty || !cs.all Char.isDigit then none
  else
    let n := cs.foldl (fun n d => 10 * n + (d.toNat - 48)) 0
    if n ≤ maxWord64 then some (UInt64.ofNat n) else none

/-- The collection whose size the text asks for. -/
def sizeVariable? (text : String) : Option String :=
  ((sizeAccess.find? text).bind (·.group? 1)).or ((lengthCall.find? text).bind (·.group? 2))

/-- The numeral that bounds the loop. -/
def numericBound? (text : String) : Option UInt64 := do
  let m ← numericUpper.find? text
  upperGroups.findSome? fun i => (m.group? i).bind readWord64?

/-- The first name, keywords apart, that bounds the loop. -/
def nameBound? (text : String) : Option String :=
  (nameUpper.matchesIn text).findSome? fun m =>
    (upperGroups.filterMap m.group?).find? fun name => !isKeyword name

/-- The bound that a header states: halving first, then the size of a collection, a numeral and a
name. -/
def ofHeader (header : String) : LoopBounds :=
  if halving.isMatch header then logarithmic ((sizeVariable? header).or (nameBound? header))
  else
    match sizeVariable? header with
    | some v => input v
    | none =>
      match numericBound? header with
      | some k => constant k
      | none =>
        match nameBound? header with
        | some v => symbolic v
        | none => unknown

/-- The bound of a loop over a collection or a range. -/
def ofIterable (iterable : String) : LoopBounds :=
  let iterable := trim iterable
  match numericBound? iterable with
  | some k => constant k
  | none =>
    match sizeVariable? iterable with
    | some v => input v
    | none =>
      let isRange := hasStart iterable "range" || holds iterable ".."
      match (nameBound? iterable).filter fun _ => isRange with
      | some v => symbolic v
      | none => if iterable.isEmpty then unknown else input iterable

end LoopBounds

end CodeProfile
