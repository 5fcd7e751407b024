import CodeProfile.Text.Basic

/-!
# TOML values

The values of a TOML document and where a table gets its keys. Tables keep their keys in the order
in which they were written.
-/

namespace CodeProfile

/-- A TOML value. -/
inductive Toml where
  | string (s : String)
  | integer (n : Int)
  | float (x : Float)
  | boolean (b : Bool)
  /-- A date, a time or both, as written. -/
  | moment (text : String)
  | array (items : List Toml)
  | table (fields : List (String × Toml))
  deriving Inhabited

namespace Toml

def toText? : Toml → Option String
  | string s => some s
  | _ => none

def toBool? : Toml → Option Bool
  | boolean b => some b
  | _ => none

/-- A natural number of at most the given size. -/
def toNat? (largest : Nat) : Toml → Option Nat
  | integer n => if 0 ≤ n ∧ n ≤ largest then some n.toNat else none
  | _ => none

/-- A value whose parts are read by key or, from an array, by position. A date or time counts as one
that has no part with a key. -/
inductive Parts where
  | byKey (fields : List (String × Toml))
  | byPosition (items : List Toml)

def parts? : Toml → Option Parts
  | table fields => some (.byKey fields)
  | array items => some (.byPosition items)
  | moment _ => some (.byKey [])
  | _ => none

namespace Parts

/-- The part with a key or at a position; the default where there is none. -/
def part {α : Type} (p : Parts) (key : String) (position : Nat) (read : Toml → Option α)
    (default : α) : Option α :=
  let found := match p with
    | byKey fields => (fields.find? (·.1 == key)).map (·.2)
    | byPosition items => items[position]?
  match found with
  | some v => read v
  | none => some default

end Parts

end Toml

end CodeProfile
