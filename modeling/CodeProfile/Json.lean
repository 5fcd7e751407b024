import CodeProfile.Number.Saturating
import CodeProfile.Number.Shortest

/-!
# JSON values and their text

Integers and doubles are kept apart, and an object keeps its keys in order. `Json.compact` writes a
value on one line and `Json.pretty` with two blanks per level.
-/

namespace CodeProfile

/-- A JSON value. -/
inductive Json where
  | null
  | bool (b : Bool)
  | int (n : Int)
  | float (x : Float)
  | string (s : String)
  | array (items : List Json)
  | object (fields : List (String × Json))
  deriving Inhabited

namespace Json

/-! ## Building -/

/-- `null` for nothing. -/
def ofOption {α : Type} (f : α → Json) : Option α → Json
  | none => null
  | some x => f x

def nat (n : Nat) : Json := int n

def ofList {α : Type} (f : α → Json) (xs : List α) : Json := array (xs.map f)

def strings (ss : List String) : Json := ofList string ss

def optionalString (s : Option String) : Json := ofOption string s

/-! ## Reading -/

/-- The value of a key of an object. -/
def get? (key : String) : Json → Option Json
  | object fields => (fields.find? (·.1 = key)).map (·.2)
  | _ => none

/-- The value of a key that must be there. -/
def field {α : Type} (key : String) (read : Json → Option α) (j : Json) : Option α :=
  (j.get? key).bind read

/-- The value of a key that may be missing or `null`. -/
def optionalField {α : Type} (key : String) (read : Json → Option α) (j : Json) :
    Option (Option α) :=
  match j with
  | object _ =>
    match j.get? key with
    | none | some null => some none
    | some v => (read v).map some
  | _ => none

def toBool? : Json → Option Bool
  | bool b => some b
  | _ => none

def toText? : Json → Option String
  | string s => some s
  | _ => none

/-- A natural number of at most the given size. -/
def toNat? (largest : Nat) : Json → Option Nat
  | int n => if 0 ≤ n ∧ n ≤ largest then some n.toNat else none
  | _ => none

/-- A natural number that fits a 64-bit word. -/
def toWord64? : Json → Option Nat := toNat? maxWord64

/-- A natural number that fits a 32-bit word. -/
def toWord32? : Json → Option Nat := toNat? maxWord32

/-- The double that a number stands for. -/
def toFloat? : Json → Option Float
  | float x => some x
  | int n => some (if n < 0 then -(Float.ofNat n.natAbs) else Float.ofNat n.natAbs)
  | _ => none

def toList? {α : Type} (read : Json → Option α) : Json → Option (List α)
  | array items => items.mapM read
  | _ => none

/-- A name: a string, or an object whose only key is the name and has `null` as its value. -/
def toName? : Json → Option String
  | string s => some s
  | object [(key, null)] => some key
  | _ => none

/-- A record as an object. It may also be written as an array with the values of all keys in
order. -/
def record? (keys : List String) : Json → Option Json
  | object fields => some (object fields)
  | array items => if items.length = keys.length then some (object (keys.zip items)) else none
  | _ => none

/-- The shape with a name. Where `byNumber` is set, a shape may also be given by its place. -/
def shape? (shapes : List (String × List String)) (byNumber : Bool) :
    Json → Option (String × List String)
  | string name => shapes.find? (·.1 = name)
  | int n => if byNumber ∧ 0 ≤ n then shapes[n.toNat]? else none
  | _ => none

/-- The kind of a record that says what it is, and its parts as an object. The kind stands under the
key `tag`, or at the start of an array before the parts in order. The shapes tell for every kind
the keys of its parts. -/
def tagged? (tag : String) (shapes : List (String × List String)) (byNumber : Bool) :
    Json → Option (String × Json)
  | object fields => do
    let (kind, _) ← (object fields).field tag (shape? shapes byNumber)
    return (kind, object fields)
  | array (first :: rest) => do
    let (kind, keys) ← shape? shapes byNumber first
    return (kind, ← (array rest).record? keys)
  | _ => none

/-! ## Writing -/

/-- A digit of a hexadecimal numeral. -/
def hexDigit (n : Nat) : Char := Char.ofNat (if n < 10 then 48 + n else 87 + n)

/-- A character as it stands in a JSON string. -/
def escapeChar (c : Char) : List Char :=
  match c with
  | '"' => ['\\', '"']
  | '\\' => ['\\', '\\']
  | '\n' => ['\\', 'n']
  | '\r' => ['\\', 'r']
  | '\t' => ['\\', 't']
  | c =>
    if c.toNat = 8 then ['\\', 'b']
    else if c.toNat = 12 then ['\\', 'f']
    else if c.toNat < 32 then
      ['\\', 'u', '0', '0', hexDigit (c.toNat / 16), hexDigit (c.toNat % 16)]
    else [c]

/-- A text as a JSON string. -/
def quote (s : String) : String := "\"" ++ String.ofList (s.toList.flatMap escapeChar) ++ "\""

/-- A value that holds no others. -/
def scalarText : Json → String
  | null => "null"
  | bool b => if b then "true" else "false"
  | int n => toString n
  | float x => if x.isNaN || x.isInf then "null" else Number.recordStyle.writeFloat x
  | string s => quote s
  | array _ => "[]"
  | object _ => "\x7b\x7d"

mutual

/-- The text of a value on one line. -/
def compact : Json → String
  | array items => "[" ++ String.intercalate "," (compactAll items) ++ "]"
  | object fields => "\x7b" ++ String.intercalate "," (compactFields fields) ++ "\x7d"
  | j => scalarText j

/-- The texts of several values. -/
def compactAll : List Json → List String
  | [] => []
  | j :: js => compact j :: compactAll js

/-- The texts of keys with their values. -/
def compactFields : List (String × Json) → List String
  | [] => []
  | (k, j) :: rest => (quote k ++ ":" ++ compact j) :: compactFields rest

end

/-- Items on lines of their own, indented, between brackets. -/
def bracketed (opening closing indent : String) (items : List String) : String :=
  if items.isEmpty then opening ++ closing
  else
    opening ++ "\n" ++ String.intercalate ",\n" (items.map fun i => indent ++ "  " ++ i)
      ++ "\n" ++ indent ++ closing

mutual

/-- The text of a value with two blanks per level, inside the given indentation. -/
def prettyIn (indent : String) : Json → String
  | array items => bracketed "[" "]" indent (prettyAll (indent ++ "  ") items)
  | object fields => bracketed "\x7b" "\x7d" indent (prettyFields (indent ++ "  ") fields)
  | j => scalarText j

/-- The texts of several values. -/
def prettyAll (indent : String) : List Json → List String
  | [] => []
  | j :: js => prettyIn indent j :: prettyAll indent js

/-- The texts of keys with their values. -/
def prettyFields (indent : String) : List (String × Json) → List String
  | [] => []
  | (k, j) :: rest => (quote k ++ ": " ++ prettyIn indent j) :: prettyFields indent rest

end

/-- The text of a value with two blanks per level. -/
def pretty (j : Json) : String := prettyIn "" j

end Json

end CodeProfile
