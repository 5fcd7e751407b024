import CodeProfile.Json
import CodeProfile.Number.Reading

/-!
# Reading JSON

Each reader gives what it has read and the text after it, or nothing if the text is not well
formed. Reading is bounded by the length of the text. A number without a point and an exponent is
an integer if it fits a 64-bit word, and else a double; of several values under one key the last
one counts.
-/

namespace CodeProfile.Json

/-! ## Strings -/

def isSpace (c : Char) : Bool := c == ' ' || c == '\t' || c == '\n' || c == '\r'

def dropSpace (cs : List Char) : List Char := cs.dropWhile isSpace

/-- The value of a hexadecimal digit. -/
def hexValue? (c : Char) : Option Nat :=
  let n := c.toNat
  if c.isDigit then some (n - 48)
  else if 97 ≤ n ∧ n ≤ 102 then some (n - 87)
  else if 65 ≤ n ∧ n ≤ 70 then some (n - 55)
  else none

/-- The number that four hexadecimal digits write. -/
def unit16? : List Char → Option (Nat × List Char)
  | a :: b :: c :: d :: cs => do
    let high := 16 * (← hexValue? a) + (← hexValue? b)
    return (256 * high + 16 * (← hexValue? c) + (← hexValue? d), cs)
  | _ => none

/-- Whether a number is the first half of a pair that stands for one character. -/
def isHighHalf (n : Nat) : Bool := 0xD800 ≤ n && n < 0xDC00

/-- Whether a number is the second half of a pair that stands for one character. -/
def isLowHalf (n : Nat) : Bool := 0xDC00 ≤ n && n < 0xE000

/-- The character that a numeric escape stands for, after `\u`. Two escapes make a character beyond
the basic plane, and half of such a pair stands for nothing. -/
def codePoint? (cs : List Char) : Option (Char × List Char) := do
  let (n, rest) ← unit16? cs
  if isHighHalf n then
    match rest with
    | '\\' :: 'u' :: more =>
      let (m, rest) ← unit16? more
      if isLowHalf m then
        return (Char.ofNat (0x10000 + 0x400 * (n - 0xD800) + (m - 0xDC00)), rest)
      else none
    | _ => none
  else if isLowHalf n then none
  else return (Char.ofNat n, rest)

/-- The character that an escape stands for, after its backslash. -/
def escape? : List Char → Option (Char × List Char)
  | 'u' :: cs => codePoint? cs
  | 'b' :: cs => some ('\x08', cs)
  | 'f' :: cs => some ('\x0c', cs)
  | 'n' :: cs => some ('\n', cs)
  | 'r' :: cs => some ('\r', cs)
  | 't' :: cs => some ('\t', cs)
  | c :: cs => if c == '"' || c == '\\' || c == '/' then some (c, cs) else none
  | [] => none

/-- A string after its first quote, behind the characters read so far, the latest first. -/
def readString : Nat → List Char → List Char → Option (String × List Char)
  | 0, _, _ | _, _, [] => none
  | fuel + 1, acc, c :: cs =>
    if c = '"' then some (String.ofList acc.reverse, cs)
    else if c = '\\' then
      match escape? cs with
      | some (d, rest) => readString fuel (d :: acc) rest
      | none => none
    else if c.toNat < 32 then none
    else readString fuel (c :: acc) cs

/-! ## Numbers -/

def isNumeric (c : Char) : Bool :=
  c.isDigit || c == '-' || c == '+' || c == '.' || c == 'e' || c == 'E'

/-- Appends digits to a number as long as it fits a 64-bit word, and gives the digits left over. -/
def appendDigits (n : Nat) : List Char → Nat × List Char
  | [] => (n, [])
  | d :: ds =>
    let m := 10 * n + (d.toNat - '0'.toNat)
    if m ≤ maxWord64 then appendDigits m ds else (n, d :: ds)

/-- The greatest power of ten that is a double. -/
def maxScale : Nat := 308

/-- The double nearest to a power of ten. -/
def powerOfTen (k : Nat) : Float := Number.nearest 1 k

/-- A number that fits a 64-bit word times a power of ten, in double arithmetic: every step rounds.
Nothing if the result is infinite. -/
def scaled? (n : Nat) (scale : Int) : Option Float :=
  let x := n.toUInt64.toFloat
  let k := scale.natAbs
  if n = 0 then some 0.0
  else if 0 ≤ scale then
    if k ≤ maxScale ∧ (x * powerOfTen k).isFinite then some (x * powerOfTen k) else none
  else if k ≤ maxScale then some (x / powerOfTen k)
  else if k ≤ 2 * maxScale then some (x / powerOfTen maxScale / powerOfTen (k - maxScale))
  else some 0.0

/-- The number without a sign that a text writes. Whole digits beyond a 64-bit word count only for
the size of the number, and such digits after the point do not count at all. -/
def positive? (cs : List Char) : Option Json := do
  let (whole, rest) := cs.span Char.isDigit
  let (fraction, mark) := Number.splitFraction rest
  if whole.isEmpty ∨ (whole.head? = some '0' ∧ 1 < whole.length) then none
  if rest.head? = some '.' ∧ fraction.isEmpty then none
  let (n, excess) := appendDigits 0 whole
  if rest.isEmpty ∧ excess.isEmpty then return int n
  let (m, ignored) := appendDigits n fraction
  let scale := (excess.length : Int) - (fraction.length - ignored.length : Nat)
  return float (← scaled? m (scale + (← Number.exponent? mark)))

/-- A number with a minus sign. Nought and what lies below the 64-bit integers is a double. -/
def negated : Json → Json
  | int n => if 0 < n ∧ n ≤ 0x8000000000000000 then int (-n) else float (-n.toNat.toUInt64.toFloat)
  | float x => float (-x)
  | j => j

/-- The number that a text writes. -/
def number? : List Char → Option Json
  | '-' :: cs => (positive? cs).map negated
  | cs => positive? cs

/-! ## Values -/

/-- Puts a value under a key, in the place of an earlier one. The latest key is the first. -/
def putField (key : String) (j : Json) (fields : List (String × Json)) : List (String × Json) :=
  (key, j) :: fields.filter (·.1 != key)

mutual

/-- A value at the start of a text. -/
def readValue : Nat → List Char → Option (Json × List Char)
  | 0, _ => none
  | fuel + 1, cs =>
    match dropSpace cs with
    | '\x7b' :: cs =>
      match dropSpace cs with
      | '\x7d' :: rest => some (object [], rest)
      | _ => readFields fuel [] cs
    | '[' :: cs =>
      match dropSpace cs with
      | ']' :: rest => some (array [], rest)
      | _ => readItems fuel [] cs
    | '"' :: cs => (readString (cs.length + 1) [] cs).map fun (s, rest) => (string s, rest)
    | 't' :: 'r' :: 'u' :: 'e' :: rest => some (bool true, rest)
    | 'f' :: 'a' :: 'l' :: 's' :: 'e' :: rest => some (bool false, rest)
    | 'n' :: 'u' :: 'l' :: 'l' :: rest => some (null, rest)
    | cs =>
      let (text, rest) := cs.span isNumeric
      (number? text).map fun j => (j, rest)

/-- The items of an array behind those read so far, the latest first. -/
def readItems : Nat → List Json → List Char → Option (Json × List Char)
  | 0, _, _ => none
  | fuel + 1, acc, cs => do
    let (j, rest) ← readValue fuel cs
    match dropSpace rest with
    | ',' :: rest => readItems fuel (j :: acc) rest
    | ']' :: rest => return (array (j :: acc).reverse, rest)
    | _ => none

/-- The fields of an object behind those read so far, the latest first. -/
def readFields : Nat → List (String × Json) → List Char → Option (Json × List Char)
  | 0, _, _ => none
  | fuel + 1, acc, cs =>
    match dropSpace cs with
    | '"' :: cs => do
      let (key, rest) ← readString (cs.length + 1) [] cs
      match dropSpace rest with
      | ':' :: rest =>
        let (j, rest) ← readValue fuel rest
        match dropSpace rest with
        | ',' :: rest => readFields fuel (putField key j acc) rest
        | '\x7d' :: rest => return (object (putField key j acc).reverse, rest)
        | _ => none
      | _ => none
    | _ => none

end

/-- The value that a text writes, with nothing after it. -/
def ofText? (text : String) : Option Json :=
  let cs := text.toList
  match readValue (cs.length + 1) cs with
  | some (j, rest) => if (dropSpace rest).isEmpty then some j else none
  | none => none

end CodeProfile.Json
