import CodeProfile.Text.Table.Word
import CodeProfile.Text.Table.Alphanumeric
import CodeProfile.Text.Table.Case

/-!
# Classes of characters

Blanks, word characters, digits and letter case, over all of Unicode. ASCII is decided directly and
everything beyond by the tables.
-/

namespace CodeProfile.Text

/-- Whether one of the ascending ranges between `lo` and `hi` holds `n`, by halving. -/
def searchRanges (ranges : Array (Nat × Nat)) (n lo hi : Nat) : Bool :=
  if lo < hi then
    let mid := (lo + hi) / 2
    match ranges[mid]? with
    | none => false
    | some (a, b) =>
      if n < a then searchRanges ranges n lo mid
      else if b < n then searchRanges ranges n (mid + 1) hi
      else true
  else false
termination_by hi - lo

/-- Whether one of the ascending ranges holds `n`. -/
def inRanges (ranges : Array (Nat × Nat)) (n : Nat) : Bool := searchRanges ranges n 0 ranges.size

/-- Unicode white space. -/
def isBlank (c : Char) : Bool :=
  let n := c.toNat
  (9 ≤ n && n ≤ 13) || n == 32 || n == 0x85 || n == 0xA0 || n == 0x1680
    || (0x2000 ≤ n && n ≤ 0x200A) || n == 0x2028 || n == 0x2029 || n == 0x202F || n == 0x205F
    || n == 0x3000

/-- A letter, mark, decimal digit, connector or joiner. -/
def isWordChar (c : Char) : Bool :=
  if c.toNat < 128 then c.isAlphanum || c == '_' else inRanges Table.word c.toNat

/-- A decimal digit of any script. -/
def isDecimalDigit (c : Char) : Bool :=
  if c.toNat < 128 then c.isDigit else inRanges Table.decimalDigit c.toNat

/-- A letter or a numeral of any script. -/
def isAlphanumeric (c : Char) : Bool :=
  if c.toNat < 128 then c.isAlphanum else inRanges Table.alphanumeric c.toNat

/-- The lower-case form of a character, which is two characters for the dotted capital `I` and one
for every other character. -/
def lowerCaseForm (c : Char) : List Char :=
  let n := c.toNat
  if n < 128 then [c.toLower]
  else if n = 0x130 then ['i', Char.ofNat 0x307]
  else
    match Table.toLower.find? fun (a, b, step, _) => a ≤ n && n ≤ b && (n - a) % step == 0 with
    | some (_, _, _, d) => [Char.ofNat ((n : Int) + d).toNat]
    | none => [c]

end CodeProfile.Text
