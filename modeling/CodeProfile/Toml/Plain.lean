import CodeProfile.Toml
import CodeProfile.Number.Reading

/-!
# Values without quotes

Integers, floating-point numbers, truth values, dates and times. A plain value is read as a whole:
it runs up to a blank or a mark that ends it.
-/

namespace CodeProfile.Toml

/-! ## Digits -/

/-- The digits of a numeral, in which single underscores may stand between digits. -/
def digits? (isDigit : Char → Bool) : List Char → Option (List Char)
  | [] => none
  | [c] => if isDigit c then some [c] else none
  | c :: '_' :: cs => if isDigit c then (digits? isDigit cs).map (c :: ·) else none
  | c :: cs => if isDigit c then (digits? isDigit cs).map (c :: ·) else none

def isOctal (c : Char) : Bool := '0' ≤ c && c ≤ '7'

def isBinary (c : Char) : Bool := c == '0' || c == '1'

def isHex (c : Char) : Bool :=
  c.isDigit || ('a' ≤ c && c ≤ 'f') || ('A' ≤ c && c ≤ 'F')

/-- The value of a digit of any base up to sixteen. -/
def digitValue (c : Char) : Nat :=
  if c.isDigit then c.toNat - '0'.toNat
  else if 'a' ≤ c then c.toNat - 'a'.toNat + 10
  else c.toNat - 'A'.toNat + 10

/-- The number that digits write in a base. -/
def numeral (base : Nat) (cs : List Char) : Nat := cs.foldl (fun n c => base * n + digitValue c) 0

/-- Whether the text has a sign, whether that is a minus, and the rest. -/
def splitSign : List Char → Bool × Bool × List Char
  | '+' :: cs => (true, false, cs)
  | '-' :: cs => (true, true, cs)
  | cs => (false, false, cs)

/-- The digits of a decimal numeral without needless zeros in front. -/
def wholePart? (cs : List Char) : Option (List Char) := do
  let ds ← digits? Char.isDigit cs
  if 1 < ds.length ∧ ds.head? = some '0' then none else some ds

/-! ## Numbers -/

/-- The range of integers that can be written at all. -/
def isRepresentable (n : Int) : Bool := -(Nat.pow 2 127) ≤ n && n < Nat.pow 2 128

def integer? (cs : List Char) : Option Toml := do
  let (signed, negative, body) := splitSign cs
  let n : Int ← match body with
    | '0' :: 'x' :: ds => if signed then none else (digits? isHex ds).map fun d => ↑(numeral 16 d)
    | '0' :: 'o' :: ds => if signed then none else (digits? isOctal ds).map fun d => ↑(numeral 8 d)
    | '0' :: 'b' :: ds => if signed then none else (digits? isBinary ds).map fun d => ↑(numeral 2 d)
    | ds => (wholePart? ds).map fun d => if negative then -↑(numeral 10 d) else ↑(numeral 10 d)
  if isRepresentable n then some (.integer n) else none

def isExponentMark (c : Char) : Bool := c == 'e' || c == 'E'

/-- The exponent after its mark; nought for no exponent. -/
def exponent? : List Char → Option Int
  | [] => some 0
  | _ :: cs => do
    let (_, negative, body) := splitSign cs
    let ds ← digits? Char.isDigit body
    return if negative then -↑(numeral 10 ds) else ↑(numeral 10 ds)

/-- The digits after the point; none for no point. -/
def fraction? : List Char → Option (List Char)
  | [] => some []
  | _ :: cs => digits? Char.isDigit cs

def float? (cs : List Char) : Option Toml := do
  let (_, negative, body) := splitSign cs
  let signed := fun x : Float => if negative then -x else x
  if body = ['i', 'n', 'f'] then some (.float (signed (1.0 / 0.0)))
  else if body = ['n', 'a', 'n'] then some (.float (0.0 / 0.0))
  else
    let (mantissa, exponent) := body.span (!isExponentMark ·)
    let (whole, fraction) := mantissa.span (· != '.')
    if fraction.isEmpty ∧ exponent.isEmpty then none
    let ws ← wholePart? whole
    let fs ← fraction? fraction
    let x := Number.nearest (numeral 10 (ws ++ fs)) ((← exponent? exponent) - fs.length)
    if x.isInf then none else some (.float (signed x))

/-! ## Dates and times -/

/-- A number of exactly `count` digits at the start of a text. -/
def fixedDigits? (count : Nat) (cs : List Char) : Option (Nat × List Char) :=
  let ds := cs.take count
  if ds.length = count ∧ ds.all Char.isDigit then some (numeral 10 ds, cs.drop count) else none

/-- The text after a character that must stand there. -/
def after? (c : Char) : List Char → Option (List Char)
  | d :: cs => if c = d then some cs else none
  | [] => none

def isLeapYear (y : Nat) : Bool := y % 4 == 0 && (y % 100 != 0 || y % 400 == 0)

def daysIn (year month : Nat) : Nat :=
  if month = 2 then (if isLeapYear year then 29 else 28)
  else if [4, 6, 9, 11].contains month then 30
  else 31

/-- The text after a date. -/
def afterDate? (cs : List Char) : Option (List Char) := do
  let (year, cs) ← fixedDigits? 4 cs
  let (month, cs) ← fixedDigits? 2 (← after? '-' cs)
  let (day, cs) ← fixedDigits? 2 (← after? '-' cs)
  if 1 ≤ month ∧ month ≤ 12 ∧ 1 ≤ day ∧ day ≤ daysIn year month then some cs else none

/-- The text after a part of a second, if one stands there. -/
def afterFraction? : List Char → Option (List Char)
  | '.' :: cs => if cs.head?.any Char.isDigit then some (cs.dropWhile Char.isDigit) else none
  | cs => some cs

/-- The text after the seconds, which may be left out. -/
def afterSeconds? : List Char → Option (List Char)
  | ':' :: cs => do
    let (second, cs) ← fixedDigits? 2 cs
    if second ≤ 60 then afterFraction? cs else none
  | cs => some cs

/-- The text after hours and minutes. -/
def afterHourMinute? (cs : List Char) : Option (List Char) := do
  let (hour, cs) ← fixedDigits? 2 cs
  let (minute, cs) ← fixedDigits? 2 (← after? ':' cs)
  if hour ≤ 23 ∧ minute ≤ 59 then some cs else none

/-- The text after a time of day. -/
def afterTime? (cs : List Char) : Option (List Char) := do afterSeconds? (← afterHourMinute? cs)

/-- Whether a text is an offset from universal time, or empty. -/
def isOffset : List Char → Bool
  | [] | ['Z'] | ['z'] => true
  | c :: cs => (c == '+' || c == '-') && afterHourMinute? cs == some []

/-- Whether a text is a date with a time of day. -/
def isDateTime (cs : List Char) : Bool :=
  match afterDate? cs with
  | some (c :: rest) =>
    (c == 'T' || c == 't' || c == ' ') && (afterTime? rest).any isOffset
  | _ => false

def moment? (cs : List Char) : Option Toml :=
  if afterDate? cs = some [] ∨ afterTime? cs = some [] ∨ isDateTime cs then
    some (.moment (String.ofList cs))
  else none

/-! ## All plain values -/

/-- Whether a character ends a plain value. -/
def endsPlain (c : Char) : Bool :=
  c == ' ' || c == '\t' || c == '\n' || c == '\r' || c == '#' || c == ',' || c == ']' || c == '}'

/-- Splits off a plain value. A blank between a date and a time belongs to it. -/
def spanPlain (cs : List Char) : List Char × List Char :=
  let (word, rest) := cs.span (!endsPlain ·)
  match rest with
  | ' ' :: c :: more =>
    if afterDate? word = some [] ∧ c.isDigit then
      let (time, rest) := (c :: more).span (!endsPlain ·)
      (word ++ ' ' :: time, rest)
    else (word, rest)
  | _ => (word, rest)

def truth? (cs : List Char) : Option Toml :=
  if cs = "true".toList then some (.boolean true)
  else if cs = "false".toList then some (.boolean false)
  else none

/-- The value of a plain text. -/
def plain? (cs : List Char) : Option Toml :=
  (truth? cs).or ((integer? cs).or ((float? cs).or (moment? cs)))

end CodeProfile.Toml
