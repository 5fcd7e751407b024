import CodeProfile.Number.Total
import CodeProfile.Text.Character

/-!
# Pieces of text

Trimming, lines, words and search. All of them are functions on lists of characters, with the
blanks of Unicode; the functions on `String` only convert. A line ends at a line feed, and a
carriage return right before that line feed belongs to the line end.
-/

namespace CodeProfile.Text

/-! ## Lists of characters -/

/-- Without the blanks at the end. -/
def dropBlanksRight (cs : List Char) : List Char := (cs.reverse.dropWhile isBlank).reverse

/-- Without the blanks at both ends. -/
def trimChars (cs : List Char) : List Char := dropBlanksRight (cs.dropWhile isBlank)

/-- The pieces between the characters that satisfy `p`, empty ones included. -/
def splitChars (p : Char → Bool) : List Char → List (List Char)
  | [] => [[]]
  | c :: cs =>
    match splitChars p cs with
    | [] => [[c]]
    | w :: ws => if p c then [] :: w :: ws else (c :: w) :: ws

/-- The pieces between blanks, without the empty ones. -/
def wordsOf (cs : List Char) : List (List Char) := (splitChars isBlank cs).filter (!·.isEmpty)

/-- Without one carriage return at the end. -/
def dropReturn (cs : List Char) : List Char :=
  if cs.getLast? = some '\r' then cs.dropLast else cs

/-- The lines; an empty piece after the last line feed is no line. Only a line that a line feed ends
gives up its carriage return. -/
def linesOf (cs : List Char) : List (List Char) :=
  let pieces := splitChars (· == '\n') cs
  let last := pieces.getLast?.getD []
  pieces.dropLast.map dropReturn ++ (if last.isEmpty then [] else [last])

/-- Whether `needle` occurs in the text. -/
def occursIn (needle : List Char) : List Char → Bool
  | [] => needle.isEmpty
  | c :: cs => needle.isPrefixOf (c :: cs) || occursIn needle cs

/-- What stands before and after the first occurrence of `needle`. -/
def splitAtFirst? (needle : List Char) : List Char → Option (List Char × List Char)
  | [] => if needle.isEmpty then some ([], []) else none
  | c :: cs =>
    if needle.isPrefixOf (c :: cs) then some ([], (c :: cs).drop needle.length)
    else (splitAtFirst? needle cs).map fun (a, b) => (c :: a, b)

/-- How many bytes the characters take in UTF-8. -/
def byteLength (cs : List Char) : Nat := Number.total (cs.map Char.utf8Size)

/-! ## Strings -/

def trim (s : String) : String := String.ofList (trimChars s.toList)

def trimStart (s : String) : String := String.ofList (s.toList.dropWhile isBlank)

def trimEnd (s : String) : String := String.ofList (dropBlanksRight s.toList)

/-- Without the characters at both ends that satisfy `p`. -/
def trimWhere (p : Char → Bool) (s : String) : String :=
  String.ofList ((s.toList.dropWhile p).reverse.dropWhile p).reverse

def isBlankText (s : String) : Bool := s.toList.all isBlank

def lines (s : String) : List String := (linesOf s.toList).map String.ofList

def words (s : String) : List String := (wordsOf s.toList).map String.ofList

def splitWhere (p : Char → Bool) (s : String) : List String :=
  (splitChars p s.toList).map String.ofList

def hasStart (s start : String) : Bool := start.toList.isPrefixOf s.toList

def hasEnd (s tail : String) : Bool := tail.toList.isSuffixOf s.toList

def holds (s needle : String) : Bool := occursIn needle.toList s.toList

/-- The rest after `start`, if the text starts with it. -/
def afterStart? (s start : String) : Option String :=
  if hasStart s start then some (String.ofList (s.toList.drop start.toList.length)) else none

/-- With ASCII letters in lower case. -/
def lowerAscii (s : String) : String := String.ofList (s.toList.map Char.toLower)

/-- Every character replaced by its lower-case form. -/
def lowerCase (s : String) : String := String.ofList (s.toList.flatMap lowerCaseForm)

/-- The texts joined with `separator` between them. -/
def join (separator : String) (parts : List String) : String :=
  String.intercalate separator parts

theorem splitChars_ne_nil (p : Char → Bool) (cs : List Char) : splitChars p cs ≠ [] := by
  cases cs with
  | nil => simp [splitChars]
  | cons c cs => unfold splitChars; split <;> (try split) <;> simp

end CodeProfile.Text
