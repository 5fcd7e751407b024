import CodeProfile.Text.Basic

/-!
# Texts of bounded length

A text that is too long for its place is cut between two characters and ends in an ellipsis, so that
it never has more bytes than its budget.
-/

namespace CodeProfile.Text

/-- As many characters from the start as have at most `budget` bytes together. -/
def takeBytes : List Char → Nat → List Char
  | [], _ => []
  | c :: cs, budget => if c.utf8Size ≤ budget then c :: takeBytes cs (budget - c.utf8Size) else []

/-- What a shortened text ends in. -/
def ellipsis : String := "..."

/-- The text with single blanks between its words. -/
def collapse (text : String) : String := join " " (words text)

/-- The collapsed text if it has at most `budget` bytes, and else its start with an ellipsis. -/
def shorten (budget : Nat) (text : String) : String :=
  let cs := (collapse text).toList
  if byteLength cs ≤ budget then String.ofList cs
  else
    String.ofList (dropBlanksRight (takeBytes cs (budget - byteLength ellipsis.toList))) ++ ellipsis

end CodeProfile.Text
