import CodeProfile.Text.Basic

/-!
# Paths

Paths as texts with slashes. Empty segments and single points in the middle of a path do not count,
so the parent of `a/./b` is `a`. Going up ends at the root of an absolute path and at the empty path
of a relative one.
-/

namespace CodeProfile.Path

open Text

/-- What stands in front of the segments: the root, or a point that begins a relative path. -/
def splitHead : List Char → List Char × List Char
  | '/' :: cs => (['/'], cs)
  | ['.'] => (['.'], [])
  | '.' :: '/' :: cs => (['.'], '/' :: cs)
  | cs => ([], cs)

/-- The segments between slashes. -/
def segments (body : List Char) : List (List Char) := splitChars (· == '/') body

/-- Whether a segment leads nowhere. -/
def isIdle (segment : List Char) : Bool := segment == [] || segment == ['.']

/-- Without idle segments at the end. -/
def dropIdle (segments : List (List Char)) : List (List Char) :=
  (segments.reverse.dropWhile isIdle).reverse

/-- The segments with slashes between them. -/
def joinSegments (segments : List (List Char)) : List Char := List.intercalate ['/'] segments

/-- The directory that holds a path. -/
def parent? (path : String) : Option String :=
  let (head, body) := splitHead path.toList
  match dropIdle (segments body) with
  | [] => if head = ['.'] then some "" else none
  | s :: ss => some (String.ofList (head ++ joinSegments (dropIdle (s :: ss).dropLast)))

/-- A path and the directories above it, the nearest first, at most `count` in all. -/
def ancestors : Nat → String → List String
  | 0, _ => []
  | count + 1, path => path :: (parent? path).elim [] (ancestors count)

/-- A path taken from a directory; an absolute path stands for itself. -/
def join (directory path : String) : String :=
  if hasStart path "/" then path
  else if directory == "" || hasEnd directory "/" then directory ++ path
  else directory ++ "/" ++ path

end CodeProfile.Path
