import CodeProfile.Text.Basic

/-!
# Byte offsets

Places in a text given as numbers of UTF-8 bytes. Only an offset between two characters is a place,
so cutting at an offset either gives back text or fails. `positionAt` turns an offset into a row and
a column, both from zero: it looks the row up among the offsets at which lines start, by halving,
and the column is the distance from there.
-/

namespace CodeProfile

/-- A row and a column, both from zero, the column in bytes. -/
structure Position where
  row : Nat
  column : Nat
  deriving DecidableEq, Repr, Inhabited

namespace Text

/-- The text before an offset and the text after it, if the offset stands between two characters. -/
def splitAtByte? : List Char → Nat → Option (List Char × List Char)
  | cs, 0 => some ([], cs)
  | [], _ + 1 => none
  | c :: cs, n + 1 =>
    if c.utf8Size ≤ n + 1 then
      (splitAtByte? cs (n + 1 - c.utf8Size)).map fun (a, b) => (c :: a, b)
    else none

/-- The text between two offsets. -/
def slice? (cs : List Char) (start stop : Nat) : Option (List Char) := do
  if stop < start then none
  let (_, rest) ← splitAtByte? cs start
  let (piece, _) ← splitAtByte? rest (stop - start)
  return piece

theorem splitAtByte?_append {cs before after : List Char} {n : Nat}
    (h : splitAtByte? cs n = some (before, after)) : before ++ after = cs := by
  fun_induction splitAtByte? cs n generalizing before with
  | case1 => simp_all
  | case2 => simp at h
  | case3 c cs n hc ih =>
    obtain ⟨⟨a, b⟩, hab, heq⟩ := Option.map_eq_some_iff.1 h
    cases heq
    simp [ih hab]
  | case4 => simp at h

theorem byteLength_of_splitAtByte? {cs before after : List Char} {n : Nat}
    (h : splitAtByte? cs n = some (before, after)) : byteLength before = n := by
  fun_induction splitAtByte? cs n generalizing before with
  | case1 => simp_all [byteLength]
  | case2 => simp at h
  | case3 c cs n hc ih =>
    obtain ⟨⟨a, b⟩, hab, heq⟩ := Option.map_eq_some_iff.1 h
    cases heq
    have := ih hab
    simp only [byteLength, List.map_cons, Number.total_cons] at this ⊢
    omega
  | case4 => simp at h

/-! ## Positions -/

/-- Halves the `size` elements from `base` on while there are several: it goes on from the middle
one if that satisfies `p`, and before it otherwise. `fuel` bounds how often. -/
def narrow {α : Type} (xs : Array α) (p : α → Bool) : Nat → Nat → Nat → Nat
  | 0, base, _ => base
  | fuel + 1, base, size =>
    if size ≤ 1 then base
    else
      let half := size / 2
      let mid := base + half
      narrow xs p fuel (if xs[mid]?.any p then mid else base) (size - half)

/-- How many elements satisfy `p`, if those that do stand in front of all others. -/
def partitionPoint {α : Type} (xs : Array α) (p : α → Bool) : Nat :=
  let base := narrow xs p xs.size 0 xs.size
  if xs[base]?.any p then base + 1 else base

/-- The offsets right behind the line feeds of a text that starts at an offset. -/
def behindFeeds : Nat → List Char → List Nat
  | _, [] => []
  | offset, c :: cs =>
    let next := offset + c.utf8Size
    if c = '\n' then next :: behindFeeds next cs else behindFeeds next cs

/-- The offsets at which the lines of a text start. -/
def lineStarts (cs : List Char) : Array Nat := (0 :: behindFeeds 0 cs).toArray

/-- The position at an offset: its line is the last one that does not start behind it. -/
def positionAt (cs : List Char) (offset : Nat) : Position :=
  let starts := lineStarts cs
  let row := partitionPoint starts (· ≤ offset) - 1
  ⟨row, offset - starts.getD row 0⟩

end Text

end CodeProfile
