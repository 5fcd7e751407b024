import CodeProfile.Text.Basic

/-!
# Patterns

A pattern is a regular expression with anchors and groups. `Pattern.ends` lists the places where a
match from a given place may end, in order of preference: an earlier alternative before a later one,
and one more repetition before none unless the repetition is reluctant. The match that counts starts
leftmost and is the first in that list. `Pattern.matches` collects the matches of a text from left
to right without overlaps.
-/

namespace CodeProfile.Text

/-- One member of a class of characters. -/
inductive CharItem where
  | range (first last : Char)
  | word (negated : Bool)
  | digit (negated : Bool)
  | blank (negated : Bool)
  deriving DecidableEq, Repr

/-- A class of characters. -/
structure CharClass where
  negated : Bool
  items : List CharItem
  /-- Whether letter case is ignored. -/
  anyCase : Bool
  deriving DecidableEq, Repr

/-- A condition on a place between two characters. -/
inductive Anchor where
  | textStart
  | textEnd
  | lineStart
  | lineEnd
  | wordEdge
  | noWordEdge
  deriving DecidableEq, Repr

/-- A regular expression. -/
inductive Pattern where
  | empty
  | one (cls : CharClass)
  | anchor (a : Anchor)
  | seq (p q : Pattern)
  | either (p q : Pattern)
  | many (reluctant : Bool) (p : Pattern)
  | group (index : Nat) (p : Pattern)
  deriving Repr, Inhabited

/-- What a group has matched. -/
structure GroupMatch where
  index : Nat
  /-- How many characters stand after the start of the group. -/
  left : Nat
  text : String
  deriving Repr, Inhabited

/-- A place in a text, with what the groups have matched on the way to it. -/
structure Cursor where
  /-- The characters before the place, the nearest first. -/
  before : List Char
  after : List Char
  /-- How many characters stand after the place. -/
  left : Nat
  groups : List GroupMatch
  deriving Repr, Inhabited

/-- A match: what stands before it, the nearest character first, its text and its groups. -/
structure Match where
  before : List Char
  text : String
  groups : List GroupMatch
  deriving Repr, Inhabited

namespace CharItem

def holds (c : Char) : CharItem → Bool
  | range first last => first ≤ c && c ≤ last
  | word negated => isWordChar c != negated
  | digit negated => isDecimalDigit c != negated
  | blank negated => isBlank c != negated

end CharItem

namespace CharClass

/-- The characters that differ from an ASCII letter by case only: besides the two usual forms the
long s and the Kelvin sign. -/
def caseVariants (c : Char) : List Char :=
  [c, c.toLower, c.toUpper] ++ (if c.toNat = 0x17F then ['s', 'S'] else [])
    ++ (if c.toNat = 0x212A then ['k', 'K'] else [])

def holds (cls : CharClass) (c : Char) : Bool :=
  (if cls.anyCase then (caseVariants c).any fun v => cls.items.any (·.holds v)
   else cls.items.any (·.holds c)) != cls.negated

end CharClass

namespace Cursor

/-- The start of a text. -/
def ofChars (cs : List Char) : Cursor := ⟨[], cs, cs.length, []⟩

/-- The next place. -/
def next? (c : Cursor) : Option Cursor :=
  match c.after with
  | [] => none
  | x :: xs => some { c with before := x :: c.before, after := xs, left := c.left - 1 }

def satisfies (c : Cursor) : Anchor → Bool
  | .textStart => c.before.isEmpty
  | .textEnd => c.after.isEmpty
  | .lineStart => c.before.isEmpty || c.before.head? == some '\n'
  | .lineEnd => c.after.isEmpty || c.after.head? == some '\n'
  | .wordEdge => c.before.head?.any isWordChar != c.after.head?.any isWordChar
  | .noWordEdge => c.before.head?.any isWordChar == c.after.head?.any isWordChar

/-- The text from one place to a later one. -/
def textTo (start stop : Cursor) : String :=
  String.ofList (start.after.take (start.left - stop.left))

end Cursor

namespace Pattern

/-- The pattern that matches nothing. -/
def never : Pattern := one ⟨false, [], false⟩

/-- The ends of repeated steps, at most `fuel` of them, each of which must move on; they stand in
front of `rest`, so that no list is copied. -/
def repeatOnto (step : Cursor → List Cursor) (reluctant : Bool) :
    Nat → Cursor → List Cursor → List Cursor
  | 0, c, rest => c :: rest
  | fuel + 1, c, rest =>
    let further := ((step c).filter fun d => d.left < c.left).foldr
      (repeatOnto step reluctant fuel)
    if reluctant then c :: further rest else further (c :: rest)

/-- The ends of repeated steps, at most `fuel` of them, each of which must move on. -/
def repeatEnds (step : Cursor → List Cursor) (reluctant : Bool) (fuel : Nat) (c : Cursor) :
    List Cursor :=
  repeatOnto step reluctant fuel c []

/-- Lists that are put in front one by one stand in front all together. -/
theorem foldr_onto {f : Cursor → List Cursor → List Cursor} {g : Cursor → List Cursor}
    (h : ∀ d rest, f d rest = g d ++ rest) (ds rest : List Cursor) :
    ds.foldr f rest = ds.flatMap g ++ rest := by
  induction ds with
  | nil => rfl
  | cons d ds ih => simp [h, ih]

theorem repeatOnto_eq (step : Cursor → List Cursor) (reluctant : Bool) (fuel : Nat) (c : Cursor)
    (rest : List Cursor) :
    repeatOnto step reluctant fuel c rest = repeatEnds step reluctant fuel c ++ rest := by
  induction fuel generalizing c rest with
  | zero => rfl
  | succ fuel ih =>
    simp only [repeatEnds, repeatOnto, foldr_onto ih]
    split <;> simp

/-- One more repetition comes before none, unless the repetition is reluctant. -/
theorem repeatEnds_succ (step : Cursor → List Cursor) (reluctant : Bool) (fuel : Nat)
    (c : Cursor) :
    repeatEnds step reluctant (fuel + 1) c =
      let further := ((step c).filter fun d => d.left < c.left).flatMap
        (repeatEnds step reluctant fuel)
      if reluctant then c :: further else further ++ [c] := by
  simp only [repeatEnds, repeatOnto]
  simp only [foldr_onto (repeatOnto_eq step reluctant fuel), List.append_nil]

/-- The places where a match from `c` may end, the preferred one first. -/
def ends : Pattern → Cursor → List Cursor
  | empty, c => [c]
  | one cls, c =>
    match c.after with
    | [] => []
    | x :: xs =>
      if cls.holds x then [{ c with before := x :: c.before, after := xs, left := c.left - 1 }]
      else []
  | anchor a, c => if c.satisfies a then [c] else []
  | seq p q, c => (p.ends c).flatMap q.ends
  | either p q, c => p.ends c ++ q.ends c
  | many reluctant p, c => repeatEnds p.ends reluctant c.left c
  | group index p, c =>
    (p.ends c).map fun d => { d with groups := ⟨index, c.left, c.textTo d⟩ :: d.groups }

/-- The leftmost place from `c` on where the pattern matches, with the end of that match. -/
def findFrom (p : Pattern) (c : Cursor) : Nat → Option (Cursor × Cursor)
  | 0 => (p.ends c).head?.map fun d => (c, d)
  | fuel + 1 =>
    match (p.ends c).head? with
    | some d => some (c, d)
    | none =>
      match c.next? with
      | some c' => findFrom p c' fuel
      | none => none

def Match.ofEnds (c d : Cursor) : Match := ⟨c.before, c.textTo d, d.groups⟩

/-- The first match. -/
def find? (p : Pattern) (s : String) : Option Match :=
  let c := Cursor.ofChars s.toList
  (p.findFrom c c.left).map fun (c, d) => Match.ofEnds c d

/-- The matches from `c` on, at most `fuel` of them; an empty match right after another match is
passed over. -/
def matchesFrom (p : Pattern) : Nat → Cursor → Option Nat → List Match
  | 0, _, _ => []
  | fuel + 1, c, lastEnd =>
    match p.findFrom c c.left with
    | none => []
    | some (s, e) =>
      let rest := { e with groups := [] }
      if s.left = e.left ∧ lastEnd = some e.left then
        match rest.next? with
        | none => []
        | some c' => matchesFrom p fuel c' lastEnd
      else Match.ofEnds s e :: matchesFrom p fuel rest (some e.left)

/-- The matches from left to right, none overlapping another. -/
def matchesIn (p : Pattern) (s : String) : List Match :=
  let c := Cursor.ofChars s.toList
  p.matchesFrom (2 * c.left + 2) c none

def isMatch (p : Pattern) (s : String) : Bool := (p.find? s).isSome

def count (p : Pattern) (s : String) : Nat := (p.matchesIn s).length

end Pattern

namespace Match

/-- The group with a number, if it took part in the match. -/
def groupMatch? (m : Match) (index : Nat) : Option GroupMatch := m.groups.find? (·.index = index)

/-- What a group has matched, if it took part in the match. -/
def group? (m : Match) (index : Nat) : Option String := (m.groupMatch? index).map (·.text)

/-- The number of the line on which the match starts, from one. -/
def line (m : Match) : Nat := m.before.count '\n' + 1

/-- How many bytes stand before the match. -/
def offset (m : Match) : Nat := byteLength m.before

end Match

end CodeProfile.Text
