import CodeProfile.Text.Pattern

/-!
# The written form of patterns

Reads a pattern from the usual notation: classes in brackets, the classes `\w`, `\d` and `\s`, the
anchors `^`, `$`, `\A` and `\b`, groups, alternatives, and the repetitions `*`, `+` and `?`, each
reluctant when a question mark follows. A character may be written by its number, as in `\x41`. The
flag `(?m)` lets `^` and `$` match at line ends and `(?i:…)` ignores letter case; a flag holds up
to the end of the group in which it stands.
-/

namespace CodeProfile.Text.Pattern

/-- What is left to read, the flags in force and the number of groups opened so far. -/
structure Reader where
  rest : List Char
  multiline : Bool
  anyCase : Bool
  groups : Nat

namespace Reader

def toClass (r : Reader) (negated : Bool) (items : List CharItem) : CharClass :=
  ⟨negated, items, r.anyCase⟩

/-- The class that a letter after a backslash stands for. -/
def classEscape? : Char → Option CharItem
  | 'w' => some (.word false)
  | 'W' => some (.word true)
  | 'd' => some (.digit false)
  | 'D' => some (.digit true)
  | 's' => some (.blank false)
  | 'S' => some (.blank true)
  | _ => none

/-- The anchor that a letter after a backslash stands for. -/
def anchorEscape? : Char → Option Anchor
  | 'b' => some .wordEdge
  | 'B' => some .noWordEdge
  | 'A' => some .textStart
  | 'z' => some .textEnd
  | _ => none

/-- The character that a character after a backslash stands for. -/
def charEscape : Char → Char
  | 'n' => '\n'
  | 't' => '\t'
  | 'r' => '\r'
  | c => c

/-- The value of a hexadecimal digit. -/
def hexValue? (c : Char) : Option Nat :=
  let n := c.toNat
  if c.isDigit then some (n - 48)
  else if 97 ≤ n ∧ n ≤ 102 then some (n - 87)
  else if 65 ≤ n ∧ n ≤ 70 then some (n - 55)
  else none

/-- The text with every character written by its number put as the escaped character itself. -/
def resolveNumbers : List Char → List Char
  | '\\' :: 'x' :: a :: b :: cs =>
    match hexValue? a, hexValue? b with
    | some m, some n => '\\' :: Char.ofNat (16 * m + n) :: resolveNumbers cs
    | _, _ => '\\' :: 'x' :: resolveNumbers (a :: b :: cs)
  | '\\' :: c :: cs => '\\' :: c :: resolveNumbers cs
  | c :: cs => c :: resolveNumbers cs
  | [] => []

/-- The items of a bracketed class up to its closing bracket. -/
def readItems : List Char → List CharItem → Option (List CharItem × List Char)
  | [], _ => none
  | ']' :: cs, acc => some (acc.reverse, cs)
  | '\\' :: c :: '-' :: ']' :: cs, acc =>
    readItems ('-' :: ']' :: cs)
      ((classEscape? c).getD (.range (charEscape c) (charEscape c)) :: acc)
  | '\\' :: c :: '-' :: '\\' :: d :: cs, acc =>
    readItems cs (.range (charEscape c) (charEscape d) :: acc)
  | '\\' :: c :: '-' :: d :: cs, acc => readItems cs (.range (charEscape c) d :: acc)
  | '\\' :: c :: cs, acc =>
    readItems cs ((classEscape? c).getD (.range (charEscape c) (charEscape c)) :: acc)
  | c :: '-' :: d :: cs, acc =>
    if d = ']' then readItems ('-' :: d :: cs) (.range c c :: acc)
    else readItems cs (.range c d :: acc)
  | c :: cs, acc => readItems cs (.range c c :: acc)
termination_by cs => cs.length

/-- A bracketed class after its opening bracket. A closing bracket in first place stands for
itself. -/
def readClass (r : Reader) (cs : List Char) : Option (CharClass × List Char) :=
  let (negated, cs) := match cs with
    | '^' :: cs => (true, cs)
    | cs => (false, cs)
  let (first, cs) := match cs with
    | ']' :: cs => ([CharItem.range ']' ']'], cs)
    | cs => ([], cs)
  (readItems cs first).map fun (items, cs) => (r.toClass negated items, cs)

/-- The repetition of `p` that the next characters ask for. -/
def applyRepeat (p : Pattern) (cs : List Char) : Option (Pattern × List Char) :=
  let withMode : List Char → (Bool → Pattern) → Option (Pattern × List Char) := fun cs make =>
    match cs with
    | '?' :: cs => some (make true, cs)
    | cs => some (make false, cs)
  match cs with
  | '*' :: cs => withMode cs fun lazy => many lazy p
  | '+' :: cs => withMode cs fun lazy => seq p (many lazy p)
  | '?' :: cs => withMode cs fun lazy => if lazy then either empty p else either p empty
  | cs => some (p, cs)

/-- The flags between `(?` and `:` or `)`, laid over those in force. -/
def readFlags (r : Reader) : List Char → Option (Reader × List Char)
  | 'm' :: cs => readFlags { r with multiline := true } cs
  | 'i' :: cs => readFlags { r with anyCase := true } cs
  | cs => some (r, cs)

mutual

/-- Alternatives up to a closing parenthesis or the end. -/
def readEither : Nat → Reader → Option (Pattern × Reader)
  | 0, _ => none
  | fuel + 1, r => do
    let (p, r) ← readSeq fuel r
    match r.rest with
    | '|' :: cs =>
      let (q, r) ← readEither fuel { r with rest := cs }
      return (either p q, r)
    | _ => return (p, r)

/-- A sequence up to a bar, a closing parenthesis or the end. -/
def readSeq : Nat → Reader → Option (Pattern × Reader)
  | 0, _ => none
  | fuel + 1, r =>
    match r.rest with
    | [] | '|' :: _ | ')' :: _ => some (empty, r)
    | _ => do
      let (p, r) ← readAtom fuel r
      let (p, rest) ← applyRepeat p r.rest
      let (q, r) ← readSeq fuel { r with rest }
      return (if q matches empty then p else seq p q, r)

/-- One class, anchor, group or setting of flags. -/
def readAtom : Nat → Reader → Option (Pattern × Reader)
  | 0, _ => none
  | fuel + 1, r =>
    match r.rest with
    | '(' :: '?' :: cs => do
      let (inner, cs) ← readFlags r cs
      match cs with
      | ')' :: cs => return (empty, { inner with rest := cs })
      | ':' :: cs =>
        let (p, after) ← readEither fuel { inner with rest := cs }
        match after.rest with
        | ')' :: cs => return (p, { r with rest := cs, groups := after.groups })
        | _ => none
      | _ => none
    | '(' :: cs => do
      let index := r.groups + 1
      let (p, after) ← readEither fuel { r with rest := cs, groups := index }
      match after.rest with
      | ')' :: cs => return (group index p, { r with rest := cs, groups := after.groups })
      | _ => none
    | '[' :: cs => do
      let (cls, cs) ← readClass r cs
      return (one cls, { r with rest := cs })
    | '.' :: cs => some (one ⟨true, [.range '\n' '\n'], false⟩, { r with rest := cs })
    | '^' :: cs =>
      some (anchor (if r.multiline then .lineStart else .textStart), { r with rest := cs })
    | '$' :: cs =>
      some (anchor (if r.multiline then .lineEnd else .textEnd), { r with rest := cs })
    | '\\' :: c :: cs =>
      let r := { r with rest := cs }
      match anchorEscape? c, classEscape? c with
      | some a, _ => some (anchor a, r)
      | none, some item => some (one (r.toClass false [item]), r)
      | none, none => some (one (r.toClass false [.range (charEscape c) (charEscape c)]), r)
    | c :: cs => some (one (r.toClass false [.range c c]), { r with rest := cs })
    | [] => none

end

end Reader

/-- The pattern that a text denotes, if it denotes one. -/
def ofText? (s : String) : Option Pattern :=
  let cs := Reader.resolveNumbers s.toList
  match Reader.readEither (3 * cs.length + 3) ⟨cs, false, false, 0⟩ with
  | some (p, ⟨[], _, _, _⟩) => some p
  | _ => none

/-- The pattern that a text denotes; a text that denotes none matches nothing. -/
def ofText (s : String) : Pattern := (ofText? s).getD never

/-- The pattern of a text taken literally. -/
def literal (s : String) : Pattern :=
  s.toList.foldr (fun c p => seq (one ⟨false, [.range c c], false⟩) p) empty

end CodeProfile.Text.Pattern
