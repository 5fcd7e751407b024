import CodeProfile.Toml.Quoted
import CodeProfile.Toml.Tree

/-!
# Reading TOML documents

A document is read line by line: headers, keys with values, comments and blank lines. Each reader
gives what it has read and the text after it, or nothing if the text is not well formed. Reading is
bounded by the length of the text; values are nested at most `nestingLimit` deep, and a key has at
most as many parts.
-/

namespace CodeProfile.Toml

/-! ## Keys -/

def isBareKeyChar (c : Char) : Bool := c.isAlphanum || c == '_' || c == '-'

/-- One part of a key. -/
def simpleKey? (cs : List Char) : Option (String × List Char) :=
  match cs with
  | '"' :: _ => (quotedKey? '"' cs).map fun (s, rest) => (String.ofList s, rest)
  | '\'' :: _ => (quotedKey? '\'' cs).map fun (s, rest) => (String.ofList s, rest)
  | _ =>
    let (word, rest) := cs.span isBareKeyChar
    if word.isEmpty then none else some (String.ofList word, rest)

/-- How deep arrays and tables may be nested, and how many parts a key may have. -/
def nestingLimit : Nat := 80

/-- A key of one or more parts with points between them, at most `parts` of them. -/
def keyParts? : Nat → List Char → Option (List String × List Char)
  | 0, _ => none
  | parts + 1, cs => do
    let (first, rest) ← simpleKey? (dropSpaces cs)
    match dropSpaces rest with
    | '.' :: more =>
      let (others, rest) ← keyParts? parts more
      return (first :: others, rest)
    | rest => return ([first], rest)

/-- A key and the text after it. -/
def key? (cs : List Char) : Option (List String × List Char) := keyParts? nestingLimit cs

/-! ## Blanks and comments -/

/-- The text after a comment, if one stands there; nothing if it holds a character that is not
allowed. -/
def afterComment? (cs : List Char) : Option (List Char) :=
  match cs with
  | '#' :: _ =>
    let (comment, rest) := cs.span isLineChar
    if comment.isEmpty then none
    else if rest.isEmpty || (afterLineEnd? rest).isSome then some rest
    else none
  | _ => some cs

/-- The text after blanks, line ends and comments. -/
def dropFiller? : Nat → List Char → Option (List Char)
  | 0, cs => some cs
  | fuel + 1, cs => do
    let rest ← afterComment? (dropSpaces cs)
    match afterLineEnd? rest with
    | some more => dropFiller? fuel more
    | none => return rest

/-! ## Values -/

mutual

/-- A value at the start of a text, with at most `depth` values around one another in it. -/
def value? (depth : Nat) : Nat → List Char → Option (Toml × List Char)
  | 0, _ => none
  | fuel + 1, cs =>
    match cs, depth with
    | '"' :: _, _ => (quoted? '"' cs).map fun (s, rest) => (.string (String.ofList s), rest)
    | '\'' :: _, _ => (quoted? '\'' cs).map fun (s, rest) => (.string (String.ofList s), rest)
    | '[' :: _, 0 | '\x7b' :: _, 0 => none
    | '[' :: rest, depth + 1 =>
      (items? depth fuel rest).map fun (items, rest) => (.array items, rest)
    | '\x7b' :: rest, depth + 1 =>
      (entries? depth fuel [] rest).map fun (fields, rest) =>
        ((Tree.table .header fields).toToml, rest)
    | _, _ =>
      let (word, rest) := spanPlain cs
      (plain? word).map fun v => (v, rest)

/-- The items of an array up to its closing bracket. -/
def items? (depth : Nat) : Nat → List Char → Option (List Toml × List Char)
  | 0, _ => none
  | fuel + 1, cs => do
    match ← dropFiller? cs.length cs with
    | ']' :: rest => return ([], rest)
    | start =>
      let (v, rest) ← value? depth fuel start
      match ← dropFiller? rest.length rest with
      | ',' :: more =>
        let (vs, rest) ← items? depth fuel more
        return (v :: vs, rest)
      | ']' :: rest => return ([v], rest)
      | _ => none

/-- The entries of a table up to its closing brace, after those read before. Between key, equals
sign, value and comma there may be line ends and comments. -/
def entries? (depth : Nat) : Nat → Tree.Fields → List Char → Option (Tree.Fields × List Char)
  | 0, _, _ => none
  | fuel + 1, fields, cs => do
    match ← dropFiller? cs.length cs with
    | '\x7d' :: rest => return (fields, rest)
    | start =>
      let (path, rest) ← key? start
      let rest ← after? '=' (← dropFiller? rest.length rest)
      let (v, rest) ← value? depth fuel (← dropFiller? rest.length rest)
      let fields ← Tree.insert v path fields
      match ← dropFiller? rest.length rest with
      | ',' :: more => entries? depth fuel fields more
      | '\x7d' :: rest => return (fields, rest)
      | _ => none

end

/-! ## Lines -/

/-- A document read so far: its tables and the path of the current one. -/
structure Draft where
  fields : Tree.Fields
  current : List String

namespace Draft

/-- Reads a header, after its opening brackets, and makes its table the current one. -/
def header? (d : Draft) (isArray : Bool) (cs : List Char) : Option (Draft × List Char) := do
  let (path, rest) ← key? cs
  let (parents, key) ← Tree.splitLast? path
  let rest ← after? ']' rest
  let rest ← if isArray then after? ']' rest else some rest
  let add := if isArray then Tree.push key else Tree.define key
  let fields ← Tree.modifyAt add parents d.fields
  return (⟨fields, path⟩, rest)

/-- Reads a key with its value into the current table. -/
def pair? (d : Draft) (cs : List Char) : Option (Draft × List Char) := do
  let (path, rest) ← key? cs
  let rest ← after? '=' rest
  let (v, rest) ← value? nestingLimit (rest.length + 1) (dropSpaces rest)
  let fields ← Tree.modifyAt (Tree.insert v path) d.current d.fields
  return ({ d with fields }, rest)

/-- Reads what stands on one line. -/
def line? (d : Draft) (cs : List Char) : Option (Draft × List Char) :=
  match cs with
  | '[' :: '[' :: rest => d.header? true rest
  | '[' :: rest => d.header? false rest
  | [] | '#' :: _ | '\n' :: _ | '\r' :: _ => some (d, cs)
  | _ => d.pair? cs

/-- Reads all lines. -/
def lines? : Nat → Draft → List Char → Option Draft
  | 0, _, _ => none
  | fuel + 1, d, cs => do
    let (d, rest) ← d.line? (dropSpaces cs)
    match ← afterComment? (dropSpaces rest) with
    | [] => return d
    | rest =>
      let rest ← afterLineEnd? rest
      lines? fuel d rest

end Draft

/-- The table that a document stands for, if it is well formed. A byte order mark at the start is
passed over. -/
def ofText? (text : String) : Option Toml :=
  let cs := match text.toList with
    | '\uFEFF' :: cs => cs
    | cs => cs
  (Draft.lines? (cs.length + 1) ⟨[], []⟩ cs).map fun d => (Tree.table .header d.fields).toToml

end CodeProfile.Toml
