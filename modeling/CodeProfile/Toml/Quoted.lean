import CodeProfile.Toml.Plain

/-!
# Quoted strings

Strings in double quotes know escapes; those in single quotes stand as they are written. Three
quotes begin a string that may run over several lines. Each reader gives the characters of the
string and the text after it.
-/

namespace CodeProfile.Toml

/-- Whether a character may stand in a string on one line, or in a comment. -/
def isLineChar (c : Char) : Bool := c == '\t' || (32 ≤ c.toNat && c.toNat != 127)

/-- The character with the code that `count` hexadecimal digits write. -/
def codePoint? (count : Nat) (cs : List Char) : Option (Char × List Char) :=
  let ds := cs.take count
  if ds.length = count ∧ ds.all isHex then
    let n := numeral 16 ds
    if n.isValidChar then some (Char.ofNat n, cs.drop count) else none
  else none

/-- The character that an escape stands for, after its backslash. -/
def escape? : List Char → Option (Char × List Char)
  | 'b' :: cs => some ('\x08', cs)
  | 't' :: cs => some ('\t', cs)
  | 'n' :: cs => some ('\n', cs)
  | 'f' :: cs => some ('\x0c', cs)
  | 'r' :: cs => some ('\r', cs)
  | 'e' :: cs => some ('\x1b', cs)
  | '"' :: cs => some ('"', cs)
  | '\\' :: cs => some ('\\', cs)
  | 'x' :: cs => codePoint? 2 cs
  | 'u' :: cs => codePoint? 4 cs
  | 'U' :: cs => codePoint? 8 cs
  | _ => none

/-- The text after a line end, if one stands there. -/
def afterLineEnd? : List Char → Option (List Char)
  | '\n' :: cs => some cs
  | '\r' :: '\n' :: cs => some cs
  | _ => none

/-- The text after blanks on one line. -/
def dropSpaces (cs : List Char) : List Char := cs.dropWhile fun c => c == ' ' || c == '\t'

/-- The text after blanks and line ends. -/
def dropSpaceLines : Nat → List Char → List Char
  | 0, cs => cs
  | fuel + 1, cs =>
    match afterLineEnd? (dropSpaces cs) with
    | some rest => dropSpaceLines fuel rest
    | none => dropSpaces cs

/-- A string on one line, after its first quote. -/
def line? (quote : Char) : Nat → List Char → Option (List Char × List Char)
  | 0, _ | _, [] => none
  | fuel + 1, c :: cs => do
    if c = quote then return ([], cs)
    if c = '\\' ∧ quote = '"' then
      let (d, rest) ← escape? cs
      let (s, rest) ← line? quote fuel rest
      return (d :: s, rest)
    if !isLineChar c then none
    let (s, rest) ← line? quote fuel cs
    return (c :: s, rest)

/-- The text after the quotes that end a string of several lines: the last three of up to five
quotes end it, those before belong to it. -/
def closing? (quote : Char) (cs : List Char) : Option (List Char × List Char) :=
  let (quotes, rest) := cs.span (· == quote)
  if quotes.length < 3 then none
  else
    let inner := min (quotes.length - 3) 2
    some (List.replicate inner quote, List.replicate (quotes.length - 3 - inner) quote ++ rest)

/-- A string of several lines, after its first line end. Line ends stay as they are written. -/
def lines? (quote : Char) : Nat → List Char → Option (List Char × List Char)
  | 0, _ | _, [] => none
  | fuel + 1, c :: cs => do
    if let some ended := closing? quote (c :: cs) then return ended
    if c = '\\' ∧ quote = '"' then
      match escape? cs with
      | some (d, rest) =>
        let (s, rest) ← lines? quote fuel rest
        return (d :: s, rest)
      | none =>
        let rest ← afterLineEnd? (dropSpaces cs)
        return ← lines? quote fuel (dropSpaceLines rest.length rest)
    if !isLineChar c && (afterLineEnd? (c :: cs)).isNone then none
    let (s, rest) ← lines? quote fuel cs
    return (c :: s, rest)

/-- A string at the start of a text, in the given quotes. -/
def quoted? (quote : Char) (cs : List Char) : Option (List Char × List Char) :=
  if [quote, quote, quote].isPrefixOf cs then
    let body := cs.drop 3
    lines? quote (body.length + 1) ((afterLineEnd? body).getD body)
  else line? quote (cs.length + 1) (cs.drop 1)

/-- A string of one line at the start of a text, as keys have it. -/
def quotedKey? (quote : Char) (cs : List Char) : Option (List Char × List Char) :=
  line? quote (cs.length + 1) (cs.drop 1)

end CodeProfile.Toml
