import CodeProfile.Settings.Search

/-!
# Directories as data

The files below one directory, with their texts. Paths are followed step by step, and every step but
the last must lead to a directory.
-/

namespace CodeProfile

/-- What lies below a directory: each path with the text of the file, or nothing for a directory.
The directories on the way to a file exist as well. -/
structure FileTree where
  /-- The names that lead from the root to the directory. -/
  root : List String
  entries : List (List String × Option String)
  deriving Repr

namespace FileTree

/-- The names in a path; empty ones stand for doubled slashes. -/
def names (path : String) : List String := Text.splitWhere (· == '/') path

/-- The tree of files with the given paths. -/
def ofFiles (root : List String) (files : List (String × Option String)) : FileTree :=
  ⟨root, files.map fun (path, text) => (root ++ names path, text)⟩

/-- What lies at a place: the text of a file or, for a directory, nothing. -/
def lookup? (t : FileTree) (place : List String) : Option (Option String) :=
  match t.entries.find? fun (path, text) => path == place && text.isSome with
  | some (_, text) => some text
  | none =>
    if place.isPrefixOf t.root || t.entries.any (place.isPrefixOf ·.1) then some none else none

/-- How long a name in a path may be. -/
def maxNameBytes : Nat := 255

/-- How long a path may be. -/
def maxPathBytes : Nat := 4095

/-- Follows names from a place. -/
def follow (t : FileTree) : List String → List String → Except FileFault (List String)
  | place, [] => .ok place
  | place, name :: names =>
    match t.lookup? place with
    | none => .error .missing
    | some (some _) => .error .notDirectory
    | some none =>
      if name = "" ∨ name = "." then follow t place names
      else if name = ".." then follow t place.dropLast names
      else if maxNameBytes < name.utf8ByteSize then .error .nameTooLong
      else follow t (place ++ [name]) names

/-- The place that a path leads to from a directory. -/
def resolve (t : FileTree) (directory : List String) (path : String) :
    Except FileFault (List String) :=
  if path.toList.contains '\x00' then .error .nulInPath
  else if maxPathBytes < path.utf8ByteSize then .error .nameTooLong
  else
    match path.toList with
    | [] => .error .missing
    | '/' :: _ => t.follow [] (names path)
    | _ => t.follow directory (names path)

/-- Reads the file that a path leads to from a directory. -/
def read (t : FileTree) (directory : List String) : FileReader := fun path => do
  let place ← t.resolve directory path
  match t.lookup? place with
  | none => throw .missing
  | some none => throw .isDirectory
  | some (some text) => return text

/-- The absolute path of a place. -/
def pathOf (place : List String) : String := "/" ++ Text.join "/" place

end FileTree

end CodeProfile
