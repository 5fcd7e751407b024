import CodeProfile.Toml

/-!
# Tables under construction

A document defines its tables piece by piece, and no table or key may be defined twice. So a table
remembers how it came to be: a header may define a table that is only implied so far, and a dotted
key may put its value into a table that dotted keys have made, to which it may also come by way of
tables that are only implied. A table that is written out as a value is closed.
-/

namespace CodeProfile.Toml

/-- How a table came to be. -/
inductive Origin where
  /-- As a step on the way to another table. -/
  | implied
  /-- By a dotted key. -/
  | dotted
  /-- By a header. -/
  | header
  deriving DecidableEq, Repr

/-- What stands under a key. -/
inductive Tree where
  | value (v : Toml)
  | table (origin : Origin) (fields : List (String × Tree))
  /-- An array of tables, the latest first. -/
  | tables (items : List (List (String × Tree)))
  deriving Inhabited

namespace Tree

abbrev Fields := List (String × Tree)

def find? (key : String) (fields : Fields) : Option Tree := (fields.find? (·.1 == key)).map (·.2)

/-- Puts a value under a key, in its old place if it has one. -/
def put (key : String) (t : Tree) (fields : Fields) : Fields :=
  if fields.any (·.1 == key) then fields.map fun (k, u) => if k == key then (k, t) else (k, u)
  else fields ++ [(key, t)]

/-- Changes the table at the end of a path. Missing tables on the way are implied, and an array of
tables stands for its latest one. -/
def modifyAt (change : Fields → Option Fields) : List String → Fields → Option Fields
  | [], fields => change fields
  | k :: ks, fields =>
    match find? k fields with
    | none => (modifyAt change ks []).map fun sub => put k (.table .implied sub) fields
    | some (.table origin sub) =>
      (modifyAt change ks sub).map fun sub => put k (.table origin sub) fields
    | some (.tables (latest :: others)) =>
      (modifyAt change ks latest).map fun sub => put k (.tables (sub :: others)) fields
    | some _ => none

/-- Defines a table by its header. -/
def define (key : String) (fields : Fields) : Option Fields :=
  match find? key fields with
  | none => some (put key (.table .header []) fields)
  | some (.table .implied sub) => some (put key (.table .header sub) fields)
  | some _ => none

/-- Adds a table to an array of tables. -/
def push (key : String) (fields : Fields) : Option Fields :=
  match find? key fields with
  | none => some (put key (.tables [[]]) fields)
  | some (.tables items) => some (put key (.tables ([] :: items)) fields)
  | some _ => none

/-- Puts a value under a dotted key. Missing tables on the way are made, and none that a header has
defined is entered. The table that holds the value must have been made by dotted keys. -/
def insert (v : Toml) : List String → Fields → Option Fields
  | [], _ => none
  | [k], fields => if (find? k fields).isSome then none else some (put k (.value v) fields)
  | k :: ks, fields =>
    let holdsValue := ks.length = 1
    match find? k fields with
    | none => (insert v ks []).map fun sub => put k (.table .dotted sub) fields
    | some (.table .dotted sub) =>
      (insert v ks sub).map fun sub => put k (.table .dotted sub) fields
    | some (.table .implied sub) =>
      if holdsValue then none
      else (insert v ks sub).map fun sub => put k (.table .implied sub) fields
    | some (.tables (latest :: others)) =>
      if holdsValue then none
      else (insert v ks latest).map fun sub => put k (.tables (sub :: others)) fields
    | some _ => none

/-- Splits off the last key of a path. -/
def splitLast? (path : List String) : Option (List String × String) :=
  path.getLast?.map fun key => (path.dropLast, key)

mutual

/-- The value that a finished tree stands for. -/
def toToml : Tree → Toml
  | value v => v
  | table _ fields => .table (fieldsToToml fields)
  | tables items => .array (tablesToToml items).reverse

/-- The values of several keys. -/
def fieldsToToml : List (String × Tree) → List (String × Toml)
  | [] => []
  | (k, t) :: rest => (k, toToml t) :: fieldsToToml rest

/-- The values of several tables. -/
def tablesToToml : List (List (String × Tree)) → List Toml
  | [] => []
  | fields :: rest => .table (fieldsToToml fields) :: tablesToToml rest

end

end Tree

end CodeProfile.Toml
