/-!
# A bounded store of results

The store keeps what was admitted last. When it is full, an admission drops the entry that was
admitted first, whether or not it was read since. Storing under a key that is present replaces the
value and is no admission. The values stand apart from the queue that remembers the order of
admission, and every operation changes both.
-/

namespace CodeProfile

/-- Values under keys, and the keys in order of admission. -/
structure Cache (K V : Type) where
  capacity : Nat
  /-- The value of each key. -/
  entries : List (K × V)
  /-- The keys, the one that was admitted first in front. -/
  queue : List K
  deriving Repr

namespace Cache

variable {K V : Type} [DecidableEq K]

/-- An empty store; it has room for at least one entry. -/
def new (capacity : Nat) : Cache K V := ⟨max capacity 1, [], []⟩

def size (c : Cache K V) : Nat := c.entries.length

def isEmpty (c : Cache K V) : Bool := c.entries.isEmpty

def get? (c : Cache K V) (key : K) : Option V := (c.entries.find? (·.1 = key)).map (·.2)

def contains (c : Cache K V) (key : K) : Bool := c.entries.any (·.1 = key)

/-- Puts another value under a key that is present. -/
def replace (c : Cache K V) (key : K) (value : V) : Cache K V :=
  { c with entries := c.entries.map fun (k, v) => if k = key then (k, value) else (k, v) }

/-- Takes keys from the front of the queue and removes their entries while there are too many. -/
def shrink (capacity : Nat) (entries : List (K × V)) : List K → List (K × V) × List K
  | [] => (entries, [])
  | oldest :: queue =>
    if capacity < entries.length then shrink capacity (entries.filter (·.1 ≠ oldest)) queue
    else (entries, oldest :: queue)

/-- Adds an entry under a key that is absent. -/
def append (c : Cache K V) (key : K) (value : V) : Cache K V :=
  let (entries, queue) := shrink c.capacity (c.entries ++ [(key, value)]) (c.queue ++ [key])
  { c with entries, queue }

/-- Stores a value under a key. -/
def insert (c : Cache K V) (key : K) (value : V) : Cache K V :=
  if c.contains key then c.replace key value else c.append key value

def clear (c : Cache K V) : Cache K V := { c with entries := [], queue := [] }

end Cache

end CodeProfile
