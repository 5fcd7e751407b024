/-!
# Waiting for quiet

A change counts only once nothing has changed for a while. Times are given by the caller, in
milliseconds; should time go backwards, no time has passed.
-/

namespace CodeProfile

/-- Waits until a change has rested for a delay. -/
structure Debouncer where
  delay : Nat
  lastChange : Option Nat
  deriving DecidableEq, Repr

namespace Debouncer

def new (delay : Nat) : Debouncer := ⟨delay, none⟩

/-- Notes a change; the wait begins anew. -/
def touch (d : Debouncer) (now : Nat) : Debouncer := { d with lastChange := some now }

def isPending (d : Debouncer) : Bool := d.lastChange.isSome

/-- Whether a change has rested long enough. -/
def isReady (d : Debouncer) (now : Nat) : Bool :=
  d.lastChange.any fun changed => d.delay ≤ now - changed

/-- Forgets the change. -/
def cancel (d : Debouncer) : Debouncer := { d with lastChange := none }

/-- Takes the change if it has rested long enough. -/
def take (d : Debouncer) (now : Nat) : Bool × Debouncer :=
  if d.isReady now then (true, d.cancel) else (false, d)

/-- How long the change has still to rest. -/
def remaining (d : Debouncer) (now : Nat) : Option Nat :=
  d.lastChange.map fun changed => d.delay - (now - changed)

end Debouncer

end CodeProfile
