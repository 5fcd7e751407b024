import CodeProfile.Signal

/-!
# Behaviour

What a snippet does besides computing, as far as its signals show. Behaviour is read from the text,
so it is known without a tree.
-/

namespace CodeProfile

/-- What the signals in a text say about its behaviour. -/
structure Behavior where
  isDeterministic : Bool
  hasSideEffects : Bool
  hasInputOutput : Bool
  isAsync : Bool
  /-- The signals themselves. -/
  sources : List SignalHit
  deriving DecidableEq, Repr, Inhabited

namespace Behavior

/-- The behaviour that these signals show. -/
def ofHits (hits : List SignalHit) : Behavior :=
  { isDeterministic := !hits.any (·.kind.isNondeterministic)
    hasSideEffects := hits.any (·.kind.isSideEffect)
    hasInputOutput := hits.any (·.kind.isInputOutput)
    isAsync := hits.any (·.kind == .async)
    sources := hits }

/-- Nothing but computing. -/
def pure : Behavior := ofHits []

/-- The behaviour of a text in a language. -/
def ofText (source : String) (l : Language) : Behavior := ofHits (Signal.scan source l)

/-- The labels of the signals of some kinds, in order. -/
def labels (b : Behavior) (test : SignalKind → Bool) : List String :=
  (b.sources.filter (test ·.kind)).map (·.label)

end Behavior

end CodeProfile
