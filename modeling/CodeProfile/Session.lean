import CodeProfile.Session.Cache
import CodeProfile.Session.Debouncer
import CodeProfile.Settings

/-!
# Sessions

A session follows a text that keeps changing. A request notes the newest text; a poll analyses it
once it has rested, or takes the result from the cache if the same text was analysed before. The
text that was analysed last needs no new request. An analysis that fails leaves everything else as
it was.
-/

namespace CodeProfile

/-- How texts are told apart and analysed. -/
structure Analyzer (K R E : Type) where
  key : String → K
  /-- An empty text has no result. -/
  analyze : String → Except E (Option R)

/-- What a poll has done. -/
inductive PollOutcome where
  /-- There was nothing to do. -/
  | idle
  /-- The text has still to rest for this long. -/
  | waiting (remaining : Nat)
  | analyzed
  /-- The result was in the cache. -/
  | cached
  /-- The text was empty, and the latest result is gone. -/
  | empty
  deriving DecidableEq, Repr, Inhabited

/-- The state of a session. -/
structure Session (K R : Type) where
  cache : Option (Cache K R)
  debouncer : Debouncer
  /-- The newest text, if it was not analysed yet. -/
  pending : Option (K × String)
  lastAnalyzed : Option K
  latest : Option R

namespace Session

variable {K R E : Type} [DecidableEq K]

def new (settings : CacheSettings) : Session K R :=
  { cache := if settings.enabled then some (.new settings.capacity) else none
    debouncer := .new settings.debounceMs
    pending := none
    lastAnalyzed := none
    latest := none }

/-- Without a pending text. -/
def dropPending (s : Session K R) : Session K R :=
  { s with pending := none, debouncer := s.debouncer.cancel }

/-- Notes the newest text; says whether it needs to be analysed. -/
def request (a : Analyzer K R E) (s : Session K R) (text : String) (now : Nat) :
    Bool × Session K R :=
  let key := a.key text
  if s.lastAnalyzed = some key then (false, s.dropPending)
  else (true, { s with pending := some (key, text), debouncer := s.debouncer.touch now })

/-- The result that the cache holds for a key. -/
def cached? (s : Session K R) (key : K) : Option R := s.cache.bind (·.get? key)

/-- Keeps a new result. -/
def keep (s : Session K R) (key : K) (result : R) : Session K R :=
  { s with
    cache := s.cache.map (·.insert key result), lastAnalyzed := some key, latest := some result }

/-- Analyses a text, unless the cache holds its result. -/
def analyze (a : Analyzer K R E) (s : Session K R) (key : K) (text : String) :
    Except E PollOutcome × Session K R :=
  match s.cached? key with
  | some r => (.ok .cached, { s with lastAnalyzed := some key, latest := some r })
  | none =>
    match a.analyze text with
    | .error e => (.error e, s)
    | .ok (some r) => (.ok .analyzed, s.keep key r)
    | .ok none => (.ok .empty, { s with lastAnalyzed := some key, latest := none })

/-- Analyses the newest text if it has rested. -/
def poll (a : Analyzer K R E) (s : Session K R) (now : Nat) : Except E PollOutcome × Session K R :=
  match s.pending with
  | none => (.ok .idle, s)
  | some (key, text) =>
    match s.debouncer.take now with
    | (false, _) => (.ok (.waiting ((s.debouncer.remaining now).getD 0)), s)
    | (true, debouncer) => analyze a { s with pending := none, debouncer } key text

/-- Analyses a text at once. -/
def analyzeNow (a : Analyzer K R E) (s : Session K R) (text : String) :
    Except E PollOutcome × Session K R :=
  analyze a s.dropPending (a.key text) text

end Session

end CodeProfile
