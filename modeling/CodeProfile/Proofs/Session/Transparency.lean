import CodeProfile.Proofs.Session.Coherence
import Mathlib.Data.List.Forall2

/-!
# The cache does not show

A session with a cache and one without run side by side. `Twins` says
that they agree in all but the cache, and every call keeps it
(`Twins.call`): what the one session takes from its cache, the other
analyses anew, and the invariant of the first (`Session.Grounded`) says
that both come to the same result. So the two give the same replies,
except that one says it has analysed a text where the other had the
result at hand, and they show the same result after every call.

The headline is `cache_transparent`. How many results the cache can keep
and which of them it has dropped does not matter for it.
-/

namespace CodeProfile

/-- The reply of a session with a cache matches that of one without. -/
inductive SessionReply.Matches {E : Type} : SessionReply E → SessionReply E → Prop
  | same (reply : SessionReply E) : Matches reply reply
  /-- What was in the cache was analysed anew without one. -/
  | cached : Matches (.outcome (.ok .cached)) (.outcome (.ok .analyzed))

namespace Session

variable {K R E : Type}

/-- The sessions agree in all but the cache, which the second does not
have. -/
structure Twins (s plain : Session K R) : Prop where
  uncached : plain.cache = none
  pending : s.pending = plain.pending
  debouncer : s.debouncer = plain.debouncer
  lastAnalyzed : s.lastAnalyzed = plain.lastAnalyzed
  latest : s.latest = plain.latest

variable {a : Analyzer K R E} {s plain : Session K R} {texts : Set String} {x : String}

namespace Twins

theorem new (capacity delay : Nat) :
    Twins (Session.new ⟨true, capacity, delay⟩ : Session K R)
      (Session.new ⟨false, capacity, delay⟩) :=
  ⟨rfl, rfl, rfl, rfl, rfl⟩

theorem dropPending (h : Twins s plain) : Twins s.dropPending plain.dropPending where
  uncached := h.uncached
  pending := rfl
  debouncer := congrArg Debouncer.cancel h.debouncer
  lastAnalyzed := h.lastAnalyzed
  latest := h.latest

variable [DecidableEq K]

/-- Both sessions analyse a text to the same end. -/
theorem analyze (h : Twins s plain) (hg : Grounded a texts s) (hinj : Set.InjOn a.key texts)
    (hx : x ∈ texts) :
    SessionReply.Matches (.outcome (s.analyze a (a.key x) x).1)
        (.outcome (plain.analyze a (a.key x) x).1)
      ∧ Twins (s.analyze a (a.key x) x).2 (plain.analyze a (a.key x) x).2 := by
  have hmissing : plain.cached? (a.key x) = none := by
    unfold cached?
    rw [h.uncached]
    rfl
  have hkept (r : R) : (plain.keep (a.key x) r).cache = none := by
    unfold keep
    rw [h.uncached]
    rfl
  obtain ⟨reply, s', heq, hends⟩ := exists_analyzes a s (a.key x) x
  rw [heq]
  cases hends with
  | @hit r found =>
      rw [(Analyzes.fresh hmissing (hg.analyze_of_cached hinj hx found)).eq]
      exact ⟨.cached, hkept r, h.pending, h.debouncer, rfl, rfl⟩
  | fails missing result =>
      rw [(Analyzes.fails hmissing result).eq]
      exact ⟨.same _, h⟩
  | @fresh r missing result =>
      rw [(Analyzes.fresh hmissing result).eq]
      exact ⟨.same _, hkept r, h.pending, h.debouncer, rfl, rfl⟩
  | blank missing result =>
      rw [(Analyzes.blank hmissing result).eq]
      exact ⟨.same _, h.uncached, h.pending, h.debouncer, rfl, rfl⟩

theorem request (h : Twins s plain) (a : Analyzer K R E) (x : String) (now : Nat) :
    (s.request a x now).1 = (plain.request a x now).1
      ∧ Twins (s.request a x now).2 (plain.request a x now).2 := by
  by_cases hlast : s.lastAnalyzed = some (a.key x)
  · rw [request_ignored hlast, request_ignored (h.lastAnalyzed ▸ hlast)]
    exact ⟨rfl, h.dropPending⟩
  · rw [request_noted hlast, request_noted (h.lastAnalyzed ▸ hlast)]
    have htouch := congrArg (·.touch now) h.debouncer
    exact ⟨rfl, h.uncached, rfl, htouch, h.lastAnalyzed, h.latest⟩

theorem poll (h : Twins s plain) (hg : Grounded a texts s) (hinj : Set.InjOn a.key texts)
    (now : Nat) :
    SessionReply.Matches (.outcome (s.poll a now).1) (.outcome (plain.poll a now).1)
      ∧ Twins (s.poll a now).2 (plain.poll a now).2 := by
  cases hp : s.pending with
  | none =>
      rw [poll_idle hp, poll_idle (h.pending ▸ hp)]
      exact ⟨.same _, h⟩
  | some p =>
      obtain ⟨key, x⟩ := p
      have hp' : plain.pending = some (key, x) := by rw [← h.pending, hp]
      cases hr : s.debouncer.isReady now with
      | false =>
          have hr' : plain.debouncer.isReady now = false := by rw [← h.debouncer, hr]
          rw [poll_waiting hp hr, poll_waiting hp' hr', h.debouncer]
          exact ⟨.same _, h⟩
      | true =>
          have hr' : plain.debouncer.isReady now = true := by rw [← h.debouncer, hr]
          obtain ⟨hx, rfl⟩ := hg.queued key x hp
          rw [poll_due hp hr, poll_due hp' hr']
          exact h.dropPending.analyze hg.dropPending hinj hx

theorem call (h : Twins s plain) (hg : Grounded a texts s) (hinj : Set.InjOn a.key texts)
    (c : SessionCall) (hc : ∀ x, c.text? = some x → x ∈ texts) :
    SessionReply.Matches (s.call a c).1 (plain.call a c).1
      ∧ Twins (s.call a c).2 (plain.call a c).2 := by
  cases c with
  | request x now =>
      obtain ⟨hreply, htwins⟩ := h.request a x now
      refine ⟨?_, htwins⟩
      show SessionReply.Matches (.accepted (s.request a x now).1) (.accepted _)
      rw [hreply]
      exact .same _
  | poll now => exact h.poll hg hinj now
  | analyzeNow x => exact h.dropPending.analyze hg.dropPending hinj (hc x rfl)

end Twins

/-! ## Side by side -/

/-- After one call the two sessions have replied alike and show the same
result. -/
def LooksAlike (step plainStep : SessionReply E × Session K R) : Prop :=
  SessionReply.Matches step.1 plainStep.1 ∧ step.2.latest = plainStep.2.latest

theorem map_latest_of_looksAlike {steps plainSteps : List (SessionReply E × Session K R)}
    (h : List.Forall₂ LooksAlike steps plainSteps) :
    steps.map (·.2.latest) = plainSteps.map (·.2.latest) := by
  induction h with
  | nil => rfl
  | cons hstep _ ih => rw [List.map_cons, List.map_cons, hstep.2, ih]

variable [DecidableEq K]

theorem Twins.trace (h : Twins s plain) (hg : Grounded a texts s) (hinj : Set.InjOn a.key texts)
    (calls : List SessionCall) (hc : SessionCall.texts calls ⊆ texts) :
    List.Forall₂ LooksAlike (s.trace a calls) (plain.trace a calls) := by
  induction calls generalizing s plain with
  | nil => exact .nil
  | cons c calls ih =>
      rw [SessionCall.texts_cons, Set.union_subset_iff] at hc
      have hcall : ∀ x, c.text? = some x → x ∈ texts := fun x hx => hc.1 hx
      obtain ⟨hreply, htwins⟩ := h.call hg hinj c hcall
      exact .cons ⟨hreply, htwins.latest⟩ (ih htwins (hg.call c hcall) hc.2)

/-- At every step of a run a session with a cache looks like one without,
and its latest result does not depend on the capacity of the cache. -/
theorem cache_transparent (a : Analyzer K R E) (capacity delay : Nat) (calls : List SessionCall)
    (hinj : Set.InjOn a.key (SessionCall.texts calls)) :
    List.Forall₂ LooksAlike ((new ⟨true, capacity, delay⟩).trace a calls)
        ((new ⟨false, capacity, delay⟩).trace a calls)
      ∧ ∀ other, ((new ⟨true, capacity, delay⟩).trace a calls).map (·.2.latest)
        = ((new ⟨true, other, delay⟩).trace a calls).map (·.2.latest) := by
  have halike (capacity : Nat) : List.Forall₂ LooksAlike
      ((new ⟨true, capacity, delay⟩ : Session K R).trace a calls)
      ((new ⟨false, capacity, delay⟩).trace a calls) :=
    (Twins.new capacity delay).trace (Grounded.new a _ _) hinj calls (Set.Subset.refl _)
  refine ⟨halike capacity, fun other => ?_⟩
  exact (map_latest_of_looksAlike (halike capacity)).trans
    (map_latest_of_looksAlike (halike other)).symm

/-- A run in which a result is dropped from a cache of one, analysed again
and then found there. -/
def droppedResult : List SessionCall :=
  [.request "a" 0, .poll 300, .analyzeNow "bc", .request "a" 400, .poll 700, .analyzeNow "a"]

theorem cache_transparent_droppedResult :
    Set.InjOn counting.key (SessionCall.texts droppedResult)
      ∧ List.Forall₂ LooksAlike ((new ⟨true, 1, 300⟩).trace counting droppedResult)
        ((new ⟨false, 1, 300⟩).trace counting droppedResult) :=
  ⟨Function.injective_id.injOn,
    (cache_transparent counting 1 300 droppedResult Function.injective_id.injOn).1⟩

end Session

end CodeProfile
