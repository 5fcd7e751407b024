import CodeProfile.Proofs.Session.Coherence

/-!
# A failed analysis is forgotten

A call whose analysis fails takes the pending text and its timer away and
leaves everything else as it was (`call_failed`). What a session
remembers as analysed, or has stored, goes back to a text that has a
result, so it overlooks every text without one (`Grounded.overlooks`).
For a text that is overlooked a request is accepted, and once it has
rested a poll has it analysed anew (`Overlooks.retries`).

The headline is `failure_forgotten`. Keys have to tell the failing text
from the other texts of the run only where it is requested again.
-/

namespace CodeProfile

namespace Session

variable {K R E : Type}

/-- The text that a call would have analysed. -/
def subject? (s : Session K R) : SessionCall → Option String
  | .request _ _ => none
  | .poll _ => s.pending.map (·.2)
  | .analyzeNow text => some text

/-- No key that a session remembers as analysed or has stored is that of
the text. -/
structure Overlooks [DecidableEq K] (a : Analyzer K R E) (s : Session K R) (text : String) :
    Prop where
  analyzed : s.lastAnalyzed ≠ some (a.key text)
  stored : ∀ c ∈ s.cache, c.contains (a.key text) = false

variable [DecidableEq K] {a : Analyzer K R E} {s : Session K R} {texts : Set String} {x : String}

/-- A poll analyses the text: it replies what an analysis at that time
gives, whatever that is. -/
def Retries (a : Analyzer K R E) (s : Session K R) (text : String) (now : Nat) : Prop :=
  ∀ analyze : String → Except E (Option R), (s.poll { a with analyze } now).1 =
    (analyze text).map fun result => if result.isSome then .analyzed else .empty

/-! ## The failing call -/

theorem Analyzes.failed {s' : Session K R} {key : K} {e : E}
    (h : Analyzes a s key x (.error e) s') : a.analyze x = .error e ∧ s' = s := by
  cases h with
  | fails missing result => exact ⟨result, rfl⟩

theorem call_failed {c : SessionCall} {e : E} (h : (s.call a c).1 = .outcome (.error e)) :
    ∃ x, s.subject? c = some x ∧ a.analyze x = .error e ∧ (s.call a c).2 = s.dropPending := by
  obtain ⟨reply, s', heq, hresponds⟩ := exists_responds a s c
  rw [heq] at h ⊢
  cases hresponds with
  | @due key x now reply _ queued rested ends =>
      obtain rfl := SessionReply.outcome.inj h
      obtain ⟨hfails, hstate⟩ := ends.failed
      refine ⟨x, ?_, hfails, hstate⟩
      rw [subject?, queued, Option.map_some]
  | @atOnce x reply _ ends =>
      obtain rfl := SessionReply.outcome.inj h
      obtain ⟨hfails, hstate⟩ := ends.failed
      exact ⟨x, rfl, hfails, hstate⟩
  | _ => cases h

/-! ## Texts without a result -/

theorem Grounded.overlooks (h : Grounded a texts s)
    (hown : ∀ y ∈ texts, a.key y = a.key x → y = x) {e : E} (hfails : a.analyze x = .error e) :
    Overlooks a s x where
  analyzed := by
    intro hlast
    obtain ⟨y, hy, hkey, hresult⟩ := h.analyzed _ hlast
    rw [hown y hy hkey, hfails] at hresult
    cases hresult
  stored := by
    intro c hc
    rw [Cache.contains, List.any_eq_false]
    intro entry hentry hsame
    obtain ⟨y, hy, hkey, hresult⟩ := h.stored c hc entry hentry
    rw [hown y hy (hkey.trans (of_decide_eq_true hsame)), hfails] at hresult
    cases hresult

namespace Overlooks

theorem cached?_eq_none (h : Overlooks a s x) : s.cached? (a.key x) = none := by
  rw [cached?, Option.bind_eq_none_iff]
  intro c hc
  rw [← Option.not_isSome_iff_eq_none, Cache.isSome_get?, h.stored c hc]
  exact Bool.false_ne_true

/-- An analysis of the text does not come from the cache. -/
theorem analyze_eq (h : Overlooks a s x) : (s.analyze a (a.key x) x).1 =
    (a.analyze x).map fun result => if result.isSome then .analyzed else .empty := by
  obtain ⟨reply, s', heq, hends⟩ := exists_analyzes a s (a.key x) x
  rw [heq]
  cases hends with
  | hit found =>
      rw [h.cached?_eq_none] at found
      cases found
  | fails missing result => rw [result]; rfl
  | fresh missing result => rw [result]; rfl
  | blank missing result => rw [result]; rfl

/-- A request for the text is accepted, and the first poll after it has
rested has it analysed. -/
theorem retries (h : Overlooks a s x) (t : Nat) :
    (s.request a x t).1 = true ∧
      ∀ (earlier : List Nat) (now : Nat), (∀ v ∈ earlier, v - t < s.debouncer.delay) →
        s.debouncer.delay ≤ now - t →
          Retries a ((s.request a x t).2.after a (earlier.map .poll)) x now := by
  rw [request_noted h.analyzed]
  refine ⟨rfl, fun earlier now hearlier hnow analyze => ?_⟩
  have hwaits : ∀ v ∈ earlier, (s.debouncer.touch t).isReady v = false := fun v hv =>
    decide_eq_false (Nat.not_le.mpr (hearlier v hv))
  have hdue : (s.debouncer.touch t).isReady now = true := decide_eq_true hnow
  rw [after_polls_of_waiting a rfl hwaits, poll_due rfl hdue]
  have hdropped : Overlooks { a with analyze } (dropPending
      { s with pending := some (a.key x, x), debouncer := s.debouncer.touch t }) x :=
    ⟨h.analyzed, h.stored⟩
  exact hdropped.analyze_eq

end Overlooks

/-! ## After a failure -/

/-- What a run leaves behind after the call that failed to analyse the
text. -/
structure Forgets (a : Analyzer K R E) (settings : CacheSettings) (calls : List SessionCall)
    (failing : SessionCall) (x : String) : Prop where
  cache : (reached a settings (calls ++ [failing])).cache = (reached a settings calls).cache
  lastAnalyzed : (reached a settings (calls ++ [failing])).lastAnalyzed
    = (reached a settings calls).lastAnalyzed
  latest : (reached a settings (calls ++ [failing])).latest = (reached a settings calls).latest
  pending : (reached a settings (calls ++ [failing])).pending = none
  timer : (reached a settings (calls ++ [failing])).debouncer.isPending = false
  idle : ∀ now, (reached a settings (calls ++ [failing])).poll a now
    = (.ok .idle, reached a settings (calls ++ [failing]))
  /-- However the run goes on, the text is not remembered. -/
  overlooked : ∀ later,
    (∀ y ∈ SessionCall.texts (calls ++ failing :: later), a.key y = a.key x → y = x) →
      Overlooks a (reached a settings (calls ++ failing :: later)) x
  /-- However the run goes on, a request for the text is accepted, and a
  poll after the quiet period has it analysed. -/
  retried : ∀ later,
    (∀ y ∈ SessionCall.texts (calls ++ failing :: later), a.key y = a.key x → y = x) → ∀ t,
      ((reached a settings (calls ++ failing :: later)).request a x t).1 = true ∧
      ∀ (earlier : List Nat) (now : Nat), (∀ v ∈ earlier, v - t < settings.debounceMs) →
        settings.debounceMs ≤ now - t →
          Retries a (reached a settings
            (calls ++ failing :: later ++ .request x t :: earlier.map .poll)) x now

/-- A poll or an immediate analysis that reports an error changes nothing
but that no text is pending any more, and it does not stand in the way of
another attempt. -/
theorem failure_forgotten (a : Analyzer K R E) (settings : CacheSettings)
    (calls : List SessionCall) (c : SessionCall) {e : E}
    (hfails : ((reached a settings calls).call a c).1 = .outcome (.error e)) :
    ∃ x, (reached a settings calls).subject? c = some x ∧ a.analyze x = .error e ∧
      Forgets a settings calls c x := by
  obtain ⟨x, hsubject, herror, hstate⟩ := call_failed hfails
  have hreached : reached a settings (calls ++ [c]) = (reached a settings calls).dropPending := by
    rw [reached_concat, hstate]
  have hoverlooks (later : List SessionCall)
      (hown : ∀ y ∈ SessionCall.texts (calls ++ c :: later), a.key y = a.key x → y = x) :
      Overlooks a (reached a settings (calls ++ c :: later)) x :=
    (grounded_reached a settings _).overlooks hown herror
  refine ⟨x, hsubject, herror, ?_⟩
  constructor
  case cache => rw [hreached]; rfl
  case lastAnalyzed => rw [hreached]; rfl
  case latest => rw [hreached]; rfl
  case pending => rw [hreached]; rfl
  case timer => rw [hreached]; rfl
  case idle => rw [hreached]; exact poll_idle rfl
  case overlooked => exact hoverlooks
  case retried =>
    intro later hown t
    obtain ⟨haccepted, hretries⟩ := (hoverlooks later hown).retries t
    refine ⟨haccepted, fun earlier now hearlier hnow => ?_⟩
    rw [← delay_reached a settings (calls ++ c :: later)] at hearlier hnow
    rw [reached_append, after_cons]
    exact hretries earlier now hearlier hnow

/-- A run up to the poll that fails, behind a text with a result. -/
def beforeFailure : List SessionCall := [.request "a" 0, .poll 300, .request "!" 310]

/-- After the failure another text is analysed, and still a request for
the failing text leads to an analysis. -/
theorem failure_forgotten_beforeFailure :
    ((reached counting ⟨true, 1, 300⟩ beforeFailure).call counting (.poll 610)).1
        = .outcome (.error ())
      ∧ Forgets counting ⟨true, 1, 300⟩ beforeFailure (.poll 610) "!"
      ∧ Retries counting (reached counting ⟨true, 1, 300⟩ (beforeFailure ++
          [.poll 610, .analyzeNow "bc", .request "!" 700, .poll 800])) "!" 1000 := by
  obtain ⟨x, hsubject, -, hforgets⟩ :=
    failure_forgotten counting ⟨true, 1, 300⟩ beforeFailure (.poll 610) (e := ()) rfl
  obtain rfl : "!" = x := Option.some.inj hsubject
  have hretried := (hforgets.retried [.analyzeNow "bc"] fun y _ hkey => hkey) 700
  refine ⟨rfl, hforgets, hretried.2 [800] 1000 ?_ (by decide)⟩
  intro v hv
  rw [List.mem_singleton.mp hv]
  decide

end Session

end CodeProfile
