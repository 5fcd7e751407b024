import CodeProfile.Proofs.Session.Admission
import CodeProfile.Proofs.Session.Run

/-!
# What a session holds is up to date

`Session.Grounded` is the invariant of a run: everything that a session
remembers goes back to a text that it was given. The pending text is one
of them, the latest result is that of the text analysed last, and every
stored result is that of a text with its key. It holds of a new session
and every call keeps it (`Grounded.call`), whatever the keys are.

When keys tell the texts of a run apart, this says that results are the
right ones (`Session.Coherent`), and that a requested text, once it has
rested, is what the session shows. The headline is `coherent_reached`. A
text whose analysis fails is reported once: the poll after the one that
reports it has nothing to say (`failure_reported_once`).
-/

namespace CodeProfile

namespace Session

variable {K R E : Type} {a : Analyzer K R E} {s : Session K R}
variable {texts : Set String} {text x : String}

/-! ## The invariant -/

/-- Everything that the session remembers goes back to one of the texts. -/
structure Grounded (a : Analyzer K R E) (texts : Set String) (s : Session K R) : Prop where
  timed : s.pending.isSome = s.debouncer.isPending
  queued : ∀ key x, s.pending = some (key, x) → x ∈ texts ∧ key = a.key x
  analyzed : ∀ k ∈ s.lastAnalyzed, ∃ x ∈ texts, a.key x = k ∧ a.analyze x = .ok s.latest
  unanalyzed : s.lastAnalyzed = none → s.latest = none
  stored : ∀ c ∈ s.cache, ∀ e ∈ c.entries,
    ∃ x ∈ texts, a.key x = e.1 ∧ a.analyze x = .ok (some e.2)

namespace Grounded

theorem new (a : Analyzer K R E) (texts : Set String) (settings : CacheSettings) :
    Grounded a texts (Session.new settings) where
  timed := rfl
  queued := by
    intro key x hp
    cases hp
  analyzed := by
    intro k hk
    cases hk
  unanalyzed := fun _ => rfl
  stored := by
    intro c hc e he
    unfold Session.new at hc
    by_cases henabled : settings.enabled = true
    · simp only [henabled, if_true] at hc
      cases hc
      cases he
    · simp only [henabled] at hc
      cases hc

theorem dropPending (h : Grounded a texts s) : Grounded a texts s.dropPending where
  timed := rfl
  queued := by
    intro key x hp
    cases hp
  analyzed := h.analyzed
  unanalyzed := h.unanalyzed
  stored := h.stored

/-- The text that was analysed last has the latest result. -/
theorem analyze_of_last (h : Grounded a texts s) (hinj : Set.InjOn a.key texts) (hx : x ∈ texts)
    (hlast : s.lastAnalyzed = some (a.key x)) : a.analyze x = .ok s.latest := by
  obtain ⟨y, hy, hkey, hres⟩ := h.analyzed (a.key x) hlast
  rwa [hinj hy hx hkey] at hres

/-- What is stored under the key of a text is its result. -/
theorem analyze_of_stored (h : Grounded a texts s) (hinj : Set.InjOn a.key texts) (hx : x ∈ texts)
    {c : Cache K R} (hc : c ∈ s.cache) {r : R} (he : (a.key x, r) ∈ c.entries) :
    a.analyze x = .ok (some r) := by
  obtain ⟨y, hy, hkey, hres⟩ := h.stored c hc _ he
  rwa [hinj hy hx hkey] at hres

variable [DecidableEq K]

theorem stored_cached (h : Grounded a texts s) {key : K} {r : R} (hr : s.cached? key = some r) :
    ∃ x ∈ texts, a.key x = key ∧ a.analyze x = .ok (some r) := by
  obtain ⟨c, hc, hget⟩ := Option.bind_eq_some_iff.mp hr
  exact h.stored c hc _ (Cache.mem_entries_of_get? hget)

theorem keep (h : Grounded a texts s) (hx : text ∈ texts) {r : R}
    (hr : a.analyze text = .ok (some r)) : Grounded a texts (s.keep (a.key text) r) where
  timed := h.timed
  queued := h.queued
  analyzed := by
    rintro k ⟨⟩
    exact ⟨text, hx, rfl, hr⟩
  unanalyzed := by
    intro hnone
    cases hnone
  stored := by
    intro c hc e he
    obtain ⟨c₀, hc₀, rfl⟩ := Option.map_eq_some_iff.mp hc
    rcases Cache.mem_entries_insert he with rfl | ⟨hold, -⟩
    · exact ⟨text, hx, rfl, hr⟩
    · exact h.stored c₀ hc₀ e hold

theorem analyzes (h : Grounded a texts s) (hx : text ∈ texts) {reply : Except E PollOutcome}
    {s' : Session K R} (hends : Analyzes a s (a.key text) text reply s') :
    Grounded a texts s' := by
  cases hends with
  | @hit r found =>
      refine ⟨h.timed, h.queued, ?analyzed, ?unanalyzed, h.stored⟩
      case analyzed =>
        rintro k ⟨⟩
        exact h.stored_cached found
      case unanalyzed =>
        intro hnone
        cases hnone
  | fails missing result => exact h
  | fresh missing result => exact h.keep hx result
  | blank missing result =>
      refine ⟨h.timed, h.queued, ?analyzed, fun _ => rfl, h.stored⟩
      rintro k ⟨⟩
      exact ⟨text, hx, rfl, result⟩

theorem call (h : Grounded a texts s) (c : SessionCall) (hc : ∀ x, c.text? = some x → x ∈ texts) :
    Grounded a texts (s.call a c).2 := by
  obtain ⟨reply, s', heq, hresponds⟩ := exists_responds a s c
  rw [heq]
  cases hresponds with
  | ignored now last => exact h.dropPending
  | @noted x now last =>
      refine ⟨rfl, ?_, h.analyzed, h.unanalyzed, h.stored⟩
      rintro key y ⟨⟩
      exact ⟨hc x rfl, rfl⟩
  | idle now free => exact h
  | waits queued early => exact h
  | due queued rested ends =>
      obtain ⟨hx, rfl⟩ := h.queued _ _ queued
      exact h.dropPending.analyzes hx ends
  | @atOnce x _ _ ends => exact h.dropPending.analyzes (hc x rfl) ends

theorem after (h : Grounded a texts s) (calls : List SessionCall)
    (hc : SessionCall.texts calls ⊆ texts) : Grounded a texts (s.after a calls) := by
  induction calls generalizing s with
  | nil => exact h
  | cons c calls ih =>
      rw [SessionCall.texts_cons, Set.union_subset_iff] at hc
      exact ih (h.call c fun x hx => hc.1 hx) hc.2

/-- What the cache holds for the key of a text is its result. -/
theorem analyze_of_cached (h : Grounded a texts s) (hinj : Set.InjOn a.key texts) (hx : x ∈ texts)
    {r : R} (hr : s.cached? (a.key x) = some r) : a.analyze x = .ok (some r) := by
  obtain ⟨y, hy, hkey, hres⟩ := h.stored_cached hr
  rwa [hinj hy hx hkey] at hres

/-- An analysis reports an error, or the session shows the result. -/
theorem analyze_reports (h : Grounded a texts s) (hinj : Set.InjOn a.key texts) (hx : x ∈ texts) :
    (∃ e, a.analyze x = .error e ∧ (s.analyze a (a.key x) x).1 = .error e)
      ∨ a.analyze x = .ok (s.analyze a (a.key x) x).2.latest := by
  obtain ⟨reply, s', heq, hends⟩ := exists_analyzes a s (a.key x) x
  rw [heq]
  cases hends with
  | hit found => exact Or.inr (h.analyze_of_cached hinj hx found)
  | fails missing result => exact Or.inl ⟨_, result, rfl⟩
  | fresh missing result => exact Or.inr result
  | blank missing result => exact Or.inr result

/-- Once a requested text has rested, the next poll reports an error or
shows the result, and nothing is left to do. -/
theorem request_settles (h : Grounded a texts s) (hinj : Set.InjOn a.key texts) (hx : x ∈ texts)
    {t now : Nat} {earlier : List Nat} (hearlier : ∀ v ∈ earlier, v - t < s.debouncer.delay)
    (hnow : s.debouncer.delay ≤ now - t) :
    ((∃ e, a.analyze x = .error e
        ∧ (((s.request a x t).2.after a (earlier.map .poll)).poll a now).1 = .error e)
      ∨ a.analyze x = .ok (((s.request a x t).2.after a (earlier.map .poll)).poll a now).2.latest)
      ∧ (((s.request a x t).2.after a (earlier.map .poll)).poll a now).2.pending = none := by
  by_cases hlast : s.lastAnalyzed = some (a.key x)
  · rw [request_ignored hlast, after_polls_of_idle a rfl, poll_idle rfl]
    exact ⟨Or.inr (h.analyze_of_last hinj hx hlast), rfl⟩
  · have hwaits : ∀ v ∈ earlier, (s.debouncer.touch t).isReady v = false := by
      intro v hv
      have hlt := hearlier v hv
      exact decide_eq_false (Nat.not_le.mpr hlt)
    have hdue : (s.debouncer.touch t).isReady now = true := decide_eq_true hnow
    rw [request_noted hlast, after_polls_of_waiting a rfl hwaits, poll_due rfl hdue]
    refine ⟨h.dropPending.analyze_reports hinj hx, ?_⟩
    exact (pending_analyze a _ _ _).1

end Grounded

/-! ## Coherence -/

variable [DecidableEq K]

/-- What a run of a new session leaves behind is right for the texts of
the run. -/
structure Coherent (a : Analyzer K R E) (settings : CacheSettings) (calls : List SessionCall) :
    Prop where
  /-- A text is pending exactly while the debouncer has a change to wait for. -/
  timed : (reached a settings calls).pending.isSome
    = (reached a settings calls).debouncer.isPending
  /-- A poll is idle only if no text is pending. -/
  idle : ∀ now, ((reached a settings calls).poll a now).1 = .ok .idle
    ↔ (reached a settings calls).pending = none
  /-- The latest result is that of the text analysed last. -/
  analyzed : ∀ x ∈ SessionCall.texts calls,
    (reached a settings calls).lastAnalyzed = some (a.key x) →
      a.analyze x = .ok (reached a settings calls).latest
  unanalyzed : (reached a settings calls).lastAnalyzed = none →
    (reached a settings calls).latest = none
  /-- What is stored for a text is its result. -/
  stored : ∀ x ∈ SessionCall.texts calls, ∀ c ∈ (reached a settings calls).cache,
    ∀ r, (a.key x, r) ∈ c.entries → a.analyze x = .ok (some r)
  /-- After a request, the first poll at which the delay has passed reports
  an error or shows the result. Polls after it find nothing to do and
  change nothing. -/
  settled : ∀ before x t earlier now later,
    calls = before ++ .request x t :: (earlier ++ now :: later).map .poll →
    (∀ v ∈ earlier, v - t < settings.debounceMs) → settings.debounceMs ≤ now - t →
    ((∃ e, a.analyze x = .error e
        ∧ ((reached a settings (before ++ .request x t :: earlier.map .poll)).poll a now).1
          = .error e)
      ∨ a.analyze x = .ok (reached a settings calls).latest)
    ∧ (reached a settings calls).pending = none
    ∧ reached a settings calls
      = ((reached a settings (before ++ .request x t :: earlier.map .poll)).poll a now).2

theorem grounded_reached (a : Analyzer K R E) (settings : CacheSettings)
    (calls : List SessionCall) :
    Grounded a (SessionCall.texts calls) (reached a settings calls) :=
  (Grounded.new a _ settings).after calls (Set.Subset.refl _)

theorem delay_reached (a : Analyzer K R E) (settings : CacheSettings) (calls : List SessionCall) :
    (reached a settings calls).debouncer.delay = settings.debounceMs :=
  delay_after a (new settings) calls

theorem coherent_reached (a : Analyzer K R E) (settings : CacheSettings)
    (calls : List SessionCall) (hinj : Set.InjOn a.key (SessionCall.texts calls)) :
    Coherent a settings calls := by
  have h := grounded_reached a settings calls
  refine ⟨h.timed, fun now => poll_idle_iff, ?analyzed, h.unanalyzed, ?stored, ?settled⟩
  case analyzed => exact fun x hx hlast => h.analyze_of_last hinj hx hlast
  case stored => exact fun x hx c hc r he => h.analyze_of_stored hinj hx hc he
  case settled =>
    rintro before x t earlier now later rfl hearlier hnow
    have hsub : SessionCall.texts before ⊆ SessionCall.texts
        (before ++ .request x t :: (earlier ++ now :: later).map .poll) :=
      fun y ⟨c, hc, hy⟩ => ⟨c, List.mem_append_left _ hc, hy⟩
    have hx : x ∈ SessionCall.texts
        (before ++ .request x t :: (earlier ++ now :: later).map .poll) :=
      ⟨.request x t, List.mem_append_right _ (List.mem_cons_self ..), rfl⟩
    have hbefore := (Grounded.new a _ settings).after before hsub
    rw [← delay_reached a settings before] at hearlier hnow
    have hsettles := hbefore.request_settles hinj hx hearlier hnow
    have hstate : reached a settings (before ++ .request x t :: earlier.map .poll)
        = ((reached a settings before).request a x t).2.after a (earlier.map .poll) := by
      rw [reached, after_append, after_cons]
      rfl
    have hfinal : reached a settings
          (before ++ .request x t :: (earlier ++ now :: later).map .poll)
        = ((reached a settings (before ++ .request x t :: earlier.map .poll)).poll a now).2 := by
      rw [hstate, List.map_append, List.map_cons, reached, after_append, after_cons, after_append,
        after_cons]
      exact after_polls_of_idle a hsettles.2 later
    rw [hfinal, hstate]
    exact ⟨hsettles.1, hsettles.2, rfl⟩

/-- Texts are their own keys. The analysis of `!` fails, and all others
count characters. -/
def counting : Analyzer String Nat Unit where
  key := id
  analyze x := if x = "!" then .error () else if x = "" then .ok none else .ok (some x.length)

/-- A run in which a pending text is replaced by another. -/
def replacedText : List SessionCall :=
  [.request "a" 0, .poll 300, .request "!" 310, .request "bc" 400, .poll 600, .poll 700]

theorem coherent_replacedText :
    Set.InjOn counting.key (SessionCall.texts replacedText)
      ∧ Coherent counting ⟨true, 1, 300⟩ replacedText :=
  ⟨Function.injective_id.injOn,
    coherent_reached counting ⟨true, 1, 300⟩ replacedText Function.injective_id.injOn⟩

/-- Of two polls after a text whose analysis fails, only the first reports
the error. The second has nothing to report, and no result to show. -/
theorem failure_reported_once :
    Set.InjOn counting.key (SessionCall.texts [.request "!" 0, .poll 300, .poll 400])
      ∧ 0 + 300 ≤ 400
      ∧ ¬ ((∃ e, counting.analyze "!" = .error e
          ∧ ((reached counting ⟨true, 1, 300⟩ [.request "!" 0, .poll 300]).poll counting 400).1
            = .error e)
        ∨ counting.analyze "!"
          = .ok ((reached counting ⟨true, 1, 300⟩
              [.request "!" 0, .poll 300]).poll counting 400).2.latest) := by
  refine ⟨Function.injective_id.injOn, by decide, ?_⟩
  rintro (⟨e, -, hreply⟩ | hresult)
  · cases hreply
  · cases hresult

end Session

end CodeProfile
