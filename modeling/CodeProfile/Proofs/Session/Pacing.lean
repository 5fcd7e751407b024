import CodeProfile.Proofs.Session.Coherence

/-!
# When a session analyses

A run is seen from outside as its calls with their replies
(`Session.history`), and the last request that was accepted can be read
off there (`lastNoted`). `Session.Paced` is the invariant that ties this
to the state: a pending text is that of the last accepted request, and
the debouncer counts from its time. Every call keeps it (`Paced.call`).

Two lemmas say what the calls between two polls can do. Calls that
neither request nor analyse leave a waiting session as it is
(`after_of_undisturbed`), and without an accepted request no text becomes
pending (`pending_after_of_unnoted`). The headline is `polls_on_time`.
-/

namespace CodeProfile

/-- Whether a reply tells of an analysis, also if it failed or found its
result in the cache. -/
def SessionReply.isAnalysis {E : Type} : SessionReply E → Bool
  | .accepted _ | .outcome (.ok .idle) | .outcome (.ok (.waiting _)) => false
  | .outcome _ => true

namespace SessionCall

variable {E : Type}

def time? : SessionCall → Option Nat
  | request _ now | poll now => some now
  | analyzeNow _ => none

def isRequest : SessionCall → Bool
  | request _ _ => true
  | _ => false

/-- Time does not go backwards from call to call. -/
def InOrder (calls : List SessionCall) : Prop := (calls.filterMap time?).Pairwise (· ≤ ·)

instance (calls : List SessionCall) : Decidable (InOrder calls) :=
  inferInstanceAs (Decidable (List.Pairwise _ _))

/-- The text and the time of a request that was accepted. -/
def noted? : SessionCall × SessionReply E → Option (String × Nat)
  | (request text now, .accepted true) => some (text, now)
  | _ => none

/-- The last request that was accepted. -/
def lastNoted (events : List (SessionCall × SessionReply E)) : Option (String × Nat) :=
  (events.filterMap noted?).getLast?

/-- The event is neither a request nor an analysis. -/
def Undisturbing (event : SessionCall × SessionReply E) : Prop :=
  event.1.isRequest = false ∧ event.2.isAnalysis = false

theorem lastNoted_cons (event : SessionCall × SessionReply E)
    (events : List (SessionCall × SessionReply E)) :
    lastNoted (event :: events) = (lastNoted events).or (noted? event) := by
  unfold lastNoted
  cases hevent : noted? event with
  | none => rw [List.filterMap_cons_none hevent, Option.or_none]
  | some p =>
      rw [List.filterMap_cons_some hevent, List.getLast?_cons]
      cases (events.filterMap noted?).getLast? <;> rfl

theorem call_of_noted? {event : SessionCall × SessionReply E} {text : String} {t : Nat}
    (h : noted? event = some (text, t)) : event.1 = request text t := by
  obtain ⟨c, reply⟩ := event
  match c, reply, h with
  | request _ _, .accepted true, rfl => rfl

/-- Calls in order are so up to each call, and none is later than it. -/
theorem InOrder.le_of_mem {before after : List SessionCall} {c d : SessionCall} {t now : Nat}
    (h : InOrder (before ++ d :: after)) (hc : c ∈ before) (ht : c.time? = some t)
    (hnow : d.time? = some now) : t ≤ now := by
  rw [InOrder, List.filterMap_append, List.pairwise_append] at h
  refine h.2.2 t (List.mem_filterMap.mpr ⟨c, hc, ht⟩) now ?_
  exact List.mem_filterMap.mpr ⟨d, List.mem_cons_self .., hnow⟩

end SessionCall

theorem Debouncer.isReady_iff_remaining (d : Debouncer) (now : Nat) :
    d.isReady now = true ↔ d.remaining now = some 0 := by
  unfold isReady remaining
  cases d.lastChange with
  | none => simp
  | some changed => simp [Nat.sub_eq_zero_iff_le]

namespace Session

variable {K R E : Type} [DecidableEq K] {a : Analyzer K R E} {s : Session K R}

/-! ## Runs from outside -/

/-- The calls of a run with their replies. -/
def history (a : Analyzer K R E) (s : Session K R) (calls : List SessionCall) :
    List (SessionCall × SessionReply E) :=
  calls.zip ((s.trace a calls).map Prod.fst)

theorem history_cons (a : Analyzer K R E) (s : Session K R) (c : SessionCall)
    (calls : List SessionCall) :
    s.history a (c :: calls) = (c, (s.call a c).1) :: (s.call a c).2.history a calls := rfl

theorem mem_of_lastNoted {calls : List SessionCall} {x : String} {t : Nat}
    (h : SessionCall.lastNoted (s.history a calls) = some (x, t)) : .request x t ∈ calls := by
  obtain ⟨event, hevent, hnoted⟩ := List.mem_filterMap.mp (List.mem_of_getLast? h)
  rw [← SessionCall.call_of_noted? hnoted]
  exact (List.of_mem_zip hevent).1

theorem Analyzes.isAnalysis {s' : Session K R} {key : K} {x : String}
    {reply : Except E PollOutcome} (h : Analyzes a s key x reply s') :
    (SessionReply.outcome reply).isAnalysis = true := by
  cases h <;> rfl

/-! ## The invariant -/

/-- A pending text is that of the last accepted request, and the debouncer
counts from then. -/
def Paced (a : Analyzer K R E) (s : Session K R) (last : Option (String × Nat)) : Prop :=
  ∀ key x, s.pending = some (key, x) →
    key = a.key x ∧ ∃ t, last = some (x, t) ∧ s.debouncer.lastChange = some t

omit [DecidableEq K] in
theorem paced_of_free {last : Option (String × Nat)} (h : s.pending = none) : Paced a s last := by
  intro key x hp
  rw [h] at hp
  cases hp

theorem Paced.call {last : Option (String × Nat)} (h : Paced a s last) (c : SessionCall) :
    Paced a (s.call a c).2 ((SessionCall.noted? (c, (s.call a c).1)).or last) := by
  obtain ⟨reply, s', heq, hresponds⟩ := exists_responds a s c
  rw [heq]
  cases hresponds with
  | ignored now hlast => exact paced_of_free rfl
  | @noted x now hlast =>
      rintro key y ⟨⟩
      exact ⟨rfl, now, rfl, rfl⟩
  | idle now free => exact h
  | waits queued early => exact h
  | due queued rested ends => exact paced_of_free ends.pending_eq.1
  | atOnce ends => exact paced_of_free ends.pending_eq.1

theorem Paced.after {last : Option (String × Nat)} (h : Paced a s last)
    (calls : List SessionCall) :
    Paced a (s.after a calls) ((SessionCall.lastNoted (s.history a calls)).or last) := by
  induction calls generalizing s last with
  | nil => exact h
  | cons c calls ih =>
      rw [history_cons, SessionCall.lastNoted_cons, Option.or_assoc]
      exact ih (h.call c)

theorem paced_reached (a : Analyzer K R E) (settings : CacheSettings) (calls : List SessionCall) :
    Paced a (reached a settings calls)
      (SessionCall.lastNoted ((new settings).history a calls)) := by
  have hnew : Paced a (new settings) none := paced_of_free rfl
  have h := hnew.after calls
  rwa [Option.or_none] at h

/-! ## Calls between two polls -/

theorem after_of_undisturbed {calls : List SessionCall}
    (h : ∀ event ∈ s.history a calls, SessionCall.Undisturbing event) : s.after a calls = s := by
  induction calls generalizing s with
  | nil => rfl
  | cons c calls ih =>
      rw [history_cons, List.forall_mem_cons] at h
      obtain ⟨⟨hrequest, hanalysis⟩, hrest⟩ := h
      have hstep : (s.call a c).2 = s := by
        obtain ⟨reply, s', heq, hresponds⟩ := exists_responds a s c
        rw [heq] at hanalysis ⊢
        cases hresponds with
        | ignored | noted => cases hrequest
        | idle | waits => rfl
        | due _ _ ends | atOnce ends =>
            rw [ends.isAnalysis] at hanalysis
            cases hanalysis
      rw [hstep] at hrest
      rw [after_cons, hstep, ih hrest]

theorem pending_call_of_unnoted {c : SessionCall} (hfree : s.pending = none)
    (h : SessionCall.noted? (c, (s.call a c).1) = none) : (s.call a c).2.pending = none := by
  obtain ⟨reply, s', heq, hresponds⟩ := exists_responds a s c
  rw [heq] at h ⊢
  cases hresponds with
  | ignored now hlast => rfl
  | noted now hlast => cases h
  | idle now free => exact free
  | waits queued early => exact hfree
  | due _ _ ends | atOnce ends => exact ends.pending_eq.1

theorem pending_after_of_unnoted {calls : List SessionCall} (hfree : s.pending = none)
    (h : ∀ event ∈ s.history a calls, SessionCall.noted? event = none) :
    (s.after a calls).pending = none := by
  induction calls generalizing s with
  | nil => exact hfree
  | cons c calls ih =>
      rw [history_cons, List.forall_mem_cons] at h
      exact ih (pending_call_of_unnoted hfree h.1) h.2

/-- An analysis of any kind and a request that is not accepted leave no
text pending. -/
theorem pending_of_settled {c : SessionCall}
    (h : (s.call a c).1.isAnalysis = true ∨ (s.call a c).1 = .accepted false) :
    (s.call a c).2.pending = none := by
  obtain ⟨reply, s', heq, hresponds⟩ := exists_responds a s c
  rw [heq] at h ⊢
  cases hresponds with
  | ignored now hlast => rfl
  | noted now hlast => rcases h with h | h <;> cases h
  | idle now free => exact free
  | waits queued early => rcases h with h | h <;> cases h
  | due _ _ ends | atOnce ends => exact ends.pending_eq.1

/-! ## Polls -/

/-- A poll with a pending text either comes too early, or it analyses the
text of the last accepted request. -/
theorem Paced.poll_cases {x : String} {t now : Nat} (h : Paced a s (some (x, t)))
    (hpending : s.pending.isSome = true) (hle : t ≤ now) :
    s.pending = some (a.key x, x) ∧
      (now < t + s.debouncer.delay ∧
          s.poll a now = (.ok (.waiting (t + s.debouncer.delay - now)), s) ∨
        t + s.debouncer.delay ≤ now ∧ s.poll a now = s.dropPending.analyze a (a.key x) x) := by
  obtain ⟨⟨key, y⟩, hp⟩ := Option.isSome_iff_exists.mp hpending
  obtain ⟨rfl, changed, hlast, hchanged⟩ := h key y hp
  obtain ⟨rfl, rfl⟩ := Prod.mk.inj (Option.some.inj hlast)
  have hready : s.debouncer.isReady now = decide (s.debouncer.delay ≤ now - t) := by
    rw [Debouncer.isReady, hchanged, Option.any_some]
  refine ⟨hp, ?_⟩
  by_cases hrested : s.debouncer.delay ≤ now - t
  · refine .inr ⟨by omega, poll_due hp ?_⟩
    rw [hready, decide_eq_true hrested]
  · refine .inl ⟨by omega, ?_⟩
    have hremaining : (s.debouncer.remaining now).getD 0 = t + s.debouncer.delay - now := by
      rw [Debouncer.remaining, hchanged, Option.map_some, Option.getD_some]
      omega
    rw [poll_waiting hp (by rw [hready, decide_eq_false hrested]), hremaining]

theorem isAnalysis_analyze (a : Analyzer K R E) (s : Session K R) (key : K) (x : String) :
    (SessionReply.outcome (s.analyze a key x).1).isAnalysis = true := by
  obtain ⟨reply, s', heq, hends⟩ := exists_analyzes a s key x
  rw [heq]
  exact hends.isAnalysis

theorem Paced.isAnalysis_poll_iff {last : Option (String × Nat)} {now : Nat}
    (h : Paced a s last) (hle : ∀ x t, last = some (x, t) → t ≤ now) :
    (SessionReply.outcome (s.poll a now).1).isAnalysis = true ↔
      s.pending.isSome = true ∧ ∃ x t, last = some (x, t) ∧ t + s.debouncer.delay ≤ now := by
  cases hp : s.pending with
  | none =>
      rw [poll_idle hp]
      simp [SessionReply.isAnalysis]
  | some p =>
      obtain ⟨key, x⟩ := p
      obtain ⟨-, t, rfl, -⟩ := h key x hp
      have hcases := (h.poll_cases (by rw [hp]; rfl) (hle x t rfl)).2
      have hdue : (∃ y u, some (x, t) = some (y, u) ∧ u + s.debouncer.delay ≤ now) ↔
          t + s.debouncer.delay ≤ now := by
        simp
      rw [hdue]
      rcases hcases with ⟨hlt, heq⟩ | ⟨hrested, heq⟩
      · rw [heq]
        simp only [SessionReply.isAnalysis, Bool.false_eq_true, Option.isSome_some, true_and,
          false_iff]
        omega
      · rw [heq, isAnalysis_analyze]
        simp [hrested]

/-- A poll that waits changes nothing, and it names the time that is left. -/
theorem Paced.waits {last : Option (String × Nat)} {now d : Nat} (h : Paced a s last)
    (hle : ∀ x t, last = some (x, t) → t ≤ now) (hwaits : (s.poll a now).1 = .ok (.waiting d)) :
    (s.poll a now).2 = s ∧ s.pending.isSome = true ∧
      ∃ x t, last = some (x, t) ∧ now < t + s.debouncer.delay ∧
        d = t + s.debouncer.delay - now := by
  cases hp : s.pending with
  | none =>
      rw [poll_idle hp] at hwaits
      cases hwaits
  | some p =>
      obtain ⟨key, x⟩ := p
      obtain ⟨-, t, rfl, -⟩ := h key x hp
      rcases (h.poll_cases (by rw [hp]; rfl) (hle x t rfl)).2 with ⟨hlt, heq⟩ | ⟨-, heq⟩
      · rw [heq] at hwaits ⊢
        cases hwaits
        exact ⟨rfl, rfl, x, t, rfl, hlt, rfl⟩
      · have hanalysis := isAnalysis_analyze a s.dropPending (a.key x) x
        rw [← heq, hwaits] at hanalysis
        cases hanalysis

/-- From the state in which a poll waited, polls wait until the time that
it named, and no longer. -/
theorem Paced.resumes {last : Option (String × Nat)} {now later d : Nat} (h : Paced a s last)
    (hle : ∀ x t, last = some (x, t) → t ≤ now) (hwaits : (s.poll a now).1 = .ok (.waiting d))
    (hlater : now ≤ later) :
    (later < now + d → (s.poll a later).1 = .ok (.waiting (now + d - later))) ∧
      (now + d ≤ later → (SessionReply.outcome (s.poll a later).1).isAnalysis = true) := by
  obtain ⟨-, hpending, x, t, rfl, hlt, rfl⟩ := h.waits hle hwaits
  have hend : now + (t + s.debouncer.delay - now) = t + s.debouncer.delay := by omega
  rw [hend]
  rcases (h.poll_cases hpending ((hle x t rfl).trans hlater)).2 with ⟨hearly, heq⟩ | ⟨hrested, heq⟩
  · refine ⟨fun _ => by rw [heq], fun hrested => ?_⟩
    omega
  · refine ⟨fun hearly => ?_, fun _ => by rw [heq]; exact isAnalysis_analyze ..⟩
    omega

/-- The polls of a run come to analyses when they should. -/
structure Punctual (a : Analyzer K R E) (settings : CacheSettings) (calls : List SessionCall) :
    Prop where
  /-- A poll analyses exactly if a text is pending and the delay has passed
  since the last accepted request. -/
  due : ∀ before now after, calls = before ++ .poll now :: after →
    (((reached a settings before).call a (.poll now)).1.isAnalysis = true ↔
      (reached a settings before).pending.isSome = true ∧
      ∃ x t, SessionCall.lastNoted ((new settings).history a before) = some (x, t) ∧
        t + settings.debounceMs ≤ now)
  /-- What it analyses is the text of that request. -/
  newest : ∀ before now after, calls = before ++ .poll now :: after →
    ((reached a settings before).call a (.poll now)).1.isAnalysis = true →
      ∃ x t, SessionCall.lastNoted ((new settings).history a before) = some (x, t) ∧
        (reached a settings before).poll a now =
          (reached a settings before).dropPending.analyze a (a.key x) x
  /-- What was requested is analysed at most once: after an analysis, or a
  request that was not accepted, polls find nothing to do until another
  request is accepted. -/
  once : ∀ before c between now after, calls = before ++ c :: (between ++ .poll now :: after) →
    (((reached a settings before).call a c).1.isAnalysis = true ∨
      ((reached a settings before).call a c).1 = .accepted false) →
    (∀ event ∈ (reached a settings (before ++ [c])).history a between,
      SessionCall.noted? event = none) →
    (reached a settings (before ++ c :: between)).poll a now =
      (.ok .idle, reached a settings (before ++ c :: between))
  /-- A poll that waits has still to wait. -/
  waits : ∀ before now after d, calls = before ++ .poll now :: after →
    ((reached a settings before).poll a now).1 = .ok (.waiting d) → 0 < d
  /-- After a poll that waits, and as long as nothing is requested or
  analysed, polls wait until the time that it named, and no longer. -/
  resumes : ∀ before now between later after d,
    calls = before ++ .poll now :: (between ++ .poll later :: after) →
    ((reached a settings before).poll a now).1 = .ok (.waiting d) →
    (∀ event ∈ (reached a settings (before ++ [.poll now])).history a between,
      SessionCall.Undisturbing event) →
    (later < now + d → ((reached a settings (before ++ .poll now :: between)).poll a later).1
      = .ok (.waiting (now + d - later))) ∧
    (now + d ≤ later → ((reached a settings (before ++ .poll now :: between)).call a
      (.poll later)).1.isAnalysis = true)

theorem le_of_lastNoted {before after : List SessionCall} {now : Nat}
    (h : SessionCall.InOrder (before ++ .poll now :: after)) (x : String) (t : Nat)
    (hlast : SessionCall.lastNoted (s.history a before) = some (x, t)) : t ≤ now :=
  h.le_of_mem (mem_of_lastNoted hlast) rfl rfl

/-- Polls analyse what was requested last once it has rested, at most once
for each request, and they say exactly how long it has still to rest. -/
theorem polls_on_time (a : Analyzer K R E) (settings : CacheSettings) (calls : List SessionCall)
    (h : SessionCall.InOrder calls) :
    Punctual a settings calls ∧
      ∀ (d : Debouncer) (now : Nat), d.isReady now = true ↔ d.remaining now = some 0 := by
  refine ⟨?_, Debouncer.isReady_iff_remaining⟩
  constructor
  case due =>
    rintro before now after rfl
    rw [← delay_reached a settings before]
    exact (paced_reached a settings before).isAnalysis_poll_iff (le_of_lastNoted h)
  case newest =>
    rintro before now after rfl hanalysis
    have hpaced := paced_reached a settings before
    obtain ⟨hpending, x, t, hlast, hrested⟩ :=
      (hpaced.isAnalysis_poll_iff (le_of_lastNoted h)).mp hanalysis
    rw [hlast] at hpaced
    have hle : t ≤ now := le_of_lastNoted h x t hlast
    rcases (hpaced.poll_cases hpending hle).2 with ⟨hlt, -⟩ | ⟨-, heq⟩
    · omega
    · exact ⟨x, t, hlast, heq⟩
  case once =>
    rintro before c between now after rfl hsettled hunnoted
    rw [reached_concat] at hunnoted
    rw [reached_append, after_cons]
    exact poll_idle (pending_after_of_unnoted (pending_of_settled hsettled) hunnoted) now
  case waits =>
    rintro before now after d rfl hwaits
    obtain ⟨-, -, x, t, -, hlt, rfl⟩ :=
      (paced_reached a settings before).waits (le_of_lastNoted h) hwaits
    omega
  case resumes =>
    rintro before now between later after d rfl hwaits hquiet
    have hpaced := paced_reached a settings before
    have hle := le_of_lastNoted (a := a) (s := new settings) h
    have hlater : now ≤ later := by
      rw [← List.cons_append, ← List.append_assoc] at h
      exact h.le_of_mem (List.mem_append_right _ (List.mem_cons_self ..)) rfl rfl
    have hstate : reached a settings (before ++ .poll now :: between)
        = reached a settings before := by
      have hstep : ((reached a settings before).call a (.poll now)).2 = reached a settings before :=
        (hpaced.waits hle hwaits).1
      rw [reached_concat, hstep] at hquiet
      rw [reached_append, after_cons, hstep, after_of_undisturbed hquiet]
    rw [hstate]
    exact hpaced.resumes hle hwaits hlater

/-- A run with polls that wait, a request that starts the wait anew, one
that is not accepted, and two polls at the time when the text has rested. -/
def pacedRun : List SessionCall :=
  [.request "a" 0, .poll 100, .request "bc" 200, .poll 300, .poll 400, .poll 500, .poll 500,
    .request "bc" 600, .poll 900]

theorem polls_on_time_pacedRun :
    SessionCall.InOrder pacedRun ∧ Punctual counting ⟨true, 1, 300⟩ pacedRun :=
  ⟨by decide, (polls_on_time counting ⟨true, 1, 300⟩ pacedRun (by decide)).1⟩

end Session

end CodeProfile
