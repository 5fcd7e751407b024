import CodeProfile.Session
import Mathlib.Data.Set.Function

/-!
# Runs of a session

A session is driven by a list of calls: texts are requested, polled for
and analysed at once, in any order and at any times. `Session.after` is
the state that a list of calls leaves, and `Session.trace` also lists
what every call gives back.

What a single analysis does is laid down by `Session.Analyzes`, one
constructor for each way that it can end. A request is ignored or noted
(`request_ignored`, `request_noted`), and a poll is idle, waits, or
analyses the pending text (`poll_idle`, `poll_waiting`, `poll_due`).
`Session.Responds` puts these together for a call of any kind. Everything
about runs is a case analysis over them.
-/

namespace CodeProfile

/-- A call on a session. -/
inductive SessionCall where
  | request (text : String) (now : Nat)
  | poll (now : Nat)
  | analyzeNow (text : String)
  deriving DecidableEq, Repr

/-- What a call on a session gives back. -/
inductive SessionReply (E : Type) where
  /-- Whether the requested text needs to be analysed. -/
  | accepted (needed : Bool)
  | outcome (result : Except E PollOutcome)

namespace SessionCall

/-- The text that a call hands over. -/
def text? : SessionCall → Option String
  | request text _ => some text
  | poll _ => none
  | analyzeNow text => some text

/-- All texts that a list of calls hands over. -/
def texts (calls : List SessionCall) : Set String := {x | ∃ c ∈ calls, c.text? = some x}

theorem texts_cons (c : SessionCall) (calls : List SessionCall) :
    texts (c :: calls) = {x | c.text? = some x} ∪ texts calls := by
  ext x
  simp [texts]

end SessionCall

namespace Session

variable {K R E : Type} [DecidableEq K]

/-- What a call gives back, and the state it leaves. -/
def call (a : Analyzer K R E) (s : Session K R) : SessionCall → SessionReply E × Session K R
  | .request text now => ((s.request a text now).map .accepted id)
  | .poll now => ((s.poll a now).map .outcome id)
  | .analyzeNow text => ((s.analyzeNow a text).map .outcome id)

/-- The state after some calls. -/
def after (a : Analyzer K R E) (s : Session K R) (calls : List SessionCall) : Session K R :=
  calls.foldl (fun s c => (s.call a c).2) s

/-- The state of a new session after some calls. -/
def reached (a : Analyzer K R E) (settings : CacheSettings) (calls : List SessionCall) :
    Session K R :=
  (new settings).after a calls

/-- What every call gives back, with the state it leaves. -/
def trace (a : Analyzer K R E) (s : Session K R) :
    List SessionCall → List (SessionReply E × Session K R)
  | [] => []
  | c :: calls => s.call a c :: (s.call a c).2.trace a calls

theorem after_append (a : Analyzer K R E) (s : Session K R) (calls more : List SessionCall) :
    s.after a (calls ++ more) = (s.after a calls).after a more := List.foldl_append

theorem after_cons (a : Analyzer K R E) (s : Session K R) (c : SessionCall)
    (calls : List SessionCall) : s.after a (c :: calls) = (s.call a c).2.after a calls := rfl

theorem reached_append (a : Analyzer K R E) (settings : CacheSettings)
    (calls more : List SessionCall) :
    reached a settings (calls ++ more) = (reached a settings calls).after a more :=
  after_append a (new settings) calls more

theorem reached_concat (a : Analyzer K R E) (settings : CacheSettings)
    (calls : List SessionCall) (c : SessionCall) :
    reached a settings (calls ++ [c]) = ((reached a settings calls).call a c).2 :=
  reached_append a settings calls [c]

/-! ## What an analysis can do -/

/-- How the analysis of a text can end, and the state it leaves. -/
inductive Analyzes (a : Analyzer K R E) (s : Session K R) (key : K) (text : String) :
    Except E PollOutcome → Session K R → Prop
  | hit {r : R} (found : s.cached? key = some r) :
      Analyzes a s key text (.ok .cached) { s with lastAnalyzed := some key, latest := some r }
  | fails {e : E} (missing : s.cached? key = none) (result : a.analyze text = .error e) :
      Analyzes a s key text (.error e) s
  | fresh {r : R} (missing : s.cached? key = none) (result : a.analyze text = .ok (some r)) :
      Analyzes a s key text (.ok .analyzed) (s.keep key r)
  | blank (missing : s.cached? key = none) (result : a.analyze text = .ok none) :
      Analyzes a s key text (.ok .empty) { s with lastAnalyzed := some key, latest := none }

theorem Analyzes.eq {a : Analyzer K R E} {s s' : Session K R} {key : K} {text : String}
    {reply : Except E PollOutcome} (h : Analyzes a s key text reply s') :
    s.analyze a key text = (reply, s') := by
  cases h with
  | hit found => simp only [analyze, found]
  | fails missing result => simp only [analyze, missing, result]
  | fresh missing result => simp only [analyze, missing, result]
  | blank missing result => simp only [analyze, missing, result]

theorem exists_analyzes (a : Analyzer K R E) (s : Session K R) (key : K) (text : String) :
    ∃ reply s', s.analyze a key text = (reply, s') ∧ Analyzes a s key text reply s' := by
  have hends {reply : Except E PollOutcome} {s' : Session K R}
      (h : Analyzes a s key text reply s') :
      ∃ reply s', s.analyze a key text = (reply, s') ∧ Analyzes a s key text reply s' :=
    ⟨reply, s', h.eq, h⟩
  cases hc : s.cached? key with
  | some r => exact hends (.hit hc)
  | none =>
      cases hr : a.analyze text with
      | error e => exact hends (.fails hc hr)
      | ok result =>
          cases result with
          | some r => exact hends (.fresh hc hr)
          | none => exact hends (.blank hc hr)

/-! ## What a request can do -/

theorem request_ignored {a : Analyzer K R E} {s : Session K R} {text : String}
    (h : s.lastAnalyzed = some (a.key text)) (now : Nat) :
    s.request a text now = (false, s.dropPending) := by
  unfold request
  rw [if_pos h]

theorem request_noted {a : Analyzer K R E} {s : Session K R} {text : String}
    (h : s.lastAnalyzed ≠ some (a.key text)) (now : Nat) :
    s.request a text now = (true,
      { s with pending := some (a.key text, text), debouncer := s.debouncer.touch now }) := by
  unfold request
  rw [if_neg h]

/-! ## What a poll can do -/

theorem poll_idle {a : Analyzer K R E} {s : Session K R} (h : s.pending = none) (now : Nat) :
    s.poll a now = (.ok .idle, s) := by
  simp only [poll, h]

theorem poll_waiting {a : Analyzer K R E} {s : Session K R} {key : K} {text : String} {now : Nat}
    (h : s.pending = some (key, text)) (hr : s.debouncer.isReady now = false) :
    s.poll a now = (.ok (.waiting ((s.debouncer.remaining now).getD 0)), s) := by
  simp only [poll, h, Debouncer.take, hr, Bool.false_eq_true, if_false]

theorem poll_due {a : Analyzer K R E} {s : Session K R} {key : K} {text : String} {now : Nat}
    (h : s.pending = some (key, text)) (hr : s.debouncer.isReady now = true) :
    s.poll a now = s.dropPending.analyze a key text := by
  simp only [poll, h, Debouncer.take, hr, if_true]
  rfl

/-- Only without a pending text a poll is idle. -/
theorem poll_idle_iff {a : Analyzer K R E} {s : Session K R} {now : Nat} :
    (s.poll a now).1 = .ok .idle ↔ s.pending = none := by
  constructor
  · intro hidle
    cases hp : s.pending with
    | none => rfl
    | some p =>
        obtain ⟨key, text⟩ := p
        cases hr : s.debouncer.isReady now with
        | false =>
            rw [poll_waiting hp hr] at hidle
            cases hidle
        | true =>
            obtain ⟨reply, s', heq, hends⟩ := exists_analyzes a s.dropPending key text
            rw [poll_due hp hr, heq] at hidle
            cases hends <;> cases hidle
  · intro hp
    rw [poll_idle hp]

/-! ## What a call can do -/

/-- How a call can be answered, and the state it leaves. -/
inductive Responds (a : Analyzer K R E) (s : Session K R) :
    SessionCall → SessionReply E → Session K R → Prop
  | ignored {text : String} (now : Nat) (last : s.lastAnalyzed = some (a.key text)) :
      Responds a s (.request text now) (.accepted false) s.dropPending
  | noted {text : String} (now : Nat) (last : s.lastAnalyzed ≠ some (a.key text)) :
      Responds a s (.request text now) (.accepted true)
        { s with pending := some (a.key text, text), debouncer := s.debouncer.touch now }
  | idle (now : Nat) (free : s.pending = none) :
      Responds a s (.poll now) (.outcome (.ok .idle)) s
  | waits {key : K} {text : String} {now : Nat} (queued : s.pending = some (key, text))
      (early : s.debouncer.isReady now = false) :
      Responds a s (.poll now)
        (.outcome (.ok (.waiting ((s.debouncer.remaining now).getD 0)))) s
  | due {key : K} {text : String} {now : Nat} {reply : Except E PollOutcome} {s' : Session K R}
      (queued : s.pending = some (key, text)) (rested : s.debouncer.isReady now = true)
      (ends : Analyzes a s.dropPending key text reply s') :
      Responds a s (.poll now) (.outcome reply) s'
  | atOnce {text : String} {reply : Except E PollOutcome} {s' : Session K R}
      (ends : Analyzes a s.dropPending (a.key text) text reply s') :
      Responds a s (.analyzeNow text) (.outcome reply) s'

theorem exists_responds (a : Analyzer K R E) (s : Session K R) (c : SessionCall) :
    ∃ reply s', s.call a c = (reply, s') ∧ Responds a s c reply s' := by
  cases c with
  | request text now =>
      by_cases hlast : s.lastAnalyzed = some (a.key text)
      · refine ⟨_, _, ?_, .ignored now hlast⟩
        rw [call, request_ignored hlast]
        rfl
      · refine ⟨_, _, ?_, .noted now hlast⟩
        rw [call, request_noted hlast]
        rfl
  | poll now =>
      cases hp : s.pending with
      | none =>
          refine ⟨_, _, ?_, .idle now hp⟩
          rw [call, poll_idle hp]
          rfl
      | some p =>
          obtain ⟨key, text⟩ := p
          cases hr : s.debouncer.isReady now with
          | false =>
              refine ⟨_, _, ?_, .waits hp hr⟩
              rw [call, poll_waiting hp hr]
              rfl
          | true =>
              obtain ⟨reply, s', heq, hends⟩ := exists_analyzes a s.dropPending key text
              refine ⟨_, _, ?_, .due hp hr hends⟩
              rw [call, poll_due hp hr, heq]
              rfl
  | analyzeNow text =>
      obtain ⟨reply, s', heq, hends⟩ := exists_analyzes a s.dropPending (a.key text) text
      refine ⟨_, _, ?_, .atOnce hends⟩
      rw [call, analyzeNow, heq]
      rfl

/-! ## What a run leaves alone -/

theorem Analyzes.pending_eq {a : Analyzer K R E} {s s' : Session K R} {key : K} {text : String}
    {reply : Except E PollOutcome} (h : Analyzes a s key text reply s') :
    s'.pending = s.pending ∧ s'.debouncer = s.debouncer := by
  cases h <;> exact ⟨rfl, rfl⟩

theorem pending_analyze (a : Analyzer K R E) (s : Session K R) (key : K) (text : String) :
    (s.analyze a key text).2.pending = s.pending
      ∧ (s.analyze a key text).2.debouncer = s.debouncer := by
  obtain ⟨reply, s', heq, hends⟩ := exists_analyzes a s key text
  rw [heq]
  exact hends.pending_eq

theorem delay_call (a : Analyzer K R E) (s : Session K R) (c : SessionCall) :
    (s.call a c).2.debouncer.delay = s.debouncer.delay := by
  obtain ⟨reply, s', heq, hresponds⟩ := exists_responds a s c
  rw [heq]
  cases hresponds with
  | ignored | noted | idle | waits => rfl
  | due _ _ ends | atOnce ends => rw [ends.pending_eq.2, dropPending, Debouncer.cancel]

theorem delay_after (a : Analyzer K R E) (s : Session K R) (calls : List SessionCall) :
    (s.after a calls).debouncer.delay = s.debouncer.delay := by
  induction calls generalizing s with
  | nil => rfl
  | cons c calls ih => rw [after_cons, ih, delay_call]

/-- Polls without a pending text change nothing. -/
theorem after_polls_of_idle (a : Analyzer K R E) {s : Session K R} (h : s.pending = none)
    (times : List Nat) : s.after a (times.map .poll) = s := by
  induction times with
  | nil => rfl
  | cons now times ih =>
      have hcall : (s.call a (.poll now)).2 = s := congrArg Prod.snd (poll_idle h now)
      rw [List.map_cons, after_cons, hcall, ih]

/-- Polls before the pending text has rested change nothing. -/
theorem after_polls_of_waiting (a : Analyzer K R E) {s : Session K R} {key : K} {text : String}
    (h : s.pending = some (key, text)) {times : List Nat}
    (hr : ∀ now ∈ times, s.debouncer.isReady now = false) : s.after a (times.map .poll) = s := by
  induction times with
  | nil => rfl
  | cons now times ih =>
      have hcall : (s.call a (.poll now)).2 = s :=
        congrArg Prod.snd (poll_waiting h (hr now (List.mem_cons_self ..)))
      rw [List.map_cons, after_cons, hcall]
      exact ih fun v hv => hr v (List.mem_cons_of_mem _ hv)

end Session

end CodeProfile
