import CodeProfile.Profiler

/-!
# How the profiling of a text ends

A run either breaks down at one of its steps or yields a profile.
`BreaksDown` and `Yields` say which results of the steps lead to which
end, and one of the two holds of every run (`breaksDown_or_yields`). A
run that breaks down leaves the context in the phase of the step that did
it (`run_of_breaksDown`), since the guards that the fault unwinds past
bring nothing back. A run that yields a profile leaves the context alone
(`run_of_yields`).

The guard of the label stands outside the place where faults are caught.
It is dropped after the handler has read the phase of the fault, and puts
everything right again (`profileIn_eq`). So the context before a request
is the context after it, and what a request is told does not depend on
the context, nor on the requests before it (`answers_eq`). The headline is
`accounted`.
-/

namespace CodeProfile

open Text

/-! ## Guards and phases -/

namespace InContext

variable {α : Type} {x : InContext α} {change : RunContext → RunContext} {c d : RunContext}
variable {result : α}

/-- A guard that no fault unwinds past brings the context back. -/
theorem guarded_of_stays {unwinds : α → Bool} (hx : x (change c) = (result, d))
    (hstays : unwinds result = false) : guarded unwinds change x c = (result, c) := by
  simp only [guarded, hx, hstays, Bool.false_eq_true, if_false]

/-- A guard that a fault unwinds past leaves the context to the handler. -/
theorem guarded_of_unwinds {unwinds : α → Bool} (hx : x (change c) = (result, d))
    (hunwinds : unwinds result = true) : guarded unwinds change x c = (result, d) := by
  simp only [guarded, hx, hunwinds, if_true]

end InContext

namespace Traced

variable {α β ε : Type} {x : Traced α} {f : α → Traced β} {c d : RunContext} {a : α} {m : String}

theorem inPhase_ok (phase : Phase) (a : α) (c : RunContext) :
    Traced.inPhase phase (.ok a) c = (.ok a, c) :=
  InContext.guarded_of_stays rfl rfl

theorem inPhase_error (phase : Phase) (m : String) (c : RunContext) :
    (Traced.inPhase phase (.error m) : Traced α) c = (.error m, c.inPhase phase) :=
  InContext.guarded_of_unwinds rfl rfl

theorem next_of_ok (h : x c = (.ok a, d)) : x.next f c = f a d := by
  rw [next, h]

theorem next_of_error (h : x c = (.error m, d)) : x.next f c = (.error m, d) := by
  rw [next, h]

theorem inPhase_next_ok (phase : Phase) (a : α) (f : α → Traced β) (c : RunContext) :
    (Traced.inPhase phase (.ok a)).next f c = f a c :=
  next_of_ok (inPhase_ok phase a c)

theorem inPhase_next_error (phase : Phase) (m : String) (f : α → Traced β) (c : RunContext) :
    (Traced.inPhase phase (.error m)).next f c = (.error m, c.inPhase phase) :=
  next_of_error (inPhase_error phase m c)

end Traced

namespace Profiler

/-! ## The ends of a run -/

/-- The text has no tree: its language is not supported, or it does not
parse. -/
def Treeless (p : Profiler) (source : String) (l : Language) : Prop :=
  p.parser.supports l = .ok false
    ∨ p.parser.supports l = .ok true ∧ ∃ e, p.parser.parse source l = .ok (.error e)

/-- The text has this tree. -/
def Parses (p : Profiler) (source : String) (l : Language) (t : SyntaxTree) : Prop :=
  p.parser.supports l = .ok true ∧ p.parser.parse source l = .ok (.ok t)

/-- The step of a phase breaks down with a message, in the analysis of a
tree. The steps before it have given their results. -/
inductive TreeBreaksDown (p : Profiler) (t : SyntaxTree) (l : LanguageReport) :
    Phase → String → Prop where
  | libraries {m} (hfault : p.libraries t = .error m) : TreeBreaksDown p t l .libraryDetection m
  | paradigm {m libraries} (hlibraries : p.libraries t = .ok libraries)
      (hfault : p.paradigm t = .error m) : TreeBreaksDown p t l .paradigmDetection m
  | codeType {m libraries paradigm} (hlibraries : p.libraries t = .ok libraries)
      (hparadigm : p.paradigm t = .ok paradigm) (hfault : p.codeType t libraries = .error m) :
      TreeBreaksDown p t l .codeTypeClassification m
  | complexity {m libraries paradigm codeType} (hlibraries : p.libraries t = .ok libraries)
      (hparadigm : p.paradigm t = .ok paradigm) (hcodeType : p.codeType t libraries = .ok codeType)
      (hfault : p.complexity t = .error m) : TreeBreaksDown p t l .complexityAnalysis m
  | assemble {m libraries paradigm codeType complexity}
      (hlibraries : p.libraries t = .ok libraries) (hparadigm : p.paradigm t = .ok paradigm)
      (hcodeType : p.codeType t libraries = .ok codeType)
      (hcomplexity : p.complexity t = .ok complexity)
      (hfault : p.assemble t ⟨l, libraries, paradigm, codeType, complexity⟩ = .error m) :
      TreeBreaksDown p t l .assembly m

/-- The step of a phase breaks down with a message. -/
inductive BreaksDown (p : Profiler) (source : String) : Phase → String → Prop where
  | detect {m} (hfault : p.detect source = .error m) : BreaksDown p source .languageDetection m
  | supports {m l} (hdetect : p.detect source = .ok l)
      (hfault : p.parser.supports l.language = .error m) : BreaksDown p source .parsing m
  | parse {m l} (hdetect : p.detect source = .ok l)
      (hsupports : p.parser.supports l.language = .ok true)
      (hfault : p.parser.parse source l.language = .error m) : BreaksDown p source .parsing m
  | withoutTree {m l} (hdetect : p.detect source = .ok l)
      (htreeless : p.Treeless source l.language) (hfault : p.withoutTree source l = .error m) :
      BreaksDown p source .assembly m
  | ofTree {m l t phase} (hdetect : p.detect source = .ok l)
      (hparses : p.Parses source l.language t) (hfault : p.TreeBreaksDown t l phase m) :
      BreaksDown p source phase m

/-- All steps for a tree give a result, and the last one gives a profile. -/
def YieldsFromTree (p : Profiler) (t : SyntaxTree) (l : LanguageReport) (r : Profile) : Prop :=
  ∃ libraries paradigm codeType complexity,
    p.libraries t = .ok libraries ∧ p.paradigm t = .ok paradigm
      ∧ p.codeType t libraries = .ok codeType ∧ p.complexity t = .ok complexity
      ∧ p.assemble t ⟨l, libraries, paradigm, codeType, complexity⟩ = .ok r

/-- The steps for a text give a result, and the last one gives a profile
that no tree had a part in. -/
def YieldsWithoutTree (p : Profiler) (source : String) (r : Profile) : Prop :=
  ∃ l, p.detect source = .ok l ∧ p.Treeless source l.language ∧ p.withoutTree source l = .ok r

/-- The steps for a text give a result, and the last one gives a profile
from its tree. -/
def YieldsWithTree (p : Profiler) (source : String) (r : Profile) : Prop :=
  ∃ l t, p.detect source = .ok l ∧ p.Parses source l.language t ∧ p.YieldsFromTree t l r

variable {p : Profiler} {source label : String} {l : LanguageReport} {t : SyntaxTree}
variable {phase phase' : Phase} {m m' : String} {r : Profile} {c : RunContext}

/-! ## Trees -/

theorem tree_of_treeless {l : Language} (h : p.Treeless source l) : p.tree source l = .ok none := by
  rcases h with hunsupported | ⟨hsupported, e, hparse⟩
  · rw [tree, hunsupported]
    rfl
  · rw [tree, hsupported, hparse]
    rfl

theorem tree_of_parses {l : Language} (h : p.Parses source l t) :
    p.tree source l = .ok (some t) := by
  rw [tree, h.1, h.2]
  rfl

/-- A text has no tree, has one, or the parser breaks down over it. -/
theorem treeless_or_parses (p : Profiler) (source : String) (l : Language) :
    p.Treeless source l ∨ (∃ t, p.Parses source l t)
      ∨ (∃ m, p.parser.supports l = .error m)
      ∨ ∃ m, p.parser.supports l = .ok true ∧ p.parser.parse source l = .error m := by
  cases hsupports : p.parser.supports l with
  | error m => exact Or.inr (Or.inr (Or.inl ⟨m, rfl⟩))
  | ok supported =>
      cases supported with
      | false => exact Or.inl (Or.inl hsupports)
      | true =>
          cases hparse : p.parser.parse source l with
          | error m => exact Or.inr (Or.inr (Or.inr ⟨m, rfl, rfl⟩))
          | ok parsed =>
              cases parsed with
              | error e => exact Or.inl (Or.inr ⟨hsupports, e, hparse⟩)
              | ok t => exact Or.inr (Or.inl ⟨t, hsupports, hparse⟩)

/-! ## Runs -/

theorem profileTree_of_breaksDown (h : p.TreeBreaksDown t l phase m) :
    p.profileTree t l c = (.error m, c.inPhase phase) := by
  cases h with
  | libraries hfault => rw [profileTree, hfault, Traced.inPhase_next_error]
  | paradigm hlibraries hfault =>
      rw [profileTree, hlibraries, Traced.inPhase_next_ok, hfault, Traced.inPhase_next_error]
  | codeType hlibraries hparadigm hfault =>
      rw [profileTree, hlibraries, Traced.inPhase_next_ok, hparadigm, Traced.inPhase_next_ok,
        hfault, Traced.inPhase_next_error]
  | complexity hlibraries hparadigm hcodeType hfault =>
      rw [profileTree, hlibraries, Traced.inPhase_next_ok, hparadigm, Traced.inPhase_next_ok,
        hcodeType, Traced.inPhase_next_ok, hfault, Traced.inPhase_next_error]
  | assemble hlibraries hparadigm hcodeType hcomplexity hfault =>
      rw [profileTree, hlibraries, Traced.inPhase_next_ok, hparadigm, Traced.inPhase_next_ok,
        hcodeType, Traced.inPhase_next_ok, hcomplexity, Traced.inPhase_next_ok, hfault,
        Traced.inPhase_error]

theorem profileTree_of_yields (h : p.YieldsFromTree t l r) :
    p.profileTree t l c = (.ok r, c) := by
  obtain ⟨libraries, paradigm, codeType, complexity, hlibraries, hparadigm, hcodeType,
    hcomplexity, hresult⟩ := h
  rw [profileTree, hlibraries, Traced.inPhase_next_ok, hparadigm, Traced.inPhase_next_ok,
    hcodeType, Traced.inPhase_next_ok, hcomplexity, Traced.inPhase_next_ok, hresult,
    Traced.inPhase_ok]

/-- The steps for a tree come to an end, one way or the other. -/
theorem treeBreaksDown_or_yields (p : Profiler) (t : SyntaxTree) (l : LanguageReport) :
    (∃ phase m, p.TreeBreaksDown t l phase m) ∨ ∃ r, p.YieldsFromTree t l r := by
  cases hlibraries : p.libraries t with
  | error m => exact Or.inl ⟨_, m, .libraries hlibraries⟩
  | ok libraries =>
  cases hparadigm : p.paradigm t with
  | error m => exact Or.inl ⟨_, m, .paradigm hlibraries hparadigm⟩
  | ok paradigm =>
  cases hcodeType : p.codeType t libraries with
  | error m => exact Or.inl ⟨_, m, .codeType hlibraries hparadigm hcodeType⟩
  | ok codeType =>
  cases hcomplexity : p.complexity t with
  | error m => exact Or.inl ⟨_, m, .complexity hlibraries hparadigm hcodeType hcomplexity⟩
  | ok complexity =>
  cases hassemble : p.assemble t ⟨l, libraries, paradigm, codeType, complexity⟩ with
  | error m =>
      exact Or.inl ⟨_, m, .assemble hlibraries hparadigm hcodeType hcomplexity hassemble⟩
  | ok r =>
      exact Or.inr ⟨r, libraries, paradigm, codeType, complexity, hlibraries, hparadigm, hcodeType,
        hcomplexity, hassemble⟩

/-- A run that breaks down leaves the context in the phase of the step that
did it. -/
theorem run_of_breaksDown (h : p.BreaksDown source phase m) :
    p.run source c = (.error m, c.inPhase phase) := by
  cases h with
  | detect hfault => rw [run, hfault, Traced.inPhase_next_error]
  | @supports _ l hdetect hfault =>
      have htree : p.tree source l.language = .error m := by
        rw [tree, hfault]
        rfl
      rw [run, hdetect, Traced.inPhase_next_ok, htree, Traced.inPhase_next_error]
  | @parse _ l hdetect hsupports hfault =>
      have htree : p.tree source l.language = .error m := by
        rw [tree, hsupports, hfault]
        rfl
      rw [run, hdetect, Traced.inPhase_next_ok, htree, Traced.inPhase_next_error]
  | withoutTree hdetect htreeless hfault =>
      rw [run, hdetect, Traced.inPhase_next_ok, tree_of_treeless htreeless, Traced.inPhase_next_ok]
      dsimp only
      rw [hfault, Traced.inPhase_error]
  | ofTree hdetect hparses hfault =>
      rw [run, hdetect, Traced.inPhase_next_ok, tree_of_parses hparses, Traced.inPhase_next_ok]
      exact profileTree_of_breaksDown hfault

/-- A run that yields a profile leaves the context alone. -/
theorem run_of_yieldsWithoutTree (h : p.YieldsWithoutTree source r) :
    p.run source c = (.ok r, c) := by
  obtain ⟨l, hdetect, htreeless, hresult⟩ := h
  rw [run, hdetect, Traced.inPhase_next_ok, tree_of_treeless htreeless, Traced.inPhase_next_ok]
  dsimp only
  rw [hresult, Traced.inPhase_ok]

theorem run_of_yieldsWithTree (h : p.YieldsWithTree source r) : p.run source c = (.ok r, c) := by
  obtain ⟨l, t, hdetect, hparses, hresult⟩ := h
  rw [run, hdetect, Traced.inPhase_next_ok, tree_of_parses hparses, Traced.inPhase_next_ok]
  exact profileTree_of_yields hresult

theorem breaksDown_or_yields (p : Profiler) (source : String) :
    (∃ phase m, p.BreaksDown source phase m)
      ∨ ∃ r, p.YieldsWithoutTree source r ∨ p.YieldsWithTree source r := by
  cases hdetect : p.detect source with
  | error m => exact Or.inl ⟨_, m, .detect hdetect⟩
  | ok l =>
  rcases treeless_or_parses p source l.language with htreeless | ⟨t, hparses⟩ | ⟨m, hfault⟩
    | ⟨m, hsupports, hfault⟩
  · cases hresult : p.withoutTree source l with
    | error m => exact Or.inl ⟨_, m, .withoutTree hdetect htreeless hresult⟩
    | ok r => exact Or.inr ⟨r, Or.inl ⟨l, hdetect, htreeless, hresult⟩⟩
  · rcases treeBreaksDown_or_yields p t l with ⟨phase, m, hfault⟩ | ⟨r, hresult⟩
    · exact Or.inl ⟨phase, m, .ofTree hdetect hparses hfault⟩
    · exact Or.inr ⟨r, Or.inr ⟨l, t, hdetect, hparses, hresult⟩⟩
  · exact Or.inl ⟨_, m, .supports hdetect hfault⟩
  · exact Or.inl ⟨_, m, .parse hdetect hsupports hfault⟩

/-- A run breaks down once at most. -/
theorem breaksDown_unique (h : p.BreaksDown source phase m) (h' : p.BreaksDown source phase' m') :
    phase = phase' ∧ m = m' := by
  have hrun : (Except.error m, RunContext.idle.inPhase phase)
      = (Except.error m', RunContext.idle.inPhase phase') :=
    (run_of_breaksDown h).symm.trans (run_of_breaksDown h')
  obtain ⟨hmessage, hcontext⟩ := Prod.mk.inj hrun
  exact ⟨Option.some.inj (congrArg RunContext.phase hcontext), Except.error.inj hmessage⟩

/-! ## Requests -/

/-- What a request is told when a step breaks down. -/
def reported (phase : Phase) (m : String) : AnalysisError :=
  .analysis (m ++ " (during " ++ phase.name ++ ")")

theorem profileIn_of_blank (h : isBlankText source = true) :
    p.profileIn label source c = (.ok none, c) := by
  rw [profileIn, if_pos h]
  rfl

/-- The guard of the label brings back what the handler has read. -/
theorem profileIn_of_run {result : Step Profile} {d : RunContext}
    (hblank : isBlankText source = false) (hrun : p.run source (c.onInput label) = (result, d)) :
    p.profileIn label source c = ((result.mapError (fault · d)).map some, c) := by
  rw [profileIn, hblank, if_neg Bool.false_ne_true]
  refine @InContext.guarded_of_stays _ _ _ _ d _ _ ?_ rfl
  cases result <;> simp only [InContext.map, Traced.caught, hrun] <;> rfl

theorem profileIn_of_breaksDown (hblank : isBlankText source = false)
    (h : p.BreaksDown source phase m) :
    p.profileIn label source c = (.error (reported phase m), c) :=
  profileIn_of_run hblank (run_of_breaksDown h)

theorem profileIn_of_yields (hblank : isBlankText source = false)
    (h : p.YieldsWithoutTree source r ∨ p.YieldsWithTree source r) :
    p.profileIn label source c = (.ok (some r), c) := by
  rcases h with hwithout | hwith
  · exact profileIn_of_run hblank (run_of_yieldsWithoutTree hwithout)
  · exact profileIn_of_run hblank (run_of_yieldsWithTree hwith)

/-- The ends of a request to profile a text. -/
inductive Ends (p : Profiler) (source : String) : Except AnalysisError (Option Profile) → Prop where
  | blank (hblank : isBlankText source = true) : Ends p source (.ok none)
  | faulty {phase : Phase} {m : String} (hblank : isBlankText source = false)
      (hfault : p.BreaksDown source phase m) : Ends p source (.error (reported phase m))
  | profiled {r : Profile} (hblank : isBlankText source = false)
      (hresult : p.YieldsWithoutTree source r ∨ p.YieldsWithTree source r) :
      Ends p source (.ok (some r))

theorem ends_profileIn (p : Profiler) (label source : String) (c : RunContext) :
    Ends p source (p.profileIn label source c).1 := by
  cases hblank : isBlankText source with
  | true =>
      rw [profileIn_of_blank hblank]
      exact .blank hblank
  | false =>
      rcases breaksDown_or_yields p source with ⟨phase, m, hfault⟩ | ⟨r, hresult⟩
      · rw [profileIn_of_breaksDown hblank hfault]
        exact .faulty hblank hfault
      · rw [profileIn_of_yields hblank hresult]
        exact .profiled hblank hresult

/-- A request to profile a text is told the same in every context, and
leaves the context as it was. -/
theorem profileIn_eq (p : Profiler) (label source : String) (c : RunContext) :
    p.profileIn label source c = (p.profile label source, c) := by
  rw [profile]
  cases hblank : isBlankText source with
  | true => rw [profileIn_of_blank hblank, profileIn_of_blank hblank]
  | false =>
      rcases breaksDown_or_yields p source with ⟨phase, m, hfault⟩ | ⟨r, hresult⟩
      · rw [profileIn_of_breaksDown hblank hfault, profileIn_of_breaksDown hblank hfault]
      · rw [profileIn_of_yields hblank hresult, profileIn_of_yields hblank hresult]

theorem compareIn_eq (p : Profiler) (source target : String) (c : RunContext) :
    p.compareIn source target c = (p.compare source target, c) := by
  rw [compare, compareIn, compareIn]
  simp only [profileIn_eq]
  cases p.profile "<source>" source with
  | error e => rfl
  | ok first =>
      cases p.profile "<target>" target with
      | error e => rfl
      | ok second => cases first <;> cases second <;> rfl

end Profiler

/-- A request to one of the profilers of a program. -/
inductive ProfilerRequest where
  | profile (p : Profiler) (label source : String)
  | compare (p : Profiler) (source target : String)

/-- What a request is told. -/
inductive ProfilerReply where
  | profile (result : Except AnalysisError (Option Profile))
  | agreement (result : Except AnalysisError (Option AgreementReport))

namespace ProfilerRequest

def reply : ProfilerRequest → InContext ProfilerReply
  | .profile p label source => (p.profileIn label source).map .profile
  | .compare p source target => (p.compareIn source target).map .agreement

/-- What a request is told where nothing else runs. -/
def replyAlone (request : ProfilerRequest) : ProfilerReply := (request.reply .idle).1

/-- The replies to several requests, each in the context that the one
before it has left. -/
def replies : List ProfilerRequest → InContext (List ProfilerReply)
  | [] => InContext.done []
  | request :: requests => fun c =>
    let (first, c) := request.reply c
    let (rest, c) := replies requests c
    (first :: rest, c)

theorem reply_eq (request : ProfilerRequest) (c : RunContext) :
    request.reply c = (request.replyAlone, c) := by
  cases request with
  | profile p label source => simp only [replyAlone, reply, InContext.map, Profiler.profileIn_eq]
  | compare p source target => simp only [replyAlone, reply, InContext.map, Profiler.compareIn_eq]

theorem replies_eq (requests : List ProfilerRequest) (c : RunContext) :
    replies requests c = (requests.map replyAlone, c) := by
  induction requests with
  | nil => rfl
  | cons request requests ih => simp only [replies, reply_eq, ih, List.map_cons]

end ProfilerRequest

namespace Profiler

/-- How requests to a profiler end in a context. -/
structure Accounted (p : Profiler) (c : RunContext) : Prop where
  /-- There is no profile exactly if the text is white space only. -/
  blank : ∀ label source, (p.profileIn label source c).1 = .ok none
    ↔ ∀ x ∈ source.toList, isBlank x = true
  /-- There is an error exactly if a step breaks down, and it names the
  phase of that step. -/
  faulty : ∀ label source e, (p.profileIn label source c).1 = .error e
    ↔ (∃ x ∈ source.toList, isBlank x = false)
      ∧ ∃ phase m, p.BreaksDown source phase m
        ∧ e = .analysis (m ++ " (during " ++ phase.name ++ ")")
  /-- There is a profile exactly if no step breaks down. The tree has a part
  in it unless there is none. -/
  profiled : ∀ label source r, (p.profileIn label source c).1 = .ok (some r)
    ↔ (∃ x ∈ source.toList, isBlank x = false)
      ∧ (p.YieldsWithoutTree source r ∨ p.YieldsWithTree source r)
  single : ∀ source phase phase' m m', p.BreaksDown source phase m → p.BreaksDown source phase' m' →
    phase = phase' ∧ m = m'
  restored : ∀ label source, (p.profileIn label source c).2 = c
  restoredCompare : ∀ source target, (p.compareIn source target c).2 = c
  /-- Each of several requests, to this profiler and others, is told what it
  would be told alone. -/
  undisturbed : ∀ requests,
    ProfilerRequest.replies requests c = (requests.map ProfilerRequest.replyAlone, c)

theorem isBlankText_iff : isBlankText source = true ↔ ∀ x ∈ source.toList, isBlank x = true :=
  List.all_eq_true

theorem not_isBlankText_iff :
    isBlankText source = false ↔ ∃ x ∈ source.toList, isBlank x = false := by
  rw [isBlankText, List.all_eq_false]
  simp only [Bool.not_eq_true]

theorem accounted (p : Profiler) (c : RunContext) : Accounted p c := by
  constructor
  case blank =>
    intro label source
    rw [← isBlankText_iff]
    refine ⟨fun hnone => ?_, fun hblank => by rw [profileIn_of_blank hblank]⟩
    have hends := ends_profileIn p label source c
    rw [hnone] at hends
    cases hends with
    | blank hblank => exact hblank
  case faulty =>
    intro label source e
    rw [← not_isBlankText_iff]
    constructor
    · intro herror
      have hends := ends_profileIn p label source c
      rw [herror] at hends
      cases hends with
      | @faulty phase m hblank hfault => exact ⟨hblank, phase, m, hfault, rfl⟩
    · rintro ⟨hblank, phase, m, hfault, rfl⟩
      rw [profileIn_of_breaksDown hblank hfault, reported]
  case profiled =>
    intro label source r
    rw [← not_isBlankText_iff]
    constructor
    · intro hok
      have hends := ends_profileIn p label source c
      rw [hok] at hends
      cases hends with
      | profiled hblank hresult => exact ⟨hblank, hresult⟩
    · rintro ⟨hblank, hresult⟩
      rw [profileIn_of_yields hblank hresult]
  case single => exact fun source phase phase' m m' h h' => breaksDown_unique h h'
  case restored =>
    intro label source
    rw [profileIn_eq]
  case restoredCompare =>
    intro source target
    rw [compareIn_eq]
  case undisturbed => exact fun requests => ProfilerRequest.replies_eq requests c

end Profiler

end CodeProfile
