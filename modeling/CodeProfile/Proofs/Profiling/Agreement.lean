import CodeProfile.Agreement
import CodeProfile.Proofs.Number.Doubles
import CodeProfile.Proofs.Tree.Building

/-!
# What decides over agreement

Five counts of a snippet are held against those of its counterpart. The
comparisons are made in doubles, and for counts below `2 ^ 52` they are those
of the numbers (`passed_exact`, `passed_absolute`, `passed_relative`).

For profiles of trees and of texts, one of the five says nothing of its
own. The cyclomatic number of a tree is that of its decisions and its
functions, at least one; that of a text alone stays nought, as the others
do (`Metrics.Derived`). With equally many functions, two such numbers are at
most one further apart than the decisions (`distance_cyclomatic_le`). So the
other four decide (`agreement_decided`). The tolerance is not wider than it
has to be: a snippet that could be parsed once and once not takes it up
whole (`oneDecision_agrees`).
-/

namespace CodeProfile

/-! ## Single checks -/

namespace AgreementCheck

variable {field : String} {source target n : Nat} {allowed : Float}

/-- How far two counts are apart. -/
def distance (source target : Nat) : Nat := (target - source : Int).natAbs

theorem isDouble_delta (hs : source < 2 ^ 53) (ht : target < 2 ^ 53) :
    IsDouble (Float.ofNat target - Float.ofNat source) ((target - source : Int) : ℚ) := by
  refine IsDouble.sub ?_ ?_ (by simpa using IsDouble.ofNat ht) (by simpa using IsDouble.ofNat hs)
  all_goals
    rw [abs_lt]
    omega

theorem isDouble_abs_delta (hs : source < 2 ^ 53) (ht : target < 2 ^ 53) :
    IsDouble (Float.ofNat target - Float.ofNat source).abs (distance source target) := by
  have habs := (isDouble_delta hs ht).abs
  rwa [← Int.cast_abs, Int.abs_eq_natAbs, Int.cast_natCast] at habs

theorem passed_exact (hs : source < 2 ^ 53) (ht : target < 2 ^ 53) :
    (ofCounts field source target .exact allowed).passed = decide (source = target) := by
  rw [Bool.eq_iff_iff, decide_eq_true_iff]
  show (Float.ofNat target - Float.ofNat source == 0.0) = true ↔ source = target
  rw [(isDouble_delta hs ht).beq_iff .zero, Int.cast_eq_zero]
  omega

theorem passed_absolute (hs : source < 2 ^ 53) (ht : target < 2 ^ 53) (hn : IsDouble allowed n) :
    (ofCounts field source target .absolute allowed).passed
      = decide (distance source target ≤ n) := by
  rw [Bool.eq_iff_iff, decide_eq_true_iff]
  show decide ((Float.ofNat target - Float.ofNat source).abs ≤ allowed) = true ↔ _
  rw [decide_eq_true_iff, (isDouble_abs_delta hs ht).le_iff hn, Nat.cast_le]

theorem passed_relative (hs : source < 2 ^ 52) (ht : target < 2 ^ 52) :
    (ofCounts field source target .relative 0.5).passed
      = decide (2 * distance source target ≤ max source 1) := by
  have hnext : 2 ^ 52 < 2 ^ 53 := by decide
  have hdistance : distance source target < 2 ^ 53 := by
    rw [distance]
    omega
  rw [Bool.eq_iff_iff, decide_eq_true_iff]
  show decide ((Float.ofNat target - Float.ofNat source).abs / Float.ofNat (max source 1) ≤ 0.5)
    = true ↔ _
  rw [decide_eq_true_iff]
  exact IsDouble.div_le_half_iff hdistance (le_max_right source 1) (max_lt hs (by decide))
    (isDouble_abs_delta (hs.trans hnext) (ht.trans hnext))
    (.ofNat (max_lt (hs.trans hnext) (by decide)))

/-- What is said about a check, if anything. -/
def remarks (c : AgreementCheck) : List String := if c.passed then [] else [c.warning]

/-- What is said about counts that do not agree. -/
def outOfTolerance (field : String) (source target : Nat) (agrees : Prop) [Decidable agrees] :
    List String :=
  if agrees then []
  else [field ++ " out of tolerance: " ++ toString source ++ " vs " ++ toString target]

/-- What is said about texts that are not the same. -/
def differing (field source target : String) : List String :=
  if source = target then []
  else [field ++ " differs: " ++ source ++ " vs " ++ target ++ " (advisory)"]

theorem remarks_ofCounts {t : Tolerance} {agrees : Prop} [Decidable agrees] (ht : t ≠ .advisory)
    (h : (ofCounts field source target t allowed).passed = decide agrees) :
    (ofCounts field source target t allowed).remarks
      = outOfTolerance field source target agrees := by
  have hwarning : (ofCounts field source target t allowed).warning
      = field ++ " out of tolerance: " ++ toString source ++ " vs " ++ toString target := if_neg ht
  simp only [remarks, outOfTolerance, h, hwarning, decide_eq_true_iff]

theorem remarks_ofTexts (field source target : String) :
    (ofTexts field source target).remarks = differing field source target := by
  have hpassed : (ofTexts field source target).passed = (source == target) := rfl
  simp only [remarks, differing, hpassed, beq_iff_eq]
  rfl

end AgreementCheck

open AgreementCheck

/-! ## Metrics -/

namespace Metrics

variable {m s t : Metrics}

/-- The counts that are compared are below `2 ^ 52`. -/
def Moderate (m : Metrics) : Prop :=
  ∀ n ∈ [m.lines, m.functions, m.classes, m.decisionPoints, m.cyclomatic], n < 2 ^ 52

instance : DecidablePred Moderate := fun _ => List.decidableBAll ..

/-- The cyclomatic number is that of a tree, or no tree was there to count
in. -/
def Derived (m : Metrics) : Prop :=
  m.cyclomatic = m.decisionPoints + max m.functions 1
    ∨ m.functions = 0 ∧ m.decisionPoints = 0 ∧ m.cyclomatic = 0

theorem derived_ofText (source : String) : (ofText source).Derived := Or.inr ⟨rfl, rfl, rfl⟩

theorem derived_metrics (t : SyntaxTree) : t.metrics.Derived := by
  rw [SyntaxTree.metrics]
  split
  · exact Or.inl rfl
  · exact Or.inr ⟨rfl, rfl, rfl⟩

/-- With equally many functions, cyclomatic numbers are not much further
apart than decisions. -/
theorem distance_cyclomatic_le (hs : s.Derived) (ht : t.Derived)
    (hfunctions : s.functions = t.functions) :
    distance s.cyclomatic t.cyclomatic ≤ distance s.decisionPoints t.decisionPoints + 1 := by
  simp only [distance]
  rcases hs with hs | ⟨hs, hs', hs''⟩ <;> rcases ht with ht | ⟨ht, ht', ht''⟩
  all_goals omega

/-- The counts that decide agree. -/
structure Agree (s t : Metrics) : Prop where
  functions : s.functions = t.functions
  classes : s.classes = t.classes
  decisionPoints : distance s.decisionPoints t.decisionPoints ≤ 1
  lines : 2 * distance s.lines t.lines ≤ max s.lines 1

end Metrics

namespace Profile

/-- The profile was made from a tree, or from a text that could not be
parsed. -/
inductive Produced : Profile → Prop
  | ofTree (t : SyntaxTree) (adapter : Option Adapter) (f : Findings) :
      Produced (.ofTree t adapter f)
  | withoutTree (source : String) (guess : LanguageReport) : Produced (.withoutTree source guess)

theorem Produced.derived {p : Profile} (h : p.Produced) : p.metrics.Derived := by
  cases h with
  | ofTree t adapter f => exact Metrics.derived_metrics t
  | withoutTree source guess => exact Metrics.derived_ofText source

end Profile

/-! ## Reports -/

namespace AgreementReport

variable {p q : Profile}

/-- The check of a field. -/
def check? (r : AgreementReport) (field : String) : Option AgreementCheck :=
  r.checks.find? (·.field == field)

/-- The report has a check of the field, and it passed. -/
def Passes (r : AgreementReport) (field : String) : Prop :=
  ∃ c, r.check? field = some c ∧ c.passed = true

/-- What is said about two profiles, from their counts and findings. -/
def disagreements (p q : Profile) : List String :=
  let s := p.metrics
  let t := q.metrics
  outOfTolerance "functionCount" s.functions t.functions (s.functions = t.functions)
    ++ outOfTolerance "classCount" s.classes t.classes (s.classes = t.classes)
    ++ outOfTolerance "decisionPoints" s.decisionPoints t.decisionPoints
      (distance s.decisionPoints t.decisionPoints ≤ 1)
    ++ outOfTolerance "cyclomaticComplexity" s.cyclomatic t.cyclomatic
      (distance s.cyclomatic t.cyclomatic ≤ 2)
    ++ outOfTolerance "lines" s.lines t.lines (2 * distance s.lines t.lines ≤ max s.lines 1)
    ++ differing "paradigm" p.findings.paradigm.primary.name q.findings.paradigm.primary.name
    ++ differing "timeComplexity" p.findings.complexity.time q.findings.complexity.time
    ++ differing "isDeterministic" (truthText p.behavior.isDeterministic)
      (truthText q.behavior.isDeterministic)

/-- The counts are compared as numbers. -/
structure Passed (s t : Metrics) : Prop where
  functions : (ofCounts "functionCount" s.functions t.functions .exact 0.0).passed
    = decide (s.functions = t.functions)
  classes : (ofCounts "classCount" s.classes t.classes .exact 0.0).passed
    = decide (s.classes = t.classes)
  decisionPoints : (ofCounts "decisionPoints" s.decisionPoints t.decisionPoints .absolute
    decisionTolerance).passed = decide (distance s.decisionPoints t.decisionPoints ≤ 1)
  cyclomatic : (ofCounts "cyclomaticComplexity" s.cyclomatic t.cyclomatic .absolute
    cyclomaticTolerance).passed = decide (distance s.cyclomatic t.cyclomatic ≤ 2)
  lines : (ofCounts "lines" s.lines t.lines .relative lineTolerance).passed
    = decide (2 * distance s.lines t.lines ≤ max s.lines 1)

theorem passed_of_moderate {s t : Metrics} (hs : s.Moderate) (ht : t.Moderate) : Passed s t := by
  simp only [Metrics.Moderate, List.forall_mem_cons, List.not_mem_nil, false_implies,
    implies_true, and_true] at hs ht
  have hnext {n : Nat} (hn : n < 2 ^ 52) : n < 2 ^ 53 := hn.trans (by decide)
  obtain ⟨hlines, hfunctions, hclasses, hdecisions, hcyclomatic⟩ := hs
  obtain ⟨hlines', hfunctions', hclasses', hdecisions', hcyclomatic'⟩ := ht
  constructor
  · exact passed_exact (hnext hfunctions) (hnext hfunctions')
  · exact passed_exact (hnext hclasses) (hnext hclasses')
  · exact passed_absolute (hnext hdecisions) (hnext hdecisions') (by exact_mod_cast IsDouble.one)
  · exact passed_absolute (hnext hcyclomatic) (hnext hcyclomatic') (by exact_mod_cast IsDouble.two)
  · exact passed_relative hlines hlines'

theorem warnings_eq (p q : Profile) :
    (AgreementReport.of p q).warnings = (checksOf p q).flatMap remarks := by
  show ((checksOf p q).filter (!·.passed)).map (·.warning) = _
  induction checksOf p q with
  | nil => rfl
  | cons c checks ih =>
      rw [List.filter_cons, List.flatMap_cons, remarks]
      cases hc : c.passed with
      | true => simpa [hc] using ih
      | false => simpa [hc] using ih

/-- The checks of the counts. -/
def countChecks (s t : Metrics) : List AgreementCheck :=
  [ .ofCounts "functionCount" s.functions t.functions .exact 0.0,
    .ofCounts "classCount" s.classes t.classes .exact 0.0,
    .ofCounts "decisionPoints" s.decisionPoints t.decisionPoints .absolute decisionTolerance,
    .ofCounts "cyclomaticComplexity" s.cyclomatic t.cyclomatic .absolute cyclomaticTolerance,
    .ofCounts "lines" s.lines t.lines .relative lineTolerance]

/-- The counts decide, whatever the texts are. -/
theorem isValid_eq (p q : Profile) :
    (AgreementReport.of p q).isValid = (countChecks p.metrics q.metrics).all (·.passed) := by
  have hcounts {c : AgreementCheck} (hc : c ∈ countChecks p.metrics q.metrics) :
      c.isFailure = !c.passed := by
    simp only [countChecks, List.mem_cons, List.not_mem_nil, or_false] at hc
    rcases hc with rfl | rfl | rfl | rfl | rfl <;> exact Bool.and_true _
  have htexts (field source target : String) : (ofTexts field source target).isFailure = false :=
    Bool.and_false _
  have hchecks : checksOf p q = countChecks p.metrics q.metrics
      ++ [ofTexts _ _ _, ofTexts _ _ _, ofTexts _ _ _] := rfl
  show (!(checksOf p q).any (·.isFailure)) = _
  rw [hchecks, List.any_append]
  simp only [List.any_cons, List.any_nil, htexts, Bool.or_false, List.not_any_eq_all_not]
  rw [Bool.eq_iff_iff, List.all_eq_true, List.all_eq_true]
  refine forall₂_congr fun c hc => ?_
  rw [hcounts hc, Bool.not_not]

end AgreementReport

/-- How the agreement of two profiles is decided. -/
structure AgreementDecided (p q : Profile) : Prop where
  /-- The check of the cyclomatic numbers follows from two others. -/
  cyclomatic : (AgreementReport.of p q).Passes "functionCount" →
    (AgreementReport.of p q).Passes "decisionPoints" →
      (AgreementReport.of p q).Passes "cyclomaticComplexity"
  isValid : (AgreementReport.of p q).isValid = true ↔ p.metrics.Agree q.metrics
  /-- All that does not agree is said, in the order of the checks. -/
  warnings : (AgreementReport.of p q).warnings = AgreementReport.disagreements p q
  /-- What is not counted never decides. -/
  advisory : ∀ p' q' : Profile, p'.metrics = p.metrics → q'.metrics = q.metrics →
    (AgreementReport.of p' q').isValid = (AgreementReport.of p q).isValid

open AgreementReport in
theorem agreement_decided {p q : Profile} (hp : p.Produced) (hq : q.Produced)
    (hp' : p.metrics.Moderate) (hq' : q.metrics.Moderate) : AgreementDecided p q := by
  have hpassed := passed_of_moderate hp' hq'
  have hcyclomatic (hfunctions : p.metrics.functions = q.metrics.functions)
      (hdecisions : distance p.metrics.decisionPoints q.metrics.decisionPoints ≤ 1) :
      distance p.metrics.cyclomatic q.metrics.cyclomatic ≤ 2 :=
    (Metrics.distance_cyclomatic_le hp.derived hq.derived hfunctions).trans (by omega)
  constructor
  case cyclomatic =>
    rintro ⟨c, hc, hpass⟩ ⟨d, hd, hpass'⟩
    obtain rfl : _ = c := Option.some.inj hc
    obtain rfl : _ = d := Option.some.inj hd
    rw [hpassed.functions, decide_eq_true_iff] at hpass
    rw [hpassed.decisionPoints, decide_eq_true_iff] at hpass'
    refine ⟨_, rfl, ?_⟩
    rw [hpassed.cyclomatic, decide_eq_true_iff]
    exact hcyclomatic hpass hpass'
  case isValid =>
    rw [isValid_eq]
    simp only [countChecks, List.all_cons, List.all_nil, hpassed.functions, hpassed.classes,
      hpassed.decisionPoints, hpassed.cyclomatic, hpassed.lines, Bool.and_eq_true,
      decide_eq_true_iff, and_true]
    constructor
    · rintro ⟨hfunctions, hclasses, hdecisions, -, hlines⟩
      exact ⟨hfunctions, hclasses, hdecisions, hlines⟩
    · rintro ⟨hfunctions, hclasses, hdecisions, hlines⟩
      exact ⟨hfunctions, hclasses, hdecisions, hcyclomatic hfunctions hdecisions, hlines⟩
  case warnings =>
    rw [warnings_eq, checksOf]
    simp only [List.flatMap_cons, List.flatMap_nil, List.append_nil,
      remarks_ofCounts (by decide) hpassed.functions, remarks_ofCounts (by decide) hpassed.classes,
      remarks_ofCounts (by decide) hpassed.decisionPoints,
      remarks_ofCounts (by decide) hpassed.cyclomatic, remarks_ofCounts (by decide) hpassed.lines,
      remarks_ofTexts, disagreements, List.append_assoc]
  case advisory =>
    intro r s hr hs
    rw [isValid_eq, isValid_eq, hr, hs]

namespace OneDecision

def source : String := "if (a) b"

def program : NodeSpec := ⟨"program", 0, 8, true, false, none⟩

def statement : NodeSpec := ⟨"if_statement", 0, 8, true, false, none⟩

def tree : SyntaxTree :=
  ⟨.javaScript, source, program.node source 0 [statement.node source 1 []]⟩

theorem built : tree.Built :=
  ⟨source, .javaScript, [.openNode program, .leaf statement, .closeNode], by rfl⟩

/-- The profile of the text when it could not be parsed. -/
def unparsed : Profile := .withoutTree source Profile.empty.findings.language

/-- Its profile when it could. -/
def parsed : Profile := .ofTree tree none Profile.empty.findings

end OneDecision

open OneDecision in
/-- A decision that only the parser sees is within the tolerances, and takes
up that of the cyclomatic number. -/
theorem oneDecision_agrees :
    tree.Built ∧ unparsed.Produced ∧ parsed.Produced
      ∧ unparsed.metrics.Moderate ∧ parsed.metrics.Moderate
      ∧ distance unparsed.metrics.cyclomatic parsed.metrics.cyclomatic = 2
      ∧ (AgreementReport.of unparsed parsed).isValid = true := by
  have hunparsed : unparsed.Produced := .withoutTree _ _
  have hparsed : parsed.Produced := .ofTree _ _ _
  have hmoderate : unparsed.metrics.Moderate := by decide +kernel
  have hmoderate' : parsed.metrics.Moderate := by decide +kernel
  refine ⟨built, hunparsed, hparsed, hmoderate, hmoderate', by decide +kernel, ?_⟩
  refine (agreement_decided hunparsed hparsed hmoderate hmoderate').isValid.mpr ⟨?_, ?_, ?_, ?_⟩
  all_goals decide +kernel

end CodeProfile
