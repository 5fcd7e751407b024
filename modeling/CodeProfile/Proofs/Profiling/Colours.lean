import CodeProfile.Agreement.Summary
import CodeProfile.Profile.Summary
import CodeProfile.Proofs.Text.Escapes

/-!
# What colours change

The pieces of a line show the same in colour and without, and so does a
line that is put together from them. The exception are the labels of a
profile. They are filled up to the width of their column when they are
painted already, and the escape sequences are longer than what there is to
fill. So in colour the column closes up behind each label
(`shows_labelColumn`), and what is seen of the summary is the plain one with
all columns closed up (`Profile.seen_summary`), which is never the plain one
itself (`Profile.closeColumn_summary_ne`).

The fields of an agreement are filled up before anything is painted, so its
summary in colour shows the plain one (`AgreementReport.shows_summary`). The
headline is `seenInColour`.
-/

namespace CodeProfile

open Text

/-! ## The column of labels -/

/-- The labels of a summary. -/
def summaryLabels : List String :=
  ["Language", "Paradigm", "Code type", "Complexity", "Structure", "Libraries", "Frameworks",
   "Intent", "Readiness"]

/-- The label in its column, as it stands without colours. -/
def plainColumn (label : String) : String := (Painter.mk false).labelColumn label

/-- The line without the blanks that fill up the column of its label, if it
has one. -/
def closeColumn (line : String) : String :=
  match summaryLabels.find? fun l => plainColumn l == String.ofList (line.toList.take 14) with
  | some label => "  " ++ label ++ String.ofList (line.toList.drop 14)
  | none => line

variable {label line painted text : String}

theorem closeColumn_labelled (hlabel : label ∈ summaryLabels) (text : String) :
    closeColumn (plainColumn label ++ text) = "  " ++ label ++ text := by
  have hwidth : ∀ l ∈ summaryLabels, (plainColumn l).toList.length = 14 := by decide
  have hfind : ∀ l ∈ summaryLabels,
      (summaryLabels.find? fun k => plainColumn k == plainColumn l) = some l := by
    decide +kernel
  have htake : (plainColumn label ++ text).toList.take 14 = (plainColumn label).toList := by
    rw [String.toList_append, List.take_left' (hwidth label hlabel)]
  have hdrop : (plainColumn label ++ text).toList.drop 14 = text.toList := by
    rw [String.toList_append, List.drop_left' (hwidth label hlabel)]
  rw [closeColumn, htake, hdrop, String.ofList_toList, hfind label hlabel, String.ofList_toList]

/-- A line that starts in another way is left alone. -/
theorem closeColumn_unlabelled {start : String} (hstart : start ∈ ["    ", "  - "])
    (text : String) : closeColumn (start ++ text) = start ++ text := by
  have hapart : ∀ s ∈ ["    ", "  - "], s.toList.length = 4 ∧ ∀ l ∈ summaryLabels,
      (plainColumn l).toList.take 4 ≠ s.toList := by decide +kernel
  obtain ⟨hlength, hother⟩ := hapart start hstart
  have hnone : (summaryLabels.find? fun l =>
      plainColumn l == String.ofList ((start ++ text).toList.take 14)) = none := by
    rw [List.find?_eq_none]
    intro l hl hsame
    refine hother l hl ?_
    rw [beq_iff_eq.mp hsame, String.toList_ofList, List.take_take, String.toList_append]
    exact List.take_left' hlength
  rw [closeColumn, hnone]

/-- In colour the column of a label is not filled up, as the escape sequences
are longer than what there is to fill. -/
theorem shows_labelColumn (hlabel : label ∈ summaryLabels) (h : Shows painted text) :
    Shows ((Painter.mk true).labelColumn label ++ painted)
      (closeColumn ((Painter.mk false).labelColumn label ++ text)) := by
  have hunfilled : ∀ l ∈ summaryLabels,
      (Painter.mk true).labelColumn l = "  " ++ TextStyle.wrap .label l := by decide +kernel
  have hfree : ∀ l ∈ summaryLabels, EscapeFree l := by decide
  have hblanks : Shows "  " "  " := EscapeFree.shows (by decide)
  show Shows _ (closeColumn (plainColumn label ++ text))
  rw [hunfilled label hlabel, closeColumn_labelled hlabel]
  exact (hblanks.append (TextStyle.shows_wrap _ (hfree label hlabel))).append h

/-- Without colours a piece stands as it is, so both painters show the
same. -/
theorem shows_painted (style : TextStyle) (h : EscapeFree text) :
    Shows ((Painter.mk true).paint style text) ((Painter.mk false).paint style text) :=
  shows_paint _ style h

theorem shows_scored (x : Float) : Shows ((Painter.mk true).score x) ((Painter.mk false).score x) :=
  shows_score _ x

/-! ## Lines of a summary -/

namespace Profile

variable {r : Profile}

/-- The texts of a profile that its summary shows. -/
def shownTexts (r : Profile) : List String :=
  r.findings.language.dialect.toList
    ++ [r.findings.complexity.time, r.findings.complexity.space]
    ++ r.findings.libraries.libraries.map (·.name)
    ++ r.findings.libraries.frameworks.map (·.name)
    ++ r.readiness.blockingIssues
    ++ r.findings.complexity.suggestions.map (·.message)
    ++ r.guidance.hints

theorem shows_languageLine (h : ∀ s ∈ r.shownTexts, EscapeFree s) :
    Shows (r.languageLine ⟨true⟩) (closeColumn (r.languageLine ⟨false⟩)) := by
  have hname (l : Language) : EscapeFree l.name := by cases l <;> decide
  have hmethod (m : DetectionMethod) : EscapeFree ("[" ++ (m.label ++ "]")) := by
    cases m <;> decide
  have hdialect : EscapeFree (r.findings.language.dialect.elim "" fun d => " (" ++ d ++ ")") := by
    cases hd : r.findings.language.dialect with
    | none => decide
    | some d =>
        have hmem : d ∈ r.shownTexts := by simp [shownTexts, hd]
        exact (EscapeFree.append (by decide) (h d hmem)).append (by decide)
  simp only [languageLine, String.append_assoc] at hdialect ⊢
  refine shows_labelColumn (by decide) (.after (by decide) (.after (hname _) (.after hdialect ?_)))
  exact .after (by decide) (.append (shows_scored _) (.after (by decide)
    (shows_painted _ (hmethod _))))

theorem shows_paradigmLine (r : Profile) :
    Shows (r.paradigmLine ⟨true⟩) (closeColumn (r.paradigmLine ⟨false⟩)) := by
  have hname (d : Paradigm) : EscapeFree d.name := by cases d <;> decide
  have hsecondary : EscapeFree (r.findings.paradigm.secondary.elim "" fun d =>
      ", secondary " ++ d.name) := by
    cases r.findings.paradigm.secondary with
    | none => decide
    | some d => exact .append (by decide) (hname d)
  simp only [paradigmLine, String.append_assoc]
  exact shows_labelColumn (by decide) (.after (by decide) (.after (hname _) (.after hsecondary
    (.after (by decide) (shows_scored _)))))

theorem shows_codeTypeLine (r : Profile) :
    Shows (r.codeTypeLine ⟨true⟩) (closeColumn (r.codeTypeLine ⟨false⟩)) := by
  have hname (c : CodeType) : EscapeFree c.name := by cases c <;> decide
  simp only [codeTypeLine, String.append_assoc]
  exact shows_labelColumn (by decide) (.after (by decide) (.after (hname _) (.after (by decide)
    (shows_scored _))))

theorem shows_complexityLine (h : ∀ s ∈ r.shownTexts, EscapeFree s) :
    Shows (r.complexityLine ⟨true⟩) (closeColumn (r.complexityLine ⟨false⟩)) := by
  have hmethod (m : ComplexityMethod) : EscapeFree ("[" ++ (m.label ++ "]")) := by
    cases m <;> decide
  have htime : EscapeFree r.findings.complexity.time := h _ (by simp [shownTexts])
  have hspace : EscapeFree r.findings.complexity.space := h _ (by simp [shownTexts])
  simp only [complexityLine, String.append_assoc]
  refine shows_labelColumn (by decide) (.after (by decide) (.append ?_ (.after (by decide)
    (.after hspace (.after (by decide) (shows_painted _ (hmethod _)))))))
  split
  · exact shows_painted _ htime
  · exact htime.shows

theorem shows_metricsLine (r : Profile) :
    Shows (r.metricsLine ⟨true⟩) (closeColumn (r.metricsLine ⟨false⟩)) := by
  simp only [metricsLine, String.append_assoc]
  refine shows_labelColumn (by decide) (EscapeFree.shows ?_)
  refine .append (by decide) (.append (escapeFree_toString _) (.append (by decide)
    (.append (escapeFree_toString _) (.append (by decide) (.append (escapeFree_toString _)
    (.append (by decide) (.append (by decide) (.append (escapeFree_toString _)
    (.append (by decide) (escapeFree_toString _))))))))))

theorem shows_namesLine (hlabel : label ∈ summaryLabels) {names : List String}
    (h : ∀ s ∈ names, EscapeFree s) :
    List.Forall₂ Shows (namesLine ⟨true⟩ label names)
      ((namesLine ⟨false⟩ label names).map closeColumn) := by
  rw [namesLine, namesLine]
  split
  · exact .nil
  · refine .cons ?_ .nil
    simp only [String.append_assoc]
    exact shows_labelColumn hlabel (.after (by decide) (EscapeFree.join (by decide) h).shows)

theorem shows_intentLine (r : Profile) :
    List.Forall₂ Shows (r.intentLine ⟨true⟩) ((r.intentLine ⟨false⟩).map closeColumn) := by
  have hname (i : Purpose) : EscapeFree i.name := by cases i <;> decide
  rw [intentLine, intentLine]
  cases r.intent.primary with
  | none => exact .nil
  | some i =>
      refine .cons ?_ .nil
      simp only [String.append_assoc]
      exact shows_labelColumn (by decide) (.after (by decide) (.after (hname i) (.after (by decide)
        (shows_scored _))))

theorem shows_readinessLine (r : Profile) :
    Shows (r.readinessLine ⟨true⟩) (closeColumn (r.readinessLine ⟨false⟩)) := by
  simp only [readinessLine, String.append_assoc]
  exact shows_labelColumn (by decide) (.after (by decide) (.append (shows_scored _) (.after
    (by decide) (.append (shows_scored _) (.after (by decide) (shows_scored _))))))

theorem shows_issueLines (h : ∀ s ∈ r.shownTexts, EscapeFree s) :
    List.Forall₂ Shows (r.issueLines ⟨true⟩) ((r.issueLines ⟨false⟩).map closeColumn) := by
  rw [issueLines, issueLines, List.map_map, List.forall₂_map_left_iff, List.forall₂_map_right_iff,
    List.forall₂_same]
  intro i hi
  have hfree : EscapeFree i := h i (by simp [shownTexts, hi])
  simp only [Function.comp_apply, String.append_assoc]
  rw [closeColumn_unlabelled (by decide)]
  exact .after (by decide) (.append (shows_painted _ (by decide)) (.after (by decide) hfree.shows))

/-- Items that are shown one by one are shown under their title. -/
theorem shows_titled {title : String} (htitle : title ∈ ["Suggestions", "Hints"])
    {items texts : List String} (h : List.Forall₂ Shows items texts) :
    List.Forall₂ Shows (titled ⟨true⟩ title items)
      ((titled ⟨false⟩ title texts).map closeColumn) := by
  have htitles : ∀ t ∈ ["Suggestions", "Hints"], EscapeFree t ∧ closeColumn t = t := by decide
  obtain ⟨hfree, hclose⟩ := htitles title htitle
  have hitems {item text : String} (hitem : Shows item text) :
      Shows ("  - " ++ item) (closeColumn ("  - " ++ text)) := by
    rw [closeColumn_unlabelled (by decide)]
    exact .after (by decide) hitem
  cases h with
  | nil => exact .nil
  | cons hitem hrest =>
      refine .cons ?_ (.cons (hitems hitem) ?_)
      · have hplain : (Painter.mk false).paint .header title = title := rfl
        rw [hplain, hclose]
        exact shows_paint _ _ hfree
      · rw [List.map_map, List.forall₂_map_left_iff, List.forall₂_map_right_iff]
        exact hrest.imp fun _ _ => hitems

theorem shows_suggestionTexts (h : ∀ s ∈ r.shownTexts, EscapeFree s) :
    List.Forall₂ Shows (r.suggestionTexts ⟨true⟩) (r.suggestionTexts ⟨false⟩) := by
  rw [suggestionTexts, suggestionTexts, List.forall₂_map_left_iff, List.forall₂_map_right_iff,
    List.forall₂_same]
  intro s hs
  have hmessage : EscapeFree s.message := by
    refine h _ ?_
    simp only [shownTexts, List.mem_append, List.mem_map]
    exact Or.inl (Or.inr ⟨s, hs, rfl⟩)
  have hline : EscapeFree s!"(line {s.line})" :=
    (EscapeFree.append (by decide) (escapeFree_toString _)).append (by decide)
  exact (Shows.after hmessage (EscapeFree.shows (by decide))).append (shows_painted _ hline)

/-- What is seen of the lines in colour are the plain lines, with the columns
of labels closed up. -/
theorem shows_summaryLines (h : ∀ s ∈ r.shownTexts, EscapeFree s) :
    List.Forall₂ Shows (r.summaryLines ⟨true⟩) ((r.summaryLines ⟨false⟩).map closeColumn) := by
  have hlibraries : ∀ s ∈ r.findings.libraries.libraries.map (·.name), EscapeFree s :=
    fun s hs => h s (by simp only [shownTexts, List.mem_append, hs, true_or, or_true])
  have hframeworks : ∀ s ∈ r.findings.libraries.frameworks.map (·.name), EscapeFree s :=
    fun s hs => h s (by simp only [shownTexts, List.mem_append, hs, true_or, or_true])
  have htitle : Shows ((Painter.mk true).paint .header "Code characterization")
      (closeColumn ((Painter.mk false).paint .header "Code characterization")) := by
    have hclose : closeColumn ((Painter.mk false).paint .header "Code characterization")
        = "Code characterization" := by decide
    rw [hclose]
    exact shows_paint _ _ (by decide)
  have hfirst : List.Forall₂ Shows
      [(Painter.mk true).paint .header "Code characterization", r.languageLine ⟨true⟩,
        r.paradigmLine ⟨true⟩, r.codeTypeLine ⟨true⟩, r.complexityLine ⟨true⟩,
        r.metricsLine ⟨true⟩]
      ([(Painter.mk false).paint .header "Code characterization", r.languageLine ⟨false⟩,
        r.paradigmLine ⟨false⟩, r.codeTypeLine ⟨false⟩, r.complexityLine ⟨false⟩,
        r.metricsLine ⟨false⟩].map closeColumn) :=
    .cons htitle (.cons (shows_languageLine h) (.cons r.shows_paradigmLine (.cons
      r.shows_codeTypeLine (.cons (shows_complexityLine h) (.cons r.shows_metricsLine .nil)))))
  have hhints : List.Forall₂ Shows r.guidance.hints r.guidance.hints :=
    List.forall₂_same.mpr fun s hs => (h s (by simp [shownTexts, hs])).shows
  simp only [summaryLines, List.map_append]
  refine List.rel_append (List.rel_append (List.rel_append (List.rel_append (List.rel_append
    (List.rel_append (List.rel_append hfirst ?libraries) ?frameworks) r.shows_intentLine)
    (.cons r.shows_readinessLine .nil)) (shows_issueLines h)) ?suggestions) ?hints
  case libraries => exact shows_namesLine (by decide) hlibraries
  case frameworks => exact shows_namesLine (by decide) hframeworks
  case suggestions => exact shows_titled (by decide) (shows_suggestionTexts h)
  case hints => exact shows_titled (by decide) hhints

/-- Closing the columns changes a summary, as the name of the language moves
to the left. -/
theorem closeColumn_summary_ne (r : Profile) :
    String.join ((r.summaryLines ⟨false⟩).map fun line => closeColumn line ++ "\n")
      ≠ r.summary ⟨false⟩ := by
  have hname (l : Language) : ∃ c cs, l.name.toList = c :: cs ∧ c ≠ ' ' := by
    cases l <;> exact ⟨_, _, rfl, by decide⟩
  obtain ⟨rest, hlines⟩ : ∃ rest, r.summaryLines ⟨false⟩
      = "Code characterization" :: r.languageLine ⟨false⟩ :: rest := ⟨_, rfl⟩
  obtain ⟨tail, htail⟩ : ∃ tail, r.languageLine ⟨false⟩
      = plainColumn "Language" ++ (" " ++ (r.findings.language.language.name ++ tail)) := by
    simp only [languageLine, String.append_assoc]
    exact ⟨_, rfl⟩
  have htitle : closeColumn "Code characterization" = "Code characterization" := by decide
  have hcolumn : plainColumn "Language" = "  " ++ "Language" ++ "    " := by decide
  obtain ⟨c, cs, hcs, hc⟩ := hname r.findings.language.language
  rw [summary, hlines]
  simp only [List.map_cons, String.join_cons, htitle, htail,
    closeColumn_labelled (show "Language" ∈ summaryLabels by decide)]
  intro hsame
  have hchars := congrArg String.toList hsame
  simp only [hcolumn, String.toList_append, List.append_assoc, List.append_cancel_left_eq,
    hcs] at hchars
  -- in front of the name stands one blank or five
  exact hc (List.cons.inj (List.cons.inj hchars).2).1

/-- What is seen of the summary in colour is the plain one with the columns
of labels closed up. -/
theorem seen_summary (h : ∀ s ∈ r.shownTexts, EscapeFree s) : seen (r.summary ⟨true⟩)
    = String.join ((r.summaryLines ⟨false⟩).map fun line => closeColumn line ++ "\n") := by
  have hlines := shows_lines (shows_summaryLines h)
  rw [List.map_map] at hlines
  exact hlines.seen

end Profile

/-! ## Summaries of agreement -/

namespace AgreementReport

variable {r : AgreementReport}

/-- The texts of a report that its summary shows. -/
def shownTexts (r : AgreementReport) : List String :=
  r.checks.flatMap (fun c => [c.field, c.source, c.target]) ++ r.warnings

theorem shows_checkLine {c : AgreementCheck}
    (h : ∀ s ∈ [c.field, c.source, c.target], EscapeFree s) :
    Shows (checkLine ⟨true⟩ c) (checkLine ⟨false⟩ c) := by
  simp only [List.forall_mem_cons, List.not_mem_nil, false_implies, implies_true, and_true] at h
  obtain ⟨hfield, hsource, htarget⟩ := h
  have hmark : Shows (mark ⟨true⟩ c) (mark ⟨false⟩ c) := by
    rw [mark, mark]
    split
    · exact shows_painted _ (by decide)
    · split <;> exact shows_painted _ (by decide)
  simp only [checkLine, String.append_assoc]
  exact .after (by decide) (.append hmark (.after (by decide) (.after (hfield.padTo 22)
    (.after (by decide) (.after hsource (.after (by decide) htarget.shows))))))

/-- What is seen of the summary in colour is the plain one. -/
theorem shows_summary (h : ∀ s ∈ r.shownTexts, EscapeFree s) :
    Shows (r.summary ⟨true⟩) (r.summary ⟨false⟩) := by
  have hverdict : Shows (r.verdict ⟨true⟩) (r.verdict ⟨false⟩) := by
    rw [verdict, verdict]
    split <;> exact shows_painted _ (by decide)
  refine shows_lines (List.rel_append (List.rel_append (.cons ?_ .nil) ?checks) ?warnings)
  · exact ((shows_painted _ (by decide)).append (EscapeFree.shows (by decide))).append hverdict
  case checks =>
    rw [List.forall₂_map_left_iff, List.forall₂_map_right_iff, List.forall₂_same]
    exact fun c hc => shows_checkLine fun s hs =>
      h s (List.mem_append_left _ (List.mem_flatMap.mpr ⟨c, hc, hs⟩))
  case warnings =>
    rw [List.forall₂_map_left_iff, List.forall₂_map_right_iff, List.forall₂_same]
    intro w hw
    have hfree : EscapeFree w := h w (List.mem_append_right _ hw)
    simp only [warningLine, String.append_assoc]
    exact .after (by decide) (.append (shows_painted _ (by decide)) (.after (by decide)
      hfree.shows))

end AgreementReport

/-! ## Both summaries -/

/-- What is seen of the summaries of a profile and of an agreement in
colour. -/
structure SeenInColour (r : Profile) (a : AgreementReport) : Prop where
  /-- The summary of a profile loses the blanks behind its labels, and
  nothing else. -/
  profile : seen (r.summary ⟨true⟩)
    = String.join ((r.summaryLines ⟨false⟩).map fun line => closeColumn line ++ "\n")
  /-- So it is never the plain one. -/
  unaligned : seen (r.summary ⟨true⟩) ≠ r.summary ⟨false⟩
  /-- The summary of an agreement loses nothing. -/
  agreement : seen (a.summary ⟨true⟩) = a.summary ⟨false⟩

theorem seenInColour {r : Profile} {a : AgreementReport} (hr : ∀ s ∈ r.shownTexts, EscapeFree s)
    (ha : ∀ s ∈ a.shownTexts, EscapeFree s) : SeenInColour r a := by
  constructor
  case profile => exact Profile.seen_summary hr
  case unaligned => exact Profile.seen_summary hr ▸ r.closeColumn_summary_ne
  case agreement => exact (AgreementReport.shows_summary ha).seen

/-- The profile of nothing and its agreement with itself. -/
theorem seenInColour_empty :
    (∀ s ∈ Profile.empty.shownTexts, EscapeFree s)
      ∧ (∀ s ∈ (AgreementReport.of .empty .empty).shownTexts, EscapeFree s)
      ∧ SeenInColour .empty (AgreementReport.of .empty .empty) := by
  have hprofile : ∀ s ∈ Profile.empty.shownTexts, EscapeFree s := by decide +kernel
  have hagreement : ∀ s ∈ (AgreementReport.of .empty .empty).shownTexts, EscapeFree s := by
    decide +kernel
  exact ⟨hprofile, hagreement, seenInColour hprofile hagreement⟩

/-- Even of the profile of nothing something else is seen in colour. -/
theorem emptySummary_unaligned :
    (∀ s ∈ Profile.empty.shownTexts, EscapeFree s)
      ∧ seen (Profile.empty.summary ⟨true⟩) ≠ Profile.empty.summary ⟨false⟩ := by
  have hfree : ∀ s ∈ Profile.empty.shownTexts, EscapeFree s := by decide +kernel
  exact ⟨hfree, Profile.seen_summary hfree ▸ Profile.empty.closeColumn_summary_ne⟩

end CodeProfile
