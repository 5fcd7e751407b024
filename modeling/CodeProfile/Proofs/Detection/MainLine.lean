import CodeProfile.CodeType.Classification
import CodeProfile.Proofs.Text.Lines
import CodeProfile.Proofs.Text.Phrases

/-!
# The line of a main function

Where no adapter knows the language, a main function is found by its head:
words such as `int` or `static void`, the name and a bracket, from the
start of a line on (`MainHead`). Blanks may stand in front of the words
and behind each of them, and line feeds are blanks. The first head starts
where the pattern starts to read, on the first of all the blank lines
above the words, and this line is the one reported.

`mainLine_exact` says when that is the line of the name: exactly if no
line feed stands in front of the words or between them and the name.
-/

namespace CodeProfile

/-! ## The pattern -/

namespace Text.Pattern

variable {b w r : List Char}

/-- One of the phrases from the start of a line on, and then the name and a bracket. -/
def mainHead (phrases : List (List (List Char))) (initials : List Char) : Pattern :=
  seq empty (seq (anchor .lineStart) (seq blanks (seq (group 1 (choice (phrases.map phrase)))
    (seq gap (seq (one (.oneOf initials))
      (spelled ['a', 'i', 'n'] (seq blanks (char '('))))))))

theorem satisfies_lineStart {g : List GroupMatch} :
    (Cursor.here b r g).satisfies .lineStart = true ↔ b = [] ∨ b.head? = some '\n' := by
  simp [Cursor.satisfies, Cursor.here]

/-- What the pattern of a main function reads. -/
theorem reads_mainHead {phrases : List (List (List Char))} {initials : List Char}
    (h : ∀ ws ∈ phrases, ws ≠ []) : (mainHead phrases initials).Reads b w r ↔
      (b = [] ∨ b.head? = some '\n') ∧ ∃ lead words initial slack,
        w = lead ++ (words ++ ([initial] ++ (['a', 'i', 'n'] ++ (slack ++ ['('])))) ∧
        (∀ c ∈ lead, isBlank c = true) ∧ (∃ ws ∈ phrases, Spaced ws words)
        ∧ initial ∈ initials ∧ ∀ c ∈ slack, isBlank c = true := by
  constructor
  · rintro ⟨_, _, rfl, rfl, _, _, rfl, ⟨rfl, hstart⟩, lead, _, rfl, hlead, hrest⟩
    obtain ⟨words, _, rfl, ⟨u, v, rfl, hu, hv⟩, hname⟩ := reads_seq_assoc.mp hrest
    obtain ⟨p, hp, hu⟩ := (reads_choice _).mp hu
    obtain ⟨ws, hws, rfl⟩ := List.mem_map.mp hp
    obtain ⟨_, _, rfl, ⟨initial, rfl, hinitial⟩, hspelled⟩ := hname
    obtain ⟨_, rfl, slack, _, rfl, hslack, hbracket⟩ := (reads_spelled _).mp hspelled
    obtain rfl := reads_char.mp hbracket
    exact ⟨satisfies_lineStart.mp hstart, lead, u ++ v, initial, slack, rfl, reads_blanks.mp hlead,
      ⟨ws, hws, (reads_phrase_gap (h ws hws)).mp ⟨u, v, rfl, hu, hv⟩⟩,
      CharClass.holds_oneOf_iff.mp hinitial, reads_blanks.mp hslack⟩
  · rintro ⟨hstart, lead, words, initial, slack, rfl, hlead, ⟨ws, hws, hwords⟩, hinitial, hslack⟩
    obtain ⟨u, v, rfl, hu, hv⟩ := (reads_phrase_gap (h ws hws)).mpr hwords
    have hchoice := (reads_choice (phrases.map phrase)).mpr ⟨_, List.mem_map_of_mem hws, hu⟩
    refine ⟨[], _, rfl, rfl, [], _, rfl, ⟨rfl, satisfies_lineStart.mpr hstart⟩, lead, _, rfl,
      reads_blanks.mpr hlead, reads_seq_assoc.mpr ⟨u ++ v, _, rfl, ⟨u, v, rfl, hchoice, hv⟩, ?_⟩⟩
    refine ⟨[initial], _, rfl, ⟨initial, rfl, CharClass.holds_oneOf_iff.mpr hinitial⟩, ?_⟩
    exact (reads_spelled _).mpr
      ⟨_, rfl, slack, ['('], rfl, reads_blanks.mpr hslack, reads_char.mpr rfl⟩

end Text.Pattern

namespace CodeType

open Text

/-- The words that stand in front of the name of a main function. -/
def mainPhrases : Language → List (List String)
  | .c | .cpp => [["int"], ["void"]]
  | _ => [["public", "static", "void"], ["static", "void"], ["func"], ["fn"], ["def"], ["fun"]]

/-- The letters that the name of a main function starts with. -/
def mainInitials : Language → List Char
  | .c | .cpp => ['m']
  | _ => ['M', 'm']

def mainPattern : Language → Pattern
  | .c | .cpp => cMain
  | _ => anyMain

theorem mainPattern_eq (l : Language) :
    mainPattern l = .mainHead ((mainPhrases l).map (·.map String.toList)) (mainInitials l) := by
  have hc : cMain = .mainHead ((mainPhrases .c).map (·.map String.toList)) (mainInitials .c) := by
    decide +kernel
  have hany : anyMain =
      .mainHead ((mainPhrases .unknown).map (·.map String.toList)) (mainInitials .unknown) := by
    decide +kernel
  cases l
  case c | cpp => exact hc
  all_goals exact hany

theorem textualEntryPoints_eq (source : String) (l : Language) : textualEntryPoints source l =
    (((mainPattern l).find? source).map fun m => ⟨"main", .mainFunction, m.line⟩).toList := by
  cases l <;> rfl

/-- The head of a main function in a text: blanks from the start of a line on, the words in front
of the name, each with blanks behind it, the name, and a bracket. -/
structure MainHead (source : String) (l : Language) where
  before : List Char
  lead : List Char
  words : List Char
  initial : Char
  slack : List Char
  after : List Char
  source_eq : source.toList =
    before ++ (lead ++ (words ++ ([initial] ++ (['a', 'i', 'n'] ++ (slack ++ ['('])))) ++ after)
  lineStart : before = [] ∨ before.getLast? = some '\n'
  lead_blank : ∀ c ∈ lead, isBlank c = true
  words_spaced : ∃ ws ∈ mainPhrases l, Spaced (ws.map String.toList) words
  initial_mem : initial ∈ mainInitials l
  slack_blank : ∀ c ∈ slack, isBlank c = true

namespace MainHead

variable {source : String} {l : Language}

/-- The line on which the blanks in front of the head start. -/
def startLine (h : MainHead source l) : Nat := lineOfByte source (byteLength h.before)

/-- The line that the name stands on. -/
def nameLine (h : MainHead source l) : Nat :=
  lineOfByte source (byteLength (h.before ++ (h.lead ++ h.words)))

/-- Whether no head starts further left. -/
def IsFirst (h : MainHead source l) : Prop :=
  ∀ h' : MainHead source l, h.before.length ≤ h'.before.length

theorem startLine_eq (h : MainHead source l) : h.startLine = h.before.count '\n' + 1 :=
  lineOfByte_byteLength h.source_eq

theorem nameLine_eq (h : MainHead source l) :
    h.nameLine = h.startLine + (h.lead.count '\n' + h.words.count '\n') := by
  have hsplit : source.toList = (h.before ++ (h.lead ++ h.words))
      ++ (([h.initial] ++ (['a', 'i', 'n'] ++ (h.slack ++ ['(']))) ++ h.after) := by
    rw [h.source_eq]
    simp only [List.append_assoc]
  rw [nameLine, lineOfByte_byteLength hsplit, startLine_eq, List.count_append, List.count_append,
    Nat.add_right_comm]

/-- The name stands on the line where the head starts if no line feed comes between. -/
theorem startLine_eq_nameLine_iff (h : MainHead source l) :
    h.startLine = h.nameLine ↔ '\n' ∉ h.lead ∧ '\n' ∉ h.words := by
  rw [nameLine_eq, ← List.count_eq_zero, ← List.count_eq_zero]
  omega

end MainHead

variable {source : String} {l : Language}

theorem isBlank_of_mem_mainInitials {c : Char} (h : c ∈ mainInitials l) : isBlank c = false := by
  have hall : (mainInitials l).all (!isBlank ·) = true := by
    cases l <;> rfl
  simpa using List.all_eq_true.mp hall c h

theorem isWord_of_mem_mainPhrases :
    ∀ ws ∈ mainPhrases l, ∀ w ∈ ws.map String.toList, IsWord (mainInitials l) w := by
  cases l <;> decide +kernel

namespace MainHead

/-- The name and all that follows it. -/
def rest (h : MainHead source l) : List Char :=
  [h.initial] ++ (['a', 'i', 'n'] ++ (h.slack ++ ['('])) ++ h.after

theorem startsIn_rest (h : MainHead source l) : StartsIn (mainInitials l) h.rest :=
  ⟨h.initial, _, rfl, h.initial_mem, isBlank_of_mem_mainInitials h.initial_mem⟩

/-- All first heads have their name in one place. -/
theorem IsFirst.same {h h' : MainHead source l} (hfirst : h.IsFirst) (hfirst' : h'.IsFirst) :
    h.before = h'.before ∧ h.nameLine = h'.nameLine := by
  have hlength := Nat.le_antisymm (hfirst h') (hfirst' h)
  have heq (h : MainHead source l) :
      source.toList = h.before ++ (h.lead ++ (h.words ++ h.rest)) := by
    rw [h.source_eq, rest]
    simp only [List.append_assoc]
  obtain ⟨hbefore, htext⟩ := List.append_inj ((heq h).symm.trans (heq h')) hlength
  obtain ⟨ws, hws, hwords⟩ := h.words_spaced
  obtain ⟨ws', hws', hwords'⟩ := h'.words_spaced
  have hisWord := isWord_of_mem_mainPhrases ws hws
  have hisWord' := isWord_of_mem_mainPhrases ws' hws'
  obtain ⟨hlead, hnext⟩ := span_unique h.lead_blank h'.lead_blank
    (hwords.head_notBlank hisWord h.startsIn_rest)
    (hwords'.head_notBlank hisWord' h'.startsIn_rest) htext
  have hsame :=
    hwords.unique hwords' hisWord hisWord' h.startsIn_rest h'.startsIn_rest hnext
  exact ⟨hbefore, by rw [nameLine, nameLine, hbefore, hlead, hsame]⟩

end MainHead

theorem mainPhrases_ne_nil : ∀ ws ∈ (mainPhrases l).map (·.map String.toList), ws ≠ [] := by
  cases l <;> decide

/-- The pattern reads something exactly where a head starts. -/
theorem readsBehind_mainPattern_iff (u : List Char) :
    (mainPattern l).ReadsBehind [] source.toList u ↔ ∃ h : MainHead source l, h.before = u := by
  have hstart (u : List Char) : (u.reverse ++ [] = [] ∨ (u.reverse ++ []).head? = some '\n') ↔
      (u = [] ∨ u.getLast? = some '\n') := by
    rw [List.append_nil, List.reverse_eq_nil_iff, List.head?_reverse]
  constructor
  · rintro ⟨w, r, hsource, hw⟩
    rw [mainPattern_eq, Pattern.reads_mainHead mainPhrases_ne_nil, hstart] at hw
    obtain ⟨hline, lead, words, initial, slack, rfl, hlead, ⟨ws, hws, hwords⟩, hinitial, hslack⟩ :=
      hw
    obtain ⟨phrase, hphrase, rfl⟩ := List.mem_map.mp hws
    exact ⟨⟨u, lead, words, initial, slack, r, hsource, hline, hlead, ⟨phrase, hphrase, hwords⟩,
      hinitial, hslack⟩, rfl⟩
  · rintro ⟨h, rfl⟩
    obtain ⟨phrase, hphrase, hwords⟩ := h.words_spaced
    refine ⟨_, h.after, h.source_eq, ?_⟩
    rw [mainPattern_eq, Pattern.reads_mainHead mainPhrases_ne_nil, hstart]
    exact ⟨h.lineStart, h.lead, h.words, h.initial, h.slack, rfl, h.lead_blank,
      ⟨_, List.mem_map_of_mem hphrase, hwords⟩, h.initial_mem, h.slack_blank⟩

/-- A main function is found in a text exactly if there is a head of one, on the line where the
first head starts. This is the line of its name exactly if no line feed stands between the two. -/
theorem mainLine_exact (source : String) (l : Language) :
    (textualEntryPoints source l ≠ [] ↔ ∃ h : MainHead source l, h.IsFirst)
      ∧ ∀ h : MainHead source l, h.IsFirst →
        textualEntryPoints source l = [⟨"main", .mainFunction, h.startLine⟩]
          ∧ (h.startLine = h.nameLine ↔ '\n' ∉ h.lead ∧ '\n' ∉ h.words)
          ∧ ∀ h' : MainHead source l, h'.IsFirst → h'.nameLine = h.nameLine := by
  rw [textualEntryPoints_eq]
  cases hfound : (mainPattern l).find? source with
  | none =>
      have hnone (h : MainHead source l) : False :=
        Pattern.find?_eq_none_iff.mp hfound _ ((readsBehind_mainPattern_iff _).mpr ⟨h, rfl⟩)
      exact ⟨iff_of_false (fun h => h rfl) fun ⟨h, _⟩ => hnone h, fun h => (hnone h).elim⟩
  | some m =>
      obtain ⟨u, w, r, hsource, hreads, hbefore, -, hleast⟩ := Pattern.leftmost_of_find? hfound
      rw [← List.append_nil u.reverse] at hreads
      obtain ⟨h, rfl⟩ := (readsBehind_mainPattern_iff u).mp ⟨w, r, hsource, hreads⟩
      have hfirst : h.IsFirst := fun h' =>
        hleast _ ((readsBehind_mainPattern_iff _).mpr ⟨h', rfl⟩)
      refine ⟨iff_of_true (List.cons_ne_nil _ _) ⟨h, hfirst⟩, fun h' hfirst' => ⟨?_, ?_, ?_⟩⟩
      · have hline : m.line = h'.startLine := by
          rw [Match.line, hbefore, List.count_reverse, (hfirst.same hfirst').1, h'.startLine_eq]
        rw [Option.map_some, Option.toList_some, hline]
      · exact h'.startLine_eq_nameLine_iff
      · exact fun h'' hfirst'' => (hfirst''.same hfirst').2

namespace MainOfC

/-! The same head in two texts of C, on the first line and behind a blank line. -/

theorem int_spaced : ∃ ws ∈ mainPhrases .c, Spaced (ws.map String.toList) ['i', 'n', 't', ' '] :=
  ⟨["int"], by decide, [' '], [], rfl,
    ⟨List.cons_ne_nil _ _, List.forall_mem_singleton.mpr rfl⟩, rfl⟩

def onFirstLine : MainHead "int main() \x7b\x7d" .c :=
  ⟨[], [], ['i', 'n', 't', ' '], 'm', [], [')', ' ', '{', '}'], by decide, .inl rfl, nofun,
    int_spaced, by decide, nofun⟩

def behindBlankLine : MainHead "\nint main() \x7b\x7d" .c :=
  ⟨[], ['\n'], ['i', 'n', 't', ' '], 'm', [], [')', ' ', '{', '}'], by decide, .inl rfl,
    List.forall_mem_singleton.mpr rfl, int_spaced, by decide, nofun⟩

end MainOfC

open MainOfC in
/-- On the first line of a text, a main function is found where its name stands. -/
theorem mainLine_onFirstLine :
    onFirstLine.IsFirst
      ∧ textualEntryPoints "int main() \x7b\x7d" .c =
          [⟨"main", .mainFunction, onFirstLine.nameLine⟩]
      ∧ onFirstLine.nameLine = 1 := by
  have hfirst : onFirstLine.IsFirst := fun _ => Nat.zero_le _
  obtain ⟨hfound, hline, -⟩ := (mainLine_exact "int main() \x7b\x7d" .c).2 onFirstLine hfirst
  exact ⟨hfirst, hline.mpr ⟨by decide, by decide⟩ ▸ hfound, by decide +kernel⟩

open MainOfC in
/-- Behind a blank line a main function is found on that line, and its name stands on the next. -/
theorem mainLine_behindBlankLine :
    textualEntryPoints "\nint main() \x7b\x7d" .c = [⟨"main", .mainFunction, 1⟩]
      ∧ behindBlankLine.IsFirst ∧ behindBlankLine.nameLine = 2 :=
  ⟨by decide +kernel, fun _ => Nat.zero_le _, by decide +kernel⟩

end CodeType

end CodeProfile
