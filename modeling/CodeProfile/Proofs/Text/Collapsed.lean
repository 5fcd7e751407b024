import CodeProfile.Text.Budget

/-!
# Collapsed texts

A text is collapsed if it is a row of words with a single space between
them (`Collapsed`). The constructors follow the row word by word, so that
what is said of collapsed texts is proved by induction on them.

Collapsing gives a collapsed text (`collapsed_collapse`) and changes none
(`Collapsed.collapse_eq`). A collapsed text can be cut short anywhere: what
comes out, without the blanks at its end, is collapsed
(`Collapsed.trimEnd_of_start`) and stays so with more characters set behind
it (`Collapsed.append`). These are the four facts that shortening a text
needs.
-/

namespace CodeProfile.Text

/-- A word: at least one character, and no blanks. -/
structure Unspaced (w : List Char) : Prop where
  ne_nil : w ≠ []
  notBlank : ∀ c ∈ w, isBlank c = false

/-- Words in a row, with one space between them. -/
inductive Collapsed : List Char → Prop
  | nil : Collapsed []
  | word {w : List Char} (hw : Unspaced w) : Collapsed w
  | more {w cs : List Char} (hw : Unspaced w) (hcs : Collapsed cs) (hne : cs ≠ []) :
      Collapsed (w ++ ' ' :: cs)

variable {w u p cs : List Char} {s : String}

/-! ## Blanks at the ends -/

/-- What has no blanks stays where blanks behind it are dropped. -/
theorem dropBlanksRight_append {cs : List Char} (h : ∀ x ∈ cs, isBlank x = false)
    (rest : List Char) : dropBlanksRight (cs ++ rest) = cs ++ dropBlanksRight rest := by
  have hkeeps : cs.reverse.dropWhile isBlank = cs.reverse := by
    cases hcs : cs.reverse with
    | nil => rfl
    | cons x xs =>
        have hx : isBlank x = false := h x (List.mem_reverse.mp (by simp [hcs]))
        rw [List.dropWhile_cons_of_neg (by simp [hx])]
  rw [dropBlanksRight, dropBlanksRight, List.reverse_append, List.dropWhile_append, hkeeps]
  split
  · next hempty => simp [List.isEmpty_iff.mp hempty]
  · simp

theorem dropBlanksRight_of_unspaced (h : ∀ c ∈ w, isBlank c = false) : dropBlanksRight w = w := by
  have hrest := dropBlanksRight_append h []
  rwa [List.append_nil, show dropBlanksRight [] = [] from rfl, List.append_nil] at hrest

/-- A space stays only in front of something that stays. -/
theorem dropBlanksRight_space (cs : List Char) : dropBlanksRight (' ' :: cs)
    = if dropBlanksRight cs = [] then [] else ' ' :: dropBlanksRight cs := by
  simp only [dropBlanksRight, List.reverse_cons, List.dropWhile_append, List.isEmpty_iff,
    List.reverse_eq_nil_iff]
  split
  · rfl
  · simp

theorem dropBlanksRight_prefix (cs : List Char) : dropBlanksRight cs <+: cs := by
  rw [dropBlanksRight, ← List.reverse_suffix, List.reverse_reverse]
  exact List.dropWhile_suffix isBlank

/-- What neither starts nor ends with a blank has none to trim. -/
theorem trimChars_eq (hfirst : ∀ c ∈ cs.head?, isBlank c = false)
    (hlast : ∀ c ∈ cs.getLast?, isBlank c = false) : trimChars cs = cs := by
  have hkeeps {ds : List Char} (h : ∀ c ∈ ds.head?, isBlank c = false) :
      ds.dropWhile isBlank = ds := by
    cases ds with
    | nil => rfl
    | cons c ds => rw [List.dropWhile_cons, h c rfl, if_neg Bool.false_ne_true]
  rw [trimChars, hkeeps hfirst, dropBlanksRight, hkeeps (by rwa [List.head?_reverse]),
    List.reverse_reverse]

/-! ## Words -/

theorem splitChars_append {p : Char → Bool} (h : ∀ c ∈ w, p c = false) {piece : List Char}
    {pieces : List (List Char)} (hcs : splitChars p cs = piece :: pieces) :
    splitChars p (w ++ cs) = (w ++ piece) :: pieces := by
  induction w with
  | nil => exact hcs
  | cons c w ih =>
      have hrest := ih fun d hd => h d (List.mem_cons_of_mem c hd)
      simp [splitChars, hrest, h c List.mem_cons_self]

/-- What nothing divides is one piece. -/
theorem splitChars_undivided {p : Char → Bool} (h : ∀ c ∈ w, p c = false) :
    splitChars p w = [w] := by
  have hnone : splitChars p [] = [[]] := rfl
  simpa using splitChars_append h hnone

theorem wordsOf_unspaced (hw : Unspaced w) : wordsOf w = [w] := by
  simp [wordsOf, splitChars_undivided hw.notBlank, hw.ne_nil]

theorem wordsOf_more (hw : Unspaced w) (cs : List Char) :
    wordsOf (w ++ ' ' :: cs) = w :: wordsOf cs := by
  obtain ⟨piece, pieces, hcs⟩ := List.exists_cons_of_ne_nil (splitChars_ne_nil isBlank cs)
  have hspace : splitChars isBlank (' ' :: cs) = [] :: piece :: pieces := by
    simp [splitChars, hcs, show isBlank ' ' = true by decide]
  simp [wordsOf, splitChars_append hw.notBlank hspace, hcs, hw.ne_nil]

/-- What divides the pieces is in none of them. -/
theorem forall_mem_splitChars (p : Char → Bool) (cs : List Char) :
    ∀ piece ∈ splitChars p cs, ∀ c ∈ piece, p c = false := by
  induction cs with
  | nil => simp [splitChars]
  | cons c cs ih =>
      obtain ⟨piece, pieces, hcs⟩ := List.exists_cons_of_ne_nil (splitChars_ne_nil p cs)
      rw [hcs, List.forall_mem_cons] at ih
      cases hc : p c with
      | true => simpa [splitChars, hcs, hc] using ih
      | false => simpa [splitChars, hcs, hc] using ih

theorem unspaced_of_mem_wordsOf (h : w ∈ wordsOf cs) : Unspaced w := by
  obtain ⟨hmem, hne⟩ := List.mem_filter.mp h
  exact ⟨by simpa using hne, forall_mem_splitChars isBlank cs w hmem⟩

/-! ## Rows of words -/

/-- A collapsed text is the row of its words. -/
theorem Collapsed.intercalate_wordsOf (h : Collapsed cs) :
    [' '].intercalate (wordsOf cs) = cs := by
  induction h with
  | nil => rfl
  | word hw => simp [wordsOf_unspaced hw]
  | more hw _ hne ih =>
      have hwords : wordsOf _ ≠ [] := fun hnil => hne (by rw [← ih, hnil, List.intercalate_nil])
      rw [wordsOf_more hw, List.intercalate_cons_of_ne_nil hwords, ih, List.append_assoc,
        List.singleton_append]

theorem collapsed_intercalate {ws : List (List Char)} (h : ∀ w ∈ ws, Unspaced w) :
    Collapsed ([' '].intercalate ws) := by
  induction ws with
  | nil => exact .nil
  | cons w ws ih =>
      obtain ⟨hw, hws⟩ := List.forall_mem_cons.mp h
      cases ws with
      | nil => simpa using Collapsed.word hw
      | cons v ws =>
          have hne : [' '].intercalate (v :: ws) ≠ [] := by
            -- the row starts with its first word, which is not empty
            have hv := (hws v List.mem_cons_self).ne_nil
            cases ws <;> simp [hv]
          rw [List.intercalate_cons_cons, List.append_assoc, List.singleton_append]
          exact .more hw (ih hws) hne

theorem toList_collapse (s : String) :
    (collapse s).toList = [' '].intercalate (wordsOf s.toList) := by
  rw [collapse, join, words, String.toList_intercalate, List.map_map]
  simp [Function.comp_def]

theorem collapsed_collapse (s : String) : Collapsed (collapse s).toList := by
  rw [toList_collapse]
  exact collapsed_intercalate fun w hw => unspaced_of_mem_wordsOf hw

theorem Collapsed.collapse_eq (h : Collapsed s.toList) : collapse s = s := by
  rw [← String.toList_inj, toList_collapse, h.intercalate_wordsOf]

theorem Collapsed.append (h : Collapsed cs) (hu : Unspaced u) : Collapsed (cs ++ u) := by
  have hlonger {w : List Char} (hw : Unspaced w) : Unspaced (w ++ u) :=
    ⟨by simp [hw.ne_nil], fun c hc => (List.mem_append.mp hc).elim (hw.notBlank c) (hu.notBlank c)⟩
  induction h with
  | nil => exact .word hu
  | word hw => exact .word (hlonger hw)
  | more hw _ hne ih =>
      rw [List.append_assoc, List.cons_append]
      exact .more hw ih (by simp [hne])

theorem Unspaced.trimEnd_of_start (hw : Unspaced w) (hp : p <+: w) :
    Collapsed (dropBlanksRight p) := by
  have hblank : ∀ c ∈ p, isBlank c = false := fun c hc => hw.notBlank c (hp.subset hc)
  rw [dropBlanksRight_of_unspaced hblank]
  by_cases hnil : p = []
  · exact hnil ▸ .nil
  · exact .word ⟨hnil, hblank⟩

/-- What is left of a collapsed text where it is cut is collapsed, but for
the blanks at its end. -/
theorem Collapsed.trimEnd_of_start (h : Collapsed cs) (hp : p <+: cs) :
    Collapsed (dropBlanksRight p) := by
  induction h generalizing p with
  | nil => exact List.prefix_nil.mp hp ▸ .nil
  | word hw => exact hw.trimEnd_of_start hp
  | @more w cs hw _ _ ih =>
      -- the cut is in the first word, or in what stands behind its space
      rcases List.prefix_or_prefix_of_prefix hp (List.prefix_append w (' ' :: cs)) with hin | hout
      · exact hw.trimEnd_of_start hin
      obtain ⟨q, rfl⟩ := hout
      rw [List.prefix_append_right_inj, List.prefix_cons_iff] at hp
      rw [dropBlanksRight_append hw.notBlank]
      rcases hp with rfl | ⟨q, rfl, hq⟩
      · simpa [dropBlanksRight] using Collapsed.word hw
      · rw [dropBlanksRight_space]
        split
        · simpa using Collapsed.word hw
        · next hne => exact .more hw (ih hq) hne

/-- A collapsed text does not start with a blank, wherever it is cut. -/
theorem Collapsed.dropWhile_of_start (h : Collapsed cs) (hp : p <+: cs) :
    p.dropWhile isBlank = p := by
  have hhead : ∀ c ∈ cs.head?, isBlank c = false := by
    have hword {w : List Char} (hw : Unspaced w) (rest : List Char) :
        ∀ c ∈ (w ++ rest).head?, isBlank c = false := by
      obtain ⟨c, w, rfl⟩ := List.exists_cons_of_ne_nil hw.ne_nil
      simpa using hw.notBlank c List.mem_cons_self
    cases h with
    | nil => simp
    | word hw => simpa using hword hw []
    | more hw => exact hword hw _
  obtain ⟨rest, rfl⟩ := hp
  cases p with
  | nil => rfl
  | cons c p =>
      have hc : isBlank c = false := hhead c (by simp)
      rw [List.dropWhile_cons_of_neg (by simp [hc])]

end CodeProfile.Text
