import CodeProfile.Proofs.Text.Collapsed
import CodeProfile.Proofs.Text.Words

/-!
# Loops up to a variable

What the bound of a loop is read as when the loop counts up to a variable
`v`, for every identifier `v` that is no keyword and all numerals that
stand around it. The headline is `variable_bounds`. A range that starts at
no stated place, a range with dots and a loop that counts by addition are
symbolic. A numeral that starts a call of `range` is taken for its bound
instead, and so is the numeral of a step by shifts, whose second sign
passes for a comparison: such loops are constant as long as the numeral
fits 64 bits. A shift by one is the exception, since halving is read first.

The headers and the ranges are followed through the patterns separately.
Each part asks for a numeral, for the size of a collection and for a name,
in the order in which a bound is looked for.
-/

namespace CodeProfile

namespace LoopBounds

open Text Pattern CharClass Cursor

/-! ## The patterns of bounds -/

/-- What the texts of the patterns are read as. -/
theorem patterns_read :
    numericUpper = upper numeral numeral ∧ nameUpper = upper (run word word) name
      ∧ lengthCall = sizeCall
      ∧ (sizeAccess.openings = some [letter] ∧ sizeAccess.needs ['.'] = true)
      ∧ halving.without ['*', '/', '>'] = group 1 shift := by
  decide +kernel

theorem numericUpper_eq : numericUpper = upper numeral numeral := patterns_read.1

theorem nameUpper_eq : nameUpper = upper (run word word) name := patterns_read.2.1

theorem lengthCall_eq : lengthCall = sizeCall := patterns_read.2.2.1

theorem needs_lengthCall : lengthCall.needs ['('] = true := lengthCall_eq ▸ rfl

theorem sizeAccess_facts :
    sizeAccess.openings = some [letter] ∧ sizeAccess.needs ['.'] = true := patterns_read.2.2.2.1

theorem halving_shift : halving.without ['*', '/', '>'] = group 1 shift := patterns_read.2.2.2.2

theorem numericUpper_comparison :
    numericUpper.without ['>', '(', '.'] = group 1 (comparison numeral) := numericUpper_eq ▸ rfl

theorem nameUpper_comparison :
    nameUpper.without ['>', '(', '.'] = group 1 (comparison name) := nameUpper_eq ▸ rfl

theorem numericUpper_rangeCall :
    numericUpper.without ['<', '>', '.'] = group 1 (rangeCall numeral numeral) :=
  numericUpper_eq ▸ rfl

theorem nameUpper_rangeCall :
    nameUpper.without ['<', '>', '.'] = group 1 (rangeCall (run word word) name) :=
  nameUpper_eq ▸ rfl

theorem numericUpper_dots :
    numericUpper.without ['<', '>', '('] = group 1 (dots numeral) := numericUpper_eq ▸ rfl

theorem nameUpper_dots :
    nameUpper.without ['<', '>', '('] = group 1 (dots name) := nameUpper_eq ▸ rfl

/-! ## Reading the groups -/

def groupText (i : Nat) (gs : List GroupMatch) : Option String :=
  (gs.find? (·.index = i)).map (·.text)

/-- What the groups of an upper bound have matched. -/
def upperTexts (gs : List GroupMatch) : List String := upperGroups.filterMap (groupText · gs)

theorem numericBound?_eq (text : String) : numericBound? text =
    ((numericUpper.groupsFrom [] text.toList).map upperTexts).bind (·.findSome? readWord64?) := by
  rw [← find?_groups, numericBound?]
  cases numericUpper.find? text with
  | none => rfl
  | some m =>
      have hall (is : List Nat) : is.findSome? (fun i => (m.group? i).bind readWord64?) =
          (is.filterMap m.group?).findSome? readWord64? := by
        induction is with
        | nil => rfl
        | cons i is ih =>
            rw [List.findSome?_cons, List.filterMap_cons, ih]
            cases m.group? i <;> rfl
      exact hall upperGroups

theorem numericBound?_of_groups {text w : String}
    (h : (numericUpper.groupsFrom [] text.toList).map upperTexts = some [w]) :
    numericBound? text = readWord64? w := by
  rw [numericBound?_eq, h, Option.bind_some, List.findSome?_singleton]

theorem nameBound?_of_groups {text v : String}
    (h : (nameUpper.groupsFrom [] text.toList).map upperTexts = some [v])
    (hv : isKeyword v = false) : nameBound? text = some v := by
  obtain ⟨gs, hgs, htexts⟩ := Option.map_eq_some_iff.mp h
  obtain ⟨m, ms, hmatches, rfl⟩ := matchesIn_of_groupsFrom hgs
  have hfound : (upperGroups.filterMap m.group?).find? (fun name => !isKeyword name) = some v := by
    have htexts : upperGroups.filterMap m.group? = [v] := htexts
    rw [htexts, List.find?_cons_of_pos (by rw [hv]; rfl)]
  rw [nameBound?, hmatches, List.findSome?_cons, hfound]

theorem sizeVariable?_eq (text : String) : sizeVariable? text =
    ((sizeAccess.groupsFrom [] text.toList).bind (groupText 1)).or
      ((lengthCall.groupsFrom [] text.toList).bind (groupText 2)) := by
  rw [← find?_groups, ← find?_groups, Option.bind_map, Option.bind_map]
  rfl

theorem sizeVariable?_eq_none {text : String}
    (haccess : sizeAccess.groupsFrom [] text.toList = none)
    (hcall : lengthCall.groupsFrom [] text.toList = none) : sizeVariable? text = none := by
  rw [sizeVariable?_eq, haccess, hcall]
  rfl

theorem isMatch_eq_isSome (p : Pattern) (s : String) :
    p.isMatch s = (p.groupsFrom [] s.toList).isSome := by
  rw [isMatch, ← find?_groups, Option.isSome_map]

theorem upperTexts_bound {j n n' : Nat} {t w : String} (hj : j ∈ upperGroups) :
    some (upperTexts [⟨1, n, t⟩, ⟨j, n', String.ofList w.toList⟩]) = some [w] := by
  simp only [upperGroups, List.mem_cons, List.not_mem_nil, or_false] at hj
  rw [String.ofList_toList]
  rcases hj with rfl | rfl | rfl | rfl <;> rfl

/-! ## Headers that count -/

section

variable {i v a k step : String}

/-- The header of a loop that counts `i` from `a` on in steps of `k`, up to `v`. -/
def countingHeader (i a v step k : String) : String :=
  i ++ " = " ++ a ++ "; " ++ i ++ " < " ++ v ++ "; " ++ i ++ " " ++ step ++ " " ++ k

def beforeComparison (i a : String) : List Char :=
  i.toList ++ [' ', '=', ' '] ++ a.toList ++ [';', ' '] ++ i.toList ++ [' ']

/-- What stands between the bound and the step. -/
def behindBound (i : String) : List Char := [';', ' '] ++ i.toList ++ [' ']

theorem toList_countingHeader : (countingHeader i a v step k).toList =
    beforeComparison i a ++ '<' :: ([' '] ++ (v.toList ++ (behindBound i ++
      (step.toList ++ ' ' :: k.toList)))) := by
  simp [countingHeader, beforeComparison, behindBound, String.toList_append]

theorem wordsAnd_beforeComparison (hi : IsIdentifier i) (ha : IsNumeral a) :
    WordsAnd [' ', '=', ';'] (beforeComparison i a) := by
  simp [beforeComparison, hi.wordsAnd, ha.wordsAnd]

theorem wordsAnd_countingHeader (hi : IsIdentifier i) (ha : IsNumeral a) (hv : IsIdentifier v)
    (hk : IsNumeral k) (hstep : step ∈ ["+=", "<<="]) :
    WordsAnd [' ', '=', ';', '<', '+'] (countingHeader i a v step k).toList := by
  simp only [List.mem_cons, List.not_mem_nil, or_false] at hstep
  rcases hstep with rfl | rfl <;>
    simp [countingHeader, String.toList_append, hi.wordsAnd, ha.wordsAnd, hv.wordsAnd, hk.wordsAnd]

theorem stopsAt_behindBound {rest : List Char} : StopsAt word (behindBound i ++ rest) :=
  stopsAt_cons (by decide)

variable (hi : IsIdentifier i) (ha : IsNumeral a) (hv : IsIdentifier v) (hk : IsNumeral k)
  (hstep : step ∈ ["+=", "<<="])
include hi ha hv hk hstep

theorem sizeVariable?_countingHeader : sizeVariable? (countingHeader i a v step k) = none := by
  have hwords := wordsAnd_countingHeader hi ha hv hk hstep
  refine sizeVariable?_eq_none ?_ ?_
  · exact groupsFrom_of_needs sizeAccess_facts.2 (hwords.apart (by decide))
  · exact groupsFrom_of_needs needs_lengthCall (hwords.apart (by decide))

theorem nameBound?_countingHeader (hkey : isKeyword v = false) :
    nameBound? (countingHeader i a v step k) = some v := by
  have hwords := wordsAnd_countingHeader hi ha hv hk hstep
  refine nameBound?_of_groups ?_ hkey
  rw [groupsFrom_of_without nameUpper_comparison (hwords.apart (by decide)), toList_countingHeader]
  refine groupsFrom_found ((wordsAnd_beforeComparison hi ha).not_mem (by decide) (by decide)) ?_
  exact first_behindMark 2 hv.name stopsAt_behindBound stopsAt_behindBound (by simp)
    (upperTexts_bound (by decide))

/-- A numeral is looked for behind the comparison with a name. -/
theorem numericUpper_countingHeader :
    numericUpper.groupsFrom [] (countingHeader i a v step k).toList =
      (group 1 (comparison numeral)).groupsFrom ('<' :: (beforeComparison i a).reverse)
        ([' '] ++ (v.toList ++ (behindBound i ++ (step.toList ++ ' ' :: k.toList)))) := by
  have hwords := wordsAnd_countingHeader hi ha hv hk hstep
  obtain ⟨c, cs, hcs, -, hc, hblank⟩ :=
    hv.starts (behindBound i ++ (step.toList ++ ' ' :: k.toList))
  rw [groupsFrom_of_without numericUpper_comparison (hwords.apart (by decide)),
    toList_countingHeader, hcs]
  rw [comparison, groupsFrom_failing, List.append_nil]
  · exact (wordsAnd_beforeComparison hi ha).not_mem (by decide) (by decide)
  · intro _
    exact first_behindMark_blank_of_not 2 (holds_digit.trans hc) (by decide) hblank

theorem halving_countingHeader :
    halving.groupsFrom [] (countingHeader i a v step k).toList =
      (group 1 shift).groupsFrom ('<' :: (beforeComparison i a).reverse)
        ([' '] ++ (v.toList ++ (behindBound i ++ (step.toList ++ ' ' :: k.toList)))) := by
  have hwords := wordsAnd_countingHeader hi ha hv hk hstep
  rw [groupsFrom_of_without halving_shift (hwords.apart (by decide)), toList_countingHeader, shift,
    groupsFrom_failing, List.append_nil]
  · exact (wordsAnd_beforeComparison hi ha).not_mem (by decide) (by decide)
  · intro _
    exact first_shiftTail_of_ne (by decide)

end

/-! ### Steps -/

section

variable {i v a k : String}

theorem shift_split : [' '] ++ (v.toList ++ (behindBound i ++ ("<<=".toList ++ ' ' :: k.toList))) =
    [' '] ++ v.toList ++ behindBound i ++ '<' :: (['<', '='] ++ ' ' :: k.toList) := by simp

theorem not_mem_between (hi : IsIdentifier i) (hv : IsIdentifier v) :
    '<' ∉ [' '] ++ v.toList ++ behindBound i := by
  have hwords : WordsAnd [' ', ';'] ([' '] ++ v.toList ++ behindBound i) := by
    simp [behindBound, hi.wordsAnd, hv.wordsAnd]
  exact hwords.not_mem (by decide) (by decide)

variable (hi : IsIdentifier i) (ha : IsNumeral a) (hv : IsIdentifier v) (hk : IsNumeral k)
include hi ha hv hk

theorem ofHeader_adding (hkey : isKeyword v = false) :
    ofHeader (countingHeader i a v "+=" k) = symbolic v := by
  have hstep : "+=" ∈ ["+=", "<<="] := by decide
  have hrest :
      '<' ∉ [' '] ++ (v.toList ++ (behindBound i ++ ("+=".toList ++ ' ' :: k.toList))) := by
    have hwords : WordsAnd [' ', ';', '+', '=']
        ([' '] ++ (v.toList ++ (behindBound i ++ ("+=".toList ++ ' ' :: k.toList)))) := by
      simp [behindBound, hi.wordsAnd, hv.wordsAnd, hk.wordsAnd]
    exact hwords.not_mem (by decide) (by decide)
  have hhalving : halving.isMatch (countingHeader i a v "+=" k) = false := by
    rw [isMatch_eq_isSome, halving_countingHeader hi ha hv hk hstep, shift,
      groupsFrom_unmarked hrest]
    rfl
  have hnumeral : numericBound? (countingHeader i a v "+=" k) = none := by
    rw [numericBound?_eq, numericUpper_countingHeader hi ha hv hk hstep, comparison,
      groupsFrom_unmarked hrest]
    rfl
  rw [ofHeader, hhalving, if_neg Bool.false_ne_true, sizeVariable?_countingHeader hi ha hv hk hstep,
    hnumeral, nameBound?_countingHeader hi ha hv hk hstep hkey]

theorem isMatch_halving_shifting :
    halving.isMatch (countingHeader i a v "<<=" k) = decide (k = "1") := by
  have hbetween := not_mem_between hi hv
  have hone : k.toList = "1".toList ↔ k = "1" := String.toList_inj
  rw [isMatch_eq_isSome, halving_countingHeader hi ha hv hk (by decide), shift_split, shift]
  by_cases h : k = "1"
  · have hfound : ((group 1 (seq (char '<') shiftTail)).groupsFrom
        ('<' :: (beforeComparison i a).reverse) ([' '] ++ v.toList ++ behindBound i ++
          '<' :: (['<', '='] ++ ' ' :: k.toList))).map (fun _ => ()) = some () :=
      groupsFrom_found hbetween ((first_shiftTail hk.digits).trans (if_pos (hone.mpr h)))
    rw [← Option.isSome_map, hfound, decide_eq_true h]
    rfl
  · -- the second sign is in front of `=`, and no third one comes
    have hsigns : ['<', '='] ++ ' ' :: k.toList = [] ++ '<' :: ('=' :: ' ' :: k.toList) := rfl
    have hbehind : '<' ∉ '=' :: ' ' :: k.toList := by
      have hwords : WordsAnd [' ', '='] ('=' :: ' ' :: k.toList) := by simp [hk.wordsAnd]
      exact hwords.not_mem (by decide) (by decide)
    rw [groupsFrom_failing hbetween fun _ =>
        (first_shiftTail hk.digits).trans (if_neg (mt hone.mp h)), hsigns,
      groupsFrom_failing List.not_mem_nil fun _ => first_shiftTail_of_ne (by decide),
      groupsFrom_unmarked hbehind, decide_eq_false h]
    rfl

/-- The second sign of the shift passes for a comparison with the step. -/
theorem numericBound?_shifting : numericBound? (countingHeader i a v "<<=" k) = readWord64? k := by
  have hsigns : ['<', '='] ++ ' ' :: k.toList = [] ++ '<' :: (['=', ' '] ++ (k.toList ++ [])) := by
    simp
  apply numericBound?_of_groups
  rw [numericUpper_countingHeader hi ha hv hk (by decide), shift_split, comparison,
    groupsFrom_failing (not_mem_between hi hv), hsigns]
  · -- behind the first sign stands the second, behind the second stand `=` and the step
    refine groupsFrom_found List.not_mem_nil ?_
    exact first_behindMark 2 hk.digits stopsAt_nil stopsAt_nil (by simp)
      (upperTexts_bound (by decide))
  · intro _
    exact first_behindMark_of_not 2 (by decide) (by decide) (by decide)

theorem ofHeader_shifting (hkey : isKeyword v = false) :
    ofHeader (countingHeader i a v "<<=" k) =
      if k = "1" then logarithmic (some v) else (readWord64? k).elim (symbolic v) constant := by
  have hstep : "<<=" ∈ ["+=", "<<="] := by decide
  rw [ofHeader, isMatch_halving_shifting hi ha hv hk,
    sizeVariable?_countingHeader hi ha hv hk hstep, numericBound?_shifting hi ha hv hk,
    nameBound?_countingHeader hi ha hv hk hstep hkey, Option.none_or]
  by_cases h : k = "1"
  · rw [if_pos h, if_pos (decide_eq_true h)]
  · rw [if_neg h, if_neg (by rw [decide_eq_false h]; exact Bool.false_ne_true)]
    cases readWord64? k <;> rfl

end

/-! ## Ranges -/

section

variable {v a : String} {cs : List Char}

/-- What a range is read as, once its parts are known. -/
theorem ofIterable_range {text : String} (htrim : trimChars text.toList = text.toList)
    (hrange : (hasStart text "range" || holds text "..") = true) :
    ofIterable text = (numericBound? text).elim ((sizeVariable? text).elim
      ((nameBound? text).elim (if text.isEmpty then unknown else input text) symbolic) input)
      constant := by
  have htrim : trim text = text := by rw [trim, htrim, String.ofList_toList]
  rw [ofIterable]
  simp only [htrim, hrange]
  cases numericBound? text with
  | some n => rfl
  | none =>
      cases sizeVariable? text with
      | some w => rfl
      | none => cases nameBound? text <;> rfl

theorem toList_rangeTo : ("range(" ++ v ++ ")").toList =
    ['r', 'a', 'n', 'g', 'e', '('] ++ (v.toList ++ [')']) := by
  simp [String.toList_append]

theorem toList_rangeFrom {rest : String} : ("range(" ++ a ++ ", " ++ rest).toList =
    ['r', 'a', 'n', 'g', 'e', '('] ++ (a.toList ++ ',' :: ' ' :: rest.toList) := by
  simp [String.toList_append]

theorem wordsAnd_rangeTo (hv : IsIdentifier v) :
    WordsAnd ['(', ')'] ("range(" ++ v ++ ")").toList := by
  rw [toList_rangeTo, wordsAnd_append, wordsAnd_append]
  exact ⟨by decide, hv.wordsAnd, by decide⟩

theorem wordsAnd_rangeFrom (ha : IsNumeral a) {rest : String}
    (hrest : WordsAnd ['(', ')', ',', ' '] rest.toList) :
    WordsAnd ['(', ')', ',', ' '] ("range(" ++ a ++ ", " ++ rest).toList := by
  rw [toList_rangeFrom, wordsAnd_append, wordsAnd_append]
  have hseparated : WordsAnd ['(', ')', ',', ' '] (',' :: ' ' :: rest.toList) :=
    wordsAnd_cons.mpr ⟨by decide, wordsAnd_cons.mpr ⟨by decide, hrest⟩⟩
  exact ⟨by decide, ha.wordsAnd, hseparated⟩

theorem wordsAnd_stop (hv : IsIdentifier v) :
    WordsAnd ['(', ')', ',', ' '] (v ++ ")").toList := by
  simp [hv.wordsAnd]

/-! ### Numerals in ranges -/

theorem numericBound?_rangeTo (hv : IsIdentifier v) :
    numericBound? ("range(" ++ v ++ ")") = none := by
  obtain ⟨c, cs, hcs, -, hc, hblank⟩ := hv.starts [')']
  have hdigit : digit.holds c = false := holds_digit.trans hc
  have hargument : '(' ∉ v.toList ++ [')'] := by
    have hwords : WordsAnd [')'] (v.toList ++ [')']) := by simp [hv.wordsAnd]
    exact hwords.not_mem (by decide) (by decide)
  rw [numericBound?_eq,
    groupsFrom_of_without numericUpper_rangeCall ((wordsAnd_rangeTo hv).apart (by decide)),
    toList_rangeTo, groupsFrom_rangeCall_none (stopsAt_blank_run hv.name) hargument]
  · rfl
  · intro κ
    rw [hcs]
    exact first_passedOver_of_not hdigit
  · intro κ
    rw [hcs]
    exact first_argument_of_not hdigit

/-- In front of a bound that is no numeral, the start is taken for the bound. -/
theorem numericBound?_rangeFrom (ha : IsNumeral a) {rest : String} {c : Char} {cs : List Char}
    (hrest : rest.toList = c :: cs) (hc : isDecimalDigit c = false) (hblank : isBlank c = false)
    (hwords : WordsAnd ['(', ')', ',', ' '] rest.toList) :
    numericBound? ("range(" ++ a ++ ", " ++ rest) = readWord64? a := by
  apply numericBound?_of_groups
  have hall := wordsAnd_rangeFrom ha hwords
  rw [groupsFrom_of_without numericUpper_rangeCall (hall.apart (by decide)), toList_rangeFrom]
  refine groupsFrom_of_first ?_
  rw [first_group, first_rangeCall numeral numeral (stopsAt_blank_run ha.digits), numeral,
    first_passedOver ha.digits (by decide) (by decide), hrest, first_seq, first_char_self,
    first_blanks_space (stopsAt_blank hblank), first_argument_of_not (holds_digit.trans hc),
    first_argument_of_not (by decide), Option.or_none, Option.none_or]
  exact first_argument ha.digits (by decide) (.inl rfl) (upperTexts_bound (by decide))

/-! ### Sizes in ranges -/

/-- `range` is no size, so its arguments would have to ask for one. -/
theorem lengthCall_rangeCall {arguments : List Char} (h : WordsAnd [')', ',', ' '] arguments) :
    lengthCall.groupsFrom [] (['r', 'a', 'n', 'g', 'e', '('] ++ arguments) = none := by
  rw [lengthCall_eq, groupsFrom_sizeCall_skip (by decide) (by decide) (by decide),
    ← lengthCall_eq]
  exact groupsFrom_of_needs needs_lengthCall (h.apart (by decide))

theorem sizeVariable?_rangeTo (hv : IsIdentifier v) :
    sizeVariable? ("range(" ++ v ++ ")") = none := by
  have hargument : WordsAnd [')', ',', ' '] (v.toList ++ [')']) := by simp [hv.wordsAnd]
  refine sizeVariable?_eq_none ?_ ?_
  · exact groupsFrom_of_needs sizeAccess_facts.2 ((wordsAnd_rangeTo hv).apart (by decide))
  · rw [toList_rangeTo]
    exact lengthCall_rangeCall hargument

theorem sizeVariable?_rangeFrom (ha : IsNumeral a) (hv : IsIdentifier v) :
    sizeVariable? ("range(" ++ a ++ ", " ++ (v ++ ")")) = none := by
  have hwords := wordsAnd_rangeFrom ha (wordsAnd_stop hv)
  have harguments : WordsAnd [')', ',', ' '] (a.toList ++ ',' :: ' ' :: (v ++ ")").toList) := by
    simp [ha.wordsAnd, hv.wordsAnd]
  refine sizeVariable?_eq_none ?_ ?_
  · exact groupsFrom_of_needs sizeAccess_facts.2 (hwords.apart (by decide))
  · rw [toList_rangeFrom]
    exact lengthCall_rangeCall harguments

theorem toList_len : ("len(" ++ v ++ "))").toList =
    ['l', 'e', 'n', '('] ++ (v.toList ++ [')', ')']) := by
  simp [String.toList_append]

theorem wordsAnd_len (hv : IsIdentifier v) :
    WordsAnd ['(', ')', ',', ' '] ("len(" ++ v ++ "))").toList := by
  rw [toList_len, wordsAnd_append, wordsAnd_append]
  exact ⟨by decide, hv.wordsAnd, by decide⟩

theorem sizeVariable?_rangeFrom_len (ha : IsNumeral a) (hv : IsIdentifier v) :
    sizeVariable? ("range(" ++ a ++ ", " ++ ("len(" ++ v ++ "))")) = some v := by
  have hwords := wordsAnd_rangeFrom ha (wordsAnd_len hv)
  have haccess := groupsFrom_of_needs (b := []) sizeAccess_facts.2 (hwords.apart (by decide))
  have hbefore {m : Char} (hm : isDecimalDigit m = false)
      (hmark : m ∉ ['r', 'a', 'n', 'g', 'e', '('] ++ [',', ' ']) :
      m ∉ ['r', 'a', 'n', 'g', 'e', '('] ++ (a.toList ++ [',', ' ']) := by
    simp only [List.mem_append, not_or] at hmark ⊢
    exact ⟨hmark.1, ha.not_mem hm, hmark.2⟩
  have hsplit : ("range(" ++ a ++ ", " ++ ("len(" ++ v ++ "))")).toList =
      ['r', 'a', 'n', 'g', 'e', '('] ++ (a.toList ++ [',', ' ']) ++
        (['l', 'e', 'n', '('] ++ (v.toList ++ [')', ')'])) := by
    simp [String.toList_append]
  have hcall : (lengthCall.groupsFrom []
      ("range(" ++ a ++ ", " ++ ("len(" ++ v ++ "))")).toList).map (groupText 2) =
        some (some v) := by
    rw [hsplit, lengthCall_eq, groupsFrom_sizeCall_skip (hbefore (by decide) (by decide))
      (hbefore (by decide) (by decide)) (hbefore (by decide) (by decide))]
    refine groupsFrom_of_first (first_sizeCall_len ?_ ?_ ?_ ?_)
    · have hspace : isWordChar ' ' = false := by decide
      simp [hspace]
    · exact hv.run fun c hc => holds_path_of_word hc
    · exact stopsAt_cons (by decide)
    · rw [String.ofList_toList]
      rfl
  obtain ⟨gs, hgs, htext⟩ := Option.map_eq_some_iff.mp hcall
  rw [sizeVariable?_eq, haccess, hgs]
  exact htext

/-! ### Names in ranges -/

theorem nameBound?_rangeTo (hv : IsIdentifier v) (hkey : isKeyword v = false) :
    nameBound? ("range(" ++ v ++ ")") = some v := by
  refine nameBound?_of_groups ?_ hkey
  rw [groupsFrom_of_without nameUpper_rangeCall ((wordsAnd_rangeTo hv).apart (by decide)),
    toList_rangeTo]
  refine groupsFrom_of_first ?_
  rw [first_group, first_rangeCall (run word word) name (stopsAt_blank_run hv.name),
    first_passedOver hv.name.wordRun (by decide) (by decide), first_seq, first_char_ne (by decide),
    Option.none_or]
  exact first_argument hv.name (by decide) (.inr rfl) (upperTexts_bound (by decide))

theorem nameBound?_rangeFrom (ha : IsNumeral a) (hv : IsIdentifier v) (hkey : isKeyword v = false) :
    nameBound? ("range(" ++ a ++ ", " ++ (v ++ ")")) = some v := by
  have hwords := wordsAnd_rangeFrom ha (wordsAnd_stop hv)
  have hsplit : (v ++ ")").toList = v.toList ++ [')'] := String.toList_append
  refine nameBound?_of_groups ?_ hkey
  rw [groupsFrom_of_without nameUpper_rangeCall (hwords.apart (by decide)), toList_rangeFrom]
  refine groupsFrom_of_first ?_
  rw [first_group, first_rangeCall (run word word) name (stopsAt_blank_run ha.digits),
    first_passedOver ha.digits.wordRun (by decide) (by decide), first_seq, first_char_self, hsplit,
    first_blanks_space (stopsAt_blank_run hv.name)]
  refine Option.or_eq_some_iff.mpr (.inl (Option.or_eq_some_iff.mpr (.inl ?_)))
  exact first_argument hv.name (by decide) (.inr rfl) (upperTexts_bound (by decide))

/-! ### Ranges with dots -/

theorem toList_dots : (a ++ ".." ++ v).toList = a.toList ++ '.' :: '.' :: (v.toList ++ []) := by
  simp [String.toList_append]

theorem wordsAnd_dots (ha : IsNumeral a) (hv : IsIdentifier v) :
    WordsAnd ['.'] (a ++ ".." ++ v).toList := by
  simp [ha.wordsAnd, hv.wordsAnd]

theorem dot_not_mem {cs : List Char} (h : ∀ c ∈ cs, isWordChar c = true) : '.' ∉ cs := by
  intro hmem
  exact absurd (h _ hmem) (by decide)

theorem numericBound?_dots (ha : IsNumeral a) (hv : IsIdentifier v) :
    numericBound? (a ++ ".." ++ v) = none := by
  obtain ⟨c, cs, hcs, hword, hc, hblank⟩ := hv.starts []
  have hname : '.' ∉ c :: cs := by
    rw [← hcs, List.append_nil]
    exact dot_not_mem hv.words
  rw [numericBound?_eq,
    groupsFrom_of_without numericUpper_dots ((wordsAnd_dots ha hv).apart (by decide)), toList_dots,
    hcs, dots, groupsFrom_failing (dot_not_mem ha.words)]
  · -- the second dot could be the first of two, but no third one follows
    have hdot : '.' :: c :: cs = [] ++ '.' :: c :: cs := rfl
    rw [hdot, groupsFrom_failing List.not_mem_nil, groupsFrom_unmarked hname]
    · rfl
    · intro κ
      rw [first_seq, first_char_ne (ne_of_isWordChar hword (by decide))]
  · intro κ
    rw [first_seq, first_char_self]
    exact first_behindMark_of_not 5 (holds_digit.trans hc) hblank
      (ne_of_isWordChar hword (by decide))

theorem sizeVariable?_dots (ha : IsNumeral a) (hv : IsIdentifier v) :
    sizeVariable? (a ++ ".." ++ v) = none := by
  have hsplit : (a ++ ".." ++ v).toList = a.toList ++ ['.', '.'] ++ v.toList := by
    simp [String.toList_append]
  have hbefore : ∀ c ∈ a.toList ++ ['.', '.'], NoneHolds [letter] c := by
    intro c hc cls hcls
    rw [List.mem_singleton.mp hcls]
    rcases List.mem_append.mp hc with hc | hc
    · exact (digit_of_isDigit (ha.2 c hc)).2
    · simp only [List.mem_cons, List.not_mem_nil, or_false, or_self] at hc
      rw [hc]
      decide
  refine sizeVariable?_eq_none ?_ ?_
  · rw [hsplit, groupsFrom_skip sizeAccess_facts.1 hbefore]
    refine groupsFrom_of_needs sizeAccess_facts.2 fun c hc hmem => ?_
    exact dot_not_mem hv.words (List.mem_singleton.mp hmem ▸ hc)
  · exact groupsFrom_of_needs needs_lengthCall ((wordsAnd_dots ha hv).apart (by decide))

theorem nameBound?_dots (ha : IsNumeral a) (hv : IsIdentifier v) (hkey : isKeyword v = false) :
    nameBound? (a ++ ".." ++ v) = some v := by
  refine nameBound?_of_groups ?_ hkey
  rw [groupsFrom_of_without nameUpper_dots ((wordsAnd_dots ha hv).apart (by decide)), toList_dots]
  refine groupsFrom_found (dot_not_mem ha.words) ?_
  rw [first_seq, first_char_self]
  have hmark : [] ∈ [[], [' '], ['=', ' ']] := List.mem_cons_self ..
  exact first_behindMark 5 hv.name stopsAt_nil stopsAt_nil hmark (upperTexts_bound (by decide))

/-! ### What ranges are read as -/

theorem ofIterable_call {text : String}
    (h : text.toList = ['r', 'a', 'n', 'g', 'e', '('] ++ cs ++ [')']) :
    ofIterable text = (numericBound? text).elim ((sizeVariable? text).elim
      ((nameBound? text).elim (if text.isEmpty then unknown else input text) symbolic) input)
      constant := by
  have hstart : hasStart text "range" = true := by
    rw [hasStart, h]
    rfl
  refine ofIterable_range (trimChars_eq ?_ ?_) (by rw [hstart, Bool.true_or])
  · rw [h]
    rintro c ⟨⟩
    decide
  · rw [h, List.getLast?_append]
    rintro c ⟨⟩
    decide

theorem ofIterable_rangeTo (hv : IsIdentifier v) (hkey : isKeyword v = false) :
    ofIterable ("range(" ++ v ++ ")") = symbolic v := by
  have htext : ("range(" ++ v ++ ")").toList =
      ['r', 'a', 'n', 'g', 'e', '('] ++ v.toList ++ [')'] := by simp
  rw [ofIterable_call htext, numericBound?_rangeTo hv, sizeVariable?_rangeTo hv,
    nameBound?_rangeTo hv hkey]
  rfl

/-- The start is taken for the bound. -/
theorem ofIterable_rangeFrom (ha : IsNumeral a) (hv : IsIdentifier v) (hkey : isKeyword v = false) :
    ofIterable ("range(" ++ a ++ ", " ++ (v ++ ")")) =
      (readWord64? a).elim (symbolic v) constant := by
  obtain ⟨c, cs, hcs, -, hc, hblank⟩ := hv.starts [')']
  have hsplit : (v ++ ")").toList = c :: cs := String.toList_append.trans hcs
  have htext : ("range(" ++ a ++ ", " ++ (v ++ ")")).toList =
      ['r', 'a', 'n', 'g', 'e', '('] ++ (a.toList ++ [',', ' '] ++ v.toList) ++ [')'] := by simp
  rw [ofIterable_call htext, numericBound?_rangeFrom ha hsplit hc hblank (wordsAnd_stop hv),
    sizeVariable?_rangeFrom ha hv, nameBound?_rangeFrom ha hv hkey]
  rfl

theorem ofIterable_rangeFrom_len (ha : IsNumeral a) (hv : IsIdentifier v) :
    ofIterable ("range(" ++ a ++ ", " ++ ("len(" ++ v ++ "))")) =
      (readWord64? a).elim (input v) constant := by
  have htext : ("range(" ++ a ++ ", " ++ ("len(" ++ v ++ "))")).toList =
      ['r', 'a', 'n', 'g', 'e', '('] ++
        (a.toList ++ [',', ' ', 'l', 'e', 'n', '('] ++ v.toList ++ [')']) ++ [')'] := by simp
  rw [ofIterable_call htext,
    numericBound?_rangeFrom ha toList_len (by decide) (by decide) (wordsAnd_len hv),
    sizeVariable?_rangeFrom_len ha hv]
  rfl

theorem occursIn_append (u needle w : List Char) :
    occursIn needle (u ++ (needle ++ w)) = true := by
  induction u with
  | nil =>
      cases needle with
      | nil => cases w <;> rfl
      | cons c needle => simp [occursIn]
  | cons c u ih => rw [List.cons_append, occursIn, ih, Bool.or_true]

theorem ofIterable_dots (ha : IsNumeral a) (hv : IsIdentifier v) (hkey : isKeyword v = false) :
    ofIterable (a ++ ".." ++ v) = symbolic v := by
  have hdots : holds (a ++ ".." ++ v) ".." = true := by
    rw [Text.holds, toList_dots]
    exact occursIn_append a.toList ['.', '.'] (v.toList ++ [])
  have hblank : ∀ c ∈ (a ++ ".." ++ v).toList, isBlank c = false := by
    simp only [toList_dots, List.append_nil, List.forall_mem_append, List.forall_mem_cons]
    exact ⟨ha.digits.notBlank, by decide, by decide, hv.name.notBlank⟩
  have htrim : trimChars (a ++ ".." ++ v).toList = (a ++ ".." ++ v).toList :=
    trimChars_eq (fun c hc => hblank c (List.mem_of_mem_head? hc))
      fun c hc => hblank c (List.mem_of_mem_getLast? hc)
  rw [ofIterable_range htrim (by rw [hdots, Bool.or_true]), numericBound?_dots ha hv,
    sizeVariable?_dots ha hv, nameBound?_dots ha hv hkey]
  rfl

end

/-! ## Bounds that are variables -/

theorem variable_bounds {i v a k : String} (hi : IsIdentifier i) (hv : IsIdentifier v)
    (hkey : isKeyword v = false) (ha : IsNumeral a) (hk : IsNumeral k) :
    ofIterable ("range(" ++ v ++ ")") = symbolic v ∧
    ofIterable (a ++ ".." ++ v) = symbolic v ∧
    ofHeader (countingHeader i a v "+=" k) = symbolic v ∧
    ofIterable ("range(" ++ a ++ ", " ++ (v ++ ")")) =
      (readWord64? a).elim (symbolic v) constant ∧
    ofIterable ("range(" ++ a ++ ", " ++ ("len(" ++ v ++ "))")) =
      (readWord64? a).elim (input v) constant ∧
    ofHeader (countingHeader i a v "<<=" k) =
      if k = "1" then logarithmic (some v) else (readWord64? k).elim (symbolic v) constant :=
  ⟨ofIterable_rangeTo hv hkey, ofIterable_dots ha hv hkey, ofHeader_adding hi ha hv hk hkey,
    ofIterable_rangeFrom ha hv hkey, ofIterable_rangeFrom_len ha hv,
    ofHeader_shifting hi ha hv hk hkey⟩

theorem variable_bounds_counting :
    ofIterable "range(n)" = symbolic "n" ∧ ofIterable "0..n" = symbolic "n" ∧
    ofHeader "i = 0; i < n; i += 2" = symbolic "n" ∧ ofIterable "range(0, n)" = constant 0 ∧
    ofIterable "range(0, len(n))" = constant 0 ∧
    ofHeader "i = 0; i < n; i <<= 2" = constant 2 := by
  have hi : IsIdentifier "i" := by decide
  have hn : IsIdentifier "n" := by decide
  have hzero : IsNumeral "0" := by decide
  have htwo : IsNumeral "2" := by decide
  have hzeroRead : readWord64? "0" = some 0 := by decide
  have htwoRead : readWord64? "2" = some 2 := by decide
  simpa [countingHeader, hzeroRead, htwoRead] using
    variable_bounds hi hn (by decide) hzero htwo

/-- A start or a step is taken for the bound. -/
theorem variable_bounds_constant :
    (ofIterable "range(0, n)").kind = .constant ∧ (ofIterable "range(n)").kind = .symbolic ∧
    (ofIterable "range(0, len(n))").kind = .constant ∧
    (ofHeader "i = 0; i < n; i <<= 2").kind = .constant := by
  have hi : IsIdentifier "i" := by decide
  have hn : IsIdentifier "n" := by decide
  have hkey : isKeyword "n" = false := by decide
  have hzero : IsNumeral "0" := by decide
  have htwo : IsNumeral "2" := by decide
  have hzeroRead : readWord64? "0" = some 0 := by decide
  have htwoRead : readWord64? "2" = some 2 := by decide
  have hfrom : ofIterable "range(0, n)" = constant 0 := by
    simpa [hzeroRead] using ofIterable_rangeFrom hzero hn hkey
  have hto : ofIterable "range(n)" = symbolic "n" := by
    simpa using ofIterable_rangeTo hn hkey
  have hlen : ofIterable "range(0, len(n))" = constant 0 := by
    simpa [hzeroRead] using ofIterable_rangeFrom_len hzero hn
  have hshift : ofHeader "i = 0; i < n; i <<= 2" = constant 2 := by
    simpa [countingHeader, htwoRead] using ofHeader_shifting hi hzero hn htwo hkey
  rw [hfrom, hto, hlen, hshift]
  exact ⟨rfl, rfl, rfl, rfl⟩

end LoopBounds

end CodeProfile
