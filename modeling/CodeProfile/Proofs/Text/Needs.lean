import CodeProfile.Loop

/-!
# Characters that a pattern needs

Some patterns match only where one of a few characters is read
(`Pattern.needs`), so they find nothing in a text without them
(`Pattern.find?_eq_none`). A numeral bounds a loop only behind a
comparison, in `range(..)` or in a range with dots, so a plain name as
what a loop runs over never makes its bound constant
(`LoopBounds.growth_ofIterable_of_isName`).
-/

namespace CodeProfile

namespace Text

namespace Pattern

/-- Every match reads one of the characters. -/
def needs (cs : List Char) : Pattern → Bool
  | empty => false
  | one cls => !cls.negated && !cls.anyCase && cls.items.all fun
    | .range first last => first == last && cs.contains first
    | _ => false
  | anchor _ => false
  | seq p q => needs cs p || needs cs q
  | either p q => needs cs p && needs cs q
  | many _ _ => false
  | group _ p => needs cs p

theorem mem_repeatEnds_succ {step : Cursor → List Cursor} {reluctant : Bool} {fuel : Nat}
    {c d : Cursor} : d ∈ repeatEnds step reluctant (fuel + 1) c ↔
      d = c ∨ ∃ e ∈ step c, e.left < c.left ∧ d ∈ repeatEnds step reluctant fuel e := by
  have hfurther : d ∈ ((step c).filter fun e => e.left < c.left).flatMap
      (repeatEnds step reluctant fuel) ↔
        ∃ e ∈ step c, e.left < c.left ∧ d ∈ repeatEnds step reluctant fuel e := by
    simp only [List.mem_flatMap, List.mem_filter, decide_eq_true_eq, and_assoc]
  rw [repeatEnds_succ]
  cases reluctant with
  | true => rw [if_pos rfl, List.mem_cons, hfurther]
  | false => rw [if_neg Bool.false_ne_true, List.mem_append, List.mem_singleton, hfurther, or_comm]

/-- Matching moves forward. -/
theorem suffix_of_mem_repeatEnds {step : Cursor → List Cursor}
    (hstep : ∀ c, ∀ d ∈ step c, d.after <:+ c.after) (reluctant : Bool) {fuel : Nat}
    {c d : Cursor} (h : d ∈ repeatEnds step reluctant fuel c) : d.after <:+ c.after := by
  induction fuel generalizing c with
  | zero =>
      obtain rfl := List.mem_singleton.mp h
      exact List.suffix_refl _
  | succ fuel ih =>
      rcases mem_repeatEnds_succ.mp h with rfl | ⟨e, he, -, hd⟩
      · exact List.suffix_refl _
      · exact (ih hd).trans (hstep c e he)

theorem suffix_of_mem_ends {p : Pattern} {c d : Cursor} (h : d ∈ p.ends c) :
    d.after <:+ c.after := by
  induction p generalizing c d with
  | empty =>
      obtain rfl := List.mem_singleton.mp h
      exact List.suffix_refl _
  | one cls =>
      rw [ends] at h
      split at h
      · cases h
      next x xs hafter =>
        split at h
        · rw [List.mem_singleton.mp h, hafter]
          exact List.suffix_cons x xs
        · cases h
  | anchor a =>
      rw [ends] at h
      split at h
      · obtain rfl := List.mem_singleton.mp h
        exact List.suffix_refl _
      · cases h
  | seq p q ihp ihq =>
      obtain ⟨e, he, hd⟩ := List.mem_flatMap.mp h
      exact (ihq hd).trans (ihp he)
  | either p q ihp ihq => exact (List.mem_append.mp h).elim ihp ihq
  | many reluctant p ih => exact suffix_of_mem_repeatEnds (fun _ _ => ih) reluctant h
  | group index p ih =>
      obtain ⟨e, he, rfl⟩ := List.mem_map.mp h
      exact ih (d := e) he

/-- A class without exceptions holds a character only if one of its items is that character. -/
theorem mem_of_holds {cs : List Char} {cls : CharClass} (h : (one cls).needs cs = true) {x : Char}
    (hx : cls.holds x = true) : x ∈ cs := by
  rw [needs, Bool.and_eq_true, Bool.and_eq_true, Bool.not_eq_true', Bool.not_eq_true',
    List.all_eq_true] at h
  obtain ⟨⟨hnegated, hcase⟩, hitems⟩ := h
  rw [CharClass.holds, hnegated, hcase, if_neg Bool.false_ne_true, Bool.bne_false,
    List.any_eq_true] at hx
  obtain ⟨item, hitem, hholds⟩ := hx
  have hsingle := hitems item hitem
  cases item with
  | range first last =>
      rw [Bool.and_eq_true, beq_iff_eq, List.contains_iff_mem] at hsingle
      rw [CharItem.holds, Bool.and_eq_true, decide_eq_true_eq, decide_eq_true_eq,
        ← hsingle.1] at hholds
      rw [Char.le_antisymm hholds.2 hholds.1]
      exact hsingle.2
  | word negated => cases hsingle
  | digit negated => cases hsingle
  | blank negated => cases hsingle

theorem ends_eq_nil {cs : List Char} {p : Pattern} (h : p.needs cs = true) {c : Cursor}
    (hc : ∀ x ∈ c.after, x ∉ cs) : p.ends c = [] := by
  induction p generalizing c with
  | empty => cases h
  | one cls =>
      rw [ends]
      split
      · rfl
      next x xs hafter =>
        have hx : x ∉ cs := hc x (hafter ▸ List.mem_cons_self ..)
        exact if_neg fun hholds => hx (mem_of_holds h hholds)
  | anchor a => cases h
  | seq p q ihp ihq =>
      rw [needs, Bool.or_eq_true] at h
      rw [ends, List.flatMap_eq_nil_iff]
      intro d hd
      rcases h with hp | hq
      · rw [ihp hp hc] at hd
        cases hd
      · exact ihq hq fun x hx => hc x ((suffix_of_mem_ends hd).subset hx)
  | either p q ihp ihq =>
      rw [needs, Bool.and_eq_true] at h
      rw [ends, ihp h.1 hc, ihq h.2 hc]
      rfl
  | many reluctant p ih => cases h
  | group index p ih => rw [ends, ih h hc, List.map_nil]

theorem findFrom_eq_none {cs : List Char} {p : Pattern} (h : p.needs cs = true) {fuel : Nat}
    {c : Cursor} (hc : ∀ x ∈ c.after, x ∉ cs) : p.findFrom c fuel = none := by
  induction fuel generalizing c with
  | zero =>
      rw [findFrom, ends_eq_nil h hc]
      rfl
  | succ fuel ih =>
      simp only [findFrom, ends_eq_nil h hc, List.head?_nil, Cursor.next?]
      cases hafter : c.after with
      | nil => rfl
      | cons x xs =>
          refine ih fun y hy => hc y ?_
          rw [hafter]
          exact List.mem_cons_of_mem x hy

/-- A pattern finds nothing in a text without the characters that it needs. -/
theorem find?_eq_none {cs : List Char} {p : Pattern} (h : p.needs cs = true) {s : String}
    (hs : ∀ x ∈ s.toList, x ∉ cs) : p.find? s = none := by
  rw [find?, findFrom_eq_none h hs]
  rfl

end Pattern

/-! ## Loops over a plain name -/

/-- Only word characters stand in the text. -/
def IsName (text : String) : Prop := ∀ c ∈ text.toList, isWordChar c = true

instance (text : String) : Decidable (IsName text) :=
  List.decidableBAll (fun c => isWordChar c = true) text.toList

theorem trim_subset (s : String) : (trim s).toList ⊆ s.toList := by
  intro c hc
  rw [trim, String.toList_ofList, trimChars, dropBlanksRight, List.mem_reverse] at hc
  have hleft := (List.dropWhile_sublist _).subset hc
  exact (List.dropWhile_sublist _).subset (List.mem_reverse.mp hleft)

end Text

namespace LoopBounds

open Text

/-- The characters of which one stands beside each numeral that bounds a loop. -/
def boundMarks : List Char := ['<', '>', '(', '.']

theorem needs_numericUpper : numericUpper.needs boundMarks = true := by decide +kernel

theorem not_mem_boundMarks {c : Char} (h : isWordChar c = true) : c ∉ boundMarks := by
  intro hmem
  have hmarks : boundMarks.all (fun d => !isWordChar d) = true := by decide
  have hnot := List.all_eq_true.mp hmarks c hmem
  rw [h] at hnot
  cases hnot

theorem numericBound?_of_isName {text : String} (h : IsName text) : numericBound? text = none := by
  have hnone := Pattern.find?_eq_none needs_numericUpper fun c hc => not_mem_boundMarks (h c hc)
  rw [numericBound?, hnone]
  rfl

/-- A loop over a plain name runs as often as an input is long, as far as its header tells. -/
theorem growth_ofIterable_of_isName {text : String} (h : IsName text) :
    (ofIterable text).growth = .linear := by
  have hnumeral : numericBound? (trim text) = none :=
    numericBound?_of_isName fun c hc => h c (trim_subset text hc)
  simp only [ofIterable, hnumeral]
  split
  · rfl
  · split
    · rfl
    · split <;> rfl

end LoopBounds

end CodeProfile
