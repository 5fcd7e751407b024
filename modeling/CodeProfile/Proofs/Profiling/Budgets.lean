import CodeProfile.Profile
import CodeProfile.Proofs.Text.Budget

/-!
# Profiles within their budgets

Wherever a profile is put together, with a tree or without one, what it
shows of conditions and branches and what it tells in hints has been
shortened to a fixed number of bytes, and there are at most eight hints
(`withinBudgets_assemble`). The headline `budgets_kept` says this together
with how a single text is shortened.
-/

namespace CodeProfile

open Text

namespace Profile

/-- The texts of a profile that are shown to a reader have a bounded length. -/
structure WithinBudgets (p : Profile) : Prop where
  conditions : ∀ c ∈ p.elements.conditions, c.condition.utf8ByteSize ≤ 120
  outcomes : ∀ c ∈ p.elements.conditions, ∀ o ∈ c.outcomes, o.utf8ByteSize ≤ 80
  hints : ∀ h ∈ p.guidance.hints, h.utf8ByteSize ≤ 160
  hintCount : p.guidance.hints.length ≤ 8

theorem utf8ByteSize_le_of_mem_map {budget : Nat} (hbudget : 3 ≤ budget) {texts : List String}
    {text : String} (h : text ∈ texts.map (shorten budget)) : text.utf8ByteSize ≤ budget := by
  obtain ⟨whole, -, rfl⟩ := List.mem_map.mp h
  exact utf8ByteSize_shorten_le hbudget whole

theorem withinBudgets_assemble (source : String) (f : Findings) (m : Metrics) (b : Behavior)
    (e : Elements) : (assemble source f m b e).WithinBudgets := by
  have hconditions : (assemble source f m b e).elements.conditions = e.conditions.map fun c =>
      { c with
        condition := shorten 120 c.condition
        outcomes := c.outcomes.map (shorten 80) } := rfl
  have hhints : (assemble source f m b e).guidance.hints
      = ((f.allHints m b).take 8).map (shorten 160) := rfl
  constructor
  case conditions =>
    rw [hconditions]
    intro c hc
    obtain ⟨whole, -, rfl⟩ := List.mem_map.mp hc
    dsimp only
    exact utf8ByteSize_shorten_le (by decide) whole.condition
  case outcomes =>
    rw [hconditions]
    intro c hc o ho
    obtain ⟨whole, -, rfl⟩ := List.mem_map.mp hc
    dsimp only at ho
    exact utf8ByteSize_le_of_mem_map (by decide) ho
  case hints =>
    rw [hhints]
    intro h hh
    exact utf8ByteSize_le_of_mem_map (by decide) hh
  case hintCount =>
    rw [hhints, List.length_map]
    exact List.length_take_le ..

end Profile

/-- A text is shortened to valid UTF-8 within its budget. One that fits once
it is collapsed is only collapsed. One that does not is cut where the search
back from the budget, less the ellipsis, comes to a place between two
characters, which takes at most three steps; what stands in front of the cut
loses the blanks at its ends and gets the ellipsis. Shortening a text again
changes nothing. All texts that a profile shows are shortened in this way. -/
theorem budgets_kept {budget : Nat} (hbudget : 3 ≤ budget) (text : String) :
    ((shorten budget text).toByteArray.IsValidUTF8 ∧ (shorten budget text).utf8ByteSize ≤ budget)
      ∧ ((collapse text).utf8ByteSize ≤ budget → shorten budget text = collapse text)
      ∧ (budget < (collapse text).utf8ByteSize → ∃ start rest, collapse text = start ++ rest
          ∧ boundaryBelow? (collapse text) (budget - 3) = some start.utf8ByteSize
          ∧ start.utf8ByteSize ≤ budget - 3 ∧ budget - 3 ≤ start.utf8ByteSize + 3
          ∧ shorten budget text = trimEnd start ++ "..." ∧ trimEnd start = trim start)
      ∧ shorten budget (shorten budget text) = shorten budget text
      ∧ (∀ t adapter f, (Profile.ofTree t adapter f).WithinBudgets)
      ∧ (∀ source guess, (Profile.withoutTree source guess).WithinBudgets) := by
  refine ⟨⟨(shorten budget text).isValidUTF8, utf8ByteSize_shorten_le hbudget text⟩,
    shorten_of_le, ?_, shorten_shorten hbudget text, ?_, ?_⟩
  · intro hlong
    obtain ⟨start, rest, hcollapse, hstart, hshorten⟩ := shorten_of_lt hlong
    rw [show ellipsis.utf8ByteSize = 3 from rfl] at hstart
    obtain ⟨hmost, hleast⟩ := le_of_boundaryBelow? hstart (by omega)
    exact ⟨start, rest, hcollapse, hstart, hmost, hleast, hshorten,
      (trim_eq_trimEnd hcollapse).symm⟩
  · intro t adapter f
    exact Profile.withinBudgets_assemble ..
  · intro source guess
    exact Profile.withinBudgets_assemble ..

/-- The budget, less the ellipsis, ends inside a letter, and the cut in
front of this letter leaves a blank at the end. -/
theorem budgets_kept_insideLetter : 3 ≤ 11 ∧ collapse "ééé  éé\té" = "ééé éé é"
    ∧ boundaryBelow? "ééé éé é" (11 - 3) = some 7
    ∧ shorten 11 "ééé  éé\té" = "ééé..."
    ∧ shorten 11 (shorten 11 "ééé  éé\té") = shorten 11 "ééé  éé\té" := by
  obtain ⟨-, -, -, htwice, -, -⟩ := budgets_kept (show 3 ≤ 11 by decide) "ééé  éé\té"
  exact ⟨by decide, by decide, by decide, by decide, htwice⟩

end CodeProfile
