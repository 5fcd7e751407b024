import Mathlib.Data.List.Forall2
import CodeProfile.Painter
import CodeProfile.Proofs.Text.Words

/-!
# Text without its escape sequences

What is seen of coloured text on a terminal is the text without the escape
sequences (`seen`). A text that shows another does so whatever stands
behind it (`Shows`), so that the pieces of a line can be looked at one by
one. Texts without the escape character show themselves, and painted in any
style they show what they show unpainted (`shows_paint`).
-/

namespace CodeProfile

open Text

/-- The character that begins an escape sequence. -/
def escapeChar : Char := '\x1b'

/-- Drops escape sequences, each from the escape character to the `m` that
ends it; tells apart whether a sequence is under way. -/
def seenChars : Bool → List Char → List Char
  | _, [] => []
  | false, c :: cs => if c = escapeChar then seenChars true cs else c :: seenChars false cs
  | true, c :: cs => seenChars (c != 'm') cs

/-- The text without its escape sequences. -/
def seen (s : String) : String := String.ofList (seenChars false s.toList)

/-- The text begins no escape sequence. -/
def EscapeFree (s : String) : Prop := escapeChar ∉ s.toList

instance : DecidablePred EscapeFree := fun s => inferInstanceAs (Decidable (escapeChar ∉ s.toList))

/-- All that is seen of the first text is the second, whatever stands behind. -/
def Shows (painted text : String) : Prop :=
  ∀ rest, seenChars false (painted.toList ++ rest) = text.toList ++ seenChars false rest

variable {s t painted painted' text text' : String} {texts : List String}

/-! ## Texts without escape sequences -/

theorem EscapeFree.append (hs : EscapeFree s) (ht : EscapeFree t) : EscapeFree (s ++ t) := by
  rw [EscapeFree, String.toList_append, List.mem_append]
  exact not_or.mpr ⟨hs, ht⟩

theorem EscapeFree.join (hs : EscapeFree s) (h : ∀ t ∈ texts, EscapeFree t) :
    EscapeFree (join s texts) := by
  rw [EscapeFree, Text.join, String.toList_intercalate]
  induction texts with
  | nil => exact List.not_mem_nil
  | cons t texts ih =>
      obtain ⟨ht, hrest⟩ := List.forall_mem_cons.mp h
      cases texts with
      | nil => simpa [EscapeFree] using ht
      | cons u texts =>
          rw [List.map_cons, List.map_cons, List.intercalate_cons_cons, List.mem_append,
            List.mem_append]
          exact not_or.mpr ⟨not_or.mpr ⟨ht, hs⟩, ih hrest⟩

theorem escapeFree_toString (n : Nat) : EscapeFree (toString n) :=
  (isNumeral_toString n).not_mem (by decide)

theorem escapeFree_replicate {c : Char} (hc : c ≠ escapeChar) (n : Nat) :
    escapeChar ∉ List.replicate n c := by
  rw [List.mem_replicate]
  exact fun h => hc h.2.symm

theorem EscapeFree.padTo (h : EscapeFree s) (width : Nat) : EscapeFree (Painter.padTo width s) := by
  rw [Painter.padTo, EscapeFree, String.toList_ofList, List.mem_append]
  exact not_or.mpr ⟨h, escapeFree_replicate (by decide) _⟩

theorem escapeFree_fixedPlaces (places : Nat) (x : Float) :
    EscapeFree (Number.fixedPlaces places x) := by
  rw [Number.fixedPlaces]
  refine ((EscapeFree.append ?_ (escapeFree_toString _)).append ?_)
  · split <;> decide
  · split
    · decide
    · refine EscapeFree.append (by decide) ?_
      rw [EscapeFree, String.toList_ofList, List.mem_append]
      exact not_or.mpr ⟨escapeFree_replicate (by decide) _, escapeFree_toString _⟩

/-! ## Pieces of painted text -/

theorem seenChars_of_not_mem {cs : List Char} (h : escapeChar ∉ cs) (rest : List Char) :
    seenChars false (cs ++ rest) = cs ++ seenChars false rest := by
  induction cs with
  | nil => rfl
  | cons c cs ih =>
      obtain ⟨hc, hcs⟩ := List.ne_and_not_mem_of_not_mem_cons h
      rw [List.cons_append, seenChars, if_neg (Ne.symm hc), ih hcs, List.cons_append]

theorem EscapeFree.shows (h : EscapeFree s) : Shows s s := seenChars_of_not_mem h

theorem Shows.append (h : Shows painted text) (h' : Shows painted' text') :
    Shows (painted ++ painted') (text ++ text') := by
  intro rest
  rw [String.toList_append, String.toList_append, List.append_assoc, h, h', List.append_assoc]

/-- Text of its own in front of painted text. -/
theorem Shows.after (hs : EscapeFree s) (h : Shows painted text) :
    Shows (s ++ painted) (s ++ text) :=
  hs.shows.append h

theorem Shows.seen (h : Shows painted text) : seen painted = text := by
  have hwhole := h []
  rw [List.append_nil, seenChars, List.append_nil] at hwhole
  rw [CodeProfile.seen, hwhole, String.ofList_toList]

namespace TextStyle

theorem reopen_of_not_mem (s : TextStyle) {cs : List Char} (h : escapeChar ∉ cs) :
    s.reopen cs 0 = cs := by
  induction cs with
  | nil => rfl
  | cons c cs ih =>
      obtain ⟨hc, hcs⟩ := List.ne_and_not_mem_of_not_mem_cons h
      have hno : closing.isPrefixOf (c :: cs) = false := by
        have hclosing : closing = escapeChar :: "[0m".toList := rfl
        rw [hclosing, List.isPrefixOf, beq_eq_false_iff_ne.mpr hc, Bool.false_and]
      rw [reopen, hno, ih hcs]
      rfl

theorem seenChars_opening (s : TextStyle) (rest : List Char) :
    seenChars false (s.opening ++ rest) = seenChars false rest := by
  cases s <;> rfl

theorem shows_wrap (s : TextStyle) (h : EscapeFree text) : Shows (s.wrap text) text := by
  intro rest
  have hclosing : seenChars false (closing ++ rest) = seenChars false rest := rfl
  rw [wrap, String.toList_ofList, reopen_of_not_mem s h, List.append_assoc, List.append_assoc,
    seenChars_opening, seenChars_of_not_mem h, hclosing]

end TextStyle

theorem shows_paint (p : Painter) (s : TextStyle) (h : EscapeFree text) :
    Shows (p.paint s text) text := by
  rw [Painter.paint]
  split
  · exact s.shows_wrap h
  · exact h.shows

theorem shows_score (p : Painter) (x : Float) : Shows (p.score x) (Number.fixedPlaces 2 x) :=
  shows_paint p _ (escapeFree_fixedPlaces 2 x)

/-- Lines that are shown one by one are shown together. -/
theorem shows_lines {lines : List String} (h : List.Forall₂ Shows lines texts) :
    Shows (String.join (lines.map (· ++ "\n"))) (String.join (texts.map (· ++ "\n"))) := by
  induction h with
  | nil => exact EscapeFree.shows (by decide)
  | cons hline _ ih =>
      rw [List.map_cons, List.map_cons, String.join_cons, String.join_cons]
      exact (hline.append (EscapeFree.shows (by decide))).append ih

end CodeProfile
