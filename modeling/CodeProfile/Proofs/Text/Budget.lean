import CodeProfile.Proofs.Text.Collapsed
import CodeProfile.Proofs.Text.Slices

/-!
# Cutting texts to a budget

A text that is too long is cut at the last place between two characters
from which on the rest would not fit. `boundaryBelow?` looks for this place
from behind: it starts at a byte offset and steps back as long as the offset
is inside a character. The search would fail only by stepping below the
start of the text, and it never does: it stops where the longest beginning
ends that fits (`boundaryBelow?_eq`), after at most three steps
(`le_of_boundaryBelow?`).

A shortened text is therefore a cut and trimmed beginning with an ellipsis
(`shorten_of_lt`). It is itself collapsed and within the budget, hence it is
not shortened again (`shorten_shorten`).
-/

namespace CodeProfile.Text

variable {a b cs : List Char} {s : String} {budget k n : Nat}

/-! ## The longest beginning that fits -/

theorem takeBytes_prefix (cs : List Char) (n : Nat) : takeBytes cs n <+: cs := by
  induction cs generalizing n with
  | nil => exact List.prefix_refl []
  | cons c cs ih =>
      rw [takeBytes]
      split
      · exact List.cons_prefix_cons.mpr ⟨rfl, ih _⟩
      · exact List.nil_prefix

theorem byteLength_takeBytes_le (cs : List Char) (n : Nat) : byteLength (takeBytes cs n) ≤ n := by
  induction cs generalizing n with
  | nil => exact Nat.zero_le n
  | cons c cs ih =>
      rw [takeBytes]
      split
      · have := ih (n - c.utf8Size)
        rw [byteLength_cons]
        omega
      · exact Nat.zero_le n

/-- Every beginning that fits is at most as long. -/
theorem le_byteLength_takeBytes (h : byteLength a ≤ n) :
    byteLength a ≤ byteLength (takeBytes (a ++ b) n) := by
  induction a generalizing n with
  | nil => exact Nat.zero_le _
  | cons c a ih =>
      rw [byteLength_cons] at h
      have := ih (n := n - c.utf8Size) (by omega)
      rw [List.cons_append, takeBytes, if_pos (by omega), byteLength_cons, byteLength_cons]
      omega

/-- A character has at most four bytes, so that at most three are left over. -/
theorem lt_byteLength_takeBytes (h : n ≤ byteLength cs) :
    n < byteLength (takeBytes cs n) + 4 := by
  induction cs generalizing n with
  | nil =>
      rw [Nat.le_zero.mp h]
      exact Nat.succ_pos _
  | cons c cs ih =>
      rw [byteLength_cons] at h
      rw [takeBytes]
      split
      · have := ih (n := n - c.utf8Size) (by omega)
        rw [byteLength_cons]
        omega
      · have := c.utf8Size_le_four
        omega

/-! ## The search from behind -/

/-- The greatest place between two characters up to a byte offset, searched
from the offset back. There is none if the search steps below the start of
the text. -/
def boundaryBelow? (s : String) : Nat → Option Nat
  | 0 => if String.Pos.Raw.isValid s ⟨0⟩ then some 0 else none
  | n + 1 => if String.Pos.Raw.isValid s ⟨n + 1⟩ then some (n + 1) else boundaryBelow? s n

theorem boundaryBelow?_of_isValid (h : String.Pos.Raw.IsValid s ⟨n⟩) :
    boundaryBelow? s n = some n := by
  have hvalid := String.Pos.Raw.isValid_eq_true_iff.mpr h
  cases n <;> rw [boundaryBelow?, if_pos hvalid]

theorem boundaryBelow?_succ (h : ¬ String.Pos.Raw.IsValid s ⟨n + 1⟩) :
    boundaryBelow? s (n + 1) = boundaryBelow? s n := by
  rw [boundaryBelow?, if_neg (mt String.Pos.Raw.isValid_eq_true_iff.mp h)]

theorem isValid_takeBytes (s : String) (n : Nat) :
    String.Pos.Raw.IsValid s ⟨byteLength (takeBytes s.toList n)⟩ := by
  obtain ⟨rest, hrest⟩ := takeBytes_prefix s.toList n
  exact isValid_iff_exists_split.mpr ⟨takeBytes s.toList n, rest, hrest.symm, rfl⟩

/-- The search ends where the longest beginning ends that fits. -/
theorem boundaryBelow?_eq (s : String) (n : Nat) :
    boundaryBelow? s n = some (byteLength (takeBytes s.toList n)) := by
  -- from the end of this beginning up to the offset nothing else is a place
  have hsearch : ∀ m, byteLength (takeBytes s.toList n) ≤ m → m ≤ n →
      boundaryBelow? s m = some (byteLength (takeBytes s.toList n)) := by
    intro m
    induction m with
    | zero =>
        intro hle _
        rw [Nat.le_zero.mp hle]
        exact boundaryBelow?_of_isValid (Nat.le_zero.mp hle ▸ isValid_takeBytes s n)
    | succ m ih =>
        intro hle hn
        by_cases hvalid : String.Pos.Raw.IsValid s ⟨m + 1⟩
        · obtain ⟨a, b, hs, ha⟩ := isValid_iff_exists_split.mp hvalid
          have hlongest := le_byteLength_takeBytes (b := b) (ha ▸ hn)
          rw [← hs, ha] at hlongest
          rw [boundaryBelow?_of_isValid hvalid, Nat.le_antisymm hle hlongest]
        · have hne : byteLength (takeBytes s.toList n) ≠ m + 1 := by
            intro heq
            exact hvalid (heq ▸ isValid_takeBytes s n)
          rw [boundaryBelow?_succ hvalid]
          exact ih (by omega) (by omega)
  exact hsearch n (byteLength_takeBytes_le s.toList n) (Nat.le_refl n)

/-- The search takes at most three steps back. -/
theorem le_of_boundaryBelow? (h : boundaryBelow? s n = some k) (hn : n ≤ s.utf8ByteSize) :
    k ≤ n ∧ n ≤ k + 3 := by
  rw [boundaryBelow?_eq] at h
  have hmost := byteLength_takeBytes_le s.toList n
  have hleast := lt_byteLength_takeBytes ((byteLength_toList s).symm ▸ hn)
  rw [Option.some.inj h] at hmost hleast
  omega

/-! ## Shortened texts -/

theorem shorten_of_le (h : (collapse s).utf8ByteSize ≤ budget) : shorten budget s = collapse s := by
  rw [shorten, byteLength_toList, if_pos h, String.ofList_toList]

theorem shorten_of_collapsed (h : Collapsed s.toList) (hs : s.utf8ByteSize ≤ budget) :
    shorten budget s = s := by
  rw [shorten_of_le (h.collapse_eq.symm ▸ hs), h.collapse_eq]

/-- A text that is too long is cut where the search from behind stops, and
loses the blanks in front of the cut. -/
theorem shorten_of_lt (h : budget < (collapse s).utf8ByteSize) :
    ∃ start rest, collapse s = start ++ rest
      ∧ boundaryBelow? (collapse s) (budget - ellipsis.utf8ByteSize) = some start.utf8ByteSize
      ∧ shorten budget s = trimEnd start ++ ellipsis := by
  obtain ⟨rest, hrest⟩ :=
    takeBytes_prefix (collapse s).toList (budget - ellipsis.utf8ByteSize)
  refine ⟨String.ofList (takeBytes (collapse s).toList (budget - ellipsis.utf8ByteSize)),
    String.ofList rest, ?_, ?_, ?_⟩
  · rw [← String.ofList_append, hrest, String.ofList_toList]
  · rw [boundaryBelow?_eq, utf8ByteSize_ofList_eq]
  · rw [shorten, byteLength_toList, byteLength_toList, if_neg (by omega), trimEnd,
      String.toList_ofList]

theorem toList_start {text start rest : String} (h : text = start ++ rest) :
    start.toList <+: text.toList := by
  rw [h, String.toList_append]
  exact List.prefix_append ..

/-- A beginning of a collapsed text has no blanks in front. -/
theorem trim_eq_trimEnd {start rest : String} (h : collapse s = start ++ rest) :
    trim start = trimEnd start := by
  rw [trim, trimEnd, trimChars, (collapsed_collapse s).dropWhile_of_start (toList_start h)]

theorem utf8ByteSize_trimEnd_le (s : String) : (trimEnd s).utf8ByteSize ≤ s.utf8ByteSize := by
  obtain ⟨rest, hrest⟩ := dropBlanksRight_prefix s.toList
  have hlength : byteLength (dropBlanksRight s.toList) + byteLength rest = s.utf8ByteSize := by
    rw [← byteLength_append, hrest, byteLength_toList]
  rw [trimEnd, utf8ByteSize_ofList_eq]
  omega

theorem unspaced_ellipsis : Unspaced ellipsis.toList := by
  have hall : ellipsis.toList.all (!isBlank ·) = true := by decide
  refine ⟨by decide, ?_⟩
  intro c hc
  simpa using List.all_eq_true.mp hall c hc

theorem collapsed_shorten (budget : Nat) (s : String) : Collapsed (shorten budget s).toList := by
  by_cases h : (collapse s).utf8ByteSize ≤ budget
  · rw [shorten_of_le h]
    exact collapsed_collapse s
  · obtain ⟨start, rest, hs, -, hshorten⟩ := shorten_of_lt (Nat.lt_of_not_le h)
    rw [hshorten, String.toList_append, trimEnd, String.toList_ofList]
    exact ((collapsed_collapse s).trimEnd_of_start (toList_start hs)).append unspaced_ellipsis

theorem utf8ByteSize_shorten_le (hbudget : 3 ≤ budget) (s : String) :
    (shorten budget s).utf8ByteSize ≤ budget := by
  by_cases h : (collapse s).utf8ByteSize ≤ budget
  · rwa [shorten_of_le h]
  · obtain ⟨start, rest, -, hstart, hshorten⟩ := shorten_of_lt (Nat.lt_of_not_le h)
    have hellipsis : ellipsis.utf8ByteSize = 3 := rfl
    obtain ⟨hcut, -⟩ := le_of_boundaryBelow? hstart (by omega)
    have htrim := utf8ByteSize_trimEnd_le start
    rw [hshorten, String.utf8ByteSize_append]
    omega

theorem shorten_shorten (hbudget : 3 ≤ budget) (s : String) :
    shorten budget (shorten budget s) = shorten budget s :=
  shorten_of_collapsed (collapsed_shorten budget s) (utf8ByteSize_shorten_le hbudget s)

end CodeProfile.Text
