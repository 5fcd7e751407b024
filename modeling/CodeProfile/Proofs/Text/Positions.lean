import CodeProfile.Proofs.Text.Lines
import Mathlib.Data.List.Induction
import Mathlib.Data.Prod.Lex

/-!
# Offsets and positions

A position is found by a search among the starts of the lines, which
halves what is left of them at each step. The search keeps that the
number of starts up to an offset lies in what is left
(`narrow_bounds`), so that it finds this number (`partitionPoint_eq`).

The starts themselves are nought and the offsets right behind the line
feeds among the bytes (`behindFeeds_eq`). An offset divides them: those
behind a line feed among the bytes before the offset are not greater
than it, and all others are (`lineStarts_eq`). So the search finds the
number of these line feeds and one more, and the start at that place is
right behind the last of them. `Located` says this of one offset, and
`located_positionAt` that it holds of every offset.

Positions are ordered by row and then by column; in this order they grow
with the offset (`strictMono_positionAt`).
-/

namespace CodeProfile

/-- Positions are ordered by row, in one row by column. -/
instance : LinearOrder Position :=
  .lift' (fun p => toLex (p.row, p.column)) fun p q h => by
    cases p
    cases q
    simpa using h

theorem Position.lt_iff {p q : Position} :
    p < q ↔ p.row < q.row ∨ p.row = q.row ∧ p.column < q.column :=
  Prod.Lex.toLex_lt_toLex

namespace Text

/-! ## Searching by halving -/

section Search

variable {α : Type} {xs : Array α} {p : α → Bool} {fuel base size k : Nat}

/-- While the first `k` elements are those that satisfy `p`, the search stays in front of the
`k`-th one, as close as what it has not looked at allows. -/
theorem narrow_bounds (hp : ∀ i, (xs[i]?.any p = true ↔ i < k)) (hbase : base = 0 ∨ base < k)
    (hsize : k ≤ base + size) (hfuel : size ≤ fuel + 1) :
    (narrow xs p fuel base size = 0 ∨ narrow xs p fuel base size < k)
      ∧ k ≤ narrow xs p fuel base size + 1 := by
  fun_induction narrow xs p fuel base size with
  | case1 base size => exact ⟨hbase, by omega⟩
  | case2 fuel base size hone => exact ⟨hbase, by omega⟩
  | case3 fuel base size hmany half mid ih =>
      by_cases hmid : mid < k
      · rw [if_pos ((hp mid).mpr hmid)] at ih ⊢
        exact ih (.inr hmid) (by omega) (by omega)
      · rw [if_neg (mt (hp mid).mp hmid)] at ih ⊢
        exact ih hbase (by omega) (by omega)

theorem partitionPoint_eq (hp : ∀ i, (xs[i]?.any p = true ↔ i < k)) (hk : k ≤ xs.size) :
    partitionPoint xs p = k := by
  have hbounds : (narrow xs p xs.size 0 xs.size = 0 ∨ narrow xs p xs.size 0 xs.size < k)
      ∧ k ≤ narrow xs p xs.size 0 xs.size + 1 :=
    narrow_bounds hp (.inl rfl) (by omega) (by omega)
  obtain ⟨hbase, hle⟩ := hbounds
  rw [partitionPoint]
  simp only [hp]
  split <;> omega

/-- The search finds where the elements that satisfy `p` end. -/
theorem partitionPoint_append {front back : List α} (hfront : ∀ x ∈ front, p x = true)
    (hback : ∀ x ∈ back, p x = false) :
    partitionPoint (front ++ back).toArray p = front.length := by
  refine partitionPoint_eq (fun i => ?_) (by simp)
  rw [List.getElem?_toArray]
  rcases Nat.lt_or_ge i front.length with hi | hi
  · rw [List.getElem?_append_left hi, List.getElem?_eq_getElem hi, Option.any_some]
    exact iff_of_true (hfront _ (List.getElem_mem hi)) hi
  · rw [List.getElem?_append_right hi]
    refine iff_of_false ?_ (Nat.not_lt.mpr hi)
    cases hx : back[i - front.length]? with
    | none => exact Bool.false_ne_true
    | some x => rw [Option.any_some, hback x (List.mem_of_getElem? hx)]; exact Bool.false_ne_true

end Search

/-! ## The starts of lines -/

/-- The offsets right behind the line feeds among bytes that start at an offset. -/
def feedEnds (offset : Nat) (bs : List UInt8) : List Nat :=
  (bs.zipIdx offset).filterMap fun (x, i) => if x = 10 then some (i + 1) else none

theorem feedEnds_append (offset : Nat) (bs cs : List UInt8) :
    feedEnds offset (bs ++ cs) = feedEnds offset bs ++ feedEnds (offset + bs.length) cs := by
  rw [feedEnds, List.zipIdx_append, List.filterMap_append]
  rfl

theorem mem_feedEnds {offset m : Nat} {bs : List UInt8} :
    m ∈ feedEnds offset bs ↔ ∃ i, bs[i]? = some 10 ∧ m = offset + i + 1 := by
  simp only [feedEnds, List.mem_filterMap, Option.ite_none_right_eq_some, Option.some.injEq]
  constructor
  · rintro ⟨⟨x, i⟩, hx, rfl, rfl⟩
    obtain ⟨hle, hget⟩ := List.mem_zipIdx_iff_le_and_getElem?_sub.mp hx
    exact ⟨i - offset, hget, by omega⟩
  · rintro ⟨i, hget, rfl⟩
    exact ⟨(10, offset + i), List.mem_zipIdx_iff_le_and_getElem?_sub.mpr
      ⟨by omega, by rwa [Nat.add_sub_cancel_left]⟩, rfl, rfl⟩

theorem length_feedEnds (offset : Nat) (bs : List UInt8) :
    (feedEnds offset bs).length = bs.count 10 := by
  induction bs generalizing offset with
  | nil => rfl
  | cons b bs ih =>
      have hcons : feedEnds offset (b :: bs)
          = (if b = 10 then [offset + 1] else []) ++ feedEnds (offset + 1) bs := by
        by_cases hb : b = 10 <;> simp [feedEnds, hb]
      rw [hcons, List.length_append, ih, List.count_cons, Nat.add_comm]
      by_cases hb : b = 10 <;> simp [hb]

/-- Only the one byte of a line feed is one. -/
theorem feedEnds_utf8EncodeChar (offset : Nat) (c : Char) :
    feedEnds offset (String.utf8EncodeChar c) = if c = '\n' then [offset + c.utf8Size] else [] := by
  by_cases hc : c = '\n'
  · subst hc
    rfl
  · rw [if_neg hc, ← List.length_eq_zero_iff, length_feedEnds, count_utf8EncodeChar, if_neg hc]

theorem behindFeeds_eq (offset : Nat) (cs : List Char) :
    behindFeeds offset cs = feedEnds offset (cs.flatMap String.utf8EncodeChar) := by
  induction cs generalizing offset with
  | nil => rfl
  | cons c cs ih =>
      rw [behindFeeds, List.flatMap_cons, feedEnds_append, feedEnds_utf8EncodeChar,
        String.length_utf8EncodeChar, ← ih]
      split <;> rfl

/-- The start of the line that the bytes end in: right behind their last line feed, or nought if
there is none. -/
structure LineStart (bs : List UInt8) (start : Nat) : Prop where
  le : start ≤ bs.length
  behind : start ≠ 0 → bs[start - 1]? = some 10
  last : ∀ i, start ≤ i → bs[i]? ≠ some 10

/-- The last of the starts of lines is the start of the line at the end. -/
theorem exists_lineStart (bs : List UInt8) :
    ∃ start, (0 :: feedEnds 0 bs)[bs.count 10]? = some start ∧ LineStart bs start := by
  induction bs using List.reverseRecOn with
  | nil => exact ⟨0, rfl, Nat.le_refl 0, fun h => absurd rfl h, fun i _ => by simp⟩
  | append_singleton bs b ih =>
      obtain ⟨start, hget, hstart⟩ := ih
      have hlength : (0 :: feedEnds 0 bs).length = bs.count 10 + 1 := by
        rw [List.length_cons, length_feedEnds]
      rw [feedEnds_append, Nat.zero_add, ← List.cons_append, List.count_append,
        List.count_singleton]
      by_cases hb : b = 10
      · subst hb
        refine ⟨bs.length + 1, ?_, by simp, by simp, fun i hi => ?_⟩
        · have hnew : feedEnds bs.length [10] = [bs.length + 1] := rfl
          rw [List.getElem?_append_right (by simp [hlength]), hlength, hnew]
          simp
        · rw [List.getElem?_eq_none (by simpa using hi)]
          exact Option.some_ne_none _ |>.symm
      · refine ⟨start, ?_, ?_, ?_, fun i hi => ?_⟩
        · rw [List.getElem?_append_left (by simp [hlength, hb])]
          simpa [hb] using hget
        · rw [List.length_append]
          exact Nat.le_add_right_of_le hstart.le
        · intro hne
          rw [List.getElem?_append_left (by have := hstart.le; omega)]
          exact hstart.behind hne
        · rcases Nat.lt_or_ge i bs.length with hlt | hge
          · rw [List.getElem?_append_left hlt]
            exact hstart.last i hi
          · rw [List.getElem?_append_right hge]
            intro hten
            exact hb (List.mem_singleton.mp (List.mem_of_getElem? hten)).symm

/-- An offset divides the starts of the lines. -/
theorem lineStarts_eq (s : String) (offset : Nat) :
    ∃ front back, lineStarts s.toList = (front ++ back).toArray
      ∧ front = 0 :: feedEnds 0 ((bytes s).take offset)
      ∧ (∀ start ∈ front, start ≤ offset) ∧ ∀ start ∈ back, offset < start := by
  refine ⟨_, feedEnds ((bytes s).take offset).length ((bytes s).drop offset), ?_, rfl, ?_, ?_⟩
  · have hcut : feedEnds 0 (bytes s) = feedEnds 0 ((bytes s).take offset)
        ++ feedEnds ((bytes s).take offset).length ((bytes s).drop offset) :=
      calc feedEnds 0 (bytes s)
          = feedEnds 0 ((bytes s).take offset ++ (bytes s).drop offset) := by
            rw [List.take_append_drop]
        _ = _ := by rw [feedEnds_append, Nat.zero_add]
    rw [lineStarts, behindFeeds_eq, ← bytes_eq, hcut, List.cons_append]
  · intro start hstart
    rcases List.mem_cons.mp hstart with rfl | hstart
    · exact Nat.zero_le offset
    · obtain ⟨i, hget, rfl⟩ := mem_feedEnds.mp hstart
      have hi := (List.getElem?_eq_some_iff.mp hget).1
      rw [List.length_take] at hi
      omega
  · intro start hstart
    obtain ⟨i, hget, rfl⟩ := mem_feedEnds.mp hstart
    have hi := (List.getElem?_eq_some_iff.mp hget).1
    rw [List.length_drop] at hi
    rw [List.length_take]
    omega

/-! ## Positions -/

/-- Where an offset stands: the row counts the line feeds before it, and the column is its distance
from right behind the last of them. Nothing is taken from less: at least one line starts up to the
offset, and the start of its row is in the table and not behind it. -/
structure Located (s : String) (offset : Nat) (p : Position) : Prop where
  row_eq : p.row = ((bytes s).take offset).count 10
  found : partitionPoint (lineStarts s.toList) (· ≤ offset) = p.row + 1
  column_eq : ∃ start, LineStart ((bytes s).take offset) start
    ∧ (lineStarts s.toList)[p.row]? = some start ∧ start ≤ offset ∧ p.column = offset - start
    ∧ start + p.column = offset

theorem located_positionAt (s : String) (offset : Nat) :
    Located s offset (positionAt s.toList offset) := by
  obtain ⟨front, back, htable, hfront, hle, hlt⟩ := lineStarts_eq s offset
  obtain ⟨start, hget, hstart⟩ := exists_lineStart ((bytes s).take offset)
  rw [← hfront] at hget
  have hfound : partitionPoint (lineStarts s.toList) (· ≤ offset)
      = ((bytes s).take offset).count 10 + 1 := by
    rw [htable, partitionPoint_append (by simpa using hle) (by simpa using hlt), hfront,
      List.length_cons, length_feedEnds]
  have hentry : (lineStarts s.toList)[((bytes s).take offset).count 10]? = some start := by
    rw [htable, List.getElem?_toArray,
      List.getElem?_append_left (List.getElem?_eq_some_iff.mp hget).1, hget]
  have hposition : positionAt s.toList offset
      = ⟨((bytes s).take offset).count 10, offset - start⟩ := by
    rw [positionAt]
    simp only [hfound, Nat.add_sub_cancel, Array.getD_eq_getD_getElem?, hentry, Option.getD_some]
  have hbefore : start ≤ offset := hle start (List.mem_of_getElem? hget)
  rw [hposition]
  exact ⟨rfl, hfound, start, hstart, hentry, hbefore, rfl, Nat.add_sub_cancel' hbefore⟩

theorem row_positionAt (s : String) (offset : Nat) :
    (positionAt s.toList offset).row + 1 = lineOfByte s offset := by
  rw [(located_positionAt s offset).row_eq, lineOfByte]

/-- In one row the columns grow with the offset, and no later offset stands in an earlier row. -/
theorem strictMono_positionAt (s : String) : StrictMono (positionAt s.toList) := by
  intro a b hab
  obtain ⟨hrow, -, start, -, hentry, -, -, hstart⟩ := located_positionAt s a
  obtain ⟨hrow', -, start', -, hentry', -, -, hstart'⟩ := located_positionAt s b
  have hle : (positionAt s.toList a).row ≤ (positionAt s.toList b).row := by
    rw [hrow, hrow']
    exact (List.take_sublist_take_left hab.le).count_le 10
  rw [Position.lt_iff]
  rcases hle.lt_or_eq with hless | hsame
  · exact .inl hless
  · obtain rfl : start = start' := Option.some.inj (hentry.symm.trans (hsame ▸ hentry'))
    exact .inr ⟨hsame, by omega⟩

end Text

end CodeProfile
