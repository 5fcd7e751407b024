import CodeProfile.Proofs.Text.Slices
import Mathlib.Tactic.SplitIfs

/-!
# Lines of a text

A byte stands on the line that the line feeds before it make up, so that
a line feed is the last byte of the line that it ends
(`lineOfByte`). At an offset between two characters the line feeds may be
counted as characters (`lineOfByte_byteLength`), and so may they at the
last byte of a character (`lineOfByte_last`).

The number of a line never skips one from byte to byte, and so a run of
bytes stands on all the lines from its first to its last
(`exists_lineOfByte_eq_iff`). There are as many lines as the number of
the line that the last byte stands on (`length_lines_concat`), so that
an offset at the end of the text may lie one line further.
-/

namespace CodeProfile.Text

/-! ## The line of a byte -/

/-- The bytes of a text. -/
def bytes (s : String) : List UInt8 := s.toByteArray.data.toList

/-- The number of the line that a byte stands on, from one. A line feed stands on the line that it
ends. -/
def lineOfByte (s : String) (i : Nat) : Nat := ((bytes s).take i).count 10 + 1

theorem bytes_eq (s : String) : bytes s = s.toList.flatMap String.utf8EncodeChar := by
  rw [bytes, ← String.ofList_toList (s := s), String.toByteArray_ofList, String.toList_ofList,
    List.utf8Encode, List.data_toByteArray]

theorem count_ofNat_cons {v : Nat} (h : v < 256) (bs : List UInt8) :
    (UInt8.ofNat v :: bs).count 10 = bs.count 10 + if v = 10 then 1 else 0 := by
  have hfeed : UInt8.ofNat v = 10 ↔ v = 10 := by
    rw [← UInt8.toNat_inj, UInt8.toNat_ofNat', Nat.mod_eq_of_lt h]
    rfl
  simp only [List.count_cons, beq_iff_eq, hfeed]

/-- No byte of a character is a line feed, unless the character is one. -/
theorem count_utf8EncodeChar (c : Char) :
    (String.utf8EncodeChar c).count 10 = if c = '\n' then 1 else 0 := by
  have hfeed : c = '\n' ↔ c.val.toNat = 10 := by
    rw [← Char.val_inj, ← UInt32.toNat_inj]
    rfl
  simp only [String.utf8EncodeChar, hfeed]
  generalize c.val.toNat = v
  -- all bytes of a longer character are at least 128
  split
  next h => rw [count_ofNat_cons (by omega), List.count_nil, Nat.zero_add]
  next h =>
    split
    · rw [count_ofNat_cons (by omega), count_ofNat_cons (by omega), List.count_nil]
      split_ifs <;> omega
    · split
      · rw [count_ofNat_cons (by omega), count_ofNat_cons (by omega), count_ofNat_cons (by omega),
          List.count_nil]
        split_ifs <;> omega
      · rw [count_ofNat_cons (by omega), count_ofNat_cons (by omega), count_ofNat_cons (by omega),
          count_ofNat_cons (by omega), List.count_nil]
        split_ifs <;> omega

theorem count_bytes (cs : List Char) :
    (cs.flatMap String.utf8EncodeChar).count 10 = cs.count '\n' := by
  induction cs with
  | nil => rfl
  | cons c cs ih =>
      rw [List.flatMap_cons, List.count_append, count_utf8EncodeChar, ih, List.count_cons,
        Nat.add_comm]
      simp only [beq_iff_eq]

theorem length_bytes (cs : List Char) :
    (cs.flatMap String.utf8EncodeChar).length = byteLength cs := by
  induction cs with
  | nil => rfl
  | cons c cs ih =>
      rw [List.flatMap_cons, List.length_append, String.length_utf8EncodeChar, ih, byteLength_cons]

section Offsets

variable {s : String} {a b : List Char}

/-- At an offset between two characters the line feeds before it count as characters. -/
theorem lineOfByte_byteLength (h : s.toList = a ++ b) :
    lineOfByte s (byteLength a) = a.count '\n' + 1 := by
  rw [lineOfByte, bytes_eq, h, List.flatMap_append, ← length_bytes, List.take_left, count_bytes]

/-- The last byte of a character stands where the character starts. -/
theorem lineOfByte_last {c : Char} (h : s.toList = a ++ c :: b) :
    lineOfByte s (byteLength a + c.utf8Size - 1) = a.count '\n' + 1 := by
  have hpos := c.utf8Size_pos
  have hbytes : bytes s = a.flatMap String.utf8EncodeChar
      ++ (String.utf8EncodeChar c ++ b.flatMap String.utf8EncodeChar) := by
    rw [bytes_eq, h, List.flatMap_append, List.flatMap_cons]
  -- what is left out of the character is all of a line feed
  have hinside : ((String.utf8EncodeChar c).take (c.utf8Size - 1)).count 10 = 0 := by
    by_cases hc : c = '\n'
    · subst hc
      rfl
    · have hnone := count_utf8EncodeChar c
      rw [if_neg hc] at hnone
      exact Nat.le_zero.mp (hnone ▸ (List.take_sublist _ _).count_le 10)
  rw [lineOfByte, hbytes, Nat.add_sub_assoc hpos, ← length_bytes a, List.take_length_add_append,
    List.count_append, count_bytes, List.take_append_of_le_length, hinside, Nat.add_zero]
  rw [String.length_utf8EncodeChar]
  omega

end Offsets

/-! ## From byte to byte -/

section Bytes

variable {s : String} {a b n : Nat}

theorem lineOfByte_mono (h : a ≤ b) : lineOfByte s a ≤ lineOfByte s b :=
  Nat.add_le_add_right ((List.take_sublist_take_left h).count_le 10) 1

/-- No line is skipped. -/
theorem lineOfByte_succ_le (i : Nat) : lineOfByte s (i + 1) ≤ lineOfByte s i + 1 := by
  rw [lineOfByte, lineOfByte, List.take_add_one, List.count_append]
  have hone : ((bytes s)[i]?.toList).count 10 ≤ 1 := by
    cases (bytes s)[i]? with
    | none => exact Nat.zero_le 1
    | some x => exact List.count_le_length
  omega

/-- The bytes from one to another stand on all lines between theirs. -/
theorem exists_lineOfByte_eq_iff (h : a ≤ b) :
    (∃ i, a ≤ i ∧ i ≤ b ∧ lineOfByte s i = n) ↔ lineOfByte s a ≤ n ∧ n ≤ lineOfByte s b := by
  constructor
  · rintro ⟨i, hai, hib, rfl⟩
    exact ⟨lineOfByte_mono hai, lineOfByte_mono hib⟩
  · rintro ⟨han, hnb⟩
    induction h with
    | refl => exact ⟨a, Nat.le_refl a, Nat.le_refl a, Nat.le_antisymm han hnb⟩
    | @step b h ih =>
        have hstep : lineOfByte s b.succ ≤ lineOfByte s b + 1 := lineOfByte_succ_le b
        by_cases hle : n ≤ lineOfByte s b
        · obtain ⟨i, hai, hib, hi⟩ := ih hle
          exact ⟨i, hai, Nat.le_succ_of_le hib, hi⟩
        · exact ⟨b.succ, Nat.le_succ_of_le h, Nat.le_refl _, by omega⟩

end Bytes

/-! ## How many lines there are -/

/-- There is one piece more than characters that divide the text, and the last piece is empty
exactly if the text is, or ends in such a character. -/
theorem exists_splitChars_eq (p : Char → Bool) (cs : List Char) :
    ∃ pieces last, splitChars p cs = pieces ++ [last] ∧ pieces.length = cs.countP p
      ∧ (last = [] ↔ ∀ c ∈ cs.getLast?, p c = true) := by
  induction cs with
  | nil => exact ⟨[], [], rfl, rfl, by simp⟩
  | cons c cs ih =>
      obtain ⟨pieces, last, hsplit, hlength, hlast⟩ := ih
      cases hc : p c with
      | true =>
          refine ⟨[] :: pieces, last, ?_, by simp [hlength, hc], ?_⟩
          · rw [splitChars, hsplit]
            cases pieces <;> simp [hc]
          · rw [hlast]
            cases cs <;> simp [hc]
      | false =>
          cases pieces with
          | nil =>
              -- nothing divides the rest, so that the last piece is the whole text
              have hnone : cs.countP p = 0 := hlength.symm
              refine ⟨[], c :: last, by simp [splitChars, hsplit, hc], by simp [hnone, hc], ?_⟩
              have hall : ∀ d ∈ (c :: cs).getLast?, p d = false := by
                intro d hd
                rcases List.mem_cons.mp (List.mem_of_getLast? hd) with rfl | hd
                · exact hc
                · exact Bool.eq_false_iff.mpr (List.countP_eq_zero.mp hnone d hd)
              obtain ⟨d, hd⟩ : ∃ d, (c :: cs).getLast? = some d := ⟨_, List.getLast?_cons⟩
              simp [hd, hall d hd]
          | cons w ws =>
              refine ⟨(c :: w) :: ws, last, by simp [splitChars, hsplit, hc], ?_, ?_⟩
              · simpa [hc] using hlength
              · rw [hlast]
                cases cs with
                | nil => cases hlength
                | cons d ds => rw [List.getLast?_cons_cons]

/-- The last character of a text stands on its last line. -/
theorem length_linesOf_concat (cs : List Char) (c : Char) :
    (linesOf (cs ++ [c])).length = cs.count '\n' + 1 := by
  obtain ⟨pieces, last, hsplit, hlength, hlast⟩ := exists_splitChars_eq (· == '\n') (cs ++ [c])
  rw [List.countP_append, List.countP_singleton] at hlength
  have hlines : (linesOf (cs ++ [c])).length = pieces.length + if last = [] then 0 else 1 := by
    rw [linesOf, hsplit]
    by_cases h : last = [] <;> simp [h]
  rw [hlines, hlength, List.count]
  by_cases hc : c = '\n' <;> simp [hlast, hc]

/-- There are as many lines as the number of the line that the last byte stands on. -/
theorem length_lines {s : String} (h : s ≠ "") :
    (lines s).length = lineOfByte s (s.utf8ByteSize - 1) := by
  obtain ⟨cs, c, hs⟩ : ∃ cs c, s.toList = cs ++ [c] :=
    ⟨_, _, (List.dropLast_concat_getLast (h ∘ String.toList_eq_nil_iff.mp)).symm⟩
  have hsize : s.utf8ByteSize = byteLength cs + c.utf8Size := by
    rw [← byteLength_toList, hs, byteLength_append]
    rfl
  rw [lines, List.length_map, hs, length_linesOf_concat, hsize, lineOfByte_last hs]

theorem lineOfByte_le {s : String} {i : Nat} (h : i ≤ s.utf8ByteSize) :
    lineOfByte s i ≤ (lines s).length + 1 := by
  by_cases hs : s = ""
  · subst hs
    obtain rfl := Nat.le_zero.mp h
    exact Nat.le_refl 1
  · rw [length_lines hs]
    calc lineOfByte s i
        ≤ lineOfByte s (s.utf8ByteSize - 1 + 1) := lineOfByte_mono (by omega)
      _ ≤ lineOfByte s (s.utf8ByteSize - 1) + 1 := lineOfByte_succ_le _

end CodeProfile.Text
