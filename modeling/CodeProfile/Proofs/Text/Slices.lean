import CodeProfile.Text.Bytes

/-!
# Pieces of text between byte offsets

`Text.slice?` cuts a list of characters at two byte offsets. This file
says exactly when it succeeds and what it gives back.

The headline is `slice?_eq_some_iff`: the piece is what stands between
a part as long as the first offset and the rest. On a `String` this
ties the cut to the positions of the standard library: cutting succeeds
between two valid positions in order and nowhere else
(`exists_slice?_iff`), and the bytes of the piece are the bytes between
the offsets (`toByteArray_slice?`). Pieces nest: what is cut out of the
whole can be cut out of any piece around it (`slice?_within`).
-/

namespace CodeProfile.Text

/-! ## Lengths in bytes -/

theorem byteLength_append (a b : List Char) :
    byteLength (a ++ b) = byteLength a + byteLength b := by
  rw [byteLength, List.map_append, Number.total_append, byteLength, byteLength]

theorem byteLength_cons (c : Char) (cs : List Char) :
    byteLength (c :: cs) = c.utf8Size + byteLength cs := rfl

/-- Every character takes a byte at least. -/
theorem eq_nil_of_byteLength_eq_zero {cs : List Char} (h : byteLength cs = 0) : cs = [] := by
  cases cs with
  | nil => rfl
  | cons c cs =>
      have hpos := c.utf8Size_pos
      rw [byteLength_cons] at h
      omega

theorem utf8ByteSize_ofList_eq (cs : List Char) :
    (String.ofList cs).utf8ByteSize = byteLength cs := by
  induction cs with
  | nil => rfl
  | cons c cs ih =>
      rw [byteLength_cons, ← List.singleton_append, String.ofList_append,
        String.utf8ByteSize_append, ih, ← String.singleton_eq_ofList,
        String.utf8ByteSize_singleton]

theorem byteLength_toList (s : String) : byteLength s.toList = s.utf8ByteSize := by
  rw [← utf8ByteSize_ofList_eq, String.ofList_toList]

/-! ## Cutting at one offset -/

theorem splitAtByte?_byteLength (a b : List Char) :
    splitAtByte? (a ++ b) (byteLength a) = some (a, b) := by
  induction a with
  | nil => cases b <;> rfl
  | cons c a ih =>
      have hpos := c.utf8Size_pos
      obtain ⟨n, hn⟩ : ∃ n, byteLength (c :: a) = n + 1 :=
        ⟨byteLength (c :: a) - 1, by rw [byteLength_cons]; omega⟩
      have hrest : n + 1 - c.utf8Size = byteLength a := by
        rw [← hn, byteLength_cons]
        omega
      have hfits : c.utf8Size ≤ n + 1 := by
        rw [← hn, byteLength_cons]
        omega
      rw [hn, List.cons_append, splitAtByte?, if_pos hfits, hrest, ih, Option.map_some]

theorem splitAtByte?_eq_some_iff {cs a b : List Char} {n : Nat} :
    splitAtByte? cs n = some (a, b) ↔ cs = a ++ b ∧ byteLength a = n := by
  constructor
  · intro h
    exact ⟨(splitAtByte?_append h).symm, byteLength_of_splitAtByte? h⟩
  · rintro ⟨rfl, rfl⟩
    exact splitAtByte?_byteLength a b

/-! ## Cutting out a piece -/

/-- The piece between two offsets stands between a part as long as the
first offset and the rest. -/
theorem slice?_eq_some_iff {cs piece : List Char} {start stop : Nat} :
    slice? cs start stop = some piece ↔
      ∃ before after, cs = before ++ piece ++ after ∧ byteLength before = start
        ∧ start + byteLength piece = stop := by
  constructor
  · intro h
    unfold slice? at h
    by_cases hlt : stop < start
    · simp [hlt] at h
    · rw [if_neg hlt] at h
      obtain ⟨r, hr, h⟩ := Option.bind_eq_some_iff.mp h
      obtain ⟨before, rest⟩ := r
      obtain ⟨q, hq, h⟩ := Option.bind_eq_some_iff.mp h
      obtain ⟨p, after⟩ := q
      obtain rfl := Option.some.inj h
      obtain ⟨rfl, hstart⟩ := splitAtByte?_eq_some_iff.mp hr
      obtain ⟨rfl, hlen⟩ := splitAtByte?_eq_some_iff.mp hq
      exact ⟨before, after, (List.append_assoc ..).symm, hstart, by omega⟩
  · rintro ⟨before, after, rfl, rfl, rfl⟩
    have hcut := splitAtByte?_byteLength before (piece ++ after)
    have hlen : byteLength before + byteLength piece - byteLength before = byteLength piece := by
      omega
    unfold slice?
    rw [if_neg (by omega), List.append_assoc, hcut, hlen]
    simp only [bind, Option.bind, splitAtByte?_byteLength, pure]

/-- Of two ways to cut a list in two, the shorter first part begins the
longer one. -/
theorem exists_append_of_byteLength_le {a b c d : List Char} (h : a ++ b = c ++ d)
    (hle : byteLength a ≤ byteLength c) : ∃ m, c = a ++ m ∧ b = m ++ d := by
  rcases List.append_eq_append_iff.mp h with ⟨m, hc, hb⟩ | ⟨m, ha, hd⟩
  · exact ⟨m, hc, hb⟩
  · rw [ha, byteLength_append] at hle
    have hm : m = [] := eq_nil_of_byteLength_eq_zero (by omega)
    subst hm
    exact ⟨[], by rw [ha, List.append_nil, List.append_nil], hd.symm⟩

/-- A piece inside another one is found there at its distance from the
start of the outer one. -/
theorem slice?_within {cs outer inner : List Char} {i j k l : Nat}
    (ho : slice? cs i j = some outer) (hi : slice? cs k l = some inner) (hik : i ≤ k)
    (hlj : l ≤ j) : slice? outer (k - i) (l - i) = some inner := by
  obtain ⟨b, a, hcs, hb, hj⟩ := slice?_eq_some_iff.mp ho
  obtain ⟨b', a', hcs', hb', hl⟩ := slice?_eq_some_iff.mp hi
  have hcut : b ++ (outer ++ a) = b' ++ (inner ++ a') := by
    rw [← List.append_assoc, ← hcs, hcs', List.append_assoc]
  obtain ⟨m, rfl, hrest⟩ := exists_append_of_byteLength_le hcut (by omega)
  rw [byteLength_append] at hb'
  have hcut' : (m ++ inner) ++ a' = outer ++ a := by rw [hrest, List.append_assoc]
  obtain ⟨n, rfl, -⟩ := exists_append_of_byteLength_le hcut'
    (by rw [byteLength_append]; omega)
  exact slice?_eq_some_iff.mpr ⟨m, n, rfl, by omega, by omega⟩

/-! ## Positions of a string -/

/-- A position is valid where the string can be cut in two. -/
theorem isValid_iff_exists_split {s : String} {n : Nat} :
    String.Pos.Raw.IsValid s ⟨n⟩ ↔ ∃ a b, s.toList = a ++ b ∧ byteLength a = n := by
  rw [String.Pos.Raw.isValid_iff_exists_append]
  constructor
  · rintro ⟨a, b, rfl, hn⟩
    refine ⟨a.toList, b.toList, String.toList_append, ?_⟩
    rw [byteLength_toList]
    exact (congrArg String.Pos.Raw.byteIdx hn).symm
  · rintro ⟨a, b, hs, rfl⟩
    refine ⟨String.ofList a, String.ofList b, ?_, ?_⟩
    · rw [← String.ofList_append, ← hs, String.ofList_toList]
    · rw [← utf8ByteSize_ofList_eq]
      rfl

/-- There is a piece between two offsets exactly if they are in order,
inside the string and between characters. -/
theorem exists_slice?_iff {s : String} {start stop : Nat} :
    (∃ piece, slice? s.toList start stop = some piece) ↔
      start ≤ stop ∧ stop ≤ s.utf8ByteSize ∧ String.Pos.Raw.IsValid s ⟨start⟩
        ∧ String.Pos.Raw.IsValid s ⟨stop⟩ := by
  constructor
  · rintro ⟨piece, h⟩
    obtain ⟨before, after, hs, hstart, hstop⟩ := slice?_eq_some_iff.mp h
    have hsize := byteLength_toList s
    rw [hs, byteLength_append, byteLength_append] at hsize
    refine ⟨by omega, by omega, ?_, ?_⟩
    · exact isValid_iff_exists_split.mpr
        ⟨before, piece ++ after, by rw [hs, List.append_assoc], hstart⟩
    · exact isValid_iff_exists_split.mpr
        ⟨before ++ piece, after, hs, by rw [byteLength_append, hstart, hstop]⟩
  · rintro ⟨hle, -, hstart, hstop⟩
    obtain ⟨a, b, hab, ha⟩ := isValid_iff_exists_split.mp hstart
    obtain ⟨c, d, hcd, hc⟩ := isValid_iff_exists_split.mp hstop
    obtain ⟨m, rfl, -⟩ := exists_append_of_byteLength_le (hab.symm.trans hcd) (by omega)
    refine ⟨m, slice?_eq_some_iff.mpr ⟨a, d, hcd, ha, ?_⟩⟩
    rw [byteLength_append] at hc
    omega

/-- The bytes of a piece are the bytes of the string between the offsets. -/
theorem toByteArray_slice? {s : String} {start stop : Nat} {piece : List Char}
    (h : slice? s.toList start stop = some piece) :
    (String.ofList piece).toByteArray = s.toByteArray.extract start stop := by
  obtain ⟨before, after, hs, hstart, hstop⟩ := slice?_eq_some_iff.mp h
  have hsize (cs : List Char) : (String.ofList cs).toByteArray.size = byteLength cs :=
    String.size_toByteArray.trans (utf8ByteSize_ofList_eq cs)
  have hsource : s.toByteArray = (String.ofList before).toByteArray
      ++ ((String.ofList piece).toByteArray ++ (String.ofList after).toByteArray) := by
    rw [← String.ofList_toList (s := s), hs, String.ofList_append, String.ofList_append,
      String.toByteArray_append, String.toByteArray_append, ByteArray.append_assoc]
  have hstart' : start = (String.ofList before).toByteArray.size + 0 := by
    rw [hsize, hstart, Nat.add_zero]
  have hstop' : stop
      = (String.ofList before).toByteArray.size + (String.ofList piece).toByteArray.size := by
    rw [hsize, hsize, hstart, hstop]
  rw [hsource, hstart', hstop', ByteArray.extract_append_size_add,
    ByteArray.extract_append_eq_left rfl]

end CodeProfile.Text
