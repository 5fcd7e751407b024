import CodeProfile.Proofs.Text.BoundPatterns

/-!
# Names and numerals in texts

ASCII identifiers and decimal numerals as runs of the classes that the
patterns of loop bounds read (`IsIdentifier.name`, `IsNumeral.digits`), and
texts that are put together from them and from separators: a mark that is
no separator does not stand in such a text (`WordsAnd.not_mem`,
`WordsAnd.apart`).
-/

namespace CodeProfile.Text

open CharClass

/-! ## Names and numerals -/

/-- A letter or an underscore, and then letters, digits and underscores, all of them ASCII. -/
def IsIdentifier (s : String) : Prop :=
  (s.toList.head?.any fun c => c.isAlpha || c == '_') = true ∧
    ∀ c ∈ s.toList, (c.isAlphanum || c == '_') = true

/-- One or more decimal digits. -/
def IsNumeral (s : String) : Prop := s ≠ "" ∧ ∀ c ∈ s.toList, c.isDigit = true

instance (s : String) : Decidable (IsIdentifier s) :=
  @instDecidableAnd _ _ _ (List.decidableBAll (fun c => (c.isAlphanum || c == '_') = true) s.toList)

instance (s : String) : Decidable (IsNumeral s) :=
  @instDecidableAnd _ _ _ (List.decidableBAll (fun c => c.isDigit = true) s.toList)

theorem isNumeral_toString (n : Nat) : IsNumeral (toString n) := by
  rw [IsNumeral, Nat.toString_eq_ofList_toDigits, String.toList_ofList]
  refine ⟨fun hempty => ?_, fun c hc => Nat.isDigit_of_mem_toDigits (by decide) (by decide) hc⟩
  exact Nat.toDigits_ne_nil (String.ofList_eq_empty_iff.mp hempty)

/-- What holds of the ASCII characters can be tried out. -/
theorem forall_ascii {P : Char → Prop} (h : ∀ n ∈ List.range 128, P (Char.ofNat n)) {c : Char}
    (hc : c.toNat < 128) : P c :=
  Char.ofNat_toNat c ▸ h c.toNat (List.mem_range.mpr hc)

theorem toNat_lt_of_isAlphanum {c : Char} (h : (c.isAlphanum || c == '_') = true) :
    c.toNat < 128 := by
  -- each case is an interval of code points below 128
  delta Char.isAlphanum Char.isAlpha Char.isUpper Char.isLower Char.isDigit at h
  simp only [Bool.or_eq_true, Bool.and_eq_true, decide_eq_true_eq, beq_iff_eq, ge_iff_le,
    UInt32.le_iff_toNat_le] at h
  change (((65 ≤ c.toNat ∧ c.toNat ≤ 90) ∨ (97 ≤ c.toNat ∧ c.toNat ≤ 122)) ∨
    (48 ≤ c.toNat ∧ c.toNat ≤ 57)) ∨ c = '_' at h
  rcases h with ((h | h) | h) | rfl
  · omega
  · omega
  · omega
  · decide

theorem isWordChar_of_isAlphanum {c : Char} (h : (c.isAlphanum || c == '_') = true) :
    isWordChar c = true ∧ isBlank c = false :=
  forall_ascii (P := fun c => (c.isAlphanum || c == '_') = true →
    isWordChar c = true ∧ isBlank c = false) (by decide +kernel) (toNat_lt_of_isAlphanum h) h

theorem letter_of_isAlpha {c : Char} (h : (c.isAlpha || c == '_') = true) :
    letter.holds c = true ∧ isDecimalDigit c = false := by
  have halpha : (c.isAlphanum || c == '_') = true := by
    simp only [Char.isAlphanum, Bool.or_eq_true] at h ⊢
    exact h.imp_left .inl
  exact forall_ascii (P := fun c => (c.isAlpha || c == '_') = true →
    letter.holds c = true ∧ isDecimalDigit c = false) (by decide +kernel)
    (toNat_lt_of_isAlphanum halpha) h

theorem isAlphanum_of_isDigit {c : Char} (h : c.isDigit = true) :
    (c.isAlphanum || c == '_') = true := by
  rw [Char.isAlphanum, h, Bool.or_true, Bool.true_or]

theorem digit_of_isDigit {c : Char} (h : c.isDigit = true) :
    isDecimalDigit c = true ∧ letter.holds c = false :=
  forall_ascii (P := fun c => c.isDigit = true → isDecimalDigit c = true ∧ letter.holds c = false)
    (by decide +kernel) (toNat_lt_of_isAlphanum (isAlphanum_of_isDigit h)) h

section

variable {s : String}

theorem IsIdentifier.cons (h : IsIdentifier s) :
    ∃ c cs, s.toList = c :: cs ∧ letter.holds c = true ∧ isDecimalDigit c = false := by
  obtain ⟨hhead, -⟩ := h
  cases hs : s.toList with
  | nil =>
      rw [hs] at hhead
      cases hhead
  | cons c cs =>
      rw [hs] at hhead
      exact ⟨c, cs, rfl, letter_of_isAlpha hhead⟩

theorem IsIdentifier.run {y : CharClass} (h : IsIdentifier s)
    (hy : ∀ c, isWordChar c = true → y.holds c = true) : Run letter y s.toList := by
  have hword {c : Char} (hc : c ∈ s.toList) := isWordChar_of_isAlphanum (h.2 c hc)
  obtain ⟨c, cs, hs, hc, -⟩ := h.cons
  refine ⟨⟨c, cs, hs, hc, ?_⟩, fun d hd => (hword hd).1, fun d hd => (hword hd).2⟩
  intro d hd
  exact hy d (hword (hs ▸ List.mem_cons_of_mem c hd)).1

theorem IsIdentifier.name (h : IsIdentifier s) : Run letter word s.toList :=
  h.run fun _ hc => holds_word.trans hc

/-- A name does not start like a numeral. -/
theorem IsIdentifier.starts (h : IsIdentifier s) (rest : List Char) :
    ∃ c cs, s.toList ++ rest = c :: cs ∧ isWordChar c = true ∧ isDecimalDigit c = false ∧
      isBlank c = false := by
  obtain ⟨c, cs, hs, -, hc⟩ := h.cons
  have hmem : c ∈ s.toList := hs ▸ List.mem_cons_self ..
  exact ⟨c, cs ++ rest, by rw [hs, List.cons_append], h.name.words c hmem, hc,
    h.name.notBlank c hmem⟩

theorem IsNumeral.digits (h : IsNumeral s) : Run digit digit s.toList := by
  obtain ⟨hne, hdigits⟩ := h
  have hword {c : Char} (hc : c ∈ s.toList) :=
    isWordChar_of_isAlphanum (isAlphanum_of_isDigit (hdigits c hc))
  have hdigit {c : Char} (hc : c ∈ s.toList) : digit.holds c = true :=
    holds_digit.trans (digit_of_isDigit (hdigits c hc)).1
  obtain ⟨c, cs, hs⟩ := List.exists_cons_of_ne_nil (mt String.toList_eq_nil_iff.mp hne)
  refine ⟨⟨c, cs, hs, hdigit (hs ▸ List.mem_cons_self ..), ?_⟩, fun d hd => (hword hd).1,
    fun d hd => (hword hd).2⟩
  intro d hd
  exact hdigit (hs ▸ List.mem_cons_of_mem c hd)

theorem IsIdentifier.words (h : IsIdentifier s) : ∀ c ∈ s.toList, isWordChar c = true :=
  fun c hc => (isWordChar_of_isAlphanum (h.2 c hc)).1

theorem IsNumeral.not_mem {m : Char} (h : IsNumeral s) (hm : isDecimalDigit m = false) :
    m ∉ s.toList := by
  intro hmem
  exact absurd (digit_of_isDigit (h.2 m hmem)).1 (Bool.eq_false_iff.mp hm)

theorem IsNumeral.words (h : IsNumeral s) : ∀ c ∈ s.toList, isWordChar c = true :=
  fun c hc => (isWordChar_of_isAlphanum (isAlphanum_of_isDigit (h.2 c hc))).1

end

/-! ## Texts of words and separators -/

section

variable {separators cs ds marks : List Char} {c m : Char} {s : String}

/-- Apart from word characters, only the separators stand in the text. -/
def WordsAnd (separators cs : List Char) : Prop := ∀ c ∈ cs, isWordChar c = true ∨ c ∈ separators

instance : Decidable (WordsAnd separators cs) :=
  List.decidableBAll (fun c => isWordChar c = true ∨ c ∈ separators) cs

/-- The marks are neither word characters nor separators. -/
def Foreign (separators marks : List Char) : Prop :=
  ∀ m ∈ marks, isWordChar m = false ∧ m ∉ separators

instance : Decidable (Foreign separators marks) :=
  List.decidableBAll (fun m => isWordChar m = false ∧ m ∉ separators) marks

@[simp] theorem wordsAnd_nil : WordsAnd separators [] := nofun

@[simp] theorem wordsAnd_cons : WordsAnd separators (c :: cs) ↔
    (isWordChar c = true ∨ c ∈ separators) ∧ WordsAnd separators cs := List.forall_mem_cons

@[simp] theorem wordsAnd_append : WordsAnd separators (cs ++ ds) ↔
    WordsAnd separators cs ∧ WordsAnd separators ds := List.forall_mem_append

theorem IsIdentifier.wordsAnd (h : IsIdentifier s) : WordsAnd separators s.toList :=
  fun c hc => .inl (h.words c hc)

theorem IsNumeral.wordsAnd (h : IsNumeral s) : WordsAnd separators s.toList :=
  fun c hc => .inl (h.words c hc)

theorem WordsAnd.not_mem (h : WordsAnd separators cs) (hword : isWordChar m = false)
    (hm : m ∉ separators) : m ∉ cs := by
  intro hmem
  rcases h m hmem with hm' | hm'
  · exact absurd hm' (Bool.eq_false_iff.mp hword)
  · exact hm hm'

theorem WordsAnd.apart (h : WordsAnd separators cs) (hmarks : Foreign separators marks) :
    ∀ c ∈ cs, c ∉ marks := by
  intro c hc hmem
  obtain ⟨hword, hm⟩ := hmarks c hmem
  exact h.not_mem hword hm hc

end

end CodeProfile.Text
