import CodeProfile.Proofs.Text.BoundPatterns
import CodeProfile.Proofs.Text.Reading

/-!
# Spaced words

Words in a row with blanks behind each of them (`Spaced`), as in front of
the name of a function. Where the name starts with a letter that none of
the words starts with, such words can be taken off a text in one way only
(`Spaced.unique`).

A pattern for a phrase reads its words with blanks between them, and
together with the blanks behind it reads exactly the spaced words
(`reads_phrase_gap`). What a pattern reads is told part by part for the
patterns that it is made of.
-/

namespace CodeProfile

namespace Text

/-- Blanks, at least one. -/
def IsGap (cs : List Char) : Prop := cs ≠ [] ∧ ∀ c ∈ cs, isBlank c = true

/-- The words in a row, with blanks behind each of them. -/
def Spaced : List (List Char) → List Char → Prop
  | [], cs => cs = []
  | w :: ws, cs => ∃ gap rest, cs = w ++ (gap ++ rest) ∧ IsGap gap ∧ Spaced ws rest

/-! ## Spaced words -/

/-- Two ways to cut a text where a test first fails are the same. -/
theorem span_unique {p : Char → Bool} {a a' b b' : List Char} (ha : ∀ c ∈ a, p c = true)
    (ha' : ∀ c ∈ a', p c = true) (hb : ∀ c ∈ b.head?, p c = false)
    (hb' : ∀ c ∈ b'.head?, p c = false) (h : a ++ b = a' ++ b') : a = a' ∧ b = b' := by
  -- a longer part would hold the character that ends the shorter one
  have hnil {a m b : List Char} (ha : ∀ c ∈ a ++ m, p c = true)
      (hb : ∀ c ∈ (m ++ b).head?, p c = false) : m = [] := by
    cases m with
    | nil => rfl
    | cons x m =>
        have hx := ha x (List.mem_append_right a (List.mem_cons_self ..))
        rw [hb x rfl] at hx
        cases hx
  rcases List.append_eq_append_iff.mp h with ⟨m, rfl, rfl⟩ | ⟨m, rfl, rfl⟩
  · obtain rfl := hnil ha' hb
    exact ⟨(List.append_nil a).symm, rfl⟩
  · obtain rfl := hnil ha hb'
    exact ⟨List.append_nil a', rfl⟩

/-- A word that no blank stands in and that starts with none of some letters. -/
structure IsWord (initials w : List Char) : Prop where
  head : ∃ c ∈ w.head?, c ∉ initials
  notBlank : ∀ c ∈ w, isBlank c = false

theorem isWord_iff {initials w : List Char} : IsWord initials w ↔
    w.head?.any (!initials.contains ·) = true ∧ w.all (!isBlank ·) = true := by
  rw [Option.any_eq_true, List.all_eq_true]
  constructor
  · rintro ⟨⟨c, hc, hnot⟩, hblank⟩
    exact ⟨⟨c, hc, by simpa using hnot⟩, fun c hc => by rw [hblank c hc]; rfl⟩
  · rintro ⟨⟨c, hc, hnot⟩, hblank⟩
    exact ⟨⟨c, hc, by simpa using hnot⟩, fun c hc => by simpa using hblank c hc⟩

instance (initials w : List Char) : Decidable (IsWord initials w) := decidable_of_iff' _ isWord_iff

section Words

variable {initials : List Char} {ws ws' : List (List Char)} {x x' y y' : List Char}

theorem Spaced.exists_head {w : List Char} (h : Spaced (w :: ws) x) (hw : IsWord initials w) :
    ∃ c v, x = c :: v ∧ c ∉ initials ∧ isBlank c = false := by
  obtain ⟨gap, rest, rfl, -⟩ := h
  obtain ⟨c, hc, hnot⟩ := hw.head
  obtain ⟨v, rfl⟩ := List.head?_eq_some_iff.mp hc
  exact ⟨c, _, rfl, hnot, hw.notBlank c (List.mem_cons_self ..)⟩

/-- A name that starts with one of the letters. -/
def StartsIn (initials y : List Char) : Prop :=
  ∃ c v, y = c :: v ∧ c ∈ initials ∧ isBlank c = false

theorem Spaced.head_notBlank (h : Spaced ws x) (hws : ∀ w ∈ ws, IsWord initials w)
    (hy : StartsIn initials y) : ∀ c ∈ (x ++ y).head?, isBlank c = false := by
  have hcons {c : Char} {v : List Char} (hc : isBlank c = false) :
      ∀ d ∈ (c :: v).head?, isBlank d = false := fun d hd => Option.some.inj hd ▸ hc
  cases ws with
  | nil =>
      obtain rfl := h
      obtain ⟨c, v, rfl, -, hc⟩ := hy
      exact hcons hc
  | cons w ws =>
      obtain ⟨c, v, rfl, -, hc⟩ := h.exists_head (hws w (List.mem_cons_self ..))
      exact hcons hc

/-- A name is no word of those in front of it. -/
theorem StartsIn.ne_append {w : List Char} (hy : StartsIn initials y) (hw : IsWord initials w)
    (h : Spaced (w :: ws) x) : y ≠ x ++ y' := by
  obtain ⟨c, v, rfl, hc, -⟩ := h.exists_head hw
  obtain ⟨d, u, rfl, hd, -⟩ := hy
  exact fun heq => hc ((List.cons.inj heq).1 ▸ hd)

/-- A word ends where blanks start. -/
theorem IsGap.stops {gap v : List Char} (h : IsGap gap) :
    ∀ c ∈ (gap ++ v).head?, (!isBlank c) = false := by
  obtain ⟨c, u, rfl⟩ := List.exists_cons_of_ne_nil h.1
  rintro d hd
  obtain rfl := Option.some.inj hd
  rw [h.2 _ (List.mem_cons_self ..)]
  rfl

/-- Words in front of a name are taken off a text in one way only, if the name starts with a
letter that none of them starts with. -/
theorem Spaced.unique (h : Spaced ws x) (h' : Spaced ws' x') (hws : ∀ w ∈ ws, IsWord initials w)
    (hws' : ∀ w ∈ ws', IsWord initials w) (hy : StartsIn initials y) (hy' : StartsIn initials y')
    (heq : x ++ y = x' ++ y') : x = x' := by
  induction ws generalizing ws' x x' with
  | nil =>
      obtain rfl := h
      cases ws' with
      | nil => exact h'.symm
      | cons w' ws' => exact absurd heq (hy.ne_append (hws' w' (List.mem_cons_self ..)) h')
  | cons w ws ih =>
      obtain ⟨hw, hwords⟩ := List.forall_mem_cons.mp hws
      cases ws' with
      | nil =>
          obtain rfl := h'
          exact absurd heq.symm (hy'.ne_append hw h)
      | cons w' ws' =>
          obtain ⟨hw', hwords'⟩ := List.forall_mem_cons.mp hws'
          obtain ⟨gap, rest, rfl, hgap, hrest⟩ := h
          obtain ⟨gap', rest', rfl, hgap', hrest'⟩ := h'
          simp only [List.append_assoc] at heq
          -- the word ends where the blanks start, and these where the next word starts
          obtain ⟨rfl, hblanks⟩ := span_unique (p := fun c => !isBlank c)
            (fun c hc => by rw [hw.notBlank c hc]; rfl) (fun c hc => by rw [hw'.notBlank c hc]; rfl)
            hgap.stops hgap'.stops heq
          obtain ⟨rfl, hnext⟩ := span_unique hgap.2 hgap'.2 (hrest.head_notBlank hwords hy)
            (hrest'.head_notBlank hwords' hy') hblanks
          rw [ih hrest hrest' hwords hwords' hnext]

end Words

/-! ## Patterns -/

def CharClass.oneOf (cs : List Char) : CharClass := ⟨false, cs.map fun c => .range c c, false⟩

theorem CharClass.holds_oneOf_iff {cs : List Char} {c : Char} :
    (oneOf cs).holds c = true ↔ c ∈ cs := by
  have hsingle (d : Char) : (CharItem.range d d).holds c = true ↔ c = d := by
    rw [← holds_single_iff]
    simp [holds, single]
  simp [holds, oneOf, hsingle]

namespace Pattern

/-! ## Readings of single parts -/

/-- A run of blanks, at least one. -/
def gap : Pattern := run .blank .blank

/-- The characters one after the other. -/
def letters : List Char → Pattern
  | [] => empty
  | [c] => char c
  | c :: cs => seq (char c) (letters cs)

/-- Words with blanks between them. -/
def phrase : List (List Char) → Pattern
  | [] => empty
  | [w] => letters w
  | w :: ws => spelled w (seq gap (phrase ws))

/-- One of several patterns. -/
def choice : List Pattern → Pattern
  | [] => never
  | [p] => p
  | p :: ps => either p (choice ps)

section

variable {p q p' : Pattern} {b w r : List Char}

theorem reads_char {c : Char} : (char c).Reads b w r ↔ w = [c] := by
  simp only [char, Reads, CharClass.holds_single_iff, exists_eq_right]

theorem reads_seq_assoc : (seq p (seq q p')).Reads b w r ↔ (seq (seq p q) p').Reads b w r := by
  constructor
  · rintro ⟨u, x, rfl, hu, v, y, rfl, hv, hy⟩
    rw [List.append_assoc] at hu
    refine ⟨u ++ v, y, (List.append_assoc ..).symm, ⟨u, v, rfl, hu, hv⟩, ?_⟩
    rwa [List.reverse_append, List.append_assoc]
  · rintro ⟨x, y, rfl, ⟨u, v, rfl, hu, hv⟩, hy⟩
    rw [List.reverse_append, List.append_assoc] at hy
    refine ⟨u, v ++ y, List.append_assoc .., ?_, v, y, rfl, hv, hy⟩
    rwa [List.append_assoc]

theorem reads_spelled (cs : List Char) :
    (spelled cs p).Reads b w r ↔ ∃ v, w = cs ++ v ∧ p.Reads (cs.reverse ++ b) v r := by
  induction cs generalizing b w with
  | nil => simp [spelled]
  | cons c cs ih =>
      have hcons : spelled (c :: cs) p = seq (char c) (spelled cs p) := rfl
      rw [hcons, Reads, List.reverse_cons, List.append_assoc, List.singleton_append]
      constructor
      · rintro ⟨u, x, rfl, hu, hx⟩
        obtain rfl := reads_char.mp hu
        obtain ⟨v, rfl, hv⟩ := ih.mp hx
        exact ⟨v, rfl, hv⟩
      · rintro ⟨v, rfl, hv⟩
        exact ⟨[c], cs ++ v, rfl, reads_char.mpr rfl, ih.mpr ⟨v, rfl, hv⟩⟩

theorem reads_spelled_seq (cs : List Char) : (seq (spelled cs p) q).Reads b w r ↔
    ∃ v, w = cs ++ v ∧ (seq p q).Reads (cs.reverse ++ b) v r := by
  constructor
  · rintro ⟨u, v, rfl, hu, hv⟩
    obtain ⟨x, rfl, hx⟩ := (reads_spelled cs).mp hu
    rw [List.reverse_append, List.append_assoc] at hv
    exact ⟨x ++ v, List.append_assoc .., x, v, rfl, hx, hv⟩
  · rintro ⟨y, rfl, x, v, rfl, hx, hv⟩
    refine ⟨cs ++ x, v, (List.append_assoc ..).symm, (reads_spelled cs).mpr ⟨x, rfl, hx⟩, ?_⟩
    rwa [List.reverse_append, List.append_assoc]

theorem reads_letters (cs : List Char) : (letters cs).Reads b w r ↔ w = cs := by
  induction cs generalizing b w with
  | nil => exact Iff.rfl
  | cons c cs ih =>
      cases cs with
      | nil => exact reads_char
      | cons d ds =>
          have hcons : letters (c :: d :: ds) = seq (char c) (letters (d :: ds)) := rfl
          rw [hcons, Reads]
          constructor
          · rintro ⟨u, v, rfl, hu, hv⟩
            rw [reads_char.mp hu, ih.mp hv]
            rfl
          · rintro rfl
            exact ⟨[c], d :: ds, rfl, reads_char.mpr rfl, ih.mpr rfl⟩

theorem reads_many_one {cls : CharClass} {reluctant : Bool} :
    (many reluctant (one cls)).Reads b w r ↔ ∀ c ∈ w, cls.holds c = true := by
  rw [Reads]
  constructor
  · intro h
    induction h with
    | none => exact nofun
    | more first moves rest ih =>
        obtain ⟨x, rfl, hx⟩ := first
        exact List.forall_mem_cons.mpr ⟨hx, ih⟩
  · intro h
    induction w generalizing b with
    | nil => exact .none
    | cons x w ih =>
        obtain ⟨hx, hw⟩ := List.forall_mem_cons.mp h
        exact @Repeated.more _ b [x] w r ⟨x, rfl, hx⟩ (List.cons_ne_nil x []) (ih hw)

theorem reads_blanks : blanks.Reads b w r ↔ ∀ c ∈ w, isBlank c = true := by
  rw [blanks, reads_many_one]
  simp only [CharClass.holds_blank]

theorem reads_gap : gap.Reads b w r ↔ IsGap w := by
  constructor
  · rintro ⟨u, v, rfl, ⟨x, rfl, hx⟩, hv⟩
    exact ⟨List.cons_ne_nil x v,
      List.forall_mem_cons.mpr ⟨CharClass.holds_blank.symm.trans hx, reads_blanks.mp hv⟩⟩
  · rintro ⟨hne, hblank⟩
    obtain ⟨x, v, rfl⟩ := List.exists_cons_of_ne_nil hne
    obtain ⟨hx, hv⟩ := List.forall_mem_cons.mp hblank
    exact ⟨[x], v, rfl, ⟨x, rfl, CharClass.holds_blank.trans hx⟩, reads_blanks.mpr hv⟩

theorem reads_choice (ps : List Pattern) : (choice ps).Reads b w r ↔ ∃ p ∈ ps, p.Reads b w r := by
  induction ps with
  | nil =>
      simp [choice, never, Reads, CharClass.holds]
  | cons p ps ih =>
      cases ps with
      | nil => simp [choice]
      | cons q qs =>
          have hcons : choice (p :: q :: qs) = either p (choice (q :: qs)) := rfl
          rw [hcons, Reads, ih]
          simp only [List.mem_cons, exists_eq_or_imp]

/-- A phrase and the blanks behind it are spaced words. -/
theorem reads_phrase_gap {ws : List (List Char)} (h : ws ≠ []) :
    (seq (phrase ws) gap).Reads b w r ↔ Spaced ws w := by
  induction ws generalizing b w with
  | nil => exact absurd rfl h
  | cons x ws ih =>
      cases ws with
      | nil =>
          constructor
          · rintro ⟨u, v, rfl, hu, hv⟩
            obtain rfl := (reads_letters x).mp hu
            exact ⟨v, [], by rw [List.append_nil], reads_gap.mp hv, rfl⟩
          · rintro ⟨v, rest, rfl, hv, rfl⟩
            rw [List.append_nil]
            exact ⟨x, v, rfl, (reads_letters x).mpr rfl, reads_gap.mpr hv⟩
      | cons y ys =>
          have hcons : phrase (x :: y :: ys) = spelled x (seq gap (phrase (y :: ys))) := rfl
          have hrest {b w : List Char} := ih (b := b) (w := w) (List.cons_ne_nil y ys)
          rw [hcons, reads_spelled_seq]
          constructor
          · rintro ⟨v, rfl, hv⟩
            obtain ⟨g, t, rfl, hg, ht⟩ := reads_seq_assoc.mpr hv
            exact ⟨g, t, rfl, reads_gap.mp hg, hrest.mp ht⟩
          · rintro ⟨g, t, rfl, hg, ht⟩
            exact ⟨g ++ t, rfl, reads_seq_assoc.mp ⟨g, t, rfl, reads_gap.mpr hg, hrest.mpr ht⟩⟩

end

end Pattern

end Text

end CodeProfile
