import CodeProfile.Proofs.Text.Matching

/-!
# The patterns of loop bounds

What the patterns for loop bounds find in front of a name or a numeral.
The two patterns for upper bounds are made of the same four alternatives,
around a name or around a numeral, and where a text lacks the marks of the
others, one alternative is left: the comparison, the call of `range` or the
range with dots. A name is a run of word characters after a letter and a
numeral a run of digits (`Run`); no search can go on inside such a run, so
each alternative takes all of it.

The numeral pattern may skip a first argument of `range` only if a numeral
follows. In front of a name it goes back and takes the first argument for
the bound (`first_passedOver`, `first_rangeCall`).
-/

namespace CodeProfile.Text

/-! ## Classes -/

namespace CharClass

def single (c : Char) : CharClass := ⟨false, [.range c c], false⟩

def digit : CharClass := ⟨false, [.digit false], false⟩

def word : CharClass := ⟨false, [.word false], false⟩

def blank : CharClass := ⟨false, [.blank false], false⟩

/-- The class of the characters that a name starts with. -/
def letter : CharClass := ⟨false, [.range 'A' 'Z', .range 'a' 'z', .range '_' '_'], false⟩

/-- The class of the characters behind an argument. -/
def argumentEnd : CharClass := ⟨false, [.range ',' ',', .range ')' ')'], false⟩

/-- The class of the characters of a name with dots in it. -/
def path : CharClass := ⟨false, [.word false, .range '.' '.'], false⟩

variable {c d : Char}

theorem holds_single_iff : (single d).holds c = true ↔ c = d := by
  have hholds : (single d).holds c = (d ≤ c && c ≤ d : Bool) := by
    simp [holds, single, CharItem.holds]
  rw [hholds, Bool.and_eq_true, decide_eq_true_iff, decide_eq_true_iff]
  exact ⟨fun h => Char.le_antisymm h.2 h.1, fun h => h ▸ ⟨Char.le_refl _, Char.le_refl _⟩⟩

theorem holds_single_of_ne (h : c ≠ d) : (single d).holds c = false :=
  Bool.eq_false_iff.mpr (mt holds_single_iff.mp h)

@[simp] theorem holds_word : word.holds c = isWordChar c := by
  simp [holds, word, CharItem.holds]

@[simp] theorem holds_blank : blank.holds c = isBlank c := by
  simp [holds, blank, CharItem.holds]

@[simp] theorem holds_digit : digit.holds c = isDecimalDigit c := by
  simp [holds, digit, CharItem.holds]

theorem holds_argumentEnd_iff : argumentEnd.holds c = true ↔ c = ',' ∨ c = ')' := by
  have hholds : argumentEnd.holds c = ((single ',').holds c || (single ')').holds c) := by
    simp [holds, argumentEnd, single]
  rw [hholds, Bool.or_eq_true, holds_single_iff, holds_single_iff]

theorem holds_path_of_word (h : isWordChar c = true) : path.holds c = true := by
  simp [holds, path, CharItem.holds, h]

end CharClass

open CharClass

theorem ne_of_isWordChar {c d : Char} (hc : isWordChar c = true) (hd : isWordChar d = false) :
    c ≠ d := by
  rintro rfl
  exact absurd hc (Bool.eq_false_iff.mp hd)

/-- A name or a numeral: a character of the first class and then characters of the second. -/
structure Run (x y : CharClass) (w : List Char) : Prop where
  opens : ∃ c cs, w = c :: cs ∧ x.holds c = true ∧ ∀ d ∈ cs, y.holds d = true
  words : ∀ c ∈ w, isWordChar c = true
  notBlank : ∀ c ∈ w, isBlank c = false

/-- Any run is one of word characters. -/
theorem Run.wordRun {x y : CharClass} {w : List Char} (h : Run x y w) : Run word word w := by
  obtain ⟨c, cs, hw, -, -⟩ := h.opens
  have hword {d : Char} (hd : d ∈ w) : word.holds d = true := holds_word.trans (h.words d hd)
  refine ⟨⟨c, cs, hw, hword (hw ▸ List.mem_cons_self ..), ?_⟩, h.words, h.notBlank⟩
  intro d hd
  exact hword (hw ▸ List.mem_cons_of_mem c hd)

/-! ## Patterns -/

namespace Pattern

deriving instance DecidableEq for Pattern

def char (c : Char) : Pattern := one (.single c)

/-- The characters one after the other, and then the pattern. -/
def spelled (cs : List Char) (p : Pattern) : Pattern := cs.foldr (fun c q => seq (char c) q) p

def optional (p : Pattern) : Pattern := either p empty

def blanks : Pattern := many false (one blank)

def edge : Pattern := anchor .wordEdge

def run (x y : CharClass) : Pattern := seq (one x) (many false (one y))

def numeral : Pattern := run digit digit

def name : Pattern := run letter word

/-- What follows the mark of a comparison, or the dots of a range. -/
def behindMark (i : Nat) (bound : Pattern) : Pattern :=
  seq (optional (char '=')) (seq blanks (seq (group i bound) edge))

def comparison (bound : Pattern) : Pattern := seq (char '<') (behindMark 2 bound)

def dots (bound : Pattern) : Pattern := seq (char '.') (seq (char '.') (behindMark 5 bound))

/-- An argument that is passed over. -/
def passedOver (start : Pattern) : Pattern := seq start (seq blanks (seq (char ',') blanks))

/-- An argument and what comes behind it. -/
def argument (bound : Pattern) : Pattern := seq (group 3 bound) (seq blanks (one argumentEnd))

/-- A bound as an argument of `range`, perhaps behind a start. -/
def rangeCall (start bound : Pattern) : Pattern :=
  seq edge (spelled ['r', 'a', 'n', 'g', 'e', '('] (seq blanks
    (seq (optional (passedOver start)) (argument bound))))

def reverseComparison (bound : Pattern) : Pattern :=
  seq edge (seq (group 4 bound) (seq blanks (seq (char '>') (optional (char '=')))))

/-- A bound from above, in one of four ways to write it. -/
def upper (start bound : Pattern) : Pattern :=
  group 1 (either (comparison bound) (either (rangeCall start bound)
    (either (reverseComparison bound) (dots bound))))

/-- What follows the first mark of a shift by one. -/
def shiftTail : Pattern := spelled ['<', '='] (seq blanks (seq (char '1') edge))

/-- The step of a loop that doubles by a shift. -/
def shift : Pattern := seq (char '<') shiftTail

/-- The names of functions that give a size, apart from `len`. -/
def otherSizes : Pattern :=
  either (spelled ['c', 'o', 'u', 'n'] (char 't')) (either (spelled ['s', 'i', 'z'] (char 'e'))
    (spelled ['s', 'i', 'z', 'e', 'o'] (char 'f')))

/-- The call of a function that gives a size. -/
def sizeCall : Pattern :=
  seq edge (seq (group 1 (either (spelled ['l', 'e'] (char 'n')) otherSizes))
    (seq (char '(') (seq blanks (group 2 (run letter path)))))

/-! ### Following single parts -/

section

variable {β : Type} {k : Cursor → Option β} {b rest : List Char} {g : List GroupMatch}

open Cursor

theorem first_char_self (c : Char) :
    (char c).first k (here b (c :: rest) g) = k (here (c :: b) rest g) := by
  rw [char, first_one_cons, if_pos (holds_single_iff.mpr rfl)]

theorem first_char_ne {c x : Char} (h : x ≠ c) :
    (char c).first k (here b (x :: rest) g) = none := by
  rw [char, first_one_cons, holds_single_of_ne h, if_neg Bool.false_ne_true]

theorem first_spelled (cs : List Char) (p : Pattern) :
    (spelled cs p).first k (here b (cs ++ rest) g) = p.first k (here (cs.reverse ++ b) rest g) := by
  induction cs generalizing b with
  | nil => rfl
  | cons c cs ih =>
      have hcons : spelled (c :: cs) p = seq (char c) (spelled cs p) := rfl
      rw [hcons, first_seq, List.cons_append, first_char_self, ih, List.reverse_cons,
        List.append_assoc, List.singleton_append]

theorem first_optional (p : Pattern) (c : Cursor) :
    (optional p).first k c = (p.first k c).or (k c) := by
  rw [optional, first_either, first_empty]

theorem first_blanks_space (h : StopsAt blank rest) :
    blanks.first k (here b (' ' :: rest) g) =
      (k (here (' ' :: b) rest g)).or (k (here b (' ' :: rest) g)) := by
  have hspace : blank.holds ' ' = true := by decide
  rw [blanks, first_many_cons, if_pos hspace, first_many_stop h]

theorem first_blanks_stop (h : StopsAt blank rest) :
    blanks.first k (here b rest g) = k (here b rest g) := first_many_stop h

theorem first_edge : edge.first k (here b rest g) =
    if (b.head?.any isWordChar != rest.head?.any isWordChar) = true then k (here b rest g)
    else none :=
  first_anchor _

/-! ### Runs -/

variable {x y : CharClass} {w : List Char}

theorem first_run_greedy (hw : Run x y w) (hrest : StopsAt y rest) {r : β}
    (hk : k (here (w.reverse ++ b) rest g) = some r) :
    (run x y).first k (here b (w ++ rest) g) = some r := by
  obtain ⟨c, cs, rfl, hc, hcs⟩ := hw.opens
  rw [List.reverse_cons, List.append_assoc, List.singleton_append] at hk
  rw [run, first_seq, List.cons_append, first_one_cons, if_pos hc]
  exact first_many_greedy hcs hrest hk

/-- What cannot go on in front of a word character goes on behind the whole run. -/
theorem first_run_stuck (hw : Run x y w) (hrest : StopsAt y rest)
    (hk : ∀ z zs before, isWordChar z = true → isBlank z = false →
      k (here before (z :: zs) g) = none) :
    (run x y).first k (here b (w ++ rest) g) = k (here (w.reverse ++ b) rest g) := by
  obtain ⟨c, cs, rfl, hc, hcs⟩ := hw.opens
  rw [run, first_seq, List.cons_append, first_one_cons, if_pos hc, first_many_stuck hcs hrest,
    List.reverse_cons, List.append_assoc, List.singleton_append]
  -- wherever the repetition stops short, it is in front of a character of the run
  intro u z v hsplit
  have hz : z ∈ c :: cs := by
    rw [hsplit]
    exact List.mem_cons_of_mem _ (List.mem_append_right _ (List.mem_cons_self ..))
  exact hk z _ _ (hw.words z hz) (hw.notBlank z hz)

theorem first_run_of_not {z : Char} {zs : List Char} (h : x.holds z = false) :
    (run x y).first k (here b (z :: zs) g) = none := by
  rw [run, first_seq, first_one_cons, h, if_neg Bool.false_ne_true]

/-- Behind a run that a text ends, or that something else follows, there is an edge. -/
theorem first_edge_run (hw : Run x y w) (hrest : StopsAt word rest) :
    edge.first k (here (w.reverse ++ b) rest g) = k (here (w.reverse ++ b) rest g) := by
  have hbefore : (w.reverse ++ b).head?.any isWordChar = true := by
    obtain ⟨c, cs, rfl, -, -⟩ := hw.opens
    have hlast : (c :: cs).reverse.head? = (c :: cs).getLast? := List.head?_reverse
    rw [List.head?_append, hlast, List.getLast?_eq_some_getLast (List.cons_ne_nil c cs)]
    exact hw.words _ (List.getLast_mem _)
  have hafter : rest.head?.any isWordChar = false := by
    cases rest with
    | nil => rfl
    | cons z zs => exact holds_word.symm.trans (hrest z rfl)
  rw [first_edge, hbefore, hafter]
  exact if_pos rfl

/-- A group around a run, with an edge behind it. -/
theorem first_group_edge (i : Nat) (hw : Run x y w) (hrest : StopsAt y rest)
    (hend : StopsAt word rest) {r : β}
    (hk : k (here (w.reverse ++ b) rest (⟨i, (w ++ rest).length, String.ofList w⟩ :: g)) = some r) :
    (seq (group i (run x y)) edge).first k (here b (w ++ rest) g) = some r := by
  rw [first_seq, first_group]
  refine first_run_greedy hw hrest ?_
  have hedge := (first_edge_run hw hend).trans hk
  rw [← textTo_here b (w.reverse ++ b) w rest g g] at hedge
  exact hedge

theorem stopsAt_blank {z : Char} {zs : List Char} (h : isBlank z = false) :
    StopsAt blank (z :: zs) :=
  stopsAt_cons (holds_blank.trans h)

theorem stopsAt_blank_run (hw : Run x y w) : StopsAt blank (w ++ rest) := by
  obtain ⟨c, cs, rfl, -, -⟩ := hw.opens
  exact stopsAt_blank (hw.notBlank c (List.mem_cons_self ..))

/-! ### A bound behind a mark -/

theorem first_behindMark (i : Nat) (hw : Run x y w) (hrest : StopsAt y rest)
    (hend : StopsAt word rest) {mark : List Char}
    (hmark : mark ∈ [[], [' '], ['=', ' ']]) {r : β}
    (hk : k (here (w.reverse ++ (mark.reverse ++ b)) rest
      (⟨i, (w ++ rest).length, String.ofList w⟩ :: g)) = some r) :
    (behindMark i (run x y)).first k (here b (mark ++ (w ++ rest)) g) = some r := by
  have hgroup := first_group_edge i hw hrest hend hk
  rw [behindMark, first_seq, first_optional]
  simp only [List.mem_cons, List.not_mem_nil, or_false] at hmark
  rcases hmark with rfl | rfl | rfl
  · obtain ⟨c, cs, rfl, hc, -⟩ := hw.opens
    have hne : c ≠ '=' := ne_of_isWordChar (hw.words c (List.mem_cons_self ..)) (by decide)
    rw [List.nil_append, List.cons_append, first_char_ne hne, Option.none_or, first_seq,
      ← List.cons_append, first_blanks_stop (stopsAt_blank_run hw)]
    exact hgroup
  · rw [List.cons_append, List.nil_append, first_char_ne (by decide), Option.none_or, first_seq,
      first_blanks_space (stopsAt_blank_run hw)]
    exact hgroup ▸ Option.some_or
  · rw [List.cons_append, List.cons_append, List.nil_append, first_char_self, first_seq,
      first_blanks_space (stopsAt_blank_run hw)]
    have hsome : (seq (group i (run x y)) edge).first k (here (' ' :: '=' :: b) (w ++ rest) g) =
      some r := hgroup
    rw [hsome, Option.some_or, Option.some_or]

/-- No bound is found in front of another character. -/
theorem first_behindMark_of_not (i : Nat) {z : Char} {zs : List Char} (hz : x.holds z = false)
    (hblank : isBlank z = false) (hne : z ≠ '=') :
    (behindMark i (run x y)).first k (here b (z :: zs) g) = none := by
  rw [behindMark, first_seq, first_optional, first_char_ne hne, Option.none_or, first_seq,
    first_blanks_stop (stopsAt_blank hblank), first_seq, first_group, first_run_of_not hz]

theorem first_behindMark_blank_of_not (i : Nat) {z : Char} {zs : List Char} (hz : x.holds z = false)
    (hspace : x.holds ' ' = false) (hblank : isBlank z = false) :
    (behindMark i (run x y)).first k (here b (' ' :: z :: zs) g) = none := by
  rw [behindMark, first_seq, first_optional, first_char_ne (by decide), Option.none_or, first_seq,
    first_blanks_space (stopsAt_blank hblank), first_seq, first_group, first_run_of_not hz,
    first_seq, first_group, first_run_of_not hspace, Option.or_none]

/-! ### Shifts -/

theorem first_shiftTail_of_ne {z : Char} {zs : List Char} (h : z ≠ '<') :
    shiftTail.first k (here b (z :: zs) g) = none := by
  have htail : shiftTail = seq (char '<') (spelled ['='] (seq blanks (seq (char '1') edge))) := rfl
  rw [htail, first_seq, first_char_ne h]

/-- A shift by a numeral at the end of a text is one by one, or none. -/
theorem first_shiftTail (hw : Run digit digit w) :
    shiftTail.first k (here b (['<', '='] ++ ' ' :: w) g) =
      if w = ['1'] then k (here ('1' :: ' ' :: '=' :: '<' :: b) [] g) else none := by
  have hblank {b' : List Char} : (seq (char '1') edge).first k (here b' (' ' :: w) g) = none := by
    rw [first_seq, first_char_ne (by decide)]
  have hstop : StopsAt blank w := List.append_nil w ▸ stopsAt_blank_run hw
  rw [shiftTail, first_spelled, first_seq, first_blanks_space hstop, hblank, Option.or_none,
    first_seq]
  obtain ⟨c, cs, rfl, -, -⟩ := hw.opens
  by_cases hc : c = '1'
  · subst hc
    rw [first_char_self, first_edge]
    cases cs with
    | nil => rfl
    | cons d ds =>
        have hone : isWordChar '1' = true := by decide
        have hd : isWordChar d = true := hw.words d (List.mem_cons_of_mem _ (List.mem_cons_self ..))
        rw [if_neg (by simp [hone, hd]), if_neg (by simp)]
  · rw [first_char_ne hc, if_neg (by simp [hc])]

/-! ### Arguments of `range` -/

theorem first_argument (hw : Run x y w) {z : Char} (hy : y.holds z = false)
    (hz : z = ',' ∨ z = ')') {r : β}
    (hk : k (here (z :: (w.reverse ++ b)) rest
      (⟨3, (w ++ z :: rest).length, String.ofList w⟩ :: g)) = some r) :
    (argument (run x y)).first k (here b (w ++ z :: rest) g) = some r := by
  have hblank : isBlank z = false := by rcases hz with rfl | rfl <;> decide
  have hargument {b' : List Char} {g' : List GroupMatch} :
      (seq blanks (one argumentEnd)).first k (here b' (z :: rest) g') =
        k (here (z :: b') rest g') := by
    rw [first_seq, first_blanks_stop (stopsAt_blank hblank), first_one_cons,
      if_pos (holds_argumentEnd_iff.mpr hz)]
  rw [argument, first_seq, first_group]
  refine first_run_greedy hw (stopsAt_cons hy) ?_
  have hend := hargument.trans hk
  rw [← textTo_here b (w.reverse ++ b) w (z :: rest) g g] at hend
  exact hend

theorem first_argument_of_not {z : Char} {zs : List Char} (hz : x.holds z = false) :
    (argument (run x y)).first k (here b (z :: zs) g) = none := by
  rw [argument, first_seq, first_group, first_run_of_not hz]

theorem first_passedOver (hw : Run x y w) {z : Char} (hy : y.holds z = false)
    (hz : isBlank z = false) :
    (passedOver (run x y)).first k (here b (w ++ z :: rest) g) =
      (seq (char ',') blanks).first k (here (w.reverse ++ b) (z :: rest) g) := by
  rw [passedOver, first_seq, first_run_stuck hw (stopsAt_cons hy), first_seq,
    first_blanks_stop (stopsAt_blank hz)]
  intro c cs before hc hblank
  rw [first_seq, first_blanks_stop (stopsAt_blank hblank), first_seq,
    first_char_ne (ne_of_isWordChar hc (by decide))]

theorem first_passedOver_of_not {z : Char} {zs : List Char} (hz : x.holds z = false) :
    (passedOver (run x y)).first k (here b (z :: zs) g) = none := by
  rw [passedOver, first_seq, first_run_of_not hz]

theorem first_rangeCall (start bound : Pattern) (hrest : StopsAt blank rest) :
    (rangeCall start bound).first k (here [] (['r', 'a', 'n', 'g', 'e', '('] ++ rest) g) =
      ((passedOver start).first ((argument bound).first k)
        (here ['(', 'e', 'g', 'n', 'a', 'r'] rest g)).or
      ((argument bound).first k (here ['(', 'e', 'g', 'n', 'a', 'r'] rest g)) := by
  have hedge : ([].head?.any isWordChar !=
      (['r', 'a', 'n', 'g', 'e', '('] ++ rest).head?.any isWordChar) = true := by
    change (false != isWordChar 'r') = true
    decide
  rw [rangeCall, first_seq, first_edge, if_pos hedge, first_spelled, first_seq]
  exact (first_blanks_stop hrest).trans (first_seq.trans (first_optional ..))

end

/-! ### Marks -/

section

variable {m : Char} {t : Pattern} {b u rest : List Char}

open Cursor

theorem openings_mark : (group 1 (seq (char m) t)).openings = some [.single m] := rfl

theorem noneHolds_of_not_mem (hu : m ∉ u) : ∀ c ∈ u, NoneHolds [.single m] c := by
  intro c hc cls hcls
  rw [List.mem_singleton.mp hcls]
  refine holds_single_of_ne ?_
  rintro rfl
  exact hu hc

/-- Without its mark, a pattern finds nothing. -/
theorem groupsFrom_unmarked (hu : m ∉ u) : (group 1 (seq (char m) t)).groupsFrom b u = none :=
  groupsFrom_of_openings openings_mark (noneHolds_of_not_mem hu)

/-- What cannot follow the mark here is looked for behind it. -/
theorem groupsFrom_failing (hu : m ∉ u)
    (hfail : ∀ k : Cursor → Option Cursor,
      t.first k (here (m :: (u.reverse ++ b)) rest []) = none) :
    (group 1 (seq (char m) t)).groupsFrom b (u ++ m :: rest) =
      (group 1 (seq (char m) t)).groupsFrom (m :: (u.reverse ++ b)) rest := by
  rw [groupsFrom_skip openings_mark (noneHolds_of_not_mem hu)]
  refine groupsFrom_cons (ends_eq_nil_of_first ?_)
  rw [first_group, first_seq, first_char_self]
  exact hfail _

/-- What follows the first mark gives the groups. -/
theorem groupsFrom_found {β : Type} {f : List GroupMatch → β} {r : β} (hu : m ∉ u)
    (hfound : t.first (fun d => some (f
      (⟨1, (m :: rest).length, (here (u.reverse ++ b) (m :: rest) []).textTo d⟩ :: d.groups)))
      (here (m :: (u.reverse ++ b)) rest []) = some r) :
    ((group 1 (seq (char m) t)).groupsFrom b (u ++ m :: rest)).map f = some r := by
  rw [groupsFrom_skip openings_mark (noneHolds_of_not_mem hu)]
  refine groupsFrom_of_first ?_
  rw [first_group, first_seq, first_char_self]
  exact hfound

end

/-! ### Where a call of `range` is found -/

section

variable {start bound : Pattern} {rest : List Char}

open Cursor

theorem openings_rangeCall : (group 1 (rangeCall start bound)).openings = some [.single 'r'] := rfl

theorem needs_rangeCall : (group 1 (rangeCall start bound)).needs ['('] = true := by
  simp [rangeCall, spelled, needs, char, single]

/-- A call of `range` is not found if its arguments do not match. -/
theorem groupsFrom_rangeCall_none (hblank : StopsAt blank rest) (hrest : '(' ∉ rest)
    (hover : ∀ κ : Cursor → Option Cursor, (passedOver start).first ((argument bound).first κ)
      (here ['(', 'e', 'g', 'n', 'a', 'r'] rest []) = none)
    (harg : ∀ κ : Cursor → Option Cursor,
      (argument bound).first κ (here ['(', 'e', 'g', 'n', 'a', 'r'] rest []) = none) :
    (group 1 (rangeCall start bound)).groupsFrom [] (['r', 'a', 'n', 'g', 'e', '('] ++ rest) =
      none := by
  have hends : (group 1 (rangeCall start bound)).ends
      (here [] (['r', 'a', 'n', 'g', 'e', '('] ++ rest) []) = [] := by
    refine ends_eq_nil_of_first ?_
    rw [first_group, first_rangeCall start bound hblank, hover, harg, Option.or_none]
  have hskip : ∀ c ∈ ['a', 'n', 'g', 'e', '('], NoneHolds [.single 'r'] c :=
    noneHolds_of_not_mem (by decide)
  refine (groupsFrom_cons hends).trans ((groupsFrom_skip openings_rangeCall hskip).trans ?_)
  refine groupsFrom_of_needs needs_rangeCall fun c hc hmem => ?_
  exact hrest (List.mem_singleton.mp hmem ▸ hc)

end

/-! ### Where a size is asked for -/

section

variable {b u v rest : List Char}

open Cursor

theorem groupsFrom_sizeCall_skip (hl : 'l' ∉ u) (hc : 'c' ∉ u) (hs : 's' ∉ u) :
    sizeCall.groupsFrom b (u ++ rest) = sizeCall.groupsFrom (u.reverse ++ b) rest := by
  have hopenings : sizeCall.openings =
      some [.single 'l', .single 'c', .single 's', .single 's'] := rfl
  refine groupsFrom_skip hopenings ?_
  intro c hmem cls hcls
  simp only [List.mem_cons, List.not_mem_nil, or_false] at hcls
  rcases hcls with rfl | rfl | rfl | rfl
  · exact holds_single_of_ne (ne_of_mem_of_not_mem hmem hl)
  · exact holds_single_of_ne (ne_of_mem_of_not_mem hmem hc)
  · exact holds_single_of_ne (ne_of_mem_of_not_mem hmem hs)
  · exact holds_single_of_ne (ne_of_mem_of_not_mem hmem hs)

/-- `len` and its bracket lead to the name behind them. -/
theorem first_sizeCall_len {β : Type} {k : Cursor → Option β} {g : List GroupMatch} {r : β}
    (hb : b.head?.any isWordChar = false) (hv : Run letter path v) (hrest : StopsAt path rest)
    (hk : k (here (v.reverse ++ (['(', 'n', 'e', 'l'] ++ b)) rest
      (⟨2, (v ++ rest).length, String.ofList v⟩ ::
        ⟨1, (['l', 'e', 'n', '('] ++ (v ++ rest)).length, String.ofList ['l', 'e', 'n']⟩ :: g)) =
      some r) :
    sizeCall.first k (here b (['l', 'e', 'n', '('] ++ (v ++ rest)) g) = some r := by
  have hedge : (b.head?.any isWordChar !=
      (['l', 'e', 'n', '('] ++ (v ++ rest)).head?.any isWordChar) = true := by
    rw [hb]
    change (false != isWordChar 'l') = true
    decide
  have hname (g' : List GroupMatch) (hk : k (here (v.reverse ++ (['(', 'n', 'e', 'l'] ++ b)) rest
      (⟨2, (v ++ rest).length, String.ofList v⟩ :: g')) = some r) :
      (seq (char '(') (seq blanks (group 2 (run letter path)))).first k
        (here (['n', 'e', 'l'] ++ b) ('(' :: (v ++ rest)) g') = some r := by
    rw [first_seq, first_char_self, first_seq, first_blanks_stop (stopsAt_blank_run hv),
      first_group]
    refine first_run_greedy hv hrest ?_
    rw [textTo_here]
    exact hk
  rw [sizeCall, first_seq, first_edge, if_pos hedge, first_seq, first_group, first_either]
  have hlen := hname _ hk
  rw [← textTo_here b (['n', 'e', 'l'] ++ b) ['l', 'e', 'n'] ('(' :: (v ++ rest)) g g] at hlen
  have hleft := (first_spelled ['l', 'e'] (char 'n')).trans ((first_char_self 'n').trans hlen)
  exact (congrArg (Option.or · _) hleft).trans Option.some_or

end

end Pattern

end CodeProfile.Text
