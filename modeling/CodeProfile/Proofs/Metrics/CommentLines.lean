import CodeProfile.Metrics
import CodeProfile.Proofs.Tree.Positions
import Mathlib.Data.Set.Card
import Mathlib.Order.Interval.Finset.Nat

/-!
# Comment lines

The lines of a place are counted from the row of its start to the row of
its end. The end lies behind the last byte, so that it stands on the line
of the last byte, unless that byte is a line feed (`endLine_eq`). Then,
and where a place is empty, the line of the end need not hold any text of
the place.

The comment lines of a tree are therefore those that hold text of a
comment (`commentText`) together with those on which a comment ends that
is empty or ends in a line feed (`commentEnds`). `commentLines_exact`
draws from this when the count is that of the lines with text of a
comment, and when it is no greater than the count of all lines.
-/

namespace CodeProfile

open Text

/-! ## The lines of a place -/

namespace SyntaxTree

variable {t : SyntaxTree} {p : Place} {n : Nat}

namespace Built

/-- The text of a place stands in the source between the offsets of its span. -/
theorem exists_cut (h : t.Built) (hp : p ∈ t.places) :
    ∃ before after, t.source.toList = before ++ p.text.toList ++ after
      ∧ byteLength before = p.span.startByte
      ∧ byteLength (before ++ p.text.toList) = p.span.endByte := by
  obtain ⟨opened, hlossless⟩ := h.exists_lossless
  obtain ⟨before, after, hsource, hstart, hstop⟩ :=
    slice?_eq_some_iff.mp (hlossless.text_eq p hp).1
  exact ⟨before, after, hsource, hstart, by rw [byteLength_append, hstart, hstop]⟩

/-- The lines of a place are those of the bytes at its ends, the end not belonging to it. -/
theorem line_eq (h : t.Built) (hp : p ∈ t.places) :
    p.startLine = lineOfByte t.source p.span.startByte
      ∧ p.endLine = lineOfByte t.source p.span.endByte := by
  obtain ⟨hfirst, hlast⟩ := h.position_eq hp
  rw [Place.startLine, Place.endLine, hfirst, hlast]
  exact ⟨row_positionAt t.source _, row_positionAt t.source _⟩

theorem startByte_eq_endByte (h : t.Built) (hp : p ∈ t.places) (htext : p.text = "") :
    p.span.startByte = p.span.endByte := by
  obtain ⟨before, after, -, hstart, hstop⟩ := h.exists_cut hp
  rw [← hstart, ← hstop, htext, String.toList_empty, List.append_nil]

/-- The end of a place stands on the line of its last byte, or on the next one behind a line
feed. -/
theorem endLine_eq (h : t.Built) (hp : p ∈ t.places) (htext : p.text ≠ "") :
    p.span.startByte < p.span.endByte
      ∧ p.endLine = lineOfByte t.source (p.span.endByte - 1)
          + if p.text.toList.getLast? = some '\n' then 1 else 0 := by
  obtain ⟨before, after, hsource, hstart, hstop⟩ := h.exists_cut hp
  obtain ⟨cs, c, hcs⟩ : ∃ cs c, p.text.toList = cs ++ [c] :=
    ⟨_, _, (List.dropLast_concat_getLast (htext ∘ String.toList_eq_nil_iff.mp)).symm⟩
  rw [hcs, ← List.append_assoc] at hsource hstop
  have hend : p.span.endByte = byteLength (before ++ cs) + c.utf8Size := by
    rw [← hstop, byteLength_append (before ++ cs)]
    rfl
  have hlast : lineOfByte t.source (p.span.endByte - 1) = (before ++ cs).count '\n' + 1 := by
    rw [hend]
    exact lineOfByte_last (by rw [hsource, List.append_assoc, List.singleton_append])
  have hpos := c.utf8Size_pos
  have hlength : byteLength (before ++ cs) = byteLength before + byteLength cs :=
    byteLength_append before cs
  refine ⟨by omega, ?_⟩
  rw [(h.line_eq hp).2, hlast, ← hstop, lineOfByte_byteLength hsource, hcs, List.getLast?_concat,
    List.count_append, List.count_singleton]
  by_cases hc : c = '\n' <;> simp [hc]

end Built

end SyntaxTree

/-! ## The lines of comments -/

theorem Metrics.mem_linesOf {p : Place} {n : Nat} :
    n ∈ linesOf p ↔ p.startLine ≤ n ∧ n ≤ p.endLine := by
  rw [linesOf, List.mem_range'_1]
  omega

/-- Whether a place is a comment with a name. -/
def Place.IsComment (k : NodeKinds) (p : Place) : Prop :=
  p.isNamed = true ∧ k.isComment p.kind = true

namespace SyntaxTree

variable {t : SyntaxTree} {k : NodeKinds} {p : Place} {n : Nat}

/-- The lines that a byte of a comment stands on. -/
def commentText (k : NodeKinds) (t : SyntaxTree) : Set Nat :=
  {n | ∃ p ∈ t.places, p.IsComment k ∧
    ∃ i, p.span.startByte ≤ i ∧ i < p.span.endByte ∧ lineOfByte t.source i = n}

/-- The lines on which a comment ends that is empty or ends in a line feed. -/
def commentEnds (k : NodeKinds) (t : SyntaxTree) : Set Nat :=
  {n | ∃ p ∈ t.places, p.IsComment k ∧ (p.text = "" ∨ p.text.toList.getLast? = some '\n')
    ∧ lineOfByte t.source p.span.endByte = n}

namespace Built

variable (h : t.Built)
include h

/-- The lines of a place hold a byte of it, but for the line of an end that lies behind a line
feed or behind nothing. -/
theorem mem_linesOf_iff (hp : p ∈ t.places) :
    n ∈ Metrics.linesOf p ↔
      (∃ i, p.span.startByte ≤ i ∧ i < p.span.endByte ∧ lineOfByte t.source i = n)
        ∨ (p.text = "" ∨ p.text.toList.getLast? = some '\n')
          ∧ lineOfByte t.source p.span.endByte = n := by
  obtain ⟨hstart, hstop⟩ := h.line_eq hp
  rw [Metrics.mem_linesOf, hstart, hstop]
  by_cases htext : p.text = ""
  · -- an empty place touches the line of its end and no byte
    rw [h.startByte_eq_endByte hp htext]
    constructor
    · exact fun ⟨hle, hge⟩ => .inr ⟨.inl htext, Nat.le_antisymm hle hge⟩
    · rintro (⟨i, hle, hlt, -⟩ | ⟨-, rfl⟩)
      · omega
      · exact ⟨Nat.le_refl _, Nat.le_refl _⟩
  · obtain ⟨hlt, hend⟩ := h.endLine_eq hp htext
    have hbytes : (∃ i, p.span.startByte ≤ i ∧ i < p.span.endByte ∧ lineOfByte t.source i = n) ↔
        lineOfByte t.source p.span.startByte ≤ n
          ∧ n ≤ lineOfByte t.source (p.span.endByte - 1) := by
      rw [← exists_lineOfByte_eq_iff (by omega)]
      exact exists_congr fun i => and_congr_right fun _ => and_congr_left fun _ => by omega
    have hle : lineOfByte t.source p.span.startByte ≤ lineOfByte t.source (p.span.endByte - 1) :=
      lineOfByte_mono (by omega)
    rw [hstop] at hend
    rw [hbytes, hend]
    -- the end is on the line of the last byte, or one further behind a line feed
    by_cases hfeed : p.text.toList.getLast? = some '\n'
    · simp only [htext, hfeed, if_true, false_or, true_and]
      omega
    · simp only [htext, hfeed, if_false, or_false, false_and, Nat.add_zero]

theorem mem_commentLines_iff :
    (∃ p ∈ t.places, p.IsComment k ∧ n ∈ Metrics.linesOf p) ↔
      n ∈ t.commentText k ∪ t.commentEnds k := by
  constructor
  · rintro ⟨p, hp, hcomment, hn⟩
    rcases (h.mem_linesOf_iff hp).mp hn with htext | ⟨hempty, hend⟩
    · exact .inl ⟨p, hp, hcomment, htext⟩
    · exact .inr ⟨p, hp, hcomment, hempty, hend⟩
  · rintro (⟨p, hp, hcomment, htext⟩ | ⟨p, hp, hcomment, hempty, hend⟩)
    · exact ⟨p, hp, hcomment, (h.mem_linesOf_iff hp).mpr (.inl htext)⟩
    · exact ⟨p, hp, hcomment, (h.mem_linesOf_iff hp).mpr (.inr ⟨hempty, hend⟩)⟩

/-- No line of a comment lies further than one behind the last line. -/
theorem commentLines_subset :
    t.commentText k ∪ t.commentEnds k ⊆ Set.Icc 1 ((Text.lines t.source).length + 1) := by
  intro n hn
  obtain ⟨p, hp, -, hn⟩ := h.mem_commentLines_iff.mpr hn
  obtain ⟨hfirst, hlast⟩ := Metrics.mem_linesOf.mp hn
  rw [(h.line_eq hp).2] at hlast
  obtain ⟨opened, hlossless⟩ := h.exists_lossless
  have hin := (hlossless.in_source p hp).2.1
  exact ⟨Nat.le_trans (Nat.le_add_left 1 _) hfirst, Nat.le_trans hlast (lineOfByte_le hin)⟩

theorem commentLines_finite : (t.commentText k ∪ t.commentEnds k).Finite :=
  (Set.finite_Icc _ _).subset h.commentLines_subset

theorem commentLines_eq (hk : nodeKinds? t.language = some k) :
    t.metrics.commentLines = (t.commentText k ∪ t.commentEnds k).ncard := by
  let rows := ((t.places.filter (·.isNamed)).filter (k.isComment ·.kind)).flatMap Metrics.linesOf
  have hcount : t.metrics.commentLines = (distinct rows).length := by
    rw [metrics, hk]
    rfl
  have hrows : t.commentText k ∪ t.commentEnds k = ↑(distinct rows).toFinset := by
    ext n
    rw [← h.mem_commentLines_iff, Finset.mem_coe, List.mem_toFinset, mem_distinct]
    simp only [rows, List.mem_flatMap, List.mem_filter, Place.IsComment, and_assoc]
  rw [hcount, hrows, Set.ncard_coe_finset, List.toFinset_card_of_nodup (nodup_distinct rows)]

end Built

/-- How the count of comment lines and the ends of places relate to the lines of the text. -/
structure CommentsCounted (k : NodeKinds) (t : SyntaxTree) : Prop where
  count_eq : t.metrics.commentLines = (t.commentText k ∪ t.commentEnds k).ncard
  /-- The count is that of the lines with text of a comment exactly if no comment ends on another
  line, empty or behind a line feed. -/
  count_eq_text_iff :
    t.metrics.commentLines = (t.commentText k).ncard ↔ t.commentEnds k ⊆ t.commentText k
  /-- It exceeds that of all lines exactly if comments fill them and one ends behind the last. -/
  count_le_lines_iff : t.metrics.commentLines ≤ t.metrics.lines ↔
    ¬ Set.Icc 1 (t.metrics.lines + 1) ⊆ t.commentText k ∪ t.commentEnds k
  startLine_eq : ∀ p ∈ t.places, p.startLine = lineOfByte t.source p.span.startByte
  /-- A place ends on the line of its last byte exactly if that is no line feed. -/
  endLine_eq : ∀ p ∈ t.places, p.text ≠ "" → p.endLine = lineOfByte t.source (p.span.endByte - 1)
    + if p.text.toList.getLast? = some '\n' then 1 else 0

/-- Comment lines are those with text of a comment and those on which one ends that is empty or
ends in a line feed. -/
theorem commentLines_exact {t : SyntaxTree} {k : NodeKinds} (h : t.Built)
    (hk : nodeKinds? t.language = some k) : t.CommentsCounted k := by
  have hcount := h.commentLines_eq hk
  have hfinite := h.commentLines_finite (k := k)
  have hsubset := h.commentLines_subset (k := k)
  have hlines : t.metrics.lines = (Text.lines t.source).length := by
    rw [metrics, hk]
    rfl
  have hall : (Set.Icc 1 (t.metrics.lines + 1)).ncard = t.metrics.lines + 1 := by
    rw [← Finset.coe_Icc, Set.ncard_coe_finset, Nat.card_Icc, Nat.add_sub_cancel]
  rw [← hlines] at hsubset
  constructor
  case count_eq => exact hcount
  case count_eq_text_iff =>
    rw [hcount, ← Set.union_eq_left]
    constructor
    · intro heq
      exact (Set.eq_of_subset_of_ncard_le Set.subset_union_left heq.le hfinite).symm
    · exact congrArg Set.ncard
  case count_le_lines_iff =>
    rw [hcount]
    constructor
    · intro hle hfull
      rw [Set.Subset.antisymm hsubset hfull, hall] at hle
      omega
    · intro hnot
      have hlt := Set.ncard_lt_ncard (hsubset.ssubset_of_not_subset hnot) (Set.finite_Icc _ _)
      omega
  case startLine_eq => exact fun p hp => (h.line_eq hp).1
  case endLine_eq => exact fun p hp htext => (h.endLine_eq hp htext).2

end SyntaxTree

namespace DocComment

/-! Rust text that starts with a documentation comment, which takes its line feed with it. -/

def comment : NodeSpec := ⟨"line_comment", 0, 5, true, false, none⟩

def alone : String := "///a\n"

def aloneFile : NodeSpec := ⟨"source_file", 0, 5, true, false, none⟩

def aloneTree : SyntaxTree := ⟨.rust, alone, aloneFile.node alone 0 [comment.node alone 1 []]⟩

theorem alone_built : aloneTree.Built :=
  ⟨alone, .rust, [.openNode aloneFile, .leaf comment, .closeNode], by rfl⟩

def followed : String := "///a\nstruct S;//b"

def followedFile : NodeSpec := ⟨"source_file", 0, 17, true, false, none⟩

def item : NodeSpec := ⟨"struct_item", 5, 14, true, false, none⟩

def remark : NodeSpec := ⟨"line_comment", 14, 17, true, false, none⟩

def followedTree : SyntaxTree :=
  ⟨.rust, followed,
    followedFile.node followed 0
      [comment.node followed 1 [], item.node followed 2 [], remark.node followed 3 []]⟩

theorem followed_built : followedTree.Built :=
  ⟨followed, .rust,
    [.openNode followedFile, .leaf comment, .leaf item, .leaf remark, .closeNode], by rfl⟩

end DocComment

open DocComment in
/-- The comment behind the item stands where the documentation comment ends, and so the count is
that of the lines with text of a comment. -/
theorem SyntaxTree.commentLines_followed :
    followedTree.Built ∧ nodeKinds? followedTree.language = some rustKinds
      ∧ followedTree.CommentsCounted rustKinds ∧ followedTree.metrics.commentLines = 2
      ∧ followedTree.metrics.lines = 2 :=
  ⟨followed_built, rfl, commentLines_exact followed_built rfl, by decide +kernel, by decide +kernel⟩

open DocComment in
/-- A documentation comment at the end of the text counts a line that is not there. -/
theorem SyntaxTree.commentLines_alone :
    aloneTree.Built ∧ aloneTree.metrics.lines = 1 ∧ aloneTree.metrics.commentLines = 2
      ∧ aloneTree.metrics.commentLines ≠ (aloneTree.commentText rustKinds).ncard
      ∧ ∃ p ∈ aloneTree.places, p.text ≠ ""
          ∧ p.endLine ≠ Text.lineOfByte aloneTree.source (p.span.endByte - 1) := by
  have hcount : aloneTree.metrics.commentLines = 2 := by decide +kernel
  have hone : aloneTree.commentText rustKinds ⊆ {1} := by
    rintro n ⟨p, hp, -, i, -, hi, rfl⟩
    have hstop : ∀ p ∈ aloneTree.places, p.span.endByte ≤ 5 := by decide +kernel
    have hfirst : Text.lineOfByte aloneTree.source 4 = 1 := by decide +kernel
    have hle : Text.lineOfByte aloneTree.source i ≤ Text.lineOfByte aloneTree.source 4 :=
      Text.lineOfByte_mono (by have := hstop p hp; omega)
    exact Nat.le_antisymm (hfirst ▸ hle) (Nat.le_add_left 1 _)
  have htext : (aloneTree.commentText rustKinds).ncard ≤ 1 :=
    (Set.ncard_le_ncard hone (Set.finite_singleton 1)).trans (Set.ncard_singleton 1).le
  exact ⟨alone_built, by decide +kernel, hcount, by omega, by decide +kernel⟩

end CodeProfile
