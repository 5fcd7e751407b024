import CodeProfile.Proofs.Text.Positions
import CodeProfile.Proofs.Tree.Lossless

/-!
# Positions in a tree

A place of a built tree starts and ends at the positions of its two
offsets (`Built.position_eq`). Positions grow with offsets, so what holds
of the offsets of spans holds of their positions: a place starts no later
than it ends, and its children lie in between (`Built.positioned`).

The headline, `SyntaxTree.positions_exact`, says together with this what
a position is for any text and offset.
-/

namespace CodeProfile

open Text

/-- A place has the positions of its offsets, and they stand in order, with those of its children
in between. -/
structure Place.Positioned (source : String) (p : Place) : Prop where
  start_eq : p.span.start = positionAt source.toList p.span.startByte
  stop_eq : p.span.stop = positionAt source.toList p.span.endByte
  ordered : p.span.start ≤ p.span.stop
  around : ∀ c ∈ p.children, p.span.start ≤ c.span.start ∧ c.span.stop ≤ p.span.stop

namespace SyntaxTree

namespace Built

variable {t : SyntaxTree} {p : Place}

theorem position_eq (h : t.Built) (hp : p ∈ t.places) :
    p.span.start = positionAt t.source.toList p.span.startByte
      ∧ p.span.stop = positionAt t.source.toList p.span.endByte := by
  obtain ⟨opened, hlossless⟩ := h.exists_lossless
  have hinfo := List.mem_map_of_mem (f := Place.info) hp
  rw [hlossless.recorded] at hinfo
  obtain ⟨n, hn, hrecord⟩ := List.mem_mapIdx.mp hinfo
  rw [Place.span, ← hrecord]
  exact ⟨rfl, rfl⟩

theorem positioned (h : t.Built) (hp : p ∈ t.places) : p.Positioned t.source := by
  obtain ⟨opened, hlossless⟩ := h.exists_lossless
  have hmono := (strictMono_positionAt t.source).monotone
  obtain ⟨hstart, hstop⟩ := h.position_eq hp
  refine ⟨hstart, hstop, ?_, fun c hc => ?_⟩
  · rw [hstart, hstop]
    exact hmono (hlossless.in_source p hp).1
  · obtain ⟨hstart', hstop'⟩ := h.position_eq (hlossless.children_mem p hp c hc)
    have hin := h.sound.nested p hp c hc
    simp only [Span.contains, Bool.and_eq_true, decide_eq_true_eq] at hin
    rw [hstart, hstop, hstart', hstop']
    exact ⟨hmono hin.1, hmono hin.2⟩

end Built

/-- Offsets and positions tell each other and are ordered alike, in every text and in the places of
every built tree. -/
theorem positions_exact :
    (∀ s : String, (∀ offset, Located s offset (positionAt s.toList offset))
      ∧ StrictMono (positionAt s.toList) ∧ Function.Injective (positionAt s.toList))
    ∧ ∀ t : SyntaxTree, t.Built → ∀ p ∈ t.places, p.Positioned t.source :=
  ⟨fun s => ⟨located_positionAt s, strictMono_positionAt s, (strictMono_positionAt s).injective⟩,
    fun _ h _ hp => h.positioned hp⟩

end SyntaxTree

namespace TwoLines

/-! A letter of two bytes, a line end of two bytes, and a letter on the next line. -/

def calls : List BuilderCall :=
  [.openNode ⟨"document", 0, 5, true, false, none⟩, .leaf ⟨"letter", 0, 2, true, false, none⟩,
    .leaf ⟨"letter", 4, 5, true, false, none⟩, .closeNode]

def second : Node := .mk ⟨2, "letter", ⟨4, 5, ⟨1, 0⟩, ⟨1, 1⟩⟩, "x", true, false, none⟩ []

def tree : SyntaxTree :=
  ⟨.python, "é\r\nx",
    .mk ⟨0, "document", ⟨0, 5, ⟨0, 0⟩, ⟨1, 1⟩⟩, "é\r\nx", true, false, none⟩
      [.mk ⟨1, "letter", ⟨0, 2, ⟨0, 0⟩, ⟨0, 2⟩⟩, "é", true, false, none⟩ [], second]⟩

theorem built : tree.Built := ⟨"é\r\nx", .python, calls, rfl⟩

end TwoLines

open TwoLines in
theorem SyntaxTree.positions_secondLine :
    tree.Built ∧ ∃ p ∈ tree.places, p.node = second ∧ p.Positioned tree.source
      ∧ Located tree.source 4 p.span.start := by
  have hmem : (⟨second, [tree.rootNode]⟩ : Place) ∈ tree.places :=
    List.mem_of_getElem? (i := 2) rfl
  have hpositioned := positions_exact.2 tree built _ hmem
  refine ⟨built, _, hmem, rfl, hpositioned, ?_⟩
  rw [hpositioned.start_eq]
  exact (positions_exact.1 tree.source).1 4

end CodeProfile
