import Mathlib.Data.List.Basic
import Mathlib.Data.List.Induction
import CodeProfile.Text.Ordered

/-!
# The order of first occurrence

A report lists what occurs in a snippet once, in the order in which it
occurs first. `InOrderOfFirst` says so without saying how the list is made:
the same elements, ordered by their first index, so that none stands twice.
`distinct` makes such a list (`inOrderOfFirst_distinct`).
-/

namespace CodeProfile.Text

variable {α : Type} [BEq α]

/-- The elements of `all`, each once, in the order in which they occur
first. -/
structure InOrderOfFirst (firsts all : List α) : Prop where
  mem_iff : ∀ x, x ∈ firsts ↔ x ∈ all
  ordered : firsts.Pairwise fun x y => all.idxOf x < all.idxOf y

/-! ## Keeping the first of equal elements -/

variable [LawfulBEq α]

theorem distinct_concat (xs : List α) (x : α) :
    distinct (xs ++ [x]) = if x ∈ xs then distinct xs else distinct xs ++ [x] := by
  simp only [distinct, List.foldl_append, List.foldl_cons, List.foldl_nil]
  refine if_congr ?_ rfl rfl
  rw [List.contains_iff_mem]
  exact mem_distinct

/-- What is known of the places of elements stays true when more follow. -/
theorem idxOf_lt_idxOf_append {x y : α} {xs ys : List α} (hx : x ∈ xs) (hy : y ∈ xs)
    (h : xs.idxOf x < xs.idxOf y) : (xs ++ ys).idxOf x < (xs ++ ys).idxOf y := by
  rwa [List.idxOf_append_of_mem hx, List.idxOf_append_of_mem hy]

theorem inOrderOfFirst_distinct (all : List α) : InOrderOfFirst (distinct all) all := by
  refine ⟨fun x => mem_distinct, ?_⟩
  -- The first index of an element does not change when the list grows at its end.
  induction all using List.reverseRecOn with
  | nil => exact List.Pairwise.nil
  | append_singleton xs x ih =>
      have hold : (distinct xs).Pairwise fun a b =>
          (xs ++ [x]).idxOf a < (xs ++ [x]).idxOf b :=
        ih.imp_of_mem fun ha hb =>
          idxOf_lt_idxOf_append (mem_distinct.mp ha) (mem_distinct.mp hb)
      rw [distinct_concat]
      split
      · exact hold
      · next hnew =>
          refine List.pairwise_append.mpr ⟨hold, List.pairwise_singleton .., ?_⟩
          intro a ha b hb
          have hmem := mem_distinct.mp ha
          rw [List.mem_singleton.mp hb, List.idxOf_append_of_mem hmem,
            List.idxOf_append_of_notMem hnew]
          have hlt := List.idxOf_lt_length_of_mem hmem
          omega

end CodeProfile.Text
