/-!
# Ordered sets of texts

Sets of texts as ascending lists without repetitions, ordered by code points, and lists that keep
the first of equal elements.
-/

namespace CodeProfile.Text

/-- Puts a text in its place unless it is there. -/
def insertOrdered (s : String) : List String → List String
  | [] => [s]
  | t :: ts =>
    if s < t then s :: t :: ts
    else if s = t then t :: ts
    else t :: insertOrdered s ts

/-- The texts in ascending order, each once. -/
def ordered (ss : List String) : List String := ss.foldl (fun set s => insertOrdered s set) []

theorem mem_insertOrdered {s t : String} {ss : List String} :
    t ∈ insertOrdered s ss ↔ t = s ∨ t ∈ ss := by
  induction ss with
  | nil => simp [insertOrdered]
  | cons u us ih =>
    unfold insertOrdered
    split
    · simp
    · split
      · next h => subst h; simp
      · simp only [List.mem_cons, ih]
        grind

theorem mem_ordered {t : String} {ss : List String} : t ∈ ordered ss ↔ t ∈ ss := by
  suffices ∀ set, t ∈ ss.foldl (fun set s => insertOrdered s set) set ↔ t ∈ set ∨ t ∈ ss by
    simpa [ordered] using this []
  induction ss with
  | nil => simp
  | cons s ss ih =>
    intro set
    simp only [List.foldl_cons, ih, mem_insertOrdered, List.mem_cons]
    grind

/-- The elements in order of first occurrence, each once. -/
def distinct {α : Type} [BEq α] (xs : List α) : List α :=
  xs.foldl (fun seen x => if seen.contains x then seen else seen ++ [x]) []

section

variable {α : Type} [BEq α] [LawfulBEq α]

theorem foldl_distinct (xs seen : List α) (h : seen.Nodup) :
    (xs.foldl (fun seen x => if seen.contains x then seen else seen ++ [x]) seen).Nodup
      ∧ ∀ x, x ∈ xs.foldl (fun seen x => if seen.contains x then seen else seen ++ [x]) seen ↔
          x ∈ seen ∨ x ∈ xs := by
  induction xs generalizing seen with
  | nil => exact ⟨h, fun x => by simp⟩
  | cons y ys ih =>
    rw [List.foldl_cons]
    split
    next hy =>
      have hmem := List.contains_iff_mem.mp hy
      refine ⟨(ih seen h).1, fun x => ?_⟩
      rw [(ih seen h).2, List.mem_cons]
      grind
    next hy =>
      have hnew : (seen ++ [y]).Nodup := by
        refine List.nodup_append.mpr ⟨h, by simp, fun a ha b hb heq => hy ?_⟩
        rw [← List.mem_singleton.mp hb, ← heq]
        exact List.contains_iff_mem.mpr ha
      refine ⟨(ih _ hnew).1, fun x => ?_⟩
      rw [(ih _ hnew).2, List.mem_append, List.mem_singleton, List.mem_cons, or_assoc]

theorem nodup_distinct (xs : List α) : (distinct xs).Nodup :=
  (foldl_distinct xs [] List.nodup_nil).1

theorem mem_distinct {x : α} {xs : List α} : x ∈ distinct xs ↔ x ∈ xs := by
  rw [distinct, (foldl_distinct xs [] List.nodup_nil).2]
  simp

end

end CodeProfile.Text
