import CodeProfile.Proofs.Text.Matching

/-!
# What a pattern reads

`Pattern.Reads p before w after` says that the pattern can read `w` at a
place of a text. It follows the parts of the pattern and knows no order
of preference, so that it is opened from the outside in, one part at a
time. A search ends exactly where something has been read
(`reads_of_mem_ends`, `exists_mem_ends_of_reads`).

Of all places where a pattern can read, the match that a search finds
starts at the leftmost (`leftmost_of_find?`), and it finds none only
where there is no such place (`find?_eq_none_iff`).
-/

namespace CodeProfile.Text

open Cursor

namespace Pattern

/-- Readings in a row, none of them empty. -/
inductive Repeated (R : List Char → List Char → List Char → Prop) :
    List Char → List Char → List Char → Prop
  | none {b r : List Char} : Repeated R b [] r
  | more {b u v r : List Char} (first : R b u (v ++ r)) (moves : u ≠ [])
      (rest : Repeated R (u.reverse ++ b) v r) : Repeated R b (u ++ v) r

/-- The pattern can read `w` between what stands before it, the nearest character first, and what
comes after it. -/
def Reads : Pattern → (before w after : List Char) → Prop
  | empty, _, w, _ => w = []
  | one cls, _, w, _ => ∃ x, w = [x] ∧ cls.holds x = true
  | anchor a, b, w, r => w = [] ∧ (here b r []).satisfies a = true
  | seq p q, b, w, r => ∃ u v, w = u ++ v ∧ p.Reads b u (v ++ r) ∧ q.Reads (u.reverse ++ b) v r
  | either p q, b, w, r => p.Reads b w r ∨ q.Reads b w r
  | many _ p, b, w, r => Repeated p.Reads b w r
  | group _ p, b, w, r => p.Reads b w r

/-! ## The ends of a search -/

section

variable {p : Pattern} {b a w r : List Char} {g : List GroupMatch} {d : Cursor}

/-- The search has read what stands between its start and its end. -/
def ReadsTo (R : List Char → List Char → List Char → Prop) (b a : List Char) (d : Cursor) : Prop :=
  ∃ w r g, a = w ++ r ∧ R b w r ∧ d = here (w.reverse ++ b) r g

theorem readsTo_of_mem_repeatEnds {R : List Char → List Char → List Char → Prop}
    {step : Cursor → List Cursor}
    (hstep : ∀ b a g, ∀ d ∈ step (here b a g), ReadsTo R b a d) {reluctant : Bool} {fuel : Nat}
    (h : d ∈ repeatEnds step reluctant fuel (here b a g)) : ReadsTo (Repeated R) b a d := by
  induction fuel generalizing b a g with
  | zero =>
      obtain rfl := List.mem_singleton.mp h
      exact ⟨[], a, g, rfl, .none, rfl⟩
  | succ fuel ih =>
      rcases mem_repeatEnds_succ.mp h with rfl | ⟨e, he, hless, hd⟩
      · exact ⟨[], a, g, rfl, .none, rfl⟩
      · obtain ⟨u, a', g', rfl, hu, rfl⟩ := hstep b a g e he
        obtain ⟨v, r, g'', rfl, hv, rfl⟩ := ih hd
        -- a step that moves on has read something
        have hmoves : u ≠ [] := by
          rintro rfl
          exact absurd hless (Nat.lt_irrefl _)
        refine ⟨u ++ v, r, g'', (List.append_assoc ..).symm, .more hu hmoves hv, ?_⟩
        rw [List.reverse_append, List.append_assoc]

theorem reads_of_mem_ends (h : d ∈ p.ends (here b a g)) : ReadsTo p.Reads b a d := by
  induction p generalizing b a g d with
  | empty =>
      obtain rfl := List.mem_singleton.mp h
      exact ⟨[], a, g, rfl, rfl, rfl⟩
  | one cls =>
      cases a with
      | nil => cases h
      | cons x xs =>
          rw [ends_one_cons] at h
          split at h
          next hx =>
            obtain rfl := List.mem_singleton.mp h
            exact ⟨[x], xs, g, rfl, ⟨x, rfl, hx⟩, rfl⟩
          next => cases h
  | anchor anc =>
      rw [ends] at h
      split at h
      next hanchor =>
        obtain rfl := List.mem_singleton.mp h
        exact ⟨[], a, g, rfl, ⟨rfl, by cases anc <;> exact hanchor⟩, rfl⟩
      next => cases h
  | seq p q ihp ihq =>
      obtain ⟨e, he, hd⟩ := List.mem_flatMap.mp h
      obtain ⟨u, a', g', rfl, hu, rfl⟩ := ihp he
      obtain ⟨v, r, g'', rfl, hv, rfl⟩ := ihq hd
      refine ⟨u ++ v, r, g'', (List.append_assoc ..).symm, ⟨u, v, rfl, hu, hv⟩, ?_⟩
      rw [List.reverse_append, List.append_assoc]
  | either p q ihp ihq =>
      rcases List.mem_append.mp h with h | h
      · obtain ⟨w, r, g', ha, hw, hd⟩ := ihp h
        exact ⟨w, r, g', ha, .inl hw, hd⟩
      · obtain ⟨w, r, g', ha, hw, hd⟩ := ihq h
        exact ⟨w, r, g', ha, .inr hw, hd⟩
  | many reluctant p ih => exact readsTo_of_mem_repeatEnds (fun _ _ _ _ => ih) h
  | group i p ih =>
      obtain ⟨e, he, rfl⟩ := List.mem_map.mp h
      obtain ⟨w, r, g', rfl, hw, rfl⟩ := ih he
      exact ⟨w, r, _, rfl, hw, rfl⟩

theorem exists_mem_repeatEnds {R : List Char → List Char → List Char → Prop}
    {step : Cursor → List Cursor}
    (hstep : ∀ {b w r}, R b w r → ∀ g, ∃ g', here (w.reverse ++ b) r g' ∈ step (here b (w ++ r) g))
    {reluctant : Bool} {fuel : Nat} (h : Repeated R b w r) (hfuel : w.length ≤ fuel)
    (g : List GroupMatch) :
    ∃ g', here (w.reverse ++ b) r g' ∈ repeatEnds step reluctant fuel (here b (w ++ r) g) := by
  induction h generalizing fuel g with
  | none =>
      refine ⟨g, ?_⟩
      cases fuel with
      | zero => exact List.mem_singleton_self _
      | succ fuel => exact mem_repeatEnds_succ.mpr (.inl rfl)
  | @more b u v r first moves rest ih =>
      have hpos := List.length_pos_iff.mpr moves
      rw [List.length_append] at hfuel
      obtain ⟨n, rfl⟩ : ∃ n, fuel = n + 1 := ⟨fuel - 1, by omega⟩
      -- each step takes a character at least, so that the fuel lasts for the rest
      have hrest : v.length ≤ n := by omega
      obtain ⟨g₁, he⟩ := hstep first g
      obtain ⟨g', hd⟩ := ih hrest g₁
      refine ⟨g', ?_⟩
      rw [List.append_assoc, List.reverse_append, List.append_assoc]
      refine mem_repeatEnds_succ.mpr (.inr ⟨_, he, ?_, hd⟩)
      simp only [here, List.length_append]
      omega

theorem exists_mem_ends_of_reads (h : p.Reads b w r) (g : List GroupMatch) :
    ∃ g', here (w.reverse ++ b) r g' ∈ p.ends (here b (w ++ r) g) := by
  induction p generalizing b w r g with
  | empty =>
      obtain rfl := h
      exact ⟨g, List.mem_singleton_self _⟩
  | one cls =>
      obtain ⟨x, rfl, hx⟩ := h
      refine ⟨g, ?_⟩
      rw [List.singleton_append, ends_one_cons, if_pos hx]
      exact List.mem_singleton_self _
  | anchor anc =>
      obtain ⟨rfl, hanchor⟩ := h
      refine ⟨g, ?_⟩
      rw [List.nil_append, ends, if_pos (by cases anc <;> exact hanchor)]
      exact List.mem_singleton_self _
  | seq p q ihp ihq =>
      obtain ⟨u, v, rfl, hu, hv⟩ := h
      obtain ⟨g₁, he⟩ := ihp hu g
      obtain ⟨g', hd⟩ := ihq hv g₁
      refine ⟨g', ?_⟩
      rw [List.append_assoc, List.reverse_append, List.append_assoc]
      exact List.mem_flatMap.mpr ⟨_, he, hd⟩
  | either p q ihp ihq =>
      rcases h with h | h
      · obtain ⟨g', hd⟩ := ihp h g
        exact ⟨g', List.mem_append_left _ hd⟩
      · obtain ⟨g', hd⟩ := ihq h g
        exact ⟨g', List.mem_append_right _ hd⟩
  | many reluctant p ih =>
      refine exists_mem_repeatEnds (fun h g => ih h g) h ?_ g
      simp [here]
  | group i p ih =>
      obtain ⟨g', hd⟩ := ih h g
      exact ⟨_, List.mem_map.mpr ⟨_, hd, rfl⟩⟩

theorem ends_eq_nil_iff : p.ends (here b a g) = [] ↔ ∀ w r, a = w ++ r → ¬ p.Reads b w r := by
  constructor
  · rintro hnil w r rfl hw
    obtain ⟨g', hd⟩ := exists_mem_ends_of_reads hw g
    rw [hnil] at hd
    cases hd
  · intro hnone
    refine List.eq_nil_iff_forall_not_mem.mpr fun d hd => ?_
    obtain ⟨w, r, -, ha, hw, -⟩ := reads_of_mem_ends hd
    exact hnone w r ha hw

end

/-! ## The leftmost match -/

section

variable {p : Pattern} {b a : List Char} {c d : Cursor}

/-- The pattern can read something behind `u`. -/
def ReadsBehind (p : Pattern) (b a u : List Char) : Prop :=
  ∃ w r, a = u ++ (w ++ r) ∧ p.Reads (u.reverse ++ b) w r

theorem not_readsBehind_nil (h : p.ends (here b a []) = []) : ¬ p.ReadsBehind b a [] := by
  rintro ⟨w, r, ha, hw⟩
  exact ends_eq_nil_iff.mp h w r ha hw

theorem readsBehind_cons {x : Char} {xs u : List Char} :
    p.ReadsBehind b (x :: xs) (x :: u) ↔ p.ReadsBehind (x :: b) xs u := by
  rw [ReadsBehind, ReadsBehind, List.reverse_cons, List.append_assoc, List.singleton_append]
  simp only [List.cons_append, List.cons.injEq, true_and]

/-- Behind which part of a text a pattern can read, if it cannot at once. -/
theorem exists_of_readsBehind (h : p.ends (here b a []) = []) {u : List Char}
    (hu : p.ReadsBehind b a u) :
    ∃ x xs u', a = x :: xs ∧ u = x :: u' ∧ p.ReadsBehind (x :: b) xs u' := by
  cases u with
  | nil => exact absurd hu (not_readsBehind_nil h)
  | cons x u' =>
      obtain ⟨w, r, rfl, hw⟩ := hu
      exact ⟨x, _, u', rfl, rfl, readsBehind_cons.mp ⟨w, r, rfl, hw⟩⟩

theorem not_readsBehind_of_findFrom (h : p.findFrom (here b a []) a.length = none)
    (u : List Char) : ¬ p.ReadsBehind b a u := by
  intro hu
  induction a generalizing b u with
  | nil =>
      have hends : p.ends (here b [] []) = [] := by
        simpa [findFrom] using h
      obtain ⟨x, xs, u', ha, -⟩ := exists_of_readsBehind hends hu
      cases ha
  | cons y ys ih =>
      rw [List.length_cons, findFrom] at h
      cases hends : p.ends (here b (y :: ys) []) with
      | cons e es => rw [hends] at h; cases h
      | nil =>
          rw [hends] at h
          obtain ⟨x, xs, u', ha, rfl, hu'⟩ := exists_of_readsBehind hends hu
          obtain ⟨rfl, rfl⟩ := List.cons.inj ha
          exact ih h u' hu'

/-- A match from `c` to `d` that starts behind the shortest part behind which the pattern can
read. -/
def Leftmost (p : Pattern) (b a : List Char) (c d : Cursor) : Prop :=
  ∃ u w r g, a = u ++ (w ++ r) ∧ p.Reads (u.reverse ++ b) w r
    ∧ c = here (u.reverse ++ b) (w ++ r) [] ∧ d = here (w.reverse ++ (u.reverse ++ b)) r g
    ∧ ∀ u', p.ReadsBehind b a u' → u.length ≤ u'.length

theorem leftmost_of_mem_ends (h : d ∈ p.ends (here b a [])) : p.Leftmost b a (here b a []) d := by
  obtain ⟨w, r, g, rfl, hw, rfl⟩ := reads_of_mem_ends h
  exact ⟨[], w, r, g, rfl, hw, rfl, rfl, fun _ _ => Nat.zero_le _⟩

theorem leftmost_cons {x : Char} {xs : List Char} (hends : p.ends (here b (x :: xs) []) = [])
    (h : p.Leftmost (x :: b) xs c d) : p.Leftmost b (x :: xs) c d := by
  obtain ⟨u, w, r, g, rfl, hw, hc, hd, hleast⟩ := h
  have hreverse : (x :: u).reverse ++ b = u.reverse ++ x :: b := by
    rw [List.reverse_cons, List.append_assoc, List.singleton_append]
  refine ⟨x :: u, w, r, g, rfl, hreverse ▸ hw, hreverse ▸ hc, hreverse ▸ hd, fun v hv => ?_⟩
  obtain ⟨y, ys, v', ha, rfl, hv'⟩ := exists_of_readsBehind hends hv
  obtain ⟨rfl, rfl⟩ := List.cons.inj ha
  exact Nat.succ_le_succ (hleast v' hv')

theorem leftmost_of_findFrom (h : p.findFrom (here b a []) a.length = some (c, d)) :
    p.Leftmost b a c d := by
  induction a generalizing b with
  | nil =>
      obtain ⟨e, he, hcd⟩ := Option.map_eq_some_iff.mp h
      obtain ⟨rfl, rfl⟩ := Prod.mk.inj hcd
      exact leftmost_of_mem_ends (List.mem_of_head? he)
  | cons x xs ih =>
      rw [List.length_cons, findFrom] at h
      cases hends : p.ends (here b (x :: xs) []) with
      | nil =>
          rw [hends] at h
          exact leftmost_cons hends (ih h)
      | cons e es =>
          rw [hends] at h
          obtain ⟨rfl, rfl⟩ := Prod.mk.inj (Option.some.inj h)
          exact leftmost_of_mem_ends (hends ▸ List.mem_cons_self ..)

variable {s : String}

/-- A search finds nothing exactly if the pattern can read nowhere in the text. -/
theorem find?_eq_none_iff : p.find? s = none ↔ ∀ u, ¬ p.ReadsBehind [] s.toList u := by
  rw [find?, Option.map_eq_none_iff]
  constructor
  · exact not_readsBehind_of_findFrom
  · intro hnone
    refine Option.eq_none_iff_forall_ne_some.mpr ?_
    rintro ⟨c, d⟩ hfound
    obtain ⟨u, w, r, g, hs, hw, -⟩ := leftmost_of_findFrom hfound
    exact hnone u ⟨w, r, hs, hw⟩

/-- What a search finds has been read, and starts leftmost. -/
theorem leftmost_of_find? {m : Match} (h : p.find? s = some m) :
    ∃ u w r, s.toList = u ++ (w ++ r) ∧ p.Reads u.reverse w r
      ∧ m.before = u.reverse ∧ m.text = String.ofList w
      ∧ ∀ u', p.ReadsBehind [] s.toList u' → u.length ≤ u'.length := by
  obtain ⟨⟨c, d⟩, hfound, rfl⟩ := Option.map_eq_some_iff.mp h
  obtain ⟨u, w, r, g, hs, hw, rfl, rfl, hleast⟩ := leftmost_of_findFrom hfound
  rw [List.append_nil] at hw
  exact ⟨u, w, r, hs, hw, List.append_nil _, textTo_here _ _ w r _ _, hleast⟩

end

end Pattern

end CodeProfile.Text
