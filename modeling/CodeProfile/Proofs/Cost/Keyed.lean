import Mathlib.Data.List.Induction
import Mathlib.Data.List.Nodup

/-!
# Lists with one entry for each key

`Keyed.insert` puts an entry into a list that has one entry for each key:
into the entry of its own key by an operation, else at the end. Powers of
a product are collected so (the key is the size, the operation adds the
degrees), and so are the terms of a sum (the key is the growth term, the
operation keeps the larger coefficient).

Two facts carry everything that is said about either, for an operation
that is associative on the entries of one key. Collecting parts first
changes nothing (`collect_append_collect`), and what is collected under a
key is what the entries of that key make together (`eq_foldl_of_mem_collect`).
-/

namespace CodeProfile

namespace Keyed

variable {α κ : Type} [DecidableEq κ]

/-- Adds an entry: into the one of its key if there is one, else at the end. -/
def insert (key : α → κ) (op : α → α → α) (x : α) : List α → List α
  | [] => [x]
  | k :: ks => if key k = key x then op k x :: ks else k :: insert key op x ks

/-- Adds entries one after the other. -/
def collect (key : α → κ) (op : α → α → α) (ks xs : List α) : List α :=
  xs.foldl (fun ks x => insert key op x ks) ks

/-- Entries of one key combine to an entry of that key, in any grouping. -/
structure Lawful (key : α → κ) (op : α → α → α) : Prop where
  key_op : ∀ a b, key a = key b → key (op a b) = key a
  assoc : ∀ a b c, key a = key b → key b = key c → op (op a b) c = op a (op b c)

variable {key : α → κ} {op : α → α → α} {x y : α} {ks ls xs ys : List α}

theorem collect_cons : collect key op ks (x :: xs) = collect key op (insert key op x ks) xs := rfl

theorem collect_append :
    collect key op ks (xs ++ ys) = collect key op (collect key op ks xs) ys :=
  List.foldl_append

theorem collect_concat :
    collect key op ks (xs ++ [x]) = insert key op x (collect key op ks xs) :=
  collect_append

/-! ## Keys -/

theorem insert_of_not_mem (h : key x ∉ ks.map key) : insert key op x ks = ks ++ [x] := by
  induction ks with
  | nil => rfl
  | cons k ks ih =>
      rw [List.map_cons, List.mem_cons, not_or] at h
      rw [insert, if_neg (Ne.symm h.1), ih h.2, List.cons_append]

theorem map_key_insert (hl : Lawful key op) :
    (insert key op x ks).map key =
      if key x ∈ ks.map key then ks.map key else ks.map key ++ [key x] := by
  by_cases hx : key x ∈ ks.map key
  · rw [if_pos hx]
    induction ks with
    | nil => cases hx
    | cons k ks ih =>
        by_cases hk : key k = key x
        · rw [insert, if_pos hk, List.map_cons, List.map_cons, hl.key_op k x hk]
        · rw [insert, if_neg hk, List.map_cons, List.map_cons,
            ih ((List.mem_cons.mp hx).resolve_left (Ne.symm hk))]
  · rw [if_neg hx, insert_of_not_mem hx, List.map_append, List.map_singleton]

theorem nodup_insert (hl : Lawful key op) (h : (ks.map key).Nodup) :
    ((insert key op x ks).map key).Nodup := by
  rw [map_key_insert hl]
  split
  · exact h
  · next hx =>
      rw [← List.concat_eq_append]
      exact h.concat hx

theorem nodup_collect (hl : Lawful key op) (h : (ks.map key).Nodup) :
    ((collect key op ks xs).map key).Nodup := by
  induction xs generalizing ks with
  | nil => exact h
  | cons x xs ih => exact ih (nodup_insert hl h)

theorem nodup_collect_nil (hl : Lawful key op) : ((collect key op [] xs).map key).Nodup :=
  nodup_collect hl List.nodup_nil

theorem collect_of_nodup (h : ((ks ++ xs).map key).Nodup) :
    collect key op ks xs = ks ++ xs := by
  induction xs generalizing ks with
  | nil => rw [List.append_nil]; rfl
  | cons x xs ih =>
      have hx : key x ∉ ks.map key := by
        rw [List.map_append, List.map_cons, List.nodup_append] at h
        exact fun hmem => h.2.2 _ hmem _ (List.mem_cons_self ..) rfl
      rw [List.append_cons ks x xs] at h ⊢
      rw [collect_cons, insert_of_not_mem hx, ih h]

/-- A key is collected exactly if an entry has it. -/
theorem mem_map_key_collect (hl : Lawful key op) {k : κ} :
    k ∈ (collect key op ks xs).map key ↔ k ∈ ks.map key ∨ k ∈ xs.map key := by
  induction xs generalizing ks with
  | nil => simp [collect]
  | cons x xs ih =>
      rw [collect_cons, ih, map_key_insert hl, List.map_cons, List.mem_cons]
      split
      · next hx =>
          constructor
          · rintro (h | h)
            · exact Or.inl h
            · exact Or.inr (Or.inr h)
          · rintro (h | rfl | h)
            · exact Or.inl h
            · exact Or.inl hx
            · exact Or.inr h
      · rw [List.mem_append, List.mem_singleton, or_assoc]

/-! ## Grouping -/

/-- Two entries may change places once the key of one of them is there. -/
theorem insert_comm (hl : Lawful key op) (hne : key x ≠ key y) (hx : key x ∈ ks.map key) :
    insert key op x (insert key op y ks) = insert key op y (insert key op x ks) := by
  induction ks with
  | nil => cases hx
  | cons k ks ih =>
      by_cases hkx : key k = key x
      · simp only [insert, hkx, hne, hl.key_op k x hkx, if_true, if_false]
      · have hmem := (List.mem_cons.mp hx).resolve_left (Ne.symm hkx)
        by_cases hky : key k = key y
        · simp only [insert, hky, Ne.symm hne, hl.key_op k y hky, if_true, if_false]
        · simp only [insert, hkx, hky, if_false, ih hmem]

/-- Two entries of one key may be combined first. -/
theorem insert_insert (hl : Lawful key op) (h : key x = key y) :
    insert key op y (insert key op x ks) = insert key op (op x y) ks := by
  induction ks with
  | nil => simp only [insert, h, if_true]
  | cons k ks ih =>
      by_cases hk : key k = key x
      · simp only [insert, hk, hl.key_op k x hk, hl.key_op x y h, h, if_true,
          hl.assoc k x y hk h]
      · simp only [insert, hk, hl.key_op x y h, h ▸ hk, if_false, ih]

theorem collect_insert_of_mem (hl : Lawful key op) (hmem : key x ∈ ks.map key)
    (hnot : key x ∉ xs.map key) :
    collect key op (insert key op x ks) xs = insert key op x (collect key op ks xs) := by
  induction xs generalizing ks with
  | nil => rfl
  | cons y xs ih =>
      rw [List.map_cons, List.mem_cons, not_or] at hnot
      have hmem' : key x ∈ (insert key op y ks).map key := by
        rw [map_key_insert hl]
        split
        · exact hmem
        · exact List.mem_append_left _ hmem
      rw [collect_cons, collect_cons, ← insert_comm hl hnot.1 hmem, ih hmem' hnot.2]

/-- Collecting after an insertion is inserting after the collection. -/
theorem collect_insert (hl : Lawful key op) (h : (xs.map key).Nodup) :
    collect key op ks (insert key op x xs) = insert key op x (collect key op ks xs) := by
  induction xs generalizing ks with
  | nil => rfl
  | cons y xs ih =>
      rw [List.map_cons, List.nodup_cons] at h
      by_cases hy : key y = key x
      · have hmem : key x ∈ (insert key op y ks).map key := by
          rw [map_key_insert hl, hy]
          split
          · assumption
          · exact List.mem_append_right _ (List.mem_singleton_self _)
        rw [insert, if_pos hy, collect_cons, collect_cons, ← insert_insert hl hy,
          collect_insert_of_mem hl hmem (hy ▸ h.1)]
      · rw [insert, if_neg hy, collect_cons, collect_cons, ih h.2]

/-- Entries may be collected among themselves first. -/
theorem collect_collect (hl : Lawful key op) :
    collect key op ks (collect key op [] xs) = collect key op ks xs := by
  induction xs using List.reverseRecOn with
  | nil => rfl
  | append_singleton xs x ih =>
      rw [collect_concat, collect_concat,
        collect_insert hl (nodup_collect_nil hl), ih]

/-- Collecting two parts first changes nothing. -/
theorem collect_append_collect (hl : Lawful key op) :
    collect key op [] (collect key op [] xs ++ collect key op [] ys) =
      collect key op [] (xs ++ ys) := by
  rw [collect_append, collect_collect hl, collect_collect hl, ← collect_append]

/-! ## What is collected -/

theorem mem_insert (h : (ks.map key).Nodup) (hy : y ∈ insert key op x ks) :
    (y ∈ ks ∧ key y ≠ key x) ∨ (∃ k ∈ ks, key k = key x ∧ y = op k x) ∨
      (y = x ∧ key x ∉ ks.map key) := by
  induction ks with
  | nil => exact Or.inr (Or.inr ⟨List.mem_singleton.mp hy, List.not_mem_nil⟩)
  | cons k ks ih =>
      rw [List.map_cons, List.nodup_cons] at h
      by_cases hk : key k = key x
      · rw [insert, if_pos hk] at hy
        rcases List.mem_cons.mp hy with rfl | hold
        · exact Or.inr (Or.inl ⟨k, List.mem_cons_self .., hk, rfl⟩)
        · refine Or.inl ⟨List.mem_cons_of_mem _ hold, fun heq => h.1 ?_⟩
          rw [hk, ← heq]
          exact List.mem_map_of_mem hold
      · rw [insert, if_neg hk] at hy
        rcases List.mem_cons.mp hy with rfl | hin
        · exact Or.inl ⟨List.mem_cons_self .., hk⟩
        · rcases ih h.2 hin with ⟨hold, hne⟩ | ⟨k', hk', heq⟩ | ⟨rfl, hnot⟩
          · exact Or.inl ⟨List.mem_cons_of_mem _ hold, hne⟩
          · exact Or.inr (Or.inl ⟨k', List.mem_cons_of_mem _ hk', heq⟩)
          · refine Or.inr (Or.inr ⟨rfl, fun hmem => ?_⟩)
            exact (List.mem_cons.mp hmem).elim (fun he => hk he.symm) hnot

/-- An entry that was collected is made of the entries of its key, in their order. -/
theorem eq_foldl_of_mem_collect (hl : Lawful key op) (hy : y ∈ collect key op [] xs) :
    ∃ z zs, xs.filter (key · = key y) = z :: zs ∧ y = zs.foldl op z := by
  induction xs using List.reverseRecOn generalizing y with
  | nil => cases hy
  | append_singleton xs x ih =>
      rw [collect_concat] at hy
      rcases mem_insert (nodup_collect_nil hl) hy with
        ⟨hold, hne⟩ | ⟨k, hk, hkx, rfl⟩ | ⟨rfl, hnot⟩
      · obtain ⟨z, zs, hfilter, heq⟩ := ih hold
        refine ⟨z, zs, ?_, heq⟩
        rw [List.filter_append, hfilter]
        simp [Ne.symm hne]
      · obtain ⟨z, zs, hfilter, heq⟩ := ih hk
        refine ⟨z, zs ++ [x], ?_, ?_⟩
        · rw [hl.key_op k x hkx, List.filter_append, hfilter]
          simp [hkx]
        · rw [List.foldl_append, ← heq]
          rfl
      · refine ⟨y, [], ?_, rfl⟩
        rw [mem_map_key_collect hl] at hnot
        have hnone : xs.filter (key · = key y) = [] := by
          rw [List.filter_eq_nil_iff]
          intro z hz heq
          exact hnot (Or.inr (List.mem_map.mpr ⟨z, hz, of_decide_eq_true heq⟩))
        rw [List.filter_append, hnone]
        simp

/-- An operation that picks one of two entries collects entries that were there. -/
theorem mem_of_mem_collect (hl : Lawful key op) (picks : ∀ a b, op a b = a ∨ op a b = b)
    (hy : y ∈ collect key op [] xs) : y ∈ xs := by
  have hfold : ∀ (zs : List α) (z : α), zs.foldl op z ∈ z :: zs := by
    intro zs
    induction zs with
    | nil => exact fun z => List.mem_singleton_self z
    | cons w zs ih =>
        intro z
        rw [List.foldl_cons]
        rcases picks z w with h | h
        · rw [h]
          rcases List.mem_cons.mp (ih z) with he | hm
          · rw [he]
            exact List.mem_cons_self ..
          · exact List.mem_cons_of_mem _ (List.mem_cons_of_mem _ hm)
        · rw [h]
          exact List.mem_cons_of_mem _ (ih w)
  obtain ⟨z, zs, hfilter, rfl⟩ := eq_foldl_of_mem_collect hl hy
  exact List.mem_of_mem_filter (hfilter ▸ hfold zs z)

/-! ## Order -/

theorem perm_insert (h : ks.Perm ls) (hk : (ks.map key).Nodup) :
    (insert key op x ks).Perm (insert key op x ls) := by
  induction h with
  | nil => exact .refl _
  | @cons k ks ls h ih =>
      rw [List.map_cons, List.nodup_cons] at hk
      rw [insert, insert]
      split
      · exact h.cons _
      · exact (ih hk.2).cons _
  | swap k l ks =>
      rw [List.map_cons, List.map_cons, List.nodup_cons] at hk
      have hne : key l ≠ key k := fun heq => hk.1 (heq ▸ List.mem_cons_self ..)
      simp only [insert]
      by_cases hl : key l = key x
      · rw [if_pos hl, if_neg fun hkx => hne (hl.trans hkx.symm), if_pos hl]
        exact .swap ..
      · rw [if_neg hl, if_neg hl]
        split <;> exact .swap ..
  | trans h _ ih₁ ih₂ => exact (ih₁ hk).trans (ih₂ ((h.map key).nodup hk))

theorem perm_insert_insert (hl : Lawful key op) (hcomm : key x = key y → op x y = op y x) :
    (insert key op x (insert key op y ks)).Perm (insert key op y (insert key op x ks)) := by
  by_cases heq : key x = key y
  · rw [insert_insert hl heq.symm, insert_insert hl heq, hcomm heq]
  · by_cases hx : key x ∈ ks.map key
    · rw [insert_comm hl heq hx]
    · by_cases hy : key y ∈ ks.map key
      · rw [insert_comm hl (Ne.symm heq) hy]
      · have hxy : key x ∉ (ks ++ [y]).map key := by simpa [heq] using hx
        have hyx : key y ∉ (ks ++ [x]).map key := by simpa [Ne.symm heq] using hy
        rw [insert_of_not_mem hy, insert_of_not_mem hx, insert_of_not_mem hxy,
          insert_of_not_mem hyx, List.append_assoc, List.append_assoc]
        exact (List.Perm.swap x y []).append_left ks

theorem perm_collect_left (hl : Lawful key op) (h : ks.Perm ls) (hk : (ks.map key).Nodup) :
    (collect key op ks xs).Perm (collect key op ls xs) := by
  induction xs generalizing ks ls with
  | nil => exact h
  | cons x xs ih => exact ih (perm_insert h hk) (nodup_insert hl hk)

/-- Entries in another order collect to the same entries in another order, if those of one key may
be exchanged. -/
theorem perm_collect (hl : Lawful key op) (hcomm : ∀ a b, key a = key b → op a b = op b a)
    (h : xs.Perm ys) (hk : (ks.map key).Nodup) :
    (collect key op ks xs).Perm (collect key op ks ys) := by
  induction h generalizing ks with
  | nil => exact .refl _
  | cons x _ ih => exact ih (nodup_insert hl hk)
  | swap x y xs =>
      exact perm_collect_left hl (perm_insert_insert hl (hcomm x y))
        (nodup_insert hl (nodup_insert hl hk))
  | trans _ _ ih₁ ih₂ => exact (ih₁ hk).trans (ih₂ hk)

/-! ## Renaming -/

/-- A function that keeps keys and respects the operation may be applied before collecting. -/
theorem collect_map {f : α → α} (hkey : ∀ a, key (f a) = key a)
    (hop : ∀ a b, op (f a) (f b) = f (op a b)) (ks xs : List α) :
    collect key op (ks.map f) (xs.map f) = (collect key op ks xs).map f := by
  have hinsert (x : α) (ks : List α) :
      insert key op (f x) (ks.map f) = (insert key op x ks).map f := by
    induction ks with
    | nil => rfl
    | cons k ks ih =>
        rw [List.map_cons, insert, insert, hkey, hkey, hop, ih]
        split <;> rfl
  induction xs generalizing ks with
  | nil => rfl
  | cons x xs ih => rw [List.map_cons, collect_cons, hinsert, ih, collect_cons]

end Keyed

end CodeProfile
