/-!
# Rankings

Entries are ranked by a stable sort from the best one down. Stability makes
the ranking say more than the order of scores: of equally good entries the
earliest comes first. So the entry at a place of the ranking is the first
best one (`FirstBest`) among those that are not ranked above it
(`firstBest_of_ranked`).
-/

namespace CodeProfile

/-- The earliest of the best entries: better than all before it, and at least
as good as all behind it. `le a b` says that `a` is at least as good as `b`. -/
def FirstBest {α : Type} (le : α → α → Bool) (best : α) (entries : List α) : Prop :=
  ∃ before after, entries = before ++ best :: after
    ∧ (∀ e ∈ before, le e best = false) ∧ ∀ e ∈ after, le best e = true

section

variable {α : Type} {le : α → α → Bool} {best : α} {entries part above below : List α}

theorem FirstBest.mem (h : FirstBest le best entries) : best ∈ entries := by
  obtain ⟨before, after, rfl, -⟩ := h
  exact List.mem_append_right before List.mem_cons_self

/-- Of distinct entries, one that stands behind another is not in front of it. -/
theorem not_pair_sublist {e : α} (hdistinct : (above ++ best :: below).Nodup) (he : e ∈ below) :
    ¬ [e, best].Sublist (above ++ best :: below) := by
  intro hpair
  obtain ⟨-, hbelow, habove⟩ := List.nodup_append.mp hdistinct
  obtain ⟨hbest, -⟩ := List.nodup_cons.mp hbelow
  obtain ⟨front, back, hsplit, hfront, hback⟩ := List.sublist_append_iff.mp hpair
  cases front with
  | nil =>
      obtain rfl : back = [e, best] := hsplit.symm
      rcases List.sublist_cons_iff.mp hback with hback | ⟨r, heq, -⟩
      · exact hbest (hback.subset (by simp))
      · rw [(List.cons.inj heq).1] at he
        exact hbest he
  | cons x front =>
      obtain rfl : e = x := (List.cons.inj hsplit).1
      exact habove e (hfront.subset List.mem_cons_self) e (List.mem_cons_of_mem best he) rfl

/-- What stands at a place of the ranking is the first best of what is ranked
from there on. -/
theorem firstBest_of_ranked (htrans : ∀ a b c, le a b = true → le b c = true → le a c = true)
    (htotal : ∀ a b, (le a b || le b a) = true) (hnodup : entries.Nodup)
    (hranked : entries.mergeSort le = above ++ best :: below)
    (hpart : part.Sublist entries) (hperm : part.Perm (best :: below)) :
    FirstBest le best part := by
  obtain ⟨before, after, rfl⟩ := List.append_of_mem (hperm.mem_iff.mpr List.mem_cons_self)
  have hdistinct : (above ++ best :: below).Nodup :=
    hranked ▸ (List.mergeSort_perm entries le).nodup_iff.mpr hnodup
  have hsorted : (above ++ best :: below).Pairwise fun a b => le a b = true :=
    hranked ▸ List.pairwise_mergeSort htrans htotal entries
  -- all others of the part are ranked below
  have hothers {e : α} (he : e ∈ before ++ after) : e ∈ below := by
    have hrest := (List.perm_middle.symm.trans hperm).cons_inv
    exact hrest.mem_iff.mp he
  refine ⟨before, after, rfl, ?_, ?_⟩
  · intro e he
    rw [← Bool.not_eq_true]
    intro hle
    -- being earlier and not worse, it would have to be ranked above
    refine not_pair_sublist hdistinct (hothers (List.mem_append_left after he)) ?_
    rw [← hranked]
    refine List.pair_sublist_mergeSort htrans htotal hle (List.Sublist.trans ?_ hpart)
    have htail : [best].Sublist (best :: after) := by simp
    exact (List.singleton_sublist.mpr he).append htail
  · intro e he
    have hmem := hothers (List.mem_append_right before he)
    obtain ⟨-, hbest, -⟩ := List.pairwise_append.mp hsorted
    exact (List.pairwise_cons.mp hbest).1 e hmem

end

end CodeProfile
