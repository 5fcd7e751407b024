import CodeProfile.Proofs.Complexity.ProgramTime

/-!
# Where the time of a program comes from

The operations that are reported as dominant belong to the functions, and
to the code at the top, whose own time is written as that of the program.
The time of a program is the sum of these times, and the sum of one kept
term is written as that term. Several terms of one rank and of different
shapes are all kept (`Cost.Tied`), and then the sum is written with a
` + ` that no single time has (`plus_not_mem_growthTerm`). So the time of
a program is written as that of a part of it exactly where there is no tie
(`ownTime_iff`), and where it grows as well, the part has loops or calls
itself and is reported (`Program.time_attributed`). A loop over the input
ties with ten halving loops (`time_unattributed`).
-/

namespace CodeProfile

namespace Cost

/-! ## Sums that are not one of their terms -/

/-- Two of the costs have the greatest rank of all and are written differently. -/
def Tied (ts : List Cost) : Prop :=
  ∃ t ∈ ts, ∃ u ∈ ts,
    t.rank = u.rank ∧ (∀ v ∈ ts, v.rank ≤ t.rank) ∧ t.growthTerm ≠ u.growthTerm

instance (ts : List Cost) : Decidable (Tied ts) :=
  inferInstanceAs (Decidable (∃ t ∈ ts, ∃ u ∈ ts, _ ∧ _ ∧ _))

theorem plus_not_mem_toString (k : Nat) : '+' ∉ (toString k).toList :=
  (Text.isNumeral_toString k).not_mem (by decide)

theorem plus_not_mem_logsText (b : Nat) : '+' ∉ (logsText b).toList := by
  induction b with
  | zero => decide
  | succ b ih =>
      rw [logsText_succ]
      split
      · decide
      · rw [String.toList_append, String.toList_append, List.mem_append, List.mem_append]
        rintro ((hmem | hmem) | hmem)
        · exact absurd hmem (by decide)
        · exact absurd hmem (by decide)
        · exact ih hmem

theorem plus_not_mem_powerText (a : Nat) : '+' ∉ (powerText a).toList := by
  rw [powerText_eq]
  split
  · decide
  · rw [String.toList_append, String.toList_append, List.mem_append, List.mem_append]
    rintro ((hmem | hmem) | hmem)
    · exact absurd hmem (by decide)
    · exact absurd hmem (by decide)
    · exact plus_not_mem_toString _ hmem

/-- A single time is written without a sum. -/
theorem IsTime.plus_not_mem_growthTerm {t : Cost} (h : t.IsTime) : '+' ∉ t.growthTerm.toList := by
  rcases h with ⟨a, b, rfl⟩ | rfl
  · by_cases ha : a = 0
    · subst ha
      by_cases hb : b = 0
      · subst hb
        decide
      · rw [growthTerm_monomial_zero hb]
        exact plus_not_mem_logsText b
    · rw [growthTerm_monomial ha]
      split
      · exact plus_not_mem_powerText a
      · rw [String.toList_append, String.toList_append, List.mem_append, List.mem_append]
        rintro ((hmem | hmem) | hmem)
        · exact plus_not_mem_powerText a hmem
        · exact absurd hmem (by decide)
        · exact plus_not_mem_logsText b hmem
  · decide

/-- Several terms are written with a sum. -/
theorem plus_mem_growthTerm_ofTerms (t u : Cost) (ts : List Cost) :
    '+' ∈ (ofTerms (t :: u :: ts)).growthTerm.toList := by
  have hmany : ofTerms (t :: u :: ts) = add (t :: u :: ts) := rfl
  rw [hmany, growthTerm, growthTerms_eq, List.map_map, List.map_cons,
    String.intercalate_cons_of_ne_nil (by simp), String.toList_append, String.toList_append]
  exact List.mem_append_left _ (List.mem_append_right _ (by decide))

section

variable {ts : List Cost} (hts : ∀ t ∈ ts, t.IsTime)
include hts

theorem mem_dominant_iff_of_isTime {t : Cost} :
    t ∈ dominant ts ↔ t ∈ ts ∧ ∀ v ∈ ts, v.rank ≤ t.rank := by
  have hflat : ts.flatMap termsOf = ts := flatMap_termsOf_eq_self fun t ht => (hts t ht).isSum
  rw [mem_dominant, hflat]
  refine and_congr_right fun ht => ?_
  have hle : t.rank ≤ sumRank (ts.map rank) := le_sumRank (List.mem_map_of_mem ht)
  rw [← List.forall_mem_map (P := fun r => r ≤ t.rank), ← sumRank_le_iff]
  omega

/-- Without a tie the sum is one of its terms. -/
theorem combineSum_mem_of_not_tied (hne : ts ≠ []) (htied : ¬ Tied ts) : combineSum ts ∈ ts := by
  have hsum : ∀ t ∈ ts, t.isSum = false := fun t ht => (hts t ht).isSum
  have hflat : ts.flatMap termsOf ≠ [] := by rwa [flatMap_termsOf_eq_self hsum]
  have hnodup : ((kept ts).map growthTerm).Nodup := Keyed.nodup_collect_nil larger_lawful
  rw [combineSum_eq, if_neg hflat]
  match hkept : kept ts with
  | [] => exact absurd hkept (kept_ne_nil hflat)
  | [t] =>
      have hmem : t ∈ kept ts := hkept ▸ List.mem_singleton_self t
      exact mem_of_mem_kept hsum hmem
  | t :: u :: us =>
      have ht : t ∈ kept ts := hkept ▸ List.mem_cons_self ..
      have hu : u ∈ kept ts := hkept ▸ List.mem_cons_of_mem _ (List.mem_cons_self ..)
      obtain ⟨htmem, htop⟩ := (mem_dominant_iff_of_isTime hts).mp (mem_dominant_of_mem_kept ht)
      have hrank : t.rank = u.rank := (rank_of_mem_kept ht).trans (rank_of_mem_kept hu).symm
      rw [hkept, List.map_cons, List.map_cons, List.nodup_cons] at hnodup
      refine absurd ⟨t, htmem, u, mem_of_mem_kept hsum hu, hrank, htop, fun hterm => ?_⟩ htied
      exact hnodup.1 (hterm ▸ List.mem_cons_self ..)

/-- With a tie no single time is written as the sum. -/
theorem growthTerm_combineSum_ne_of_tied (htied : Tied ts) {t : Cost} (ht : t.IsTime) :
    t.growthTerm ≠ (combineSum ts).growthTerm := by
  obtain ⟨u, hu, v, hv, hrank, htop, hterm⟩ := htied
  have hsum : ∀ t ∈ ts, t.isSum = false := fun t ht => (hts t ht).isSum
  have hflat : ts.flatMap termsOf ≠ [] := by
    rw [flatMap_termsOf_eq_self hsum]
    exact List.ne_nil_of_mem hu
  obtain ⟨k, hk, hku⟩ := exists_mem_kept ((mem_dominant_iff_of_isTime hts).mpr ⟨hu, htop⟩)
  obtain ⟨l, hl, hlv⟩ := exists_mem_kept
    ((mem_dominant_iff_of_isTime hts).mpr ⟨hv, fun w hw => hrank ▸ htop w hw⟩)
  rw [combineSum_eq, if_neg hflat]
  match hkept : kept ts with
  | [] => exact absurd hkept (kept_ne_nil hflat)
  | [w] =>
      rw [hkept, List.mem_singleton] at hk hl
      exact absurd (hku.symm.trans ((hk.trans hl.symm) ▸ hlv)) hterm
  | w :: x :: xs =>
      intro heq
      exact ht.plus_not_mem_growthTerm (heq ▸ plus_mem_growthTerm_ofTerms w x xs)

theorem exists_growthTerm_eq_combineSum_iff (hne : ts ≠ []) :
    (∃ t ∈ ts, t.growthTerm = (combineSum ts).growthTerm) ↔ ¬ Tied ts := by
  constructor
  · rintro ⟨t, ht, hterm⟩ htied
    exact growthTerm_combineSum_ne_of_tied hts htied (hts t ht) hterm
  · intro htied
    exact ⟨_, combineSum_mem_of_not_tied hts hne htied, rfl⟩

end

theorem IsTime.bigO_eq {t : Cost} (h : t.IsTime) : t.bigO = "O(" ++ t.growthTerm ++ ")" := by
  rw [bigO, h.canonical.reduce_eq]

end Cost

/-! ## Functions -/

namespace Function

theorem complexity_time (f : Function) : f.complexity.time = "O(" ++ f.time.growthTerm ++ ")" := by
  have hreduce : f.time.reduce = f.time := (Program.isTime_function f).canonical.reduce_eq
  have htime : f.complexity.time = f.time.reduce.bigO := rfl
  rw [htime, hreduce, (Program.isTime_function f).bigO_eq]

/-- What makes the time of a function is said with its name. -/
theorem name_in_dominantOperation {f : Function} {op : String}
    (h : f.dominantOperation? = some op) : ∃ before after, op = before ++ f.name ++ after := by
  unfold dominantOperation? at h
  dsimp only at h
  split at h
  · obtain rfl := Option.some_inj.mp h
    refine ⟨"recursive calls in ", " (" ++ toString f.recursiveCallCount ++ " self-call" ++
      (if f.recursiveCallCount = 1 then "" else "s") ++ ")", ?_⟩
    simp only [String.append_assoc]
    rfl
  split at h
  · obtain rfl := Option.some_inj.mp h
    refine ⟨"nested loops (depth " ++ toString f.body.loopDepth ++ ") in ",
      " at line " ++ toString f.origin.line, ?_⟩
    simp only [String.append_assoc]
    rfl
  split at h
  · obtain rfl := Option.some_inj.mp h
    refine ⟨"loop in ", " at line " ++ toString f.origin.line, ?_⟩
    simp only [String.append_assoc]
    rfl
  · cases h

end Function

theorem Block.loopDepth_pos {b : Block} (h : b.time.rank ≠ 0) : 0 < b.loopDepth := by
  refine Nat.pos_of_ne_zero fun hdepth => h ?_
  rw [loopDepth, ← Statement.length_levelsAll, List.length_eq_zero_iff] at hdepth
  rw [rank_time, weight_eq, hdepth]
  rfl

/-- A function whose time grows has a recursion or a loop to name. -/
theorem Function.isSome_dominantOperation {f : Function} (h : f.time.rank ≠ 0) :
    f.dominantOperation?.isSome := by
  cases hrec : f.isRecursive with
  | true => simp [dominantOperation?, hrec]
  | false =>
      rw [time_of_not_isRecursive hrec] at h
      have hdepth := Block.loopDepth_pos h
      unfold dominantOperation?
      rw [hrec, if_neg Bool.false_ne_true]
      split_ifs
      · rfl
      · rfl
      · omega

/-! ## Programs -/

namespace Program

/-- Two of the parts of the program share the greatest rank and are written differently. -/
def Tied (p : Program) : Prop := Cost.Tied p.timeTerms

instance (p : Program) : Decidable p.Tied := inferInstanceAs (Decidable (Cost.Tied _))

theorem topLevel_isTime (p : Program) : p.topLevel.time.IsTime :=
  Or.inl ⟨_, _, p.topLevel.time_eq_monomial⟩

/-- Some function, or the code at the top, has a time that is written as that of the program. -/
def OwnTime (p : Program) : Prop :=
  (∃ f ∈ p.functions, f.complexity.time = p.complexity.time) ∨
    p.topLevel.time.bigO = p.complexity.time

theorem bigO_text_inj {s t : String} : "O(" ++ s ++ ")" = "O(" ++ t ++ ")" ↔ s = t := by
  rw [String.append_left_inj, String.append_right_inj]

theorem ownTime_iff (p : Program) : p.OwnTime ↔ ¬ p.Tied := by
  have hparts : p.OwnTime ↔ ∃ t ∈ p.timeTerms, t.growthTerm = p.time.growthTerm := by
    simp only [OwnTime, Function.complexity_time, p.topLevel_isTime.bigO_eq, time_complexity,
      bigO_text_inj, timeTerms_eq, List.mem_append, List.mem_map, List.mem_singleton, or_and_right,
      exists_or, exists_eq_left, exists_exists_and_eq_and]
  rw [hparts]
  exact Cost.exists_growthTerm_eq_combineSum_iff (fun t ht => isTime_of_mem_timeTerms ht)
    p.timeTerms_ne_nil

theorem mem_dominantOperations {p : Program} {op : String} :
    op ∈ p.complexity.dominantOperations ↔
      (∃ f ∈ p.functions, f.complexity.time = p.complexity.time ∧ f.dominantOperation? = some op) ∨
        0 < p.topLevel.loopDepth ∧ p.topLevel.time.bigO = p.complexity.time ∧
          op = s!"module-level loops (depth {p.topLevel.loopDepth})" := by
  have hops : p.complexity.dominantOperations = p.dominantOperations p.complexity.time := rfl
  rw [hops, dominantOperations, List.mem_append, List.mem_filterMap]
  refine or_congr ?_ ?_
  · simp only [List.mem_filter, beq_iff_eq, and_assoc]
  · simp only [List.mem_ite_nil_right, Bool.and_eq_true, decide_eq_true_iff, beq_iff_eq,
      List.mem_singleton, and_assoc]

theorem rank_ne_zero_of_growthTerm_eq {p : Program} (hgrows : p.complexity.time ≠ "O(1)") {t : Cost}
    (ht : t.IsTime) (h : t.growthTerm = p.time.growthTerm) : t.rank ≠ 0 := by
  intro hrank
  refine hgrows ?_
  rw [time_complexity, ← h, ht.eq_one hrank]
  rfl

/-- What the time of a growing program is written as is named. -/
theorem dominantOperations_ne_nil {p : Program} (hgrows : p.complexity.time ≠ "O(1)")
    (h : p.OwnTime) : p.complexity.dominantOperations ≠ [] := by
  rcases h with ⟨f, hf, htime⟩ | htime
  · have hterm : f.time.growthTerm = p.time.growthTerm := by
      rwa [Function.complexity_time, time_complexity, bigO_text_inj] at htime
    obtain ⟨op, hop⟩ := Option.isSome_iff_exists.mp
      (Function.isSome_dominantOperation
        (rank_ne_zero_of_growthTerm_eq hgrows (isTime_function f) hterm))
    exact List.ne_nil_of_mem (mem_dominantOperations.mpr (.inl ⟨f, hf, htime, hop⟩))
  · have hterm : p.topLevel.time.growthTerm = p.time.growthTerm := by
      rwa [p.topLevel_isTime.bigO_eq, time_complexity, bigO_text_inj] at htime
    have hdepth := Block.loopDepth_pos
      (rank_ne_zero_of_growthTerm_eq hgrows p.topLevel_isTime hterm)
    exact List.ne_nil_of_mem (mem_dominantOperations.mpr (.inr ⟨hdepth, htime, rfl⟩))

/-- Each dominant operation names a function whose time is written as that of the program, or the
loops at the top where theirs is. There is such a part exactly if no two shapes of the greatest rank
tie, and then a program whose time grows has a dominant operation. -/
theorem time_attributed (p : Program) :
    (∀ op ∈ p.complexity.dominantOperations,
      (∃ f ∈ p.functions, f.complexity.time = p.complexity.time ∧ f.dominantOperation? = some op ∧
        ∃ before after, op = before ++ f.name ++ after) ∨
      p.topLevel.time.bigO = p.complexity.time ∧
        op = s!"module-level loops (depth {p.topLevel.loopDepth})") ∧
    ((∃ f ∈ p.functions, f.complexity.time = p.complexity.time) ∨
      p.topLevel.time.bigO = p.complexity.time ↔ ¬ p.Tied) ∧
    (p.complexity.time ≠ "O(1)" → ¬ p.Tied → p.complexity.dominantOperations ≠ []) := by
  refine ⟨fun op hop => ?_, p.ownTime_iff, fun hgrows htied => ?_⟩
  · rcases mem_dominantOperations.mp hop with ⟨f, hf, htime, hsome⟩ | ⟨-, htime, hop⟩
    · exact .inl ⟨f, hf, htime, hsome, Function.name_in_dominantOperation hsome⟩
    · exact .inr ⟨htime, hop⟩
  · exact dominantOperations_ne_nil hgrows (p.ownTime_iff.mpr htied)

/-- A halving loop in a function and a loop over the input at the top do not tie, and the loop at
the top is named. -/
theorem time_attributed_searching :
    searching.complexity.time ≠ "O(1)" ∧ ¬ searching.Tied ∧
    "module-level loops (depth 1)" ∈ searching.complexity.dominantOperations ∧
    searching.topLevel.time.bigO = searching.complexity.time ∧
    searching.complexity.dominantOperations ≠ [] := by
  obtain ⟨hnamed, hown, hsome⟩ := time_attributed searching
  have hgrows : searching.complexity.time ≠ "O(1)" := by decide +kernel
  have htied : ¬ searching.Tied := by decide +kernel
  have hmem : "module-level loops (depth 1)" ∈ searching.complexity.dominantOperations := by
    decide +kernel
  have hother : ∀ f ∈ searching.functions, f.complexity.time ≠ searching.complexity.time := by
    decide +kernel
  refine ⟨hgrows, htied, hmem, ?_, hsome hgrows htied⟩
  rcases hnamed _ hmem with ⟨f, hf, htime, -⟩ | ⟨htime, -⟩
  · exact absurd htime (hother f hf)
  · exact htime

/-- A loop over the input in one function and ten halving loops in another tie: the program is
written with both, no part of it is written so, and nothing is named. -/
theorem time_unattributed :
    (ofBodies [.nestedLoops 1 0, .nestedLoops 0 10]).complexity.time ≠ "O(1)" ∧
    (∀ f ∈ (ofBodies [.nestedLoops 1 0, .nestedLoops 0 10]).functions, f.complexity.time ≠
      (ofBodies [.nestedLoops 1 0, .nestedLoops 0 10]).complexity.time) ∧
    (ofBodies [.nestedLoops 1 0, .nestedLoops 0 10]).topLevel.time.bigO ≠
      (ofBodies [.nestedLoops 1 0, .nestedLoops 0 10]).complexity.time ∧
    (ofBodies [.nestedLoops 1 0, .nestedLoops 0 10]).complexity.dominantOperations = [] := by
  decide +kernel

end Program

end CodeProfile
