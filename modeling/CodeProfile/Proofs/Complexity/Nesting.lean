import CodeProfile.Complexity.Levels
import Mathlib.Data.List.Basic

/-!
# Levels of nested loops

`Statement.loopsAtAll` lists the loops of a block at one level of nesting,
where conditionals do not count. The levels that the time of a block is
folded from are those: there are as many as loops are nested
(`length_levelsAll`), and each grows as its loosest loop does
(`getElem?_levelsAll`). So the levels of a growth can be counted without
folding anything (`count_linear_levelsAll`, `count_logarithmic_levelsAll`).
-/

namespace CodeProfile

namespace LoopGrowth

/-- The loosest of several growths. -/
def loosest : List LoopGrowth → Option LoopGrowth
  | [] => none
  | g :: gs => Option.merge max (some g) (loosest gs)

theorem max_assoc (a b c : LoopGrowth) : (a.max b).max c = a.max (b.max c) := by
  cases a <;> cases b <;> cases c <;> rfl

theorem merge_none_left (a : Option LoopGrowth) : Option.merge max none a = a := by
  cases a <;> rfl

theorem merge_assoc (a b c : Option LoopGrowth) :
    Option.merge max (Option.merge max a b) c = Option.merge max a (Option.merge max b c) := by
  cases a <;> cases b <;> cases c <;> simp [Option.merge, max_assoc]

theorem loosest_append (gs hs : List LoopGrowth) :
    loosest (gs ++ hs) = Option.merge max (loosest gs) (loosest hs) := by
  induction gs with
  | nil => exact (merge_none_left _).symm
  | cons g gs ih => rw [List.cons_append, loosest, loosest, ih, merge_assoc]

theorem loosest_eq_linear_iff {gs : List LoopGrowth} :
    loosest gs = some linear ↔ linear ∈ gs := by
  induction gs with
  | nil => simp [loosest]
  | cons g gs ih =>
      rw [loosest, List.mem_cons, ← ih]
      cases g <;> rcases loosest gs with _ | _ | _ | _ <;> simp [Option.merge, max]

theorem loosest_eq_logarithmic_iff {gs : List LoopGrowth} :
    loosest gs = some logarithmic ↔ linear ∉ gs ∧ logarithmic ∈ gs := by
  induction gs with
  | nil => simp [loosest]
  | cons g gs ih =>
      rw [loosest, List.mem_cons, List.mem_cons, not_or]
      cases g with
      | linear => rcases loosest gs with _ | _ | _ | _ <;> simp [Option.merge, max]
      | logarithmic =>
          rw [← loosest_eq_linear_iff]
          rcases loosest gs with _ | _ | _ | _ <;> simp [Option.merge, max]
      | constant =>
          simp only [reduceCtorEq, not_false_iff, true_and, false_or, ← ih]
          rcases loosest gs with _ | _ | _ | _ <;> simp [Option.merge, max]

end LoopGrowth

theorem getElem?_mergeLevels (as bs : List LoopGrowth) (level : Nat) :
    (mergeLevels as bs)[level]? = Option.merge LoopGrowth.max as[level]? bs[level]? := by
  induction as, bs using mergeLevels.induct generalizing level with
  | case1 bs => simp [mergeLevels]
  | case2 as => cases as <;> simp [mergeLevels]
  | case3 a as b bs ih =>
      cases level with
      | zero => rfl
      | succ level =>
          rw [mergeLevels]
          exact ih level

theorem length_mergeLevels (as bs : List LoopGrowth) :
    (mergeLevels as bs).length = max as.length bs.length := by
  induction as, bs using mergeLevels.induct with
  | case1 bs => simp [mergeLevels]
  | case2 as => cases as <;> simp [mergeLevels]
  | case3 a as b bs ih => rw [mergeLevels, List.length_cons, ih, List.length_cons, List.length_cons,
      Nat.add_max_add_right]

namespace Statement

mutual

/-- How the loops at a level of nesting grow. A conditional is no level of its own. -/
def loopsAt : Statement → Nat → List LoopGrowth
  | loop _ bounds _, 0 => [bounds.growth]
  | loop _ _ body, level + 1 => loopsAtAll body level
  | conditional _ branches, level => loopsAtBranches branches level
  | _, _ => []

/-- `loopsAt` for several statements. -/
def loopsAtAll : List Statement → Nat → List LoopGrowth
  | [], _ => []
  | s :: ss, level => loopsAt s level ++ loopsAtAll ss level

/-- `loopsAt` for several branches. -/
def loopsAtBranches : List (List Statement) → Nat → List LoopGrowth
  | [], _ => []
  | b :: bs, level => loopsAtAll b level ++ loopsAtBranches bs level

end

mutual

theorem getElem?_levels : ∀ (s : Statement) (level : Nat),
    (levels s)[level]? = LoopGrowth.loosest (loopsAt s level)
  | loop _ bounds body, 0 => rfl
  | loop _ bounds body, level + 1 => by
      rw [levels, List.getElem?_cons_succ, loopsAt]
      exact getElem?_levelsAll body level
  | conditional _ branches, level => by
      rw [levels, loopsAt]
      exact getElem?_levelsBranches branches level
  | call .., _ => rfl
  | allocation .., _ => rfl
  | simple .., _ => rfl

/-- A level grows as the loosest loop there. -/
theorem getElem?_levelsAll : ∀ (ss : List Statement) (level : Nat),
    (levelsAll ss)[level]? = LoopGrowth.loosest (loopsAtAll ss level)
  | [], _ => rfl
  | s :: ss, level => by
      rw [levelsAll, loopsAtAll, getElem?_mergeLevels, LoopGrowth.loosest_append,
        getElem?_levels s level, getElem?_levelsAll ss level]

theorem getElem?_levelsBranches : ∀ (branches : List (List Statement)) (level : Nat),
    (levelsBranches branches)[level]? = LoopGrowth.loosest (loopsAtBranches branches level)
  | [], _ => rfl
  | b :: bs, level => by
      rw [levelsBranches, loopsAtBranches, getElem?_mergeLevels, LoopGrowth.loosest_append,
        getElem?_levelsAll b level, getElem?_levelsBranches bs level]

end

mutual

theorem length_levels : ∀ s : Statement, (levels s).length = loopDepth s
  | loop _ _ body => by rw [levels, List.length_cons, length_levelsAll body, loopDepth]
  | conditional _ branches => by rw [levels, length_levelsBranches branches, loopDepth]
  | call .. => rfl
  | allocation .. => rfl
  | simple .. => rfl

/-- There are as many levels as loops are nested. -/
theorem length_levelsAll : ∀ ss : List Statement, (levelsAll ss).length = loopDepthAll ss
  | [] => rfl
  | s :: ss => by
      rw [levelsAll, length_mergeLevels, length_levels s, length_levelsAll ss, loopDepthAll]

theorem length_levelsBranches : ∀ branches : List (List Statement),
    (levelsBranches branches).length = loopDepthBranches branches
  | [] => rfl
  | b :: bs => by
      rw [levelsBranches, length_mergeLevels, length_levelsAll b, length_levelsBranches bs,
        loopDepthBranches]

end

/-- How many levels have a linear loop. -/
def linearLevels (ss : List Statement) : Nat :=
  (List.range (loopDepthAll ss)).countP fun level => .linear ∈ loopsAtAll ss level

/-- How many levels have a logarithmic loop and no linear one. -/
def logarithmicLevels (ss : List Statement) : Nat :=
  (List.range (loopDepthAll ss)).countP fun level =>
    .linear ∉ loopsAtAll ss level ∧ .logarithmic ∈ loopsAtAll ss level

theorem count_eq_countP_range {α : Type} [DecidableEq α] (xs : List α) (x : α) :
    xs.count x = (List.range xs.length).countP fun i => xs[i]? = some x := by
  induction xs with
  | nil => rfl
  | cons y ys ih =>
      rw [List.length_cons, List.range_succ_eq_map, List.countP_cons, List.countP_map,
        List.count_cons, ih]
      by_cases h : y = x <;> simp [h, Function.comp_def]

theorem count_linear_levelsAll (ss : List Statement) :
    (levelsAll ss).count .linear = linearLevels ss := by
  rw [count_eq_countP_range, length_levelsAll, linearLevels]
  simp only [getElem?_levelsAll, LoopGrowth.loosest_eq_linear_iff]

theorem count_logarithmic_levelsAll (ss : List Statement) :
    (levelsAll ss).count .logarithmic = logarithmicLevels ss := by
  rw [count_eq_countP_range, length_levelsAll, logarithmicLevels]
  simp only [getElem?_levelsAll, LoopGrowth.loosest_eq_logarithmic_iff]

end Statement

end CodeProfile
