import CodeProfile.Proofs.Complexity.Levelwise
import CodeProfile.Proofs.Lowering.Enclosing

/-!
# Advice on loops

Two searches go through a block with a flag that tells of the loops
around, and stop at the first statement that calls for advice. Each of
them finds the first such statement of `Block.enclosed`, where every
statement stands with the bounds of all loops around it
(`InTurn.all_eq_first`).

The loops around a statement, from the outermost inwards, do not grow
faster than the levels that the time of the block is folded from
(`levelsBelow_of_mem_enclosed`). So where one linear loop is inside
another, two of the levels are linear, and the time has a degree of two or
more. The headline is `loop_advice_exact`.
-/

namespace CodeProfile

/-! ## Searches for a first statement -/

namespace Statement

/-- A search that stops at a statement with the property, and else goes on
inside, finds the first one. What it knows of the loops around, `flag`, is
read off their bounds. -/
theorem InTurn.all_eq_first {κ : Type} {one : κ → Statement → Option Nat}
    {all : κ → List Statement → Option Nat} {branches : κ → List (List Statement) → Option Nat}
    (h : InTurn Option.or none one all branches) {calls : List LoopBounds × Statement → Bool}
    {flag : List LoopBounds → κ}
    (hone : ∀ around s, one (flag around) s =
      if calls (around, s) then some s.origin.line
      else all (flag (s.ownBounds ++ around)) s.inner)
    (around : List LoopBounds) (ss : List Statement) :
    all (flag around) ss = ((enclosedAll around ss).find? calls).map (·.2.origin.line) := by
  have hall {around : List LoopBounds} {ss : List Statement}
      (hss : ∀ s ∈ ss, one (flag around) s =
        ((enclosed around s).find? calls).map (·.2.origin.line)) :
      all (flag around) ss = ((enclosedAll around ss).find? calls).map (·.2.origin.line) := by
    induction ss with
    | nil => exact h.all_nil _
    | cons s ss ih =>
        obtain ⟨hs, hss⟩ := List.forall_mem_cons.mp hss
        rw [h.all_cons, hs, ih hss, enclosedAll, List.find?_append, Option.map_or]
  have hstatement (s : Statement) (around : List LoopBounds) : one (flag around) s =
      ((enclosed around s).find? calls).map (·.2.origin.line) := by
    induction s using inner_induction generalizing around with
    | step s ih =>
        rw [hone, enclosed_eq]
        by_cases hcalls : calls (around, s) = true
        · rw [if_pos hcalls, List.find?_cons_of_pos hcalls]
          rfl
        · rw [if_neg hcalls, List.find?_cons_of_neg hcalls]
          exact hall fun i hi => ih i hi _
  exact hall fun s _ => hstatement s around

/-- Whether one of the bounds is linear. -/
def holdsLinear (bounds : List LoopBounds) : Bool := bounds.any (·.growth == .linear)

/-- Whether the statement is a linear loop inside another one. -/
def isNestedLinear (e : List LoopBounds × Statement) : Bool :=
  holdsLinear e.2.ownBounds && holdsLinear e.1

/-- Whether the statement is an allocation inside a loop. -/
def isLoopedAllocation (e : List LoopBounds × Statement) : Bool :=
  e.2 matches allocation _ _ && !e.1.isEmpty

theorem nestedLinearLoop?_eq (around : List LoopBounds) (s : Statement) :
    nestedLinearLoop? (holdsLinear around) s =
      if isNestedLinear (around, s) then some s.origin.line
      else nestedLinearLoopAll? (holdsLinear (s.ownBounds ++ around)) s.inner := by
  cases s with
  | loop o bounds body =>
      simp [nestedLinearLoop?, isNestedLinear, holdsLinear, ownBounds, origin, inner, Bool.or_comm]
  | conditional o branches =>
      exact nestedLinearLoop?_inTurn.branches_eq (holdsLinear around) branches
  | call o callee r => rfl
  | allocation o sized => rfl
  | simple o kind => rfl

theorem allocationInLoop?_eq (around : List LoopBounds) (s : Statement) :
    allocationInLoop? (!around.isEmpty) s =
      if isLoopedAllocation (around, s) then some s.origin.line
      else allocationInLoopAll? (!(s.ownBounds ++ around).isEmpty) s.inner := by
  cases s with
  | loop o bounds body => rfl
  | conditional o branches =>
      exact allocationInLoop?_inTurn.branches_eq (!around.isEmpty) branches
  | call o callee r => rfl
  | allocation o sized => rfl
  | simple o kind => rfl

/-! ## Levels around a statement -/

theorem levels_eq (s : Statement) :
    levels s = s.ownBounds.map LoopBounds.growth ++ levelsAll s.inner := by
  cases s with
  | loop o bounds body => rfl
  | conditional o branches => exact levelsBranches_eq branches
  | call o callee r => rfl
  | allocation o sized => rfl
  | simple o kind => rfl

end Statement

namespace LevelsBelow

variable {as bs : List LoopGrowth}

theorem append (gs : List LoopGrowth) (h : LevelsBelow as bs) :
    LevelsBelow (gs ++ as) (gs ++ bs) := by
  induction gs with
  | nil => exact h
  | cons g gs ih => exact ih.cons g

theorem count_linear_le (h : LevelsBelow as bs) : as.count .linear ≤ bs.count .linear := by
  induction as, bs using mergeLevels.induct with
  | case1 bs => exact Nat.zero_le _
  | case2 as hne =>
      cases as with
      | nil => exact absurd rfl hne
      | cons a as => cases h
  | case3 a as b bs ih =>
      rw [LevelsBelow, mergeLevels, List.cons.injEq] at h
      obtain ⟨hmax, hrest⟩ := h
      have hcount := ih hrest
      rw [List.count_cons, List.count_cons, ← hmax]
      cases a <;> cases b <;> simp [LoopGrowth.max] at hmax ⊢ <;> omega

end LevelsBelow

namespace Statement

/-- The loops around a statement, the outermost first, and the statement
itself if it is a loop, do not grow faster than the levels there. -/
theorem levelsBelow_of_mem_enclosed {around : List LoopBounds} {ss : List Statement}
    {e : List LoopBounds × Statement} (h : e ∈ enclosedAll around ss) :
    ∃ added, e.1 = added ++ around ∧
      LevelsBelow ((added.reverse ++ e.2.ownBounds).map LoopBounds.growth) (levelsAll ss) := by
  have hone (s : Statement) (around : List LoopBounds) (h : e ∈ enclosed around s) :
      ∃ added, e.1 = added ++ around ∧
        LevelsBelow ((added.reverse ++ e.2.ownBounds).map LoopBounds.growth) (levels s) := by
    induction s using inner_induction generalizing around with
    | step s ih =>
        rw [enclosed_eq, List.mem_cons, enclosedAll_eq, List.mem_flatMap] at h
        rw [levels_eq]
        rcases h with rfl | ⟨i, hi, he⟩
        · refine ⟨[], rfl, ?_⟩
          have hnil := (LevelsBelow.nil (levelsAll s.inner)).append
            (s.ownBounds.map LoopBounds.growth)
          rwa [List.append_nil] at hnil
        · obtain ⟨added, haround, hbelow⟩ := ih i hi _ he
          have hown : s.ownBounds.reverse = s.ownBounds := by cases s <;> rfl
          refine ⟨added ++ s.ownBounds, by rw [haround, List.append_assoc], ?_⟩
          rw [List.reverse_append, hown, List.append_assoc, List.map_append]
          exact (hbelow.trans (levels_below_levelsAll hi)).append _
  rw [enclosedAll_eq, List.mem_flatMap] at h
  obtain ⟨s, hs, he⟩ := h
  obtain ⟨added, haround, hbelow⟩ := hone s around he
  exact ⟨added, haround, hbelow.trans (levels_below_levelsAll hs)⟩

theorem holdsLinear_iff {bounds : List LoopBounds} :
    holdsLinear bounds = true ↔ ∃ b ∈ bounds, b.growth = .linear := by
  simp only [holdsLinear, List.any_eq_true, beq_iff_eq]

theorem count_linear_pos {bounds : List LoopBounds} (h : holdsLinear bounds = true) :
    0 < (bounds.map LoopBounds.growth).count .linear := by
  obtain ⟨b, hb, hlinear⟩ := holdsLinear_iff.mp h
  exact List.count_pos_iff.mpr (hlinear ▸ List.mem_map_of_mem hb)

end Statement

/-- Where a linear loop is inside another one, two levels are linear. -/
theorem Block.two_le_linearLevels {b : Block} {e : List LoopBounds × Statement}
    (he : e ∈ b.enclosed) (hnested : Statement.isNestedLinear e = true) : 2 ≤ b.linearLevels := by
  obtain ⟨hown, haround⟩ := Bool.and_eq_true_iff.mp hnested
  obtain ⟨added, hadded, hbelow⟩ := Statement.levelsBelow_of_mem_enclosed he
  rw [List.append_nil] at hadded
  have hcount := hbelow.count_linear_le
  rw [List.map_append, List.count_append, List.map_reverse, List.count_reverse, ← hadded,
    Statement.count_linear_levelsAll] at hcount
  have hpos := Statement.count_linear_pos hown
  have hpos' := Statement.count_linear_pos haround
  rw [linearLevels]
  omega

/-! ## The degree of a time -/

namespace Cost

/-- The degree of a size in a product. -/
def degree (size : String) (c : Cost) : Nat :=
  (((c.factorsOf.filterMap power?).filter (·.1 = size)).map (·.2.toNat)).sum

theorem filterMap_power?_factorsOf_ofFactors {fs : List Cost}
    (h : ∀ f ∈ fs, f.isProduct = false) :
    (ofFactors fs).factorsOf.filterMap power? = fs.filterMap power? := by
  match fs with
  | [] => rfl
  | [f] => rw [ofFactors, factorsOf_of_not_isProduct (h f (List.mem_singleton_self f))]
  | f :: g :: fs => rfl

theorem degree_monomial (a b : Nat) : (monomial a b).degree inputSize = min a maxWord32 := by
  have hsettled := settled_monomialParts a b
  rw [degree, monomial, filterMap_power?_factorsOf_ofFactors fun f hf =>
    isProduct_of_mem_factors hsettled hf, filterMap_power?_factors hsettled, monomialParts]
  by_cases ha : a = 0
  · simp [ha]
  · simp [ha, toNat_degreeWord]

end Cost

/-! ## Advice -/

namespace Statement

/-- The statement is a linear loop with a linear loop among those around it. -/
def IsNestedLinear (e : List LoopBounds × Statement) : Prop :=
  (∃ o bounds body, e.2 = loop o bounds body ∧ bounds.growth = .linear) ∧
    ∃ outer ∈ e.1, outer.growth = .linear

/-- The statement is an allocation with a loop around it. -/
def IsLoopedAllocation (e : List LoopBounds × Statement) : Prop :=
  (∃ o sized, e.2 = allocation o sized) ∧ e.1 ≠ []

theorem isNestedLinear_iff (e : List LoopBounds × Statement) :
    isNestedLinear e = true ↔ IsNestedLinear e := by
  obtain ⟨around, s⟩ := e
  rw [isNestedLinear, Bool.and_eq_true, holdsLinear_iff, holdsLinear_iff, IsNestedLinear]
  refine and_congr_left fun _ => ?_
  cases s <;> simp [ownBounds]

theorem isLoopedAllocation_iff (e : List LoopBounds × Statement) :
    isLoopedAllocation e = true ↔ IsLoopedAllocation e := by
  obtain ⟨around, s⟩ := e
  cases s <;> simp [isLoopedAllocation, IsLoopedAllocation]

end Statement

namespace Block

/-- The line of the first statement that calls for advice. -/
def firstLine? (b : Block) (calls : List LoopBounds × Statement → Bool) : Option Nat :=
  (b.enclosed.find? calls).map (·.2.origin.line)

theorem nestedLinearLoopAll?_eq (b : Block) :
    Statement.nestedLinearLoopAll? false b.statements = b.firstLine? Statement.isNestedLinear :=
  Statement.nestedLinearLoop?_inTurn.all_eq_first Statement.nestedLinearLoop?_eq [] b.statements

theorem allocationInLoopAll?_eq (b : Block) :
    Statement.allocationInLoopAll? false b.statements =
      b.firstLine? Statement.isLoopedAllocation :=
  Statement.allocationInLoop?_inTurn.all_eq_first Statement.allocationInLoop?_eq [] b.statements

end Block

/-- Advice of the kind is given if a statement of the block calls for it,
and at the line of the first that does. -/
structure AdvisedFirst (b : Block) (kind : SuggestionKind)
    (Calls : List LoopBounds × Statement → Prop) (advice : List Suggestion) : Prop where
  told : (∃ s ∈ advice, s.kind = kind) ↔ ∃ e ∈ b.enclosed, Calls e
  first : ∀ s ∈ advice, s.kind = kind → ∃ before e after, b.enclosed = before ++ e :: after ∧
    (∀ d ∈ before, ¬ Calls d) ∧ Calls e ∧ s.line = e.2.origin.line

theorem advisedFirst_of_lines {b : Block} {kind : SuggestionKind}
    {calls : List LoopBounds × Statement → Bool} {Calls : List LoopBounds × Statement → Prop}
    {advice : List Suggestion} (hcalls : ∀ e, calls e = true ↔ Calls e)
    (hlines : (advice.filter (·.kind = kind)).map (·.line) = (b.firstLine? calls).toList) :
    AdvisedFirst b kind Calls advice where
  told := by
    have hadvice : (∃ s ∈ advice, s.kind = kind) ↔ (b.firstLine? calls).toList ≠ [] := by
      rw [← hlines, Ne, List.map_eq_nil_iff, List.filter_eq_nil_iff]
      simp
    rw [hadvice, Block.firstLine?]
    simp [← hcalls]
  first := by
    intro s hs hkind
    have hline : s.line ∈ (b.firstLine? calls).toList := by
      rw [← hlines]
      exact List.mem_map_of_mem (List.mem_filter.mpr ⟨hs, decide_eq_true hkind⟩)
    obtain ⟨e, hfind, hline⟩ := Option.map_eq_some_iff.mp (Option.mem_toList.mp hline)
    obtain ⟨he, before, after, heq, hbefore⟩ := List.find?_eq_some_iff_append.mp hfind
    refine ⟨before, e, after, heq, fun d hd hcall => ?_, (hcalls e).mp he, hline.symm⟩
    have hnot := hbefore d hd
    rw [(hcalls d).mpr hcall] at hnot
    cases hnot

/-- The advice on a block, and what it says of the time of the block. -/
structure LoopAdvice (target : String) (b : Block) (advice : List Suggestion) : Prop where
  hashing : AdvisedFirst b .hashing Statement.IsNestedLinear advice
  hoisting : AdvisedFirst b .hoistAllocation Statement.IsLoopedAllocation advice
  kinds : (advice.map (·.kind)).Nodup
  targets : ∀ s ∈ advice, s.target = target
  degree : (∃ s ∈ advice, s.kind = .hashing) → 2 ≤ b.time.degree Cost.inputSize

theorem AdvisedFirst.two_le_degree {b : Block} {advice : List Suggestion}
    (h : AdvisedFirst b .hashing Statement.IsNestedLinear advice)
    (hadvice : ∃ s ∈ advice, s.kind = .hashing) : 2 ≤ b.time.degree Cost.inputSize := by
  obtain ⟨e, he, hnested⟩ := h.told.mp hadvice
  have hlevels := b.two_le_linearLevels he ((Statement.isNestedLinear_iff e).mpr hnested)
  rw [b.time_eq_monomial, Cost.degree_monomial, maxWord32]
  omega

namespace Suggestion

theorem lines_forLoops (target : String) (b : Block) :
    ((forLoops target b).filter (·.kind = .hashing)).map (·.line) =
        (b.firstLine? Statement.isNestedLinear).toList ∧
      ((forLoops target b).filter (·.kind = .hoistAllocation)).map (·.line) =
        (b.firstLine? Statement.isLoopedAllocation).toList := by
  rw [forLoops, b.nestedLinearLoopAll?_eq, b.allocationInLoopAll?_eq]
  cases b.firstLine? Statement.isNestedLinear <;>
    cases b.firstLine? Statement.isLoopedAllocation <;> exact ⟨rfl, rfl⟩

theorem kinds_forLoops (target : String) (b : Block) :
    ((forLoops target b).map (·.kind)).Sublist [.hashing, .hoistAllocation] := by
  rw [forLoops, List.map_append]
  show List.Sublist _ ([SuggestionKind.hashing] ++ [SuggestionKind.hoistAllocation])
  refine List.Sublist.append ?_ ?_
  · cases Statement.nestedLinearLoopAll? false b.statements <;> simp
  · cases Statement.allocationInLoopAll? false b.statements <;> simp

theorem target_of_mem_forLoops {target : String} {b : Block} {s : Suggestion}
    (h : s ∈ forLoops target b) : s.target = target := by
  rcases List.mem_append.mp h with h | h
  · obtain ⟨line, -, rfl⟩ := List.mem_map.mp h
    rfl
  · obtain ⟨line, -, rfl⟩ := List.mem_map.mp h
    rfl

/-- Advice on a recursion that stands before the advice on loops makes no
difference to it. -/
theorem loopAdvice_append {target : String} {own : List Suggestion} (b : Block)
    (hown : own = [] ∨ ∃ s, own = [s] ∧ s.isOnRecursion = true ∧ s.target = target) :
    LoopAdvice target b (own ++ forLoops target b) := by
  have hkinds : ∀ s ∈ own, s.kind ≠ .hashing ∧ s.kind ≠ .hoistAllocation := by
    rcases hown with rfl | ⟨r, rfl, hr, -⟩
    · simp
    · intro s hs
      rw [List.mem_singleton.mp hs]
      constructor <;> intro hkind <;> simp [isOnRecursion, hkind] at hr
  have hfilter (kind : SuggestionKind) (hkind : ∀ s ∈ own, s.kind ≠ kind) :
      (own ++ forLoops target b).filter (·.kind = kind) =
        (forLoops target b).filter (·.kind = kind) := by
    rw [List.filter_append, List.filter_eq_nil_iff.mpr (by simpa using hkind), List.nil_append]
  obtain ⟨hhashing, hhoisting⟩ := lines_forLoops target b
  rw [← hfilter _ fun s hs => (hkinds s hs).1] at hhashing
  rw [← hfilter _ fun s hs => (hkinds s hs).2] at hhoisting
  have hfirst := advisedFirst_of_lines Statement.isNestedLinear_iff hhashing
  refine ⟨hfirst, advisedFirst_of_lines Statement.isLoopedAllocation_iff hhoisting, ?_, ?_,
    hfirst.two_le_degree⟩
  · have hloops := (kinds_forLoops target b).nodup (by decide)
    rcases hown with rfl | ⟨r, rfl, hr, -⟩
    · exact hloops
    · refine List.nodup_cons.mpr ⟨fun hmem => ?_, hloops⟩
      have hkind := (kinds_forLoops target b).subset hmem
      obtain ⟨hne, hne'⟩ := hkinds r (List.mem_singleton_self r)
      simp [hne, hne'] at hkind
  · intro s hs
    rcases List.mem_append.mp hs with hs | hs
    · rcases hown with rfl | ⟨r, rfl, -, htarget⟩
      · cases hs
      · rw [List.mem_singleton.mp hs, htarget]
    · exact target_of_mem_forLoops hs

theorem target_forRecursion (f : Function) : (forRecursion f).target = f.name := by
  unfold forRecursion
  split <;> rfl

end Suggestion

/-- What a program is advised to do about its loops: of each kind one
piece of advice for each block, where the first statement of its walk
calls for it. -/
theorem loop_advice_exact (p : Program) :
    (∀ f : Function, LoopAdvice f.name f.body (Suggestion.forFunction f)) ∧
      LoopAdvice moduleScope p.topLevel (Suggestion.forLoops moduleScope p.topLevel) ∧
      p.complexity.suggestions =
        p.functions.flatMap Suggestion.forFunction ++
          Suggestion.forLoops moduleScope p.topLevel ∧
      ∀ b : Block, b.enclosed.map Prod.snd = b.walk := by
  refine ⟨fun f => ?_, Suggestion.loopAdvice_append p.topLevel (.inl rfl), rfl,
    fun b => Statement.map_snd_enclosedAll [] b.statements⟩
  refine Suggestion.loopAdvice_append f.body ?_
  cases f.isRecursive with
  | false => exact .inl rfl
  | true =>
      exact .inr ⟨_, rfl, Suggestion.isOnRecursion_forRecursion f, Suggestion.target_forRecursion f⟩

/-- A logarithmic loop and a conditional between two linear loops do not
matter, and the loop that comes first is not the one that is meant. -/
example :
    let scan : Statement := .loop ⟨6, 6⟩ (.symbolic "k") []
    let halving : Statement := .loop ⟨3, 3⟩ (.logarithmic none)
      [.conditional ⟨4, 4⟩ [[.allocation ⟨5, 5⟩ true], [scan]]]
    (Suggestion.forLoops "f" (.ofStatements
      [.loop ⟨1, 1⟩ (.input "xs") [], .loop ⟨2, 2⟩ (.input "xs") [halving]])).map
        (fun s => (s.kind, s.line)) = [(.hashing, 6), (.hoistAllocation, 5)] := rfl

end CodeProfile
