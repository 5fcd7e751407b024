import CodeProfile.Proofs.Lowering.Visits

/-!
# Statements and the places they come from

The statements of a block, at any depth, are those of the places that
the block owns (`statements_perm`), and the functions are those of the
visited function places (`functions_perm`). Both hold up to order:
lowering puts what comes before a statement in front of it, a walk puts
what stands inside behind it.

A statement is compared with its place through its `entry`, the id of
the place and the label of the statement. The label leaves out what a
later pass or the surrounding loops decide, so marking recursive calls
does not change an entry.
-/

namespace CodeProfile

/-! ## Walking through statements -/

/-- What a statement is, apart from where it stands and what it holds. -/
inductive StatementLabel where
  | loop (bounds : LoopBounds)
  | conditional
  | call (callee : String)
  | allocation
  | simple (kind : SimpleStatement)
  deriving Repr

namespace Statement

def label : Statement → StatementLabel
  | loop _ bounds _ => .loop bounds
  | conditional _ _ => .conditional
  | call _ callee _ => .call callee
  | allocation _ _ => .allocation
  | simple _ kind => .simple kind

/-- The id of the place that a statement comes from, and its label. -/
def entry (s : Statement) : Nat × StatementLabel := (s.origin.node, s.label)

theorem sizeOf_lt_of_mem_inner {s i : Statement} (h : i ∈ s.inner) : sizeOf i < sizeOf s := by
  cases s with
  | loop o b body =>
      have := List.sizeOf_lt_of_mem h
      simp only [inner, loop.sizeOf_spec] at *
      omega
  | conditional o branches =>
      obtain ⟨branch, hbranch, hi⟩ := List.mem_flatten.mp h
      have h1 := List.sizeOf_lt_of_mem hi
      have h2 := List.sizeOf_lt_of_mem hbranch
      simp only [conditional.sizeOf_spec]
      omega
  | call o callee r => cases h
  | allocation o d => cases h
  | simple o kind => cases h

/-- Induction from the inside out: a property of every statement, given
that a statement has it as soon as those right inside do. -/
theorem inner_induction {motive : Statement → Prop}
    (step : ∀ s, (∀ i ∈ s.inner, motive i) → motive s) (s : Statement) : motive s :=
  step s fun i _hi => inner_induction step i
termination_by sizeOf s
decreasing_by exact sizeOf_lt_of_mem_inner _hi

theorem walkAll_eq (ss : List Statement) : walkAll ss = ss.flatMap walk := by
  induction ss with
  | nil => rfl
  | cons s ss ih => rw [walkAll, ih, List.flatMap_cons]

theorem walkBranches_eq (branches : List (List Statement)) :
    walkBranches branches = walkAll branches.flatten := by
  induction branches with
  | nil => rfl
  | cons b bs ih =>
      rw [walkBranches, ih, List.flatten_cons, walkAll_eq (b ++ _), List.flatMap_append,
        ← walkAll_eq, ← walkAll_eq]

theorem walkAll_append (ss ts : List Statement) :
    walkAll (ss ++ ts) = walkAll ss ++ walkAll ts := by
  simp only [walkAll_eq, List.flatMap_append]

theorem walkAll_flatMap {α : Type} (xs : List α) (f : α → List Statement) :
    walkAll (xs.flatMap f) = xs.flatMap fun x => walkAll (f x) := by
  simp only [walkAll_eq, List.flatMap_assoc]

theorem walk_eq (s : Statement) : walk s = s :: walkAll s.inner := by
  cases s with
  | loop o b body => rfl
  | conditional o branches => rw [walk, walkBranches_eq, inner]
  | call o callee r => rfl
  | allocation o d => rfl
  | simple o kind => rfl

/-- A change of statements that goes inside changes a walk one by one. -/
theorem walkAll_map_of_inner {g : Statement → Statement}
    (hg : ∀ s, (g s).inner = s.inner.map g) (ss : List Statement) :
    walkAll (ss.map g) = (walkAll ss).map g := by
  have hwalk (s : Statement) : walk (g s) = (walk s).map g := by
    induction s using inner_induction with
    | step s ih =>
        rw [walk_eq, walk_eq, hg, walkAll_eq, walkAll_eq, List.map_cons, List.flatMap_map,
          List.map_flatMap, List.flatMap_congr ih]
  rw [walkAll_eq, walkAll_eq, List.flatMap_map, List.map_flatMap]
  exact List.flatMap_congr fun s _ => hwalk s

/-! ### Marking recursive calls -/

theorem markRecursiveAll_eq (name : String) (ss : List Statement) :
    markRecursiveAll name ss = ss.map (markRecursive name) := by
  induction ss with
  | nil => rfl
  | cons s ss ih => rw [markRecursiveAll, ih, List.map_cons]

theorem markRecursiveBranches_eq (name : String) (branches : List (List Statement)) :
    markRecursiveBranches name branches = branches.map (List.map (markRecursive name)) := by
  induction branches with
  | nil => rfl
  | cons b bs ih => rw [markRecursiveBranches, ih, markRecursiveAll_eq, List.map_cons]

theorem inner_markRecursive (name : String) (s : Statement) :
    (markRecursive name s).inner = s.inner.map (markRecursive name) := by
  cases s with
  | loop o b body => exact markRecursiveAll_eq name body
  | conditional o branches =>
      rw [markRecursive, inner, markRecursiveBranches_eq, inner, List.map_flatten]
  | call o callee r => rfl
  | allocation o d => rfl
  | simple o kind => rfl

theorem entry_markRecursive (name : String) (s : Statement) :
    (markRecursive name s).entry = s.entry := by
  cases s <;> rfl

theorem walkAll_markRecursiveAll (name : String) (ss : List Statement) :
    walkAll (markRecursiveAll name ss) = (walkAll ss).map (markRecursive name) := by
  rw [markRecursiveAll_eq]
  exact walkAll_map_of_inner (inner_markRecursive name) ss

end Statement

/-! ## Entries of places -/

namespace StatementHead

def label : StatementHead → StatementLabel
  | loop bounds => .loop bounds
  | conditional => .conditional
  | call callee => .call callee
  | allocation _ => .allocation
  | simple kind => .simple kind

theorem entry_statement (head : StatementHead) (o : Origin) (inInput : Bool)
    (blocks : List (List Statement)) :
    (head.statement o inInput blocks).entry = (o.node, head.label) := by
  cases head <;> rfl

theorem origin_statement (head : StatementHead) (o : Origin) (inInput : Bool)
    (blocks : List (List Statement)) : (head.statement o inInput blocks).origin = o := by
  cases head <;> rfl

end StatementHead

/-- The entry of the statement that a place becomes, if it becomes one. -/
def Reading.entryAt (r : Reading) (id : Nat) : Option (Nat × StatementLabel) :=
  match r with
  | .statement head _ _ => some (id, head.label)
  | _ => none

namespace Adapter

def entryAt (a : Adapter) (p : Place) : Option (Nat × StatementLabel) := (a.reading p).entryAt p.id

/-! ## Equations of lowering -/

theorem flatten_flatMap {α β : Type} (ls : List (List α)) (f : α → List β) :
    ls.flatten.flatMap f = ls.flatMap fun l => l.flatMap f := by
  induction ls with
  | nil => rfl
  | cons l ls ih => rw [List.flatten_cons, List.flatMap_append, ih, List.flatMap_cons]

/-- Only loops and conditionals hold blocks, so that nothing is lost when
a reading becomes a statement. -/
theorem inner_statement {a : Adapter} {p : Place} {head : StatementHead} {before : List Place}
    {inside : List (List Place)} (h : a.reading p = .statement head before inside) (o : Origin)
    (inInput : Bool) (f : Place → List Statement) :
    (head.statement o inInput (inside.map (·.flatMap f))).inner = inside.flatten.flatMap f := by
  have hinner : (head.statement o inInput (inside.map (·.flatMap f))).inner
      = (inside.map (·.flatMap f)).flatten := by
    have hreads := a.reads p
    generalize a.classify p = c, a.reading p = r at hreads h
    subst h
    cases hreads <;> rfl
  rw [hinner, flatten_flatMap, List.flatMap_def]

theorem lower_through {a : Adapter} {p : Place} {parts : List Place}
    (h : a.reading p = .through parts) (inInput : Bool) :
    a.lower inInput p = .concat (parts.map (a.lower inInput)) := by
  rw [lower]
  split
  next hr =>
    cases h.symm.trans hr
    simp
  next hr => cases h.symm.trans hr
  next hr => cases h.symm.trans hr

/-- What lowering makes of a function place. -/
def functionAt (a : Adapter) (p : Place) : Function :=
  (Lowered.concat ((a.reading p).bodyParts.map (a.lower false))).toFunction a p

theorem lower_function {a : Adapter} {p : Place} {body : List Place}
    (h : a.reading p = .function body) (inInput : Bool) :
    a.lower inInput p
      = ⟨[], body.flatMap (fun q => (a.lower false q).functions) ++ [a.functionAt p]⟩ := by
  have hat : a.functionAt p = (Lowered.concat (body.map (a.lower false))).toFunction a p := by
    rw [functionAt, h, Reading.bodyParts]
  rw [hat, lower]
  split
  next hr => cases h.symm.trans hr
  next hr =>
    cases h.symm.trans hr
    simp [Lowered.concat, List.flatMap_map]
  next hr => cases h.symm.trans hr

theorem lower_statement {a : Adapter} {p : Place} {head : StatementHead} {before : List Place}
    {inside : List (List Place)} (h : a.reading p = .statement head before inside)
    (inInput : Bool) :
    a.lower inInput p
      = ⟨before.flatMap (fun q => (a.lower inInput q).statements)
          ++ [head.statement ⟨p.id, p.startLine⟩ inInput
            (inside.map (·.flatMap fun q => (a.lower (inInput || head.opensInput) q).statements))],
        before.flatMap (fun q => (a.lower inInput q).functions)
          ++ inside.flatten.flatMap fun q =>
            (a.lower (inInput || head.opensInput) q).functions⟩ := by
  rw [lower]
  split
  next hr => cases h.symm.trans hr
  next hr => cases h.symm.trans hr
  next hr =>
    cases h.symm.trans hr
    simp [Lowered.concat, List.flatMap_map, Function.comp_def, flatten_flatMap]

/-! ## Statements of a block and functions of a tree -/

theorem isFunction_of_function {a : Adapter} {p : Place} {body : List Place}
    (h : a.reading p = .function body) : a.isFunction p = true := by
  simp [isFunction, h, Reading.isFunction]

theorem isFunction_of_through {a : Adapter} {p : Place} {parts : List Place}
    (h : a.reading p = .through parts) : a.isFunction p = false := by
  simp [isFunction, h, Reading.isFunction]

theorem isFunction_of_statement {a : Adapter} {p : Place} {head : StatementHead}
    {before : List Place} {inside : List (List Place)}
    (h : a.reading p = .statement head before inside) : a.isFunction p = false := by
  simp [isFunction, h, Reading.isFunction]

theorem entryAt_of_statement {a : Adapter} {p : Place} {head : StatementHead}
    {before : List Place} {inside : List (List Place)}
    (h : a.reading p = .statement head before inside) : a.entryAt p = some (p.id, head.label) := by
  simp [entryAt, h, Reading.entryAt]

/-- The statements of a block, at any depth, are those of the places
that the block owns. -/
theorem statements_perm (a : Adapter) (inInput : Bool) (p : Place) :
    ((Statement.walkAll (a.lower inInput p).statements).map Statement.entry).Perm
      ((a.owned p).filterMap a.entryAt) := by
  induction p using a.reading_induction generalizing inInput with
  | step p ih =>
      have hparts (b : Bool) (qs : List Place) (hqs : qs ⊆ (a.reading p).places) :
          ((Statement.walkAll (qs.flatMap fun q => (a.lower b q).statements)).map
            Statement.entry).Perm ((qs.flatMap a.owned).filterMap a.entryAt) := by
        rw [Statement.walkAll_flatMap, List.map_flatMap, List.filterMap_flatMap]
        exact List.Perm.flatMap_left _ fun q hq => ih q (hqs hq) b
      cases hr : a.reading p with
      | through parts =>
          have he : a.entryAt p = none := by simp [entryAt, hr, Reading.entryAt]
          rw [owned_of_not_function (isFunction_of_through hr), List.filterMap_cons_none he,
            lower_through hr, hr, Lowered.concat, List.flatMap_map]
          exact hparts inInput parts (by rw [hr]; exact List.Subset.refl _)
      | function body =>
          rw [owned_of_function (isFunction_of_function hr), lower_function hr]
          exact List.Perm.refl _
      | statement head before inside =>
          have hfirst := hparts inInput before (by rw [hr]; exact List.subset_append_left _ _)
          have hinside := hparts (inInput || head.opensInput) inside.flatten
            (by rw [hr]; exact List.subset_append_right _ _)
          rw [owned_of_not_function (isFunction_of_statement hr),
            List.filterMap_cons_some (entryAt_of_statement hr), lower_statement hr, hr,
            Reading.places, List.flatMap_append, List.filterMap_append, Statement.walkAll_append,
            List.map_append, Statement.walkAll, Statement.walkAll, List.append_nil,
            Statement.walk_eq, inner_statement hr, List.map_cons,
            StatementHead.entry_statement]
          exact List.perm_middle.trans ((hfirst.append hinside).cons _)

/-- The functions found at and below a place are those of the visited
function places. -/
theorem functions_perm (a : Adapter) (inInput : Bool) (p : Place) :
    (a.lower inInput p).functions.Perm (((a.visited p).filter a.isFunction).map a.functionAt) := by
  induction p using a.reading_induction generalizing inInput with
  | step p ih =>
      have hparts (b : Bool) (qs : List Place) (hqs : qs ⊆ (a.reading p).places) :
          (qs.flatMap fun q => (a.lower b q).functions).Perm
            (((qs.flatMap a.visited).filter a.isFunction).map a.functionAt) := by
        rw [List.filter_flatMap, List.map_flatMap]
        exact List.Perm.flatMap_left _ fun q hq => ih q (hqs hq) b
      rw [visited_eq]
      cases hr : a.reading p with
      | through parts =>
          rw [List.filter_cons_of_neg (by simp [isFunction_of_through hr]), lower_through hr]
          simp only [Lowered.concat, List.flatMap_map]
          exact hparts inInput parts (by rw [hr]; exact List.Subset.refl _)
      | function body =>
          have hbody := hparts false body (by rw [hr]; exact List.Subset.refl _)
          rw [List.filter_cons_of_pos (isFunction_of_function hr), List.map_cons,
            lower_function hr]
          exact List.perm_append_comm.trans (hbody.cons _)
      | statement head before inside =>
          have hfirst := hparts inInput before (by rw [hr]; exact List.subset_append_left _ _)
          have hinside := hparts (inInput || head.opensInput) inside.flatten
            (by rw [hr]; exact List.subset_append_right _ _)
          rw [List.filter_cons_of_neg (by simp [isFunction_of_statement hr]),
            lower_statement hr, Reading.places,
            List.flatMap_append, List.filter_append, List.map_append]
          exact hfirst.append hinside

end Adapter

end CodeProfile
