import CodeProfile.Proofs.Lowering.Statements

/-!
# The blocks of a program

What `Adapter.program` makes of a tree, block by block. Its functions
are the visited function places in order of their ids
(`functions_program`, `functionNodes_sorted`); the body of a function
holds the statements of the places that the function owns
(`body_entries`), the code at the top those that the root owns
(`topLevel_entries`). Taken together, the blocks hold one statement for
every visited place that is read as one (`statements_entries`).
-/

namespace CodeProfile

namespace Program

/-- All statements of a program, at any depth of any block. -/
def statements (p : Program) : List Statement := p.blocks.flatMap Block.walk

/-- The ids of the places that became statements. -/
def statementNodes (p : Program) : List Nat := p.statements.map (·.origin.node)

/-- The ids of the places that became functions. -/
def functionNodes (p : Program) : List Nat := p.functions.map (·.origin.node)

theorem statements_eq (p : Program) :
    p.statements = p.functions.flatMap (·.body.walk) ++ p.topLevel.walk := by
  simp [statements, blocks, List.flatMap_map]

end Program

theorem sortFunctions_perm (fs : List Function) : (sortFunctions fs).Perm fs :=
  List.mergeSort_perm fs _

theorem sortFunctions_sorted (fs : List Function) :
    (sortFunctions fs).Pairwise fun f g => f.origin.node ≤ g.origin.node := by
  unfold sortFunctions
  refine List.Pairwise.imp (fun h => of_decide_eq_true h) (List.pairwise_mergeSort ?_ ?_ fs)
  · intro f g h hfg hgh
    simp only [decide_eq_true_eq] at *
    omega
  · intro f g
    simp only [Bool.or_eq_true, decide_eq_true_eq]
    omega

namespace Adapter

variable (a : Adapter) (t : SyntaxTree)

/-! ## Functions -/

/-- The functions of a program, apart from whether the program starts
there. -/
theorem functions_program :
    ∃ starts : String → Bool, (a.program t).functions.Perm
      (((a.visited t.root).filter a.isFunction).map fun g =>
        { a.functionAt g with isEntryPoint := starts (a.functionAt g).name }) := by
  let starts (name : String) : Bool :=
    (((a.entryPoints t.root).filter fun e =>
      e.kind = .mainFunction ∨ e.kind = .topLevelCall).map (·.name)).contains name
  have hperm := (sortFunctions_perm (a.lower false t.root).functions).trans
    (functions_perm a false t.root)
  have hmap := hperm.map fun f : Function => { f with isEntryPoint := starts f.name }
  rw [List.map_map] at hmap
  exact ⟨starts, hmap⟩

theorem exists_place_of_function {f : Function} (hf : f ∈ (a.program t).functions) :
    ∃ g ∈ a.visited t.root, a.isFunction g = true ∧ f.origin.node = g.id
      ∧ f.body = (a.functionAt g).body ∧ f.calls = (a.functionAt g).calls := by
  obtain ⟨starts, hperm⟩ := a.functions_program t
  obtain ⟨g, hg, rfl⟩ := List.mem_map.mp (hperm.mem_iff.mp hf)
  obtain ⟨hvis, hfun⟩ := List.mem_filter.mp hg
  exact ⟨g, hvis, hfun, rfl, rfl, rfl⟩

theorem functionNodes_perm :
    (a.program t).functionNodes.Perm (((a.visited t.root).filter a.isFunction).map Place.id) := by
  obtain ⟨starts, hperm⟩ := a.functions_program t
  have := hperm.map (·.origin.node)
  rw [List.map_map] at this
  exact this

theorem mem_functionNodes {n : Nat} :
    n ∈ (a.program t).functionNodes ↔ ∃ g ∈ a.visited t.root, a.isFunction g = true ∧ g.id = n := by
  rw [(a.functionNodes_perm t).mem_iff, List.mem_map]
  simp only [List.mem_filter, and_assoc]

theorem functionNodes_sorted : (a.program t).functionNodes.Pairwise (· ≤ ·) := by
  simp only [Program.functionNodes, program, List.map_map, List.pairwise_map]
  exact sortFunctions_sorted _

/-! ## Statements -/

/-- The body of a function is what its parts were lowered to, with a mark
on some calls that changes neither entries nor nesting. -/
theorem body_walk (g : Place) :
    ∃ mark : Statement → Statement, (∀ s, (mark s).entry = s.entry)
      ∧ (∀ s, Statement.walkAll (mark s).inner = (Statement.walkAll s.inner).map mark)
      ∧ (a.functionAt g).body.walk
        = (Statement.walkAll ((a.reading g).bodyParts.flatMap fun q =>
            (a.lower false q).statements)).map mark := by
  simp only [functionAt, Lowered.toFunction, Lowered.concat, Block.walk, Block.ofStatements,
    List.flatMap_map]
  split
  next =>
    refine ⟨Statement.markRecursive ((functionName g).getD anonymous),
      Statement.entry_markRecursive _, fun s => ?_, Statement.walkAll_markRecursiveAll _ _⟩
    rw [Statement.inner_markRecursive, ← Statement.markRecursiveAll_eq,
      Statement.walkAll_markRecursiveAll]
  next => exact ⟨id, fun _ => rfl, fun _ => (List.map_id _).symm, (List.map_id _).symm⟩

theorem body_entries (g : Place) :
    ((a.functionAt g).body.walk.map Statement.entry).Perm
      ((a.bodyOwned g).filterMap a.entryAt) := by
  obtain ⟨mark, hentry, -, hwalk⟩ := a.body_walk g
  have hmap : Statement.entry ∘ mark = Statement.entry := funext hentry
  rw [hwalk, List.map_map, hmap, Statement.walkAll_flatMap, List.map_flatMap, bodyOwned,
    List.filterMap_flatMap]
  exact List.Perm.flatMap_left _ fun q _ => statements_perm a false q

theorem topLevel_entries :
    ((a.program t).topLevel.walk.map Statement.entry).Perm
      ((a.owned t.root).filterMap a.entryAt) :=
  statements_perm a false t.root

theorem entryAt_of_isFunction {a : Adapter} {g : Place} (h : a.isFunction g = true) :
    a.entryAt g = none := by
  unfold isFunction at h
  unfold entryAt
  cases hr : a.reading g with
  | function body => rfl
  | through parts => rfl
  | statement head before inside => rw [hr] at h; cases h

/-- The blocks together hold one statement for every visited place that
is read as one. -/
theorem statements_entries :
    ((a.program t).statements.map Statement.entry).Perm
      ((a.visited t.root).filterMap a.entryAt) := by
  obtain ⟨starts, hperm⟩ := a.functions_program t
  have hbodies : (((a.program t).functions.flatMap (·.body.walk)).map Statement.entry).Perm
      ((((a.visited t.root).filter a.isFunction).flatMap fun g =>
        g :: a.bodyOwned g).filterMap a.entryAt) := by
    refine ((hperm.flatMap_right _).map _).trans ?_
    rw [List.flatMap_map, List.map_flatMap, List.filterMap_flatMap]
    refine List.Perm.flatMap_left _ fun g hg => ?_
    rw [List.filterMap_cons_none (entryAt_of_isFunction (List.mem_filter.mp hg).2)]
    exact a.body_entries g
  rw [Program.statements_eq, List.map_append]
  refine (hbodies.append (a.topLevel_entries t)).trans (List.perm_append_comm.trans ?_)
  rw [← List.filterMap_append]
  exact ((a.visited_perm t.root).filterMap _).symm

end Adapter

end CodeProfile
