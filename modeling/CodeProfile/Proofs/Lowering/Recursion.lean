import CodeProfile.Adapter.JavaScript
import CodeProfile.Complexity.Analysis
import CodeProfile.Proofs.Lowering.Completeness

/-!
# Functions that call themselves

That a function calls itself is told in four ways: by a flag, by marks
on its calls, by how many marks there are, and by its name among the
names it calls. `Function.TellsRecursion` says that they agree.

What they agree on is read off the tree: `CallsFrom` lists the places
whose call ended up in the block of a function, and a named function has
as many marks as there are such places for its own name. A call inside a
nested function belongs to that function, since the nearest function
decides; a call inside a function that a loop runs in place does count
(`callsFrom_of_runsInPlace`), since such a function is not one of the
program.

Advice on recursion goes by the flag and by the number of marks
(`filter_forProgram`). The headline is `recursion_told`.
-/

namespace CodeProfile

/-! ## Marks -/

namespace Statement

theorem callee?_eq_some_iff {s : Statement} {name : String} :
    s.callee? = some name ↔ ∃ o r, s = call o name r := by
  constructor
  · intro h
    cases s with
    | call o callee r =>
        obtain rfl := Option.some.inj h
        exact ⟨o, r, rfl⟩
    | _ => cases h
  · rintro ⟨o, r, rfl⟩
    rfl

theorem callee?_markRecursive (name : String) (s : Statement) :
    (markRecursive name s).callee? = s.callee? := by
  cases s <;> rfl

/-- Marking settles the mark of every call, whatever it was before. -/
theorem isRecursiveCall_markRecursive (name : String) (s : Statement) :
    (markRecursive name s).isRecursiveCall = (s.callee? == some name) := by
  cases s <;> rfl

end Statement

/-- Whether the label is that of a call of the name. -/
def StatementLabel.isCallOf (name : String) : StatementLabel → Bool
  | call callee => callee == name
  | _ => false

/-- The signs by which a function tells that it calls itself. -/
structure Function.TellsRecursion (f : Function) : Prop where
  /-- The calls are the names that are called anywhere in the body. -/
  calls : ∀ name, name ∈ f.calls ↔ ∃ o r, .call o name r ∈ f.body.walk
  marks : ∀ o callee r, .call o callee r ∈ f.body.walk →
    (r = true ↔ f.name ≠ Adapter.anonymous ∧ callee = f.name)
  counted : f.isRecursive = true ↔ 1 ≤ f.recursiveCallCount
  called : f.isRecursive = true ↔ f.name ∈ f.calls ∧ f.name ≠ Adapter.anonymous

namespace Adapter

open Place

variable {a : Adapter} {p x g : Place} {t : SyntaxTree}

/-- Lowering marks no call; only the function around it does. -/
theorem isRecursiveCall_of_lower {inInput : Bool} {s : Statement}
    (hs : s ∈ Statement.walkAll (a.lower inInput p).statements) : s.isRecursiveCall = false := by
  obtain ⟨x, -, head, before, inside, inner, -, rfl⟩ := exists_reading_of_mem_walk hs
  cases head <;> rfl

theorem isRecursiveCall_functionAt {s : Statement} (hs : s ∈ (a.functionAt g).body.walk) :
    s.isRecursiveCall =
      ((a.functionAt g).name != anonymous && s.callee? == some (a.functionAt g).name) := by
  have hname : (a.functionAt g).name = (functionName g).getD anonymous := rfl
  rw [hname]
  simp only [functionAt, Lowered.toFunction, Lowered.concat, Block.walk, Block.ofStatements,
    List.flatMap_map] at hs
  split at hs
  next hnamed =>
    rw [Statement.walkAll_markRecursiveAll] at hs
    obtain ⟨s₀, -, rfl⟩ := List.mem_map.mp hs
    rw [Statement.isRecursiveCall_markRecursive, Statement.callee?_markRecursive, hnamed,
      Bool.true_and]
  next hnamed =>
    obtain ⟨q, -, hq⟩ := mem_walkAll_flatMap.mp hs
    rw [isRecursiveCall_of_lower hq, Bool.eq_false_iff.mpr hnamed, Bool.false_and]

theorem mem_calls_functionAt {name : String} :
    name ∈ (a.functionAt g).calls ↔ ∃ o r, .call o name r ∈ (a.functionAt g).body.walk := by
  have hcalls : (a.functionAt g).calls = (a.functionAt g).body.callTargets := rfl
  rw [hcalls, Block.callTargets, Text.mem_ordered, List.mem_filterMap]
  constructor
  · rintro ⟨s, hs, hcallee⟩
    obtain ⟨o, r, rfl⟩ := Statement.callee?_eq_some_iff.mp hcallee
    exact ⟨o, r, hs⟩
  · rintro ⟨o, r, hs⟩
    exact ⟨_, hs, rfl⟩

theorem isRecursive_functionAt :
    (a.functionAt g).isRecursive = true ↔
      (a.functionAt g).name ∈ (a.functionAt g).calls ∧ (a.functionAt g).name ≠ anonymous := by
  have hflag : (a.functionAt g).isRecursive = ((a.functionAt g).name != anonymous &&
      (a.functionAt g).calls.contains (a.functionAt g).name) := rfl
  rw [hflag, Bool.and_eq_true, bne_iff_ne, List.contains_iff_mem, and_comm]

theorem tellsRecursion_functionAt (a : Adapter) (g : Place) :
    (a.functionAt g).TellsRecursion where
  calls name := mem_calls_functionAt
  marks o callee r hs := by
    have hmark := isRecursiveCall_functionAt hs
    rw [Statement.isRecursiveCall, Statement.callee?] at hmark
    rw [hmark, Bool.and_eq_true, bne_iff_ne, beq_iff_eq, Option.some_inj]
  called := isRecursive_functionAt
  counted := by
    rw [isRecursive_functionAt, mem_calls_functionAt, Function.recursiveCallCount,
      Nat.one_le_iff_ne_zero, ← Nat.pos_iff_ne_zero, List.countP_pos_iff]
    constructor
    · rintro ⟨⟨o, r, hs⟩, hnamed⟩
      refine ⟨_, hs, ?_⟩
      rw [isRecursiveCall_functionAt hs, Bool.and_eq_true, bne_iff_ne]
      exact ⟨hnamed, beq_self_eq_true _⟩
    · rintro ⟨s, hs, hmark⟩
      rw [isRecursiveCall_functionAt hs, Bool.and_eq_true, bne_iff_ne, beq_iff_eq] at hmark
      obtain ⟨o, r, rfl⟩ := Statement.callee?_eq_some_iff.mp hmark.2
      exact ⟨⟨o, r, hs⟩, hmark.1⟩

/-! ## Places that call -/

/-- The place is read as a call of the name. -/
structure CallsName (a : Adapter) (name : String) (x : Place) : Prop where
  call : a.classify x = some .call
  single : ∀ arguments, ¬ a.Iterates x arguments
  target : (a.callTarget x).getD anonymous = name

/-- The place became a call of the name, in the block of the function
with the given id: no other function of the program stands between. -/
structure CallsFrom (a : Adapter) (t : SyntaxTree) (owner : Nat) (name : String) (x : Place) :
    Prop extends CallsName a name x where
  place : x ∈ t.places
  lowered : x.id ∈ (a.program t).statementNodes
  nearest : (a.program t).owner? x = some owner

/-- The place belongs to the body of a function that is written out in
place, and a call in the block of `owner` runs that function as a loop. -/
def RunsInPlace (a : Adapter) (t : SyntaxTree) (owner : Nat) (x : Place) : Prop :=
  ∃ call ∈ t.places, call.id ∈ (a.program t).statementNodes
    ∧ (a.program t).owner? call = some owner ∧ a.classify call = some .call
    ∧ ∃ arguments, a.Iterates call arguments
      ∧ ∃ f ∈ a.inPlaceFunctions arguments, ∃ body, body? f = some body ∧ x ∈ a.owned body

/-- Whether the entry of a place is that of a call of the name. -/
def callsBy (a : Adapter) (name : String) (x : Place) : Bool :=
  (a.entryAt x).any fun e => e.2.isCallOf name

theorem callsBy_iff {name : String} : a.callsBy name x = true ↔ a.CallsName name x := by
  have hreads := a.reads x
  have hbare {c : Option NodeClass} (hc : a.classify x = c) (hne : c ≠ some .call) :
      ¬ a.CallsName name x := fun h => hne (hc.symm.trans h.call)
  unfold callsBy entryAt
  generalize hclass : a.classify x = c, a.reading x = r at hreads
  cases hreads with
  | call hit =>
      simp only [Reading.entryAt, Option.any_some, StatementHead.label, StatementLabel.isCallOf,
        beq_iff_eq]
      exact ⟨fun h => ⟨hclass, hit, h⟩, fun h => h.target⟩
  | @iteration arguments hit =>
      simp only [Reading.entryAt, iterationReading, Option.any_some, StatementHead.label,
        StatementLabel.isCallOf, Bool.false_eq_true, false_iff]
      exact fun h => h.single arguments hit
  | simple c kind hne =>
      simp only [Reading.entryAt, Option.any_some, StatementHead.label, StatementLabel.isCallOf,
        Bool.false_eq_true, false_iff]
      exact hbare hclass (by simpa using hne.2.2.2)
  | _ =>
      simp only [Reading.entryAt, Option.any_some, Option.any_none, StatementHead.label,
        StatementLabel.isCallOf, Bool.false_eq_true, false_iff]
      exact hbare hclass (by simp)

/-! ## Blocks and nearest functions -/

/-- What a block owns of a part of one of its own places. -/
theorem owned_of_mem_reading {y q : Place} (hy : y ∈ a.owned p) (hq : q ∈ (a.reading y).places)
    (hx : x ∈ a.owned q) : x ∈ a.owned p := by
  induction p using a.reading_induction with
  | step p ih =>
      obtain ⟨hf, hcases⟩ := mem_owned hy
      rw [owned_of_not_function hf]
      refine List.mem_cons_of_mem _ (List.mem_flatMap.mpr ?_)
      rcases hcases with rfl | ⟨r, hr, hyr⟩
      · exact ⟨q, hq, hx⟩
      · exact ⟨r, hr, ih r hr hyr⟩

theorem visited_of_bodyOwned (hg : g ∈ a.visited t.root) (hfun : a.isFunction g = true)
    (hx : x ∈ a.bodyOwned g) : x ∈ a.visited t.root := by
  refine (a.visited_perm t.root).mem_iff.mpr (List.mem_append_right _ ?_)
  exact List.mem_flatMap.mpr ⟨g, List.mem_filter.mpr ⟨hg, hfun⟩, List.mem_cons_of_mem _ hx⟩

theorem nodup_bodyOwned (h : t.root.Sound) (hg : g ∈ a.visited t.root)
    (hfun : a.isFunction g = true) : (a.bodyOwned g).Nodup := by
  have hvisited : (a.visited t.root).Nodup := (nodup_visited_ids h).of_map Place.id
  have hparts := (List.nodup_append.mp ((a.visited_perm t.root).nodup_iff.mp hvisited)).2.1
  have hpart := (List.nodup_flatMap.mp hparts).1 g (List.mem_filter.mpr ⟨hg, hfun⟩)
  exact (List.nodup_cons.mp hpart).2

/-- The calls in the block of a function are those whose nearest function
it is. -/
theorem callsFrom_iff (h : t.root.Sound) (hg : g ∈ a.visited t.root)
    (hfun : a.isFunction g = true) {name : String} :
    a.CallsFrom t g.id name x ↔ x ∈ a.bodyOwned g ∧ a.CallsName name x := by
  constructor
  · intro hx
    have hvis := ((mem_statementNodes_iff h hx.place).mp hx.lowered).1
    have hnot : a.isFunction x = false :=
      isFunction_of_statement (reading_of_call hx.call hx.single)
    exact ⟨bodyOwned_of_owner h hvis hnot hg hx.nearest, hx.toCallsName⟩
  · rintro ⟨hx, hcall⟩
    have hvis := visited_of_bodyOwned hg hfun hx
    have hplace := mem_descendants_of_mem_visited h hvis
    exact ⟨hcall, hplace,
      (mem_statementNodes_iff h hplace).mpr ⟨hvis, .call, hcall.call, by decide⟩,
      owner?_of_bodyOwned h hg hfun hx⟩

/-- A call inside a function that runs in place counts for the function
around the loop. -/
theorem callsFrom_of_runsInPlace (h : t.root.Sound) (hg : g ∈ a.visited t.root)
    (hfun : a.isFunction g = true) {name : String} (hx : a.RunsInPlace t g.id x)
    (hcall : a.CallsName name x) : a.CallsFrom t g.id name x := by
  obtain ⟨call, hct, hnode, howner, hclass, arguments, hit, f, hf, body, hbody, hxb⟩ := hx
  have hvis := ((mem_statementNodes_iff h hct).mp hnode).1
  have hread := reading_of_iterates hclass hit
  have howned := bodyOwned_of_owner h hvis (isFunction_of_statement hread) hg howner
  have hpart : body ∈ (a.reading call).places := by
    rw [hread]
    refine List.mem_append_right _ (List.mem_flatten.mpr ⟨_, List.mem_singleton_self _, ?_⟩)
    exact List.mem_filterMap.mpr ⟨f, hf, hbody⟩
  obtain ⟨b, hb, hcallb⟩ := List.mem_flatMap.mp howned
  refine (callsFrom_iff h hg hfun).mpr ⟨?_, hcall⟩
  exact List.mem_flatMap.mpr ⟨b, hb, owned_of_mem_reading hcallb hpart hxb⟩

/-! ## Counting -/

theorem recursiveCallCount_functionAt (a : Adapter) (g : Place) :
    (a.functionAt g).recursiveCallCount =
      if (a.functionAt g).name = anonymous then 0
      else ((a.bodyOwned g).filter (a.callsBy (a.functionAt g).name)).length := by
  rw [Function.recursiveCallCount]
  split
  next hname =>
    rw [List.countP_eq_zero]
    intro s hs
    rw [isRecursiveCall_functionAt hs, hname, bne_self_eq_false, Bool.false_and]
    exact Bool.false_ne_true
  next hname =>
    have hmark : ∀ s ∈ (a.functionAt g).body.walk, s.isRecursiveCall = true ↔
        s.entry.2.isCallOf (a.functionAt g).name = true := by
      intro s hs
      rw [isRecursiveCall_functionAt hs, bne_iff_ne.mpr hname, Bool.true_and]
      cases s <;> simp [Statement.callee?, Statement.entry, Statement.label,
        StatementLabel.isCallOf]
    calc (a.functionAt g).body.walk.countP Statement.isRecursiveCall
        = (a.functionAt g).body.walk.countP fun s =>
            s.entry.2.isCallOf (a.functionAt g).name := List.countP_congr hmark
      _ = ((a.functionAt g).body.walk.map Statement.entry).countP fun e =>
            e.2.isCallOf (a.functionAt g).name := by
          rw [List.countP_map]
          rfl
      _ = ((a.bodyOwned g).filterMap a.entryAt).countP fun e =>
            e.2.isCallOf (a.functionAt g).name := (a.body_entries g).countP_eq _
      _ = (a.bodyOwned g).countP (a.callsBy (a.functionAt g).name) := by
          rw [List.countP_filterMap]
          exact List.countP_congr fun x _ => by cases hx : a.entryAt x <;> simp [callsBy, hx]
      _ = ((a.bodyOwned g).filter (a.callsBy (a.functionAt g).name)).length :=
          List.countP_eq_length_filter

end Adapter

/-! ## Advice -/

namespace Suggestion

/-- Whether the advice is about a function that calls itself. -/
def isOnRecursion (s : Suggestion) : Bool := s.kind matches .memoization | .iterativeConversion

/-- What a function with so many marked calls is advised to do. -/
def recursionAdvice : Nat → Option SuggestionKind
  | 0 => none
  | 1 => some .iterativeConversion
  | _ => some .memoization

theorem filter_forLoops (target : String) (b : Block) :
    (forLoops target b).filter isOnRecursion = [] := by
  rw [List.filter_eq_nil_iff]
  intro s hs
  rcases List.mem_append.mp hs with hs | hs
  · obtain ⟨line, -, rfl⟩ := List.mem_map.mp hs
    exact Bool.false_ne_true
  · obtain ⟨line, -, rfl⟩ := List.mem_map.mp hs
    exact Bool.false_ne_true

theorem isOnRecursion_forRecursion (f : Function) : (forRecursion f).isOnRecursion = true := by
  unfold forRecursion
  split <;> rfl

theorem filter_forFunction {f : Function} (h : f.TellsRecursion) :
    ((forFunction f).filter isOnRecursion).map (fun s => (s.kind, s.target))
      = (recursionAdvice f.recursiveCallCount).toList.map fun kind => (kind, f.name) := by
  rw [forFunction, List.filter_append, filter_forLoops, List.append_nil]
  cases hrec : f.isRecursive with
  | false =>
      have hzero : f.recursiveCallCount = 0 := by
        have hnot := mt h.counted.mpr (by rw [hrec]; decide)
        omega
      rw [hzero]
      rfl
  | true =>
      have hpos := h.counted.mp hrec
      rw [if_pos rfl, List.filter_cons_of_pos (isOnRecursion_forRecursion f), List.filter_nil,
        List.map_singleton]
      match hcount : f.recursiveCallCount with
      | 0 => omega
      | 1 =>
          rw [forRecursion, if_neg (by omega)]
          rfl
      | n + 2 =>
          rw [forRecursion, if_pos (by omega)]
          rfl

/-- Advice on recursion, in the order of the functions. -/
theorem filter_forProgram {p : Program} (h : ∀ f ∈ p.functions, f.TellsRecursion) :
    ((forProgram p).filter isOnRecursion).map (fun s => (s.kind, s.target))
      = p.functions.flatMap fun f =>
          (recursionAdvice f.recursiveCallCount).toList.map fun kind => (kind, f.name) := by
  rw [forProgram, List.filter_append, filter_forLoops, List.append_nil, List.filter_flatMap,
    List.map_flatMap]
  exact List.flatMap_congr fun f hf => filter_forFunction (h f hf)

end Suggestion

/-! ## The whole program -/

/-- In the program of a tree, every function tells in the same way whether it calls itself. A named
function has a mark for each place that calls its name in its own block, among them those in
functions that run in place there, and it gets advice for that number of marks. -/
theorem Adapter.recursion_told (a : Adapter) {t : SyntaxTree} (ht : t.Built) :
    (∀ f ∈ (a.program t).functions, f.TellsRecursion ∧
      (∃ calls : List Place, calls.Nodup ∧
        (∀ x, x ∈ calls ↔ a.CallsFrom t f.origin.node f.name x) ∧
        f.recursiveCallCount = if f.name = anonymous then 0 else calls.length) ∧
      (f.isRecursive = true ↔
        f.name ≠ anonymous ∧ ∃ x, a.CallsFrom t f.origin.node f.name x) ∧
      ∀ x, a.RunsInPlace t f.origin.node x → a.CallsName f.name x →
        a.CallsFrom t f.origin.node f.name x) ∧
    ((a.program t).complexity.suggestions.filter (·.isOnRecursion)).map
        (fun s => (s.kind, s.target))
      = (a.program t).functions.flatMap fun f =>
          (Suggestion.recursionAdvice f.recursiveCallCount).toList.map
            fun kind => (kind, f.name) := by
  have h := ht.sound
  obtain ⟨starts, hperm⟩ := a.functions_program t
  have hplaces : ∀ f ∈ (a.program t).functions, ∃ g ∈ a.visited t.root, a.isFunction g = true ∧
      f = { a.functionAt g with isEntryPoint := starts (a.functionAt g).name } := by
    intro f hf
    obtain ⟨g, hg, rfl⟩ := List.mem_map.mp (hperm.mem_iff.mp hf)
    obtain ⟨hvis, hfun⟩ := List.mem_filter.mp hg
    exact ⟨g, hvis, hfun, rfl⟩
  have htells : ∀ f ∈ (a.program t).functions, f.TellsRecursion := by
    intro f hf
    obtain ⟨g, -, -, rfl⟩ := hplaces f hf
    have hg := a.tellsRecursion_functionAt g
    exact ⟨hg.calls, hg.marks, hg.counted, hg.called⟩
  refine ⟨fun f hf => ?_, Suggestion.filter_forProgram htells⟩
  have hf' := htells f hf
  obtain ⟨g, hg, hfun, rfl⟩ := hplaces f hf
  have hcount := a.recursiveCallCount_functionAt g
  have hmem (x : Place) : x ∈ (a.bodyOwned g).filter (a.callsBy (a.functionAt g).name) ↔
      a.CallsFrom t g.id (a.functionAt g).name x := by
    rw [List.mem_filter, callsBy_iff]
    exact (callsFrom_iff h hg hfun).symm
  refine ⟨hf', ⟨_, (nodup_bodyOwned h hg hfun).filter _, hmem, hcount⟩, ?_,
    fun x hx hcall => callsFrom_of_runsInPlace h hg hfun hx hcall⟩
  rw [hf'.counted]
  refine (Iff.of_eq (congrArg (1 ≤ ·) hcount)).trans ?_
  split
  next hname => simp [hname]
  next hname =>
    rw [Nat.one_le_iff_ne_zero, ← Nat.pos_iff_ne_zero, List.length_pos_iff_exists_mem,
      exists_congr hmem]
    exact (and_iff_right hname).symm

namespace MappedCall

/-! A function with a call of itself in a function that it maps over a
list, and another one in a nested function. -/

/-- The adapter for the sample. -/
abbrev adapter : Adapter := Adapter.JavaScript.adapter .javaScript

def source : String := "function f(){xs.map(x=>f());function g(){f()}}"

def node (kind : String) (start stop : Nat) (field : Option String) : NodeSpec :=
  ⟨kind, start, stop, true, false, field⟩

def file : NodeSpec := node "program" 0 46 none

def outer : NodeSpec := node "function_declaration" 0 46 none

def outerName : NodeSpec := node "identifier" 9 10 (some "name")

def outerBody : NodeSpec := node "statement_block" 12 46 (some "body")

def mapCall : NodeSpec := node "call_expression" 13 27 none

def callee : NodeSpec := node "member_expression" 13 19 (some "function")

def object : NodeSpec := node "identifier" 13 15 (some "object")

def property : NodeSpec := node "property_identifier" 16 19 (some "property")

def arguments : NodeSpec := node "arguments" 19 27 (some "arguments")

def mapped : NodeSpec := node "arrow_function" 20 26 none

def mappedCall : NodeSpec := node "call_expression" 23 26 (some "body")

def mappedName : NodeSpec := node "identifier" 23 24 (some "function")

def inner : NodeSpec := node "function_declaration" 28 45 none

def innerName : NodeSpec := node "identifier" 37 38 (some "name")

def innerBody : NodeSpec := node "statement_block" 40 45 (some "body")

def innerCall : NodeSpec := node "call_expression" 41 44 none

def innerCallName : NodeSpec := node "identifier" 41 42 (some "function")

def mappedCallNode : Node := mappedCall.node source 10 [mappedName.node source 11 []]

def argumentsNode : Node :=
  arguments.node source 8 [mapped.node source 9 [mappedCallNode]]

def mapCallNode : Node := mapCall.node source 4
  [callee.node source 5 [object.node source 6 [], property.node source 7 []], argumentsNode]

def innerNode : Node := inner.node source 12 [innerName.node source 13 [],
  innerBody.node source 14 [innerCall.node source 15 [innerCallName.node source 16 []]]]

def outerBodyNode : Node := outerBody.node source 3 [mapCallNode, innerNode]

def outerNode : Node := outer.node source 1 [outerName.node source 2 [], outerBodyNode]

def fileNode : Node := file.node source 0 [outerNode]

def tree : SyntaxTree := ⟨.javaScript, source, fileNode⟩

def calls : List BuilderCall :=
  [.openNode file, .openNode outer, .leaf outerName, .openNode outerBody, .openNode mapCall,
    .openNode callee, .leaf object, .leaf property, .closeNode, .openNode arguments,
    .openNode mapped, .openNode mappedCall, .leaf mappedName, .closeNode, .closeNode, .closeNode,
    .closeNode, .openNode inner, .leaf innerName, .openNode innerBody, .openNode innerCall,
    .leaf innerCallName, .closeNode, .closeNode, .closeNode, .closeNode, .closeNode, .closeNode]

set_option maxRecDepth 4000 in
theorem built : tree.Built := ⟨source, .javaScript, calls, by rfl⟩

/-- The call in the mapped function. -/
def recursiveCall : Place :=
  ⟨mappedCallNode, [mapped.node source 9 [mappedCallNode], argumentsNode, mapCallNode,
    outerBodyNode, outerNode, fileNode]⟩

theorem callsName : adapter.CallsName "f" recursiveCall where
  call := by decide +kernel
  single := by
    rintro arguments ⟨⟨callee, hcallee, hmem⟩, -⟩
    have htarget : adapter.callTarget recursiveCall = some "f" := by decide +kernel
    obtain rfl := Option.some.inj (hcallee.symm.trans htarget)
    exact absurd hmem (by decide)
  target := by decide +kernel

theorem functionNodes : (adapter.program tree).functionNodes = [1, 12] := by
  have hplaces :
      ((adapter.visited tree.root).filter adapter.isFunction).map Place.id = [1, 12] := by
    decide +kernel
  have hperm := adapter.functionNodes_perm tree
  rw [hplaces] at hperm
  exact hperm.eq_of_pairwise (fun _ _ _ _ => Nat.le_antisymm)
    (Adapter.functionNodes_sorted _ _) (by decide)

theorem mapCall_mem : 4 ∈ (adapter.program tree).statementNodes := by
  rw [(Adapter.statementNodes_perm _ tree).mem_iff]
  decide +kernel

theorem owner?_mapCall (p : Place) (h : p.ancestors.map Place.id = [3, 1, 0]) :
    (adapter.program tree).owner? p = some 1 := by
  rw [Program.owner?, functionNodes, h]
  rfl

theorem owned : recursiveCall ∈ adapter.owned recursiveCall := by
  have hfun : adapter.isFunction recursiveCall = false := by decide +kernel
  rw [Adapter.owned_of_not_function hfun]
  exact List.mem_cons_self

theorem runsInPlace : adapter.RunsInPlace tree 1 recursiveCall := by
  refine ⟨⟨mapCallNode, [outerBodyNode, outerNode, fileNode]⟩, ?_, mapCall_mem, ?_, ?_,
    ⟨argumentsNode, [mapCallNode, outerBodyNode, outerNode, fileNode]⟩,
    ⟨⟨"map", ?_, ?_⟩, ?_, ?_⟩,
    ⟨mapped.node source 9 [mappedCallNode],
      [argumentsNode, mapCallNode, outerBodyNode, outerNode, fileNode]⟩,
    ?_, recursiveCall, ?_, owned⟩
  · exact List.mem_of_getElem? (i := 4) rfl
  · exact owner?_mapCall _ rfl
  · decide +kernel
  · decide +kernel
  · decide
  · rfl
  · decide +kernel
  · exact List.mem_singleton_self _
  · rfl

theorem functions_perm :
    ((adapter.program tree).functions.map fun f =>
      (f.name, f.origin.node, f.recursiveCallCount)).Perm [("f", 1, 1), ("g", 12, 0)] := by
  obtain ⟨starts, hperm⟩ := adapter.functions_program tree
  have hmap := hperm.map fun f => (f.name, f.origin.node, f.recursiveCallCount)
  have hplaces : ((adapter.visited tree.root).filter adapter.isFunction).map (fun g =>
      ((adapter.functionAt g).name, g.id, (adapter.functionAt g).recursiveCallCount))
      = [("f", 1, 1), ("g", 12, 0)] := by
    decide +kernel
  rw [List.map_map] at hmap
  exact hmap.trans (List.Perm.of_eq hplaces)

end MappedCall

open MappedCall in
/-- The mapped function makes the outer function recursive, with one call of itself, and the call in
the inner function adds none. -/
theorem recursion_told_mappedCall :
    tree.Built ∧ (∃ f ∈ (adapter.program tree).functions,
      f.name = "f" ∧ f.isRecursive = true ∧ f.recursiveCallCount = 1 ∧
      adapter.CallsFrom tree f.origin.node f.name recursiveCall) ∧
    ((adapter.program tree).complexity.suggestions.filter (·.isOnRecursion)).map
      (fun s => (s.kind, s.target)) = [(.iterativeConversion, "f")] := by
  obtain ⟨hfunctions, hadvice⟩ := Adapter.recursion_told adapter built
  refine ⟨built, ?_, ?_⟩
  · obtain ⟨f, hf, heq⟩ := List.mem_map.mp (functions_perm.mem_iff.mpr (List.mem_cons_self ..))
    obtain ⟨hname, hnode, hcount⟩ :
        f.name = "f" ∧ f.origin.node = 1 ∧ f.recursiveCallCount = 1 := by
      simpa using heq
    obtain ⟨htells, -, -, hplace⟩ := hfunctions f hf
    refine ⟨f, hf, hname, htells.counted.mpr (Nat.le_of_eq hcount.symm), hcount, ?_⟩
    rw [hnode, hname] at hplace ⊢
    exact hplace recursiveCall runsInPlace callsName
  · rw [hadvice]
    have hflat := functions_perm.flatMap_right fun e =>
      (Suggestion.recursionAdvice e.2.2).toList.map fun kind => (kind, e.1)
    rw [List.flatMap_map] at hflat
    exact List.perm_singleton.mp hflat

end CodeProfile
