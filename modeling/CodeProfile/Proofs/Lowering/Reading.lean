import CodeProfile.Proofs.Tree.Places
import CodeProfile.Program.Lowering
import Mathlib.Data.List.Perm.Subperm

/-!
# The places that a reading lowers

`Adapter.Reads` lists the shapes that the reading of a place can take,
one constructor per shape, and `Adapter.reads` says that there are no
others. Everything about readings is a case analysis over it.

The headline is `reading_subperm`: what lies at or below the places of a
reading fits, side by side, into what lies below the place that is read.
The places are chosen from the children in several lists (header and
body, branches and the rest, callee and arguments) and some are
grandchildren, and no two of them share anything. This is where the span
test of conditionals needs a sound tree: a body whose parts are the
branches is left out of the header because it contains the first of
them.
-/

namespace CodeProfile

namespace Adapter

/-! ## The shapes of a reading -/

/-- The children of a loop apart from its body. -/
def headerParts (p : Place) : List Place := p.children.filter fun c => !(body? p).any (· == c)

/-- Whether the span of one of the branches lies in the span of `c`. -/
def holdsBranch (p c : Place) : Bool := (branches p).any fun b => c.span.contains b.span

/-- The children of a conditional whose span holds no branch. -/
def partsBesideBranches (p : Place) : List Place := p.children.filter fun c => !holdsBranch p c

/-- The call is read as a loop over these arguments. -/
def Iterates (a : Adapter) (call arguments : Place) : Prop :=
  (∃ callee, a.callTarget call = some callee ∧ callee ∈ iterationCalls)
    ∧ arguments? call = some arguments ∧ a.inPlaceFunctions arguments ≠ []

/-- The reading of a call that iterates over these arguments. -/
def iterationReading (a : Adapter) (call arguments : Place) : Reading :=
  .statement (.loop (a.iterationBounds call arguments))
    ((call.childByField? "function").toList ++ a.otherArguments arguments)
    [(a.inPlaceFunctions arguments).filterMap body?]

theorem iteration?_of_iterates {a : Adapter} {p arguments : Place} (h : a.Iterates p arguments) :
    a.iteration? p = some (a.iterationReading p arguments) := by
  obtain ⟨⟨callee, hcallee, hmem⟩, harguments, hne⟩ := h
  have hcond :
      (iterationCalls.contains callee && !(a.inPlaceFunctions arguments).isEmpty) = true := by
    simpa [List.isEmpty_iff] using ⟨hmem, hne⟩
  simp only [iteration?, hcallee, harguments, hcond, if_true]
  rfl

theorem iterates_of_iteration? {a : Adapter} {p : Place} {r : Reading}
    (h : a.iteration? p = some r) :
    ∃ arguments, a.Iterates p arguments ∧ r = a.iterationReading p arguments := by
  unfold iteration? at h
  split at h
  next callee arguments hcallee harguments =>
    split at h
    next hcond =>
      simp only [Bool.and_eq_true, List.contains_iff_mem, Bool.not_eq_true',
        List.isEmpty_eq_false_iff] at hcond
      exact ⟨arguments, ⟨⟨callee, hcallee, hcond.1⟩, harguments, hcond.2⟩,
        (Option.some.inj h).symm⟩
    next => cases h
  next => cases h

theorem not_iterates_of_iteration? {a : Adapter} {p : Place} (h : a.iteration? p = none)
    (arguments : Place) : ¬ a.Iterates p arguments := by
  intro hit
  rw [iteration?_of_iterates hit] at h
  cases h

/-- How a place of a class can be read. -/
inductive Reads (a : Adapter) (p : Place) : Option NodeClass → Reading → Prop
  | through : Reads a p none (.through p.children)
  | function : Reads a p (some .function) (.function (body? p).toList)
  | loop : Reads a p (some .loop)
      (.statement (.loop (a.loopBounds p)) (headerParts p) [(body? p).toList])
  | conditional : Reads a p (some .conditional)
      (.statement .conditional (partsBesideBranches p) ((branches p).map ([·])))
  | iteration {arguments : Place} (h : a.Iterates p arguments) :
      Reads a p (some .call) (a.iterationReading p arguments)
  | call (h : ∀ arguments, ¬ a.Iterates p arguments) :
      Reads a p (some .call)
        (.statement (.call ((a.callTarget p).getD anonymous)) p.children [])
  | allocation : Reads a p (some .allocation)
      (.statement (.allocation (a.isSizeDependent p)) p.children [])
  | simple (c : NodeClass) (kind : SimpleStatement)
      (h : c ≠ .function ∧ c ≠ .loop ∧ c ≠ .conditional ∧ c ≠ .call) :
      Reads a p (some c) (.statement (.simple kind) p.children [])

theorem reads (a : Adapter) (p : Place) : a.Reads p (a.classify p) (a.reading p) := by
  unfold reading
  cases hc : a.classify p with
  | none => exact .through
  | some c =>
      cases c with
      | loop => exact .loop
      | function => exact .function
      | conditional => exact .conditional
      | allocation => exact .allocation
      | call =>
          cases hi : a.iteration? p with
          | none => exact .call (not_iterates_of_iteration? hi)
          | some r =>
              obtain ⟨arguments, hit, rfl⟩ := iterates_of_iteration? hi
              exact .iteration hit
      | «return» => exact .simple _ .return (by decide)
      | «break» => exact .simple _ .break (by decide)
      | «continue» => exact .simple _ .continue (by decide)
      | assignment => exact .simple _ .assignment (by decide)
      | declaration => exact .simple _ .declaration (by decide)
      | expression => exact .simple _ .expression (by decide)

theorem reading_of_function {a : Adapter} {p : Place} (h : a.classify p = some .function) :
    a.reading p = .function (body? p).toList := by
  have hreads := a.reads p
  rw [h] at hreads
  generalize a.reading p = r at hreads
  cases hreads with
  | function => rfl
  | simple _ _ hne => exact absurd rfl hne.1

theorem reading_of_loop {a : Adapter} {p : Place} (h : a.classify p = some .loop) :
    a.reading p
      = .statement (.loop (a.loopBounds p)) (headerParts p) [(body? p).toList] := by
  have hreads := a.reads p
  rw [h] at hreads
  generalize a.reading p = r at hreads
  cases hreads with
  | loop => rfl
  | simple _ _ hne => exact absurd rfl hne.2.1

theorem reading_of_conditional {a : Adapter} {p : Place} (h : a.classify p = some .conditional) :
    a.reading p
      = .statement .conditional (partsBesideBranches p) ((branches p).map ([·])) := by
  have hreads := a.reads p
  rw [h] at hreads
  generalize a.reading p = r at hreads
  cases hreads with
  | conditional => rfl
  | simple _ _ hne => exact absurd rfl hne.2.2.1

theorem reading_of_iterates {a : Adapter} {p arguments : Place}
    (h : a.classify p = some .call) (hit : a.Iterates p arguments) :
    a.reading p = a.iterationReading p arguments := by
  simp only [reading, h, iteration?_of_iterates hit, Option.getD_some]

theorem reading_of_call {a : Adapter} {p : Place} (h : a.classify p = some .call)
    (hit : ∀ arguments, ¬ a.Iterates p arguments) :
    a.reading p = .statement (.call ((a.callTarget p).getD anonymous)) p.children [] := by
  have hreads := a.reads p
  rw [h] at hreads
  generalize a.reading p = r at hreads
  cases hreads with
  | call => rfl
  | @iteration arguments hit' => exact absurd hit' (hit arguments)
  | simple _ _ hne => exact absurd rfl hne.2.2.2

/-! ## Parts side by side -/

section Subperm

variable {α β : Type}

theorem subperm_flatMap {l₁ l₂ : List α} (h : l₁.Subperm l₂) (f : α → List β) :
    (l₁.flatMap f).Subperm (l₂.flatMap f) := by
  obtain ⟨l, hperm, hsub⟩ := h
  exact ⟨l.flatMap f, hperm.flatMap_right f, hsub.flatMap f⟩

theorem subperm_filter_of_forall {l₁ l₂ : List α} {f : α → Bool} (h : l₁.Subperm l₂)
    (hf : ∀ x ∈ l₁, f x = true) : l₁.Subperm (l₂.filter f) := by
  have := h.filter f
  rwa [List.filter_eq_self.mpr hf] at this

/-- Two selections that exclude each other fit into the list together. -/
theorem filter_append_filter_subperm (l : List α) {f g : α → Bool}
    (h : ∀ x ∈ l, g x = true → f x = false) : (l.filter f ++ l.filter g).Subperm l := by
  have hg : (l.filter g).Sublist (l.filter fun x => !f x) := by
    have : l.filter g = (l.filter fun x => !f x).filter g := by
      rw [List.filter_filter]
      refine List.filter_congr fun x hx => ?_
      cases hgx : g x with
      | false => rfl
      | true => simp [h x hx hgx]
    rw [this]
    exact List.filter_sublist
  exact ((List.Sublist.refl _).append hg).subperm.trans (List.filter_append_perm f l).subperm

/-- A selection and a list that fits into the rest fit into the whole. -/
theorem filter_append_flatMap_subperm (l : List α) (f : α → Bool) (g : α → List β)
    {m : List β} (h : m.Subperm ((l.filter fun x => !f x).flatMap g)) :
    ((l.filter f).flatMap g ++ m).Subperm (l.flatMap g) := by
  have hperm := (List.filter_append_perm f l).flatMap_right g
  rw [List.flatMap_append] at hperm
  exact ((List.Subperm.refl _).append h).trans hperm.subperm

end Subperm

open Place

theorem toList_subperm_filter {l : List Place} {f : Place → Bool} {o : Option Place}
    (h : ∀ q ∈ o, q ∈ l ∧ f q = true) : o.toList.Subperm (l.filter f) := by
  cases o with
  | none => exact List.nil_subperm
  | some q =>
      rw [Option.toList_some, List.singleton_subperm_iff, List.mem_filter]
      exact h q rfl

theorem field_of_childByField? {p q : Place} {f : String} (h : p.childByField? f = some q) :
    (q.field == some f) = true := by
  simpa using List.find?_some h

theorem bodies_subperm (qs : List Place) :
    ((qs.filterMap body?).flatMap descendants).Subperm (qs.flatMap descendants) := by
  induction qs with
  | nil => exact List.Subperm.refl _
  | cons q qs ih =>
      cases hb : body? q with
      | none =>
          rw [List.filterMap_cons_none hb, List.flatMap_cons]
          exact ih.trans (List.sublist_append_right _ _).subperm
      | some b =>
          rw [List.filterMap_cons_some hb, List.flatMap_cons, List.flatMap_cons]
          have hbq := mem_below_of_mem_children (mem_children_of_childByField? hb)
          exact (descendants_sublist (mem_descendants_of_mem_below hbq)).subperm.append ih

/-! ## Branches -/

theorem arms_subperm (p : Place) : (arms p).Subperm p.children :=
  filter_append_filter_subperm p.children fun x _ hx => by
    rw [beq_iff_eq] at hx
    simp [hx]

theorem contains_self (s : Span) : s.contains s = true := by simp [Span.contains]

theorem holdsBranch_of_mem {p b : Place} (h : b ∈ branches p) : holdsBranch p b = true :=
  List.any_eq_true.mpr ⟨b, h, contains_self b.span⟩

/-- What lies at or below the branches fits into the children that hold
a branch. The branches are themselves such children, or they are the
parts of one. -/
theorem branches_subperm {p : Place} (h : p.Sound) :
    ((branches p).flatMap descendants).Subperm
      ((p.children.filter (holdsBranch p)).flatMap descendants) := by
  have ofChildren (hsub : (branches p).Subperm p.children) :=
    subperm_flatMap (subperm_filter_of_forall hsub fun _ => holdsBranch_of_mem) descendants
  by_cases harms : (arms p).isEmpty = true
  · by_cases hparts : (bodyParts p).isEmpty = true
    · refine ofChildren ?_
      simp only [branches, harms, hparts, Bool.not_true, Bool.false_eq_true, if_false]
      exact (List.filter_sublist.trans List.filter_sublist).subperm
    · have hbranches : branches p = bodyParts p := by simp [branches, harms, hparts]
      cases hb : body? p with
      | none => simp [bodyParts, hb] at hparts
      | some b =>
          have hparts' : bodyParts p = b.namedChildren := by simp [bodyParts, hb]
          obtain ⟨q, hq⟩ : ∃ q, q ∈ b.namedChildren := by
            rw [hparts', List.isEmpty_iff] at hparts
            exact List.exists_mem_of_ne_nil _ hparts
          have hbp := mem_children_of_childByField? hb
          have hbin : b ∈ p.children.filter (holdsBranch p) := by
            refine List.mem_filter.mpr ⟨hbp, List.any_eq_true.mpr ⟨q, ?_, ?_⟩⟩
            · rw [hbranches, hparts']; exact hq
            · exact h.nested b (mem_descendants_of_mem_below (mem_below_of_mem_children hbp)) q
                (mem_children_of_namedChildren hq)
          rw [hbranches, hparts']
          have hbelow : (b.namedChildren.flatMap descendants).Sublist b.descendants := by
            rw [descendants_eq]
            exact (List.filter_sublist.flatMap descendants).cons _
          refine hbelow.subperm.trans ?_
          have := subperm_flatMap (List.singleton_subperm_iff.mpr hbin) descendants
          rwa [List.flatMap_singleton] at this
  · refine ofChildren ?_
    simp only [branches, harms, Bool.not_false, if_true]
    exact arms_subperm p

/-! ## Iterated arguments -/

/-- The arguments of an iterated call other than the functions, and the
bodies of the functions, fit side by side into what lies below the
argument list. -/
theorem arguments_subperm (a : Adapter) (arguments : Place) :
    ((a.otherArguments arguments).flatMap descendants
        ++ ((a.inPlaceFunctions arguments).filterMap body?).flatMap descendants).Subperm
      arguments.descendants := by
  have hperm := (List.filter_append_perm (a.kinds.lambdas.contains ·.kind)
    arguments.namedChildren).flatMap_right descendants
  rw [List.flatMap_append] at hperm
  have hnamed : (arguments.namedChildren.flatMap descendants).Sublist arguments.descendants := by
    rw [descendants_eq]
    exact (List.filter_sublist.flatMap descendants).cons _
  have hbodies := bodies_subperm (a.inPlaceFunctions arguments)
  exact ((List.Subperm.refl _).append hbodies).trans
    ((List.perm_append_comm.trans hperm).subperm.trans hnamed.subperm)

/-- The callee and the argument list are different children. -/
theorem callee_arguments_subperm {call arguments : Place} (h : arguments? call = some arguments) :
    ((call.childByField? "function").toList ++ [arguments]).Subperm call.children := by
  have hcallee : (call.childByField? "function").toList.Subperm
      (call.children.filter (·.field == some "function")) :=
    toList_subperm_filter fun q hq =>
      ⟨mem_children_of_childByField? hq, field_of_childByField? hq⟩
  have harguments : [arguments].Subperm (call.children.filter (·.field == some "arguments")) :=
    List.singleton_subperm_iff.mpr
      (List.mem_filter.mpr ⟨mem_children_of_childByField? h, field_of_childByField? h⟩)
  refine (hcallee.append harguments).trans (filter_append_filter_subperm _ fun x _ hx => ?_)
  rw [beq_iff_eq] at hx
  simp [hx]

/-! ## The places of a reading -/

theorem reading_subperm {p : Place} (a : Adapter) (h : p.Sound) :
    ((a.reading p).places.flatMap descendants).Subperm p.below := by
  rw [below_eq]
  have hall : ((p.children ++ [].flatten).flatMap descendants).Subperm
      (p.children.flatMap descendants) := by
    rw [List.flatten_nil, List.append_nil]
  have hreads := a.reads p
  generalize a.classify p = c, a.reading p = r at hreads
  cases hreads with
  | through => exact List.Subperm.refl _
  | function =>
      refine subperm_flatMap ?_ descendants
      cases hb : body? p with
      | none => exact List.nil_subperm
      | some b => exact List.singleton_subperm_iff.mpr (mem_children_of_childByField? hb)
  | loop =>
      simp only [Reading.places, List.flatten_cons, List.flatten_nil, List.append_nil]
      rw [List.flatMap_append]
      refine filter_append_flatMap_subperm _ _ _ (subperm_flatMap ?_ descendants)
      refine toList_subperm_filter fun b hb => ⟨mem_children_of_childByField? hb, ?_⟩
      rw [Option.mem_def.mp hb]
      simp [BEq.beq]
  | conditional =>
      simp only [Reading.places, ← List.flatMap_def, List.flatMap_singleton']
      rw [List.flatMap_append]
      refine filter_append_flatMap_subperm _ _ _ ?_
      simpa using branches_subperm h
  | @iteration arguments hit =>
      have hsides := subperm_flatMap (callee_arguments_subperm hit.2.1) descendants
      rw [List.flatMap_append, List.flatMap_singleton] at hsides
      simp only [iterationReading, Reading.places, List.flatten_cons, List.flatten_nil,
        List.append_nil, List.append_assoc, List.flatMap_append]
      exact ((List.Subperm.refl _).append (arguments_subperm a arguments)).trans hsides
  | call _ => exact hall
  | allocation => exact hall
  | simple _ _ _ => exact hall

theorem nodup_reading {p : Place} (a : Adapter) (h : p.Sound) :
    ((a.reading p).places.flatMap descendants).Nodup := by
  obtain ⟨l, hperm, hsub⟩ := reading_subperm a h
  exact hperm.nodup_iff.mp (h.nodup_below.sublist hsub)

theorem mem_below_of_mem_reading {a : Adapter} {p q x : Place} (h : p.Sound)
    (hq : q ∈ (a.reading p).places) (hx : x ∈ q.descendants) : x ∈ p.below :=
  (reading_subperm a h).subset (List.mem_flatMap.mpr ⟨q, hq, hx⟩)

end Adapter

end CodeProfile
