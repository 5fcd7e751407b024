import CodeProfile.Proofs.Text.Slices
import CodeProfile.Proofs.Tree.Building

/-!
# Which calls a builder takes

A builder takes a call or refuses it. `TreeBuilder.Fits` says where a
node may be opened, and `takes_open_iff` that these are the openings
that a builder takes, no more and no less; closing asks for an open node
(`closeNode_ok_iff`), and a leaf is taken exactly where its opening is
(`takes_leaf_iff`).

A call is several checks and changes, and a caller holds one builder that
all of them work on. `TreeBuilder.inPlace` runs them one after the other
on such a builder (`InPlace`), where a failure leaves what was changed
before it. Still a refused call leaves the builder as it was
(`inPlace_of_error`): opening checks everything before it changes
anything (`on_openInPlace`), closing fails only where there is nothing to
take off (`on_closeInPlace`), and the second half of a leaf does not fail
(`on_leafInPlace`).

The headline, `steps_exact`, puts this together for every builder that
some run reaches: the refused calls of a run may be dropped without any
effect, and a tree comes out exactly if a node was opened and every
opened node was closed.
-/

namespace CodeProfile

namespace BuilderCall

/-- Whether the call opens a node. -/
def opens : BuilderCall → Bool
  | openNode _ | leaf _ => true
  | closeNode => false

/-- Whether the call closes a node. -/
def closes : BuilderCall → Bool
  | openNode _ => false
  | leaf _ | closeNode => true

end BuilderCall

namespace TreeBuilder

/-- The builder takes the call. -/
def Takes (b : TreeBuilder) (c : BuilderCall) : Prop := ∃ b', b.call c = .ok b'

/-- Where a node may be opened. -/
structure Fits (b : TreeBuilder) (spec : NodeSpec) : Prop where
  ordered : spec.startByte ≤ spec.endByte
  in_source : spec.endByte ≤ b.source.utf8ByteSize
  start_valid : String.Pos.Raw.IsValid b.source ⟨spec.startByte⟩
  stop_valid : String.Pos.Raw.IsValid b.source ⟨spec.endByte⟩
  room : b.stack.length < 256
  /-- The innermost open node is around the new one, or nothing has been
  opened yet. -/
  place : (∃ top, b.stack.head? = some top ∧ top.info.span.startByte ≤ spec.startByte
    ∧ spec.endByte ≤ top.info.span.endByte) ∨ b.opened = 0

/-! ## Opening -/

theorem spanText_ok_iff {b : TreeBuilder} {spec : NodeSpec} :
    (∃ text, b.spanText spec = .ok text) ↔
      spec.startByte ≤ spec.endByte ∧ spec.endByte ≤ b.source.utf8ByteSize
        ∧ String.Pos.Raw.IsValid b.source ⟨spec.startByte⟩
        ∧ String.Pos.Raw.IsValid b.source ⟨spec.endByte⟩ := by
  rw [← Text.exists_slice?_iff]
  unfold spanText
  cases hs : Text.slice? b.source.toList spec.startByte spec.endByte with
  | none => simp
  | some cs => simp

theorem checkDepth_ok_iff {b : TreeBuilder} : b.checkDepth = .ok () ↔ b.stack.length < 256 := by
  unfold checkDepth maxTreeDepth
  by_cases h : b.stack.length ≥ 256
  · simp [h]
  · simp [h, Nat.lt_of_not_le h]

theorem checkParent_ok_iff {b : TreeBuilder} {spec : NodeSpec} (h : b.opened = 0 → b.stack = []) :
    b.checkParent spec = .ok () ↔
      (∃ top, b.stack.head? = some top ∧ top.info.span.startByte ≤ spec.startByte
        ∧ spec.endByte ≤ top.info.span.endByte) ∨ b.opened = 0 := by
  unfold checkParent
  cases hs : b.stack with
  | nil =>
      by_cases hn : b.opened = 0
      · simp [hn]
      · simp [hn]
  | cons top rest =>
      have hn : b.opened ≠ 0 := fun hn => by
        have := h hn
        rw [hs] at this
        cases this
      by_cases hin : top.info.span.startByte ≤ spec.startByte
          ∧ spec.endByte ≤ top.info.span.endByte
      · simp [hin]
      · simp [hin, hn]

theorem openNode_ok_iff {b : TreeBuilder} {spec : NodeSpec} :
    (∃ r, b.openNode spec = .ok r) ↔
      (∃ text, b.spanText spec = .ok text) ∧ b.checkDepth = .ok ()
        ∧ b.checkParent spec = .ok () := by
  unfold openNode
  cases hs : b.spanText spec with
  | error e => simp [bind, Except.bind]
  | ok text =>
      cases hd : b.checkDepth with
      | error e => simp [bind, Except.bind]
      | ok u =>
          cases hp : b.checkParent spec with
          | error e => simp [bind, Except.bind]
          | ok u => simp [bind, Except.bind, pure, Except.pure]

theorem takes_iff_openNode {b : TreeBuilder} {spec : NodeSpec} :
    b.Takes (.openNode spec) ↔ ∃ r, b.openNode spec = .ok r := by
  constructor
  · rintro ⟨b', h⟩
    obtain ⟨n, ho⟩ := call_openNode_ok h
    exact ⟨_, ho⟩
  · rintro ⟨r, ho⟩
    exact ⟨r.1, by simp [call, ho, Except.map]⟩

/-- Where no node has been opened, none is open. -/
theorem Sound.stack_eq_nil {b : TreeBuilder} (h : b.Sound) (hn : b.opened = 0) : b.stack = [] := by
  have hids := h.numbered
  rw [hn, ids] at hids
  have hopen := (List.append_eq_nil_iff.mp hids).2
  cases hs : b.stack with
  | nil => rfl
  | cons top rest => simp [hs, OpenNode.ids] at hopen

theorem takes_open_iff {b : TreeBuilder} {spec : NodeSpec} (h : b.Sound) :
    b.Takes (.openNode spec) ↔ b.Fits spec := by
  rw [takes_iff_openNode, openNode_ok_iff, spanText_ok_iff, checkDepth_ok_iff,
    checkParent_ok_iff h.stack_eq_nil]
  constructor
  · rintro ⟨⟨ordered, in_source, start_valid, stop_valid⟩, room, place⟩
    exact ⟨ordered, in_source, start_valid, stop_valid, room, place⟩
  · rintro ⟨ordered, in_source, start_valid, stop_valid, room, place⟩
    exact ⟨⟨ordered, in_source, start_valid, stop_valid⟩, room, place⟩

/-! ## Closing -/

theorem closeNode_ok_iff {b : TreeBuilder} : (∃ b', b.closeNode = .ok b') ↔ b.stack ≠ [] := by
  unfold closeNode
  cases hs : b.stack with
  | nil => simp
  | cons top rest => cases rest <;> simp

/-- An opened node can be closed at once. -/
theorem closeNode_openNode {b b' : TreeBuilder} {spec : NodeSpec} {n : Nat}
    (h : b.openNode spec = .ok (b', n)) : ∃ b'', b'.closeNode = .ok b'' := by
  obtain ⟨-, -, -, rfl⟩ := openNode_ok h
  exact closeNode_ok_iff.mpr (List.cons_ne_nil _ _)

theorem leaf_eq (b : TreeBuilder) (spec : NodeSpec) :
    b.leaf spec = b.openNode spec >>= fun r => r.1.closeNode >>= fun b' => .ok (b', r.2) := rfl

theorem takes_leaf_iff {b : TreeBuilder} {spec : NodeSpec} :
    b.Takes (.leaf spec) ↔ b.Takes (.openNode spec) := by
  rw [takes_iff_openNode]
  constructor
  · rintro ⟨b', h⟩
    obtain ⟨b₁, n, ho, -⟩ := call_leaf_ok h
    exact ⟨_, ho⟩
  · rintro ⟨⟨b₁, n⟩, ho⟩
    obtain ⟨b', hc⟩ := closeNode_openNode ho
    exact ⟨b', by simp [call, leaf_eq, ho, hc, bind, Except.bind, Except.map]⟩

/-! ## Calls on one builder -/

/-- Work on a builder at hand. A failure ends the work, and what has been
done to the builder by then stays done. -/
abbrev InPlace (α : Type) := ExceptT AnalysisError (StateM TreeBuilder) α

namespace InPlace

variable {α β : Type} {b : TreeBuilder}

/-- What the work answers on a builder, and the builder that it leaves. -/
def on (work : InPlace α) (b : TreeBuilder) : Except AnalysisError α × TreeBuilder :=
  work.run.run b

/-- Looks at the builder at hand and goes on if nothing is wrong with it. -/
def check (look : TreeBuilder → Except AnalysisError Unit) : InPlace Unit := do
  match look (← get) with
  | .ok _ => return
  | .error e => throw e

theorem on_bind (x : InPlace α) (f : α → InPlace β) (b : TreeBuilder) :
    (x >>= f).on b = match x.on b with
      | (.ok a, b') => (f a).on b'
      | (.error e, b') => (.error e, b') := by
  simp only [on, ExceptT.run_bind, StateT.run_bind]
  rcases x.run.run b with ⟨_ | _, _⟩ <;> rfl

theorem on_map (f : α → β) (x : InPlace α) (b : TreeBuilder) :
    (f <$> x).on b = ((x.on b).1.map f, (x.on b).2) := by
  rw [map_eq_pure_bind, on_bind]
  rcases x.on b with ⟨_ | _, _⟩ <;> rfl

theorem on_check (look : TreeBuilder → Except AnalysisError Unit) (b : TreeBuilder) :
    (check look).on b = (look b, b) := by
  have hget : (get : InPlace TreeBuilder).on b = (.ok b, b) := rfl
  rw [check, on_bind, hget]
  dsimp only
  cases look b <;> rfl

/-- A check that fails ends the work with the builder as it was before the check. -/
theorem on_check_bind_error {look : TreeBuilder → Except AnalysisError Unit}
    {rest : Unit → InPlace β} {e : AnalysisError} (h : look b = .error e) :
    (check look >>= rest).on b = (.error e, b) := by
  rw [on_bind, on_check, h]

theorem on_check_bind_ok {look : TreeBuilder → Except AnalysisError Unit}
    {rest : Unit → InPlace β} (h : look b = .ok ()) :
    (check look >>= rest).on b = (rest ()).on b := by
  rw [on_bind, on_check, h]

end InPlace

open InPlace

/-- Gives a node its number and makes it the innermost open one. -/
def enter (spec : NodeSpec) : InPlace Nat := do
  let b ← get
  modify fun now => { now with opened := now.opened + 1 }
  modify fun now => { now with stack := ⟨spec.record b.source b.opened, []⟩ :: now.stack }
  return b.opened

/-- Opens a node on the builder at hand, once three checks have found nothing wrong. -/
def openInPlace (spec : NodeSpec) : InPlace Nat := do
  check fun b => (b.spanText spec).map fun _ => ()
  check (·.checkDepth)
  check (·.checkParent spec)
  enter spec

/-- Takes off the innermost open node. -/
def pop : InPlace (Option OpenNode) := do
  let b ← get
  set { b with stack := b.stack.tail }
  return b.stack.head?

/-- The builder with a closed node in the innermost open one, or as the root. -/
def receive (node : Node) (b : TreeBuilder) : TreeBuilder :=
  match b.stack with
  | [] => { b with finished := some node }
  | parent :: rest =>
    { b with stack := { parent with children := node :: parent.children } :: rest }

/-- Closes the innermost open node. That there is none shows only after the
attempt to take it off. -/
def closeInPlace : InPlace Unit := do
  match ← pop with
  | none => throw (.malformedTree "close() without open node")
  | some top => modify (receive (.mk top.info top.children.reverse))

/-- Opens a node and closes it. If closing failed, the node would stay
open. -/
def leafInPlace (spec : NodeSpec) : InPlace Nat := do
  let id ← openInPlace spec
  closeInPlace
  return id

/-- The work of a call, with the number of what it opens as its answer. -/
def work : BuilderCall → InPlace (Option Nat)
  | .openNode spec => some <$> openInPlace spec
  | .leaf spec => some <$> leafInPlace spec
  | .closeNode => (fun _ => none) <$> closeInPlace

/-- What a call answers, the number of what it opened, and the builder
that it leaves. -/
def inPlace (b : TreeBuilder) (c : BuilderCall) :
    Except AnalysisError (Option Nat) × TreeBuilder := (work c).on b

/-! ## A refused call leaves no mark -/

/-- The answer with the new builder, or the refusal with the builder as it was. -/
def kept {α : Type} (b : TreeBuilder) :
    Except AnalysisError (TreeBuilder × α) → Except AnalysisError α × TreeBuilder
  | .ok (b', a) => (.ok a, b')
  | .error e => (.error e, b)

theorem on_enter {b : TreeBuilder} {spec : NodeSpec} : (enter spec).on b = (.ok b.opened,
    { b with opened := b.opened + 1, stack := ⟨spec.record b.source b.opened, []⟩ :: b.stack }) :=
  rfl

/-- All checks come before the first change. -/
theorem on_openInPlace (b : TreeBuilder) (spec : NodeSpec) :
    (openInPlace spec).on b = b.kept (b.openNode spec) := by
  unfold openInPlace openNode
  cases hs : b.spanText spec with
  | error e => exact on_check_bind_error (by rw [hs]; rfl)
  | ok text =>
      rw [on_check_bind_ok (by rw [hs]; rfl)]
      cases hd : b.checkDepth with
      | error e => exact on_check_bind_error hd
      | ok u =>
          rw [on_check_bind_ok hd]
          cases hp : b.checkParent spec with
          | error e => exact on_check_bind_error hp
          | ok u =>
              rw [on_check_bind_ok hp, on_enter, ← text_record hs b.opened]
              rfl

/-- Where nothing is open, nothing is taken off. -/
theorem on_closeInPlace (b : TreeBuilder) :
    closeInPlace.on b = b.kept (b.closeNode.map fun b' => (b', ())) := by
  obtain ⟨language, source, opened, stack, finished⟩ := b
  cases stack with
  | nil => rfl
  | cons top rest => cases rest <;> rfl

/-- Closing what was just opened does not fail. -/
theorem on_leafInPlace (b : TreeBuilder) (spec : NodeSpec) :
    (leafInPlace spec).on b = b.kept (b.leaf spec) := by
  rw [leafInPlace, on_bind, on_openInPlace, leaf_eq]
  cases ho : b.openNode spec with
  | error e => rfl
  | ok r =>
      obtain ⟨b', hc⟩ := closeNode_openNode ho
      show (closeInPlace >>= _).on r.1 = b.kept (r.1.closeNode >>= _)
      rw [on_bind, on_closeInPlace, hc]
      rfl

theorem map_kept {α β : Type} (f : α → β) (b : TreeBuilder)
    (r : Except AnalysisError (TreeBuilder × α)) : ((b.kept r).1.map f, (b.kept r).2)
      = b.kept (r.map fun taken => (taken.1, f taken.2)) := by
  cases r <;> rfl

/-- A call works on the builder at hand only if it is taken. -/
theorem inPlace_eq_kept (b : TreeBuilder) (c : BuilderCall) :
    ∃ r, b.inPlace c = b.kept r ∧ b.call c = r.map (·.1) := by
  rw [inPlace]
  cases c with
  | openNode spec =>
      rw [work, on_map, on_openInPlace, map_kept]
      refine ⟨_, rfl, ?_⟩
      rw [call]
      cases b.openNode spec <;> rfl
  | leaf spec =>
      rw [work, on_map, on_leafInPlace, map_kept]
      refine ⟨_, rfl, ?_⟩
      rw [call]
      cases b.leaf spec <;> rfl
  | closeNode =>
      rw [work, on_map, on_closeInPlace, map_kept]
      refine ⟨_, rfl, ?_⟩
      rw [call]
      cases b.closeNode <;> rfl

/-- A refused call leaves the builder as it was. -/
theorem inPlace_of_error {b : TreeBuilder} {c : BuilderCall} {e : AnalysisError}
    (h : b.call c = .error e) : b.inPlace c = (.error e, b) := by
  obtain ⟨r, hr, hcall⟩ := b.inPlace_eq_kept c
  rw [hcall] at h
  cases r with
  | error e' =>
      rw [hr]
      cases h
      rfl
  | ok taken => cases h

/-- A call that is taken leaves the builder that it gives. -/
theorem inPlace_of_ok {b b' : TreeBuilder} {c : BuilderCall} (h : b.call c = .ok b') :
    ∃ answer, b.inPlace c = (.ok answer, b') := by
  obtain ⟨r, hr, hcall⟩ := b.inPlace_eq_kept c
  rw [hcall] at h
  cases r with
  | error e => cases h
  | ok taken =>
      rw [hr]
      cases h
      exact ⟨taken.2, rfl⟩

theorem inPlace_snd (b : TreeBuilder) (c : BuilderCall) : (b.inPlace c).2 = b.apply c := by
  cases h : b.call c with
  | error e => rw [inPlace_of_error h, apply, h]
  | ok b' =>
      obtain ⟨answer, hb⟩ := inPlace_of_ok h
      rw [hb, apply, h]

theorem foldl_inPlace (b : TreeBuilder) (calls : List BuilderCall) :
    calls.foldl (fun b c => (b.inPlace c).2) b = b.run calls := by
  simp only [inPlace_snd]
  rfl

/-! ## The calls that a run takes -/

/-- The calls of a run that the builder takes, in order. -/
def accepted (b : TreeBuilder) : List BuilderCall → List BuilderCall
  | [] => []
  | c :: calls =>
    match b.call c with
    | .ok b' => c :: b'.accepted calls
    | .error _ => b.accepted calls

/-- The builder after calls all of which it has to take. -/
def follow (b : TreeBuilder) : List BuilderCall → Except AnalysisError TreeBuilder
  | [] => .ok b
  | c :: calls =>
    match b.call c with
    | .ok b' => b'.follow calls
    | .error e => .error e

theorem run_cons (b : TreeBuilder) (c : BuilderCall) (calls : List BuilderCall) :
    b.run (c :: calls) = (b.apply c).run calls := rfl

/-- Dropping the refused calls changes nothing. -/
theorem follow_accepted (b : TreeBuilder) (calls : List BuilderCall) :
    b.follow (b.accepted calls) = .ok (b.run calls) := by
  induction calls generalizing b with
  | nil => rfl
  | cons c calls ih =>
      rw [run_cons]
      cases hc : b.call c with
      | error e => simp only [accepted, apply, hc, ih]
      | ok b' => simp only [accepted, follow, apply, hc, ih]

theorem counts_openNode {b b' : TreeBuilder} {spec : NodeSpec} {n : Nat}
    (h : b.openNode spec = .ok (b', n)) :
    b'.opened = b.opened + 1 ∧ b'.stack.length = b.stack.length + 1 := by
  obtain ⟨-, -, -, rfl⟩ := openNode_ok h
  exact ⟨rfl, rfl⟩

theorem counts_closeNode {b b' : TreeBuilder} (h : b.closeNode = .ok b') :
    b'.opened = b.opened ∧ b'.stack.length + 1 = b.stack.length := by
  unfold closeNode at h
  cases hs : b.stack with
  | nil => simp [hs] at h
  | cons top rest =>
      cases rest with
      | nil =>
          simp only [hs, Except.ok.injEq] at h
          subst h
          exact ⟨rfl, rfl⟩
      | cons parent rest =>
          simp only [hs, Except.ok.injEq] at h
          subst h
          exact ⟨rfl, rfl⟩

/-- What one call does to the number of opened and of open nodes. -/
theorem counts_call {b b' : TreeBuilder} {c : BuilderCall} (h : b.call c = .ok b') :
    b'.opened = b.opened + c.opens.toNat
      ∧ b'.stack.length + c.closes.toNat = b.stack.length + c.opens.toNat := by
  cases c with
  | openNode spec =>
      obtain ⟨n, ho⟩ := call_openNode_ok h
      exact counts_openNode ho
  | leaf spec =>
      obtain ⟨b₁, n, ho, hc⟩ := call_leaf_ok h
      obtain ⟨hopened, hlength⟩ := counts_openNode ho
      obtain ⟨hopened', hlength'⟩ := counts_closeNode hc
      simp only [BuilderCall.opens, BuilderCall.closes, Bool.toNat_true]
      omega
  | closeNode =>
      obtain ⟨hopened, hlength⟩ := counts_closeNode h
      exact ⟨hopened, hlength⟩

theorem counts_follow {b b' : TreeBuilder} {calls : List BuilderCall}
    (h : b.follow calls = .ok b') :
    b'.opened = b.opened + calls.countP (·.opens)
      ∧ b'.stack.length + calls.countP (·.closes) = b.stack.length + calls.countP (·.opens) := by
  induction calls generalizing b with
  | nil =>
      cases h
      exact ⟨rfl, rfl⟩
  | cons c calls ih =>
      cases hc : b.call c with
      | error e => simp [follow, hc] at h
      | ok b₁ =>
          simp only [follow, hc] at h
          obtain ⟨hopened, hstack⟩ := counts_call hc
          obtain ⟨hopened', hstack'⟩ := ih h
          have hcount (p : BuilderCall → Bool) :
              (c :: calls).countP p = (p c).toNat + calls.countP p := by
            cases hp : p c <;> simp [hp, Nat.add_comm]
          rw [hcount, hcount]
          omega

/-! ## Finishing -/

theorem finish_ok_iff {b : TreeBuilder} (h : b.Sound) :
    (∃ t, b.finish = .ok t) ↔ 0 < b.opened ∧ b.stack = [] := by
  unfold finish
  cases hs : b.stack with
  | cons top rest => simp
  | nil =>
      cases hf : b.finished with
      | none =>
          have hids := h.numbered
          rw [ids, hf, hs] at hids
          have hzero : b.opened = 0 := List.range_eq_nil.mp hids.symm
          simp [hzero]
      | some root =>
          have hpos : 0 < b.opened := by
            rcases Nat.eq_zero_or_pos b.opened with hn | hpos
            · rw [h.finished_eq_none hn] at hf
              cases hf
            · exact hpos
          simp [hpos]

/-! ## Every run -/

/-- What holds of the builder `b` that some calls on a builder reached,
whether they failed or not. `done` are the calls that were taken. -/
structure Exact (start : TreeBuilder) (calls : List BuilderCall) (b : TreeBuilder)
    (done : List BuilderCall) : Prop where
  reached : calls.foldl (fun b c => (b.inPlace c).2) start = b
  takes_open : ∀ spec, b.Takes (.openNode spec) ↔ b.Fits spec
  takes_close : b.Takes .closeNode ↔ b.stack ≠ []
  takes_leaf : ∀ spec, b.Takes (.leaf spec) ↔ b.Takes (.openNode spec)
  /-- Only a call that is taken works on the builder. -/
  atomic : ∀ c, ¬ b.Takes c → ∃ e, b.inPlace c = (.error e, b)
  opened_eq : b.opened = done.countP (·.opens)
  /-- Without the refused calls the same builder is reached, and with it
  the same tree or the same refusal. -/
  followed : start.follow done = .ok b
  same_tree : start.follow done >>= finish = b.finish
  finishes : (∃ t, b.finish = .ok t) ↔
    0 < done.countP (·.opens) ∧ done.countP (·.opens) = done.countP (·.closes)

theorem steps_exact (source : String) (language : Language) (calls : List BuilderCall) :
    Exact (new source language) calls ((new source language).run calls)
      ((new source language).accepted calls) := by
  have hsound := (Sound.new source language).run calls
  have hfollow := follow_accepted (new source language) calls
  obtain ⟨hopened, hopen⟩ := counts_follow hfollow
  have hopened' : ((new source language).run calls).opened
      = ((new source language).accepted calls).countP (·.opens) := by
    rw [hopened]
    exact Nat.zero_add _
  refine ⟨foldl_inPlace _ _, fun _ => takes_open_iff hsound, closeNode_ok_iff,
    fun _ => takes_leaf_iff, ?_, hopened', hfollow, by rw [hfollow]; rfl, ?_⟩
  · intro c hc
    cases h : ((new source language).run calls).call c with
    | error e => exact ⟨e, inPlace_of_error h⟩
    | ok b' => exact absurd ⟨b', h⟩ hc
  · have hnone : (new source language).stack.length = 0 := rfl
    rw [finish_ok_iff hsound, hopened', ← List.length_eq_zero_iff]
    omega

end TreeBuilder

end CodeProfile
