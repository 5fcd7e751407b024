import CodeProfile.Proofs.Lowering.Reading

/-!
# Which places lowering visits

Lowering follows readings from place to place. `visited` lists the
places it comes by, and `owned` those of them whose statements end up in
the same block: a function is visited, but what its body holds belongs
to the function.

In a sound tree no place is visited twice (`visited_subperm`), a place
is visited exactly if no visited place above it loses it
(`mem_visited_iff`), and no function is visited between a block and a
place that the block owns (`not_function_above_owned`). Together the
owned places of the root and of all functions are all that is visited
(`visited_perm`).
-/

namespace CodeProfile

namespace Reading

/-- The body of a function; nothing for other readings. -/
def bodyParts : Reading → List Place
  | function body => body
  | _ => []

/-- The places whose statements go to the block around the place that is
read. -/
def ownParts : Reading → List Place
  | function _ => []
  | r => r.places

def isFunction : Reading → Bool
  | function _ => true
  | _ => false

theorem places_eq_of_not_function {r : Reading} (h : r.isFunction = false) :
    r.places = r.ownParts := by
  cases r with
  | function body => cases h
  | through parts => rfl
  | statement head before inside => rfl

theorem bodyParts_subset (r : Reading) : r.bodyParts ⊆ r.places := by
  cases r with
  | function body => exact List.Subset.refl _
  | through parts => exact List.nil_subset _
  | statement head before inside => exact List.nil_subset _

theorem ownParts_subset (r : Reading) : r.ownParts ⊆ r.places := by
  cases r with
  | function body => exact List.nil_subset _
  | through parts => exact List.Subset.refl _
  | statement head before inside => exact List.Subset.refl _

end Reading

namespace Adapter

open Place

/-- Whether lowering makes a function of the place. -/
def isFunction (a : Adapter) (p : Place) : Bool := (a.reading p).isFunction

theorem isFunction_iff {a : Adapter} {p : Place} :
    a.isFunction p = true ↔ a.classify p = some .function := by
  have hreads := a.reads p
  unfold isFunction
  generalize a.classify p = c, a.reading p = r at hreads
  cases hreads with
  | function => simp [Reading.isFunction]
  | through => simp [Reading.isFunction]
  | simple c _ h => simpa [Reading.isFunction] using h.1
  | _ => simp [Reading.isFunction, iterationReading]

/-- Induction along readings: a property of every place, given that a
place has it as soon as the places of its reading do. -/
theorem reading_induction (a : Adapter) {motive : Place → Prop}
    (step : ∀ p, (∀ q ∈ (a.reading p).places, motive q) → motive p) (p : Place) :
    motive p :=
  step p fun q _hq => reading_induction a step q
termination_by p.node.size
decreasing_by exact size_lt_of_mem_reading _hq

/-! ## Visited places -/

/-- The places that lowering a place comes by. -/
def visited (a : Adapter) (p : Place) : List Place :=
  p :: (a.reading p).places.attach.flatMap fun ⟨q, _⟩ => a.visited q
termination_by p.node.size
decreasing_by exact size_lt_of_mem_reading ‹_›

theorem visited_eq (a : Adapter) (p : Place) :
    a.visited p = p :: (a.reading p).places.flatMap a.visited := by
  rw [visited]
  simp

theorem mem_visited {a : Adapter} {p x : Place} :
    x ∈ a.visited p ↔ x = p ∨ ∃ q ∈ (a.reading p).places, x ∈ a.visited q := by
  rw [visited_eq, List.mem_cons, List.mem_flatMap]

theorem self_mem_visited (a : Adapter) (p : Place) : p ∈ a.visited p :=
  mem_visited.mpr (Or.inl rfl)

theorem visited_trans {a : Adapter} {p q x : Place} (hq : q ∈ a.visited p)
    (hx : x ∈ a.visited q) : x ∈ a.visited p := by
  induction p using a.reading_induction with
  | step p ih =>
      rcases mem_visited.mp hq with rfl | ⟨c, hc, hqc⟩
      · exact hx
      · exact mem_visited.mpr (Or.inr ⟨c, hc, ih c hc hqc⟩)

theorem subperm_flatMap_of_forall {α β : Type} {l : List α} {f g : α → List β}
    (h : ∀ x ∈ l, (f x).Subperm (g x)) : (l.flatMap f).Subperm (l.flatMap g) := by
  induction l with
  | nil => exact List.Subperm.refl _
  | cons x l ih =>
      rw [List.flatMap_cons, List.flatMap_cons]
      exact (h x (List.mem_cons_self ..)).append
        (ih fun y hy => h y (List.mem_cons_of_mem _ hy))

/-- No place is visited more often than it stands in the tree. -/
theorem visited_subperm {a : Adapter} {p : Place} (h : p.Sound) :
    (a.visited p).Subperm p.descendants := by
  induction p using a.reading_induction with
  | step p ih =>
      rw [visited_eq, descendants_eq_cons_below, List.subperm_cons]
      refine List.Subperm.trans (subperm_flatMap_of_forall fun q hq => ?_) (reading_subperm a h)
      have hqp := mem_below_of_mem_reading h hq (self_mem_descendants q)
      exact ih q hq (h.of_mem_below hqp)

theorem mem_descendants_of_mem_visited {a : Adapter} {p x : Place} (h : p.Sound)
    (hx : x ∈ a.visited p) : x ∈ p.descendants :=
  (visited_subperm h).subset hx

theorem sound_of_mem_reading {a : Adapter} {p q : Place} (h : p.Sound)
    (hq : q ∈ (a.reading p).places) : q.Sound :=
  h.of_mem_below (mem_below_of_mem_reading h hq (self_mem_descendants q))

/-- What is visited from `p` and lies at or below a visited place is
visited from there: the way to it leads through that place. -/
theorem visited_of_mem_descendants {a : Adapter} {p q x : Place} (h : p.Sound)
    (hq : q ∈ a.visited p) (hx : x ∈ a.visited p) (hxq : x ∈ q.descendants) :
    x ∈ a.visited q := by
  induction p using a.reading_induction with
  | step p ih =>
      rcases mem_visited.mp hq with rfl | ⟨r, hr, hqr⟩
      · exact hx
      · have hrs := sound_of_mem_reading h hr
        have hxr := descendants_trans (mem_descendants_of_mem_visited hrs hqr) hxq
        rcases mem_visited.mp hx with rfl | ⟨s, hs, hxs⟩
        · exact absurd (mem_below_of_mem_reading h hr hxr) (not_mem_below_self x)
        · have hxs' := mem_descendants_of_mem_visited (sound_of_mem_reading h hs) hxs
          obtain rfl := eq_of_mem_descendants (nodup_reading a h) hs hr hxs' hxr
          exact ih s hs hrs hqr hxs

/-- The reading of `m` goes on to `x`. -/
def Reaches (a : Adapter) (m x : Place) : Prop := ∃ q ∈ (a.reading m).places, x ∈ q.descendants

/-- A place is visited exactly if every visited place above it reaches
it. -/
theorem mem_visited_iff {a : Adapter} {p x : Place} (h : p.Sound) (hx : x ∈ p.descendants) :
    x ∈ a.visited p ↔ ∀ m ∈ a.visited p, x ∈ m.below → a.Reaches m x := by
  constructor
  · intro hvis m hm hxm
    have hsm := h.of_mem (mem_descendants_of_mem_visited h hm)
    rcases mem_visited.mp
      (visited_of_mem_descendants h hm hvis (mem_descendants_of_mem_below hxm)) with rfl | hreach
    · exact absurd hxm (not_mem_below_self x)
    · obtain ⟨q, hq, hxq⟩ := hreach
      exact ⟨q, hq, mem_descendants_of_mem_visited (sound_of_mem_reading hsm hq) hxq⟩
  · intro hall
    induction p using a.reading_induction with
    | step p ih =>
        rcases mem_descendants.mp hx with rfl | hxp
        · exact self_mem_visited a x
        · obtain ⟨q, hq, hxq⟩ := hall p (self_mem_visited a p) hxp
          refine mem_visited.mpr (Or.inr ⟨q, hq, ih q hq (sound_of_mem_reading h hq) hxq ?_⟩)
          exact fun m hm => hall m (mem_visited.mpr (Or.inr ⟨q, hq, hm⟩))

/-! ## Owned places -/

/-- The visited places whose statements go to the same block as those of
the place itself. -/
def owned (a : Adapter) (p : Place) : List Place :=
  if a.isFunction p then []
  else p :: (a.reading p).ownParts.attach.flatMap fun ⟨q, _⟩ => a.owned q
termination_by p.node.size
decreasing_by exact size_lt_of_mem_reading (Reading.ownParts_subset _ ‹_›)

/-- The places that the block of a function owns. -/
def bodyOwned (a : Adapter) (p : Place) : List Place :=
  (a.reading p).bodyParts.flatMap a.owned

theorem owned_of_function {a : Adapter} {p : Place} (h : a.isFunction p = true) :
    a.owned p = [] := by
  rw [owned, if_pos h]

theorem owned_of_not_function {a : Adapter} {p : Place} (h : a.isFunction p = false) :
    a.owned p = p :: (a.reading p).places.flatMap a.owned := by
  rw [owned, if_neg (by simp [h]), Reading.places_eq_of_not_function h]
  simp

theorem mem_owned {a : Adapter} {p x : Place} (hx : x ∈ a.owned p) :
    a.isFunction p = false ∧ (x = p ∨ ∃ q ∈ (a.reading p).places, x ∈ a.owned q) := by
  cases hf : a.isFunction p with
  | true =>
      rw [owned_of_function hf] at hx
      cases hx
  | false =>
      rw [owned_of_not_function hf, List.mem_cons, List.mem_flatMap] at hx
      exact ⟨rfl, hx⟩

theorem visited_of_owned {a : Adapter} {p x : Place} (hx : x ∈ a.owned p) : x ∈ a.visited p := by
  induction p using a.reading_induction with
  | step p ih =>
      rcases (mem_owned hx).2 with rfl | ⟨q, hq, hxq⟩
      · exact self_mem_visited a x
      · exact mem_visited.mpr (Or.inr ⟨q, hq, ih q hq hxq⟩)

/-- Between a block and a place that it owns no function is visited. -/
theorem not_function_above_owned {a : Adapter} {p x m : Place} (h : p.Sound)
    (hx : x ∈ a.owned p) (hm : m ∈ a.visited p) (hxm : x ∈ m.below) :
    a.isFunction m = false := by
  induction p using a.reading_induction with
  | step p ih =>
      obtain ⟨hp, hx⟩ := mem_owned hx
      have hmp := mem_descendants_of_mem_visited h hm
      rcases hx with rfl | ⟨q, hq, hxq⟩
      · exact absurd hmp (not_mem_descendants_of_mem_below hxm)
      · rcases mem_visited.mp hm with rfl | ⟨r, hr, hmr⟩
        · exact hp
        · have hqs := sound_of_mem_reading h hq
          have hrs := sound_of_mem_reading h hr
          have hxr := descendants_trans (mem_descendants_of_mem_visited hrs hmr)
            (mem_descendants_of_mem_below hxm)
          have hxq' := mem_descendants_of_mem_visited hqs (visited_of_owned hxq)
          obtain rfl := eq_of_mem_descendants (nodup_reading a h) hq hr hxq' hxr
          exact ih q hq hqs hxq hmr

/-- Everything visited is owned by the block of the place itself or by
the block of a visited function, or is such a function. -/
theorem visited_perm (a : Adapter) (p : Place) :
    (a.visited p).Perm
      (a.owned p ++ ((a.visited p).filter a.isFunction).flatMap fun g => g :: a.bodyOwned g) := by
  induction p using a.reading_induction with
  | step p ih =>
      have hrest : ((a.reading p).places.flatMap a.visited).Perm
          ((a.reading p).places.flatMap a.owned
            ++ (((a.reading p).places.flatMap a.visited).filter a.isFunction).flatMap
              fun g => g :: a.bodyOwned g) := by
        rw [List.filter_flatMap, List.flatMap_assoc]
        exact (List.Perm.flatMap_left _ ih).trans (List.flatMap_append_perm _ _ _).symm
      rw [visited_eq]
      cases hf : a.isFunction p with
      | true =>
          have hbody : (a.reading p).places.flatMap a.owned = a.bodyOwned p := by
            unfold isFunction at hf
            unfold bodyOwned
            generalize a.reading p = r at hf
            cases r with
            | function body => rfl
            | through parts => cases hf
            | statement head before inside => cases hf
          rw [hbody] at hrest
          rw [owned_of_function hf, List.filter_cons_of_pos hf, List.flatMap_cons, List.nil_append,
            List.cons_append]
          exact hrest.cons p
      | false =>
          rw [owned_of_not_function hf, List.filter_cons_of_neg (by simp [hf]), List.cons_append]
          exact hrest.cons p

end Adapter

end CodeProfile
