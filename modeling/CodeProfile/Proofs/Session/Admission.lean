import CodeProfile.Session.Cache
import Mathlib.Data.List.DropRight
import Mathlib.Data.List.Nodup

/-!
# A store keeps the last admissions

A store has its values in one list and the queue of its keys in another,
and every operation changes both. `Cache.InStep` says that they fit
together: the queue lists the keys of the values, each once, and there is
room for all of them. It holds of a new store and every call keeps it
(`InStep.call`).

In step, taking keys from the front of the queue until the values fit
takes the front off both lists alike (`shrink_eq`). So the queue is the
end of the list of all admissions since the store was last cleared
(`queue_after`), a full store drops the first key of the queue and no
other (`dropped_insert`), and what is found under a key was stored by the
last insertion under it (`get?_after`). The headline is
`keepsLast_reached`.
-/

namespace CodeProfile

/-- What a caller can ask of a store. -/
inductive CacheCall (K V : Type) where
  | insert (key : K) (value : V)
  | get (key : K)
  | contains (key : K)
  | clear

/-- What the store answers. -/
inductive CacheReply (V : Type) where
  | done
  | found (value : Option V)
  | present (answer : Bool)

namespace Cache

variable {K V : Type} {c d : Cache K V} {key : K} {value : V}

/-! ## Values and queue in step -/

/-- The queue lists the keys of the values, and there is room for all of
them. -/
structure InStep (c : Cache K V) : Prop where
  keys : c.entries.map Prod.fst = c.queue
  distinct : c.queue.Nodup
  bounded : c.queue.length ≤ c.capacity
  room : 0 < c.capacity

theorem InStep.new (capacity : Nat) : (Cache.new capacity : Cache K V).InStep where
  keys := rfl
  distinct := List.nodup_nil
  bounded := Nat.zero_le _
  room := Nat.le_max_right capacity 1

theorem InStep.size_eq (h : c.InStep) : c.size = c.queue.length := by
  rw [← h.keys, List.length_map, size]

theorem InStep.nodup_append (h : c.InStep) (habsent : key ∉ c.queue) :
    (c.queue ++ [key]).Nodup := by
  rw [← List.concat_eq_append]
  exact h.distinct.concat habsent

/-- To the end of a list one more belongs than to the end of its end. -/
theorem rtake_append_singleton (xs : List K) (x : K) (n : Nat) :
    (xs.rtake n ++ [x]).rtake n = (xs ++ [x]).rtake n := by
  have hinner : xs.drop (xs.length - n) ++ [x] = (xs ++ [x]).drop (xs.length - n) :=
    (List.drop_append_of_le_length (Nat.sub_le _ _)).symm
  simp only [List.rtake, hinner, List.drop_drop, List.length_drop, List.length_append,
    List.length_singleton]
  congr 1
  omega

variable [DecidableEq K]

def call (c : Cache K V) : CacheCall K V → CacheReply V × Cache K V
  | .insert key value => (.done, c.insert key value)
  | .get key => (.found (c.get? key), c)
  | .contains key => (.present (c.contains key), c)
  | .clear => (.done, c.clear)

/-- The store after several calls. -/
def after (c : Cache K V) (calls : List (CacheCall K V)) : Cache K V :=
  calls.foldl (fun c request => (c.call request).2) c

theorem after_cons (c : Cache K V) (request : CacheCall K V) (calls : List (CacheCall K V)) :
    c.after (request :: calls) = (c.call request).2.after calls := rfl

theorem insert_of_contains (h : c.contains key = true) (value : V) :
    c.insert key value = c.replace key value :=
  if_pos h

theorem insert_of_not_contains (h : c.contains key ≠ true) (value : V) :
    c.insert key value = c.append key value :=
  if_neg h

/-- Shrinking takes as much from the front of the values as from the front
of the queue. -/
theorem shrink_eq {capacity : Nat} {entries : List (K × V)} {queue : List K}
    (hkeys : entries.map Prod.fst = queue) (hdistinct : queue.Nodup) :
    shrink capacity entries queue =
      (entries.drop (queue.length - capacity), queue.drop (queue.length - capacity)) := by
  induction queue generalizing entries with
  | nil =>
      rw [List.map_eq_nil_iff.mp hkeys, shrink, List.drop_nil, List.drop_nil]
  | cons oldest queue ih =>
      obtain ⟨⟨k, v⟩, entries, rfl, rfl, hrest⟩ := List.map_eq_cons_iff.mp hkeys
      obtain ⟨hfresh, hdistinct⟩ := List.nodup_cons.mp hdistinct
      have hlength : entries.length = queue.length := by rw [← hrest, List.length_map]
      rw [shrink, List.length_cons, List.length_cons, hlength]
      split
      · have hremoved : ((k, v) :: entries).filter (·.1 ≠ k) = entries := by
          rw [List.filter_cons_of_neg (by simp), List.filter_eq_self]
          rintro e he
          have hmem : e.1 ∈ queue := by
            rw [← hrest]
            exact List.mem_map_of_mem he
          exact decide_eq_true fun heq => hfresh (heq ▸ hmem)
        have hsucc : queue.length + 1 - capacity = queue.length - capacity + 1 := by omega
        rw [hremoved, ih hrest hdistinct, hsucc, List.drop_succ_cons, List.drop_succ_cons]
      · have hzero : queue.length + 1 - capacity = 0 := by omega
        rw [hzero, List.drop_zero, List.drop_zero]

namespace InStep

theorem contains_iff (h : c.InStep) : c.contains key = true ↔ key ∈ c.queue := by
  rw [← h.keys, contains, List.any_eq_true, List.mem_map]
  simp only [decide_eq_true_eq]

/-- Where a key is absent, what is added at the end is taken away in front
as far as there is no room. -/
theorem append_eq (h : c.InStep) (habsent : key ∉ c.queue) :
    c.append key value =
      { c with
        entries := (c.entries ++ [(key, value)]).drop (c.queue.length + 1 - c.capacity)
        queue := (c.queue ++ [key]).drop (c.queue.length + 1 - c.capacity) } := by
  have hkeys : (c.entries ++ [(key, value)]).map Prod.fst = c.queue ++ [key] := by
    rw [List.map_append, h.keys]
    rfl
  rw [append, shrink_eq hkeys (h.nodup_append habsent), List.length_append]
  rfl

theorem replace (h : c.InStep) (key : K) (value : V) : (c.replace key value).InStep where
  keys := by
    rw [Cache.replace, ← h.keys, List.map_map]
    refine List.map_congr_left fun e _ => ?_
    simp only [Function.comp_apply]
    split <;> rfl
  distinct := h.distinct
  bounded := h.bounded
  room := h.room

theorem append (h : c.InStep) (habsent : key ∉ c.queue) (value : V) :
    (c.append key value).InStep := by
  rw [h.append_eq habsent]
  constructor
  case keys => rw [List.map_drop, List.map_append, h.keys, List.map_singleton]
  case distinct => exact (h.nodup_append habsent).sublist (List.drop_sublist _ _)
  case bounded =>
    rw [List.length_drop, List.length_append, List.length_singleton]
    have := h.room
    dsimp only
    omega
  case room => exact h.room

theorem insert (h : c.InStep) (key : K) (value : V) : (c.insert key value).InStep := by
  by_cases hc : c.contains key = true
  · rw [insert_of_contains hc]
    exact h.replace key value
  · rw [insert_of_not_contains hc]
    exact h.append (fun hmem => hc (h.contains_iff.mpr hmem)) value

theorem call (h : c.InStep) (request : CacheCall K V) : (c.call request).2.InStep := by
  cases request with
  | insert key value => exact h.insert key value
  | get key => exact h
  | contains key => exact h
  | clear => exact ⟨rfl, List.nodup_nil, Nat.zero_le _, h.room⟩

theorem after (h : c.InStep) (calls : List (CacheCall K V)) : (c.after calls).InStep := by
  induction calls generalizing c with
  | nil => exact h
  | cons request calls ih => exact ih (h.call request)

end InStep

theorem capacity_insert (c : Cache K V) (key : K) (value : V) :
    (c.insert key value).capacity = c.capacity := by
  rw [insert]
  split <;> rfl

theorem capacity_call (c : Cache K V) (request : CacheCall K V) :
    (c.call request).2.capacity = c.capacity := by
  cases request with
  | insert key value => exact c.capacity_insert key value
  | _ => rfl

theorem capacity_after (c : Cache K V) (calls : List (CacheCall K V)) :
    (c.after calls).capacity = c.capacity := by
  induction calls generalizing c with
  | nil => rfl
  | cons request calls ih => rw [after_cons, ih, capacity_call]

/-! ## The queue is the end of the admissions -/

/-- The queue changes only where a key is added. -/
theorem queue_insert (h : c.InStep) (key : K) (value : V) :
    (c.insert key value).queue =
      if c.contains key then c.queue else (c.queue ++ [key]).rtake c.capacity := by
  by_cases hc : c.contains key = true
  · rw [insert_of_contains hc, if_pos hc]
    rfl
  · have habsent : key ∉ c.queue := fun hmem => hc (h.contains_iff.mpr hmem)
    rw [insert_of_not_contains hc, h.append_eq habsent, if_neg hc, List.rtake, List.length_append,
      List.length_singleton]

/-- The admissions so far, after one more call to the store. Storing under
an absent key is an admission. -/
def noteAdmission (c : Cache K V) (admitted : List K) : CacheCall K V → List K
  | .insert key _ => if c.contains key then admitted else admitted ++ [key]
  | .get _ => admitted
  | .contains _ => admitted
  | .clear => []

/-- The admissions after several calls to the store, the first one in
front, as far as they were not cleared away. -/
def admissions (c : Cache K V) (admitted : List K) : List (CacheCall K V) → List K
  | [] => admitted
  | request :: calls => (c.call request).2.admissions (c.noteAdmission admitted request) calls

theorem queue_call (h : c.InStep) {admitted : List K} (hq : c.queue = admitted.rtake c.capacity)
    (request : CacheCall K V) :
    (c.call request).2.queue = (c.noteAdmission admitted request).rtake c.capacity := by
  cases request with
  | insert key value =>
      show (c.insert key value).queue = _
      rw [queue_insert h, noteAdmission, hq]
      split
      · rfl
      · exact rtake_append_singleton admitted key c.capacity
  | get key => exact hq
  | contains key => exact hq
  | clear => exact (List.rtake_nil _).symm

theorem queue_after (h : c.InStep) {admitted : List K} (hq : c.queue = admitted.rtake c.capacity)
    (calls : List (CacheCall K V)) :
    (c.after calls).queue = (c.admissions admitted calls).rtake c.capacity := by
  induction calls generalizing c admitted with
  | nil => exact hq
  | cons request calls ih =>
      have hcall := queue_call h hq request
      rw [← capacity_call c request] at hcall
      rw [after_cons, ih (h.call request) hcall, capacity_call]
      rfl

/-! ## What is found under a key -/

theorem mem_entries_of_get? (h : c.get? key = some value) : (key, value) ∈ c.entries := by
  obtain ⟨e, he, rfl⟩ := Option.map_eq_some_iff.mp h
  have hkey := List.find?_some he
  rw [decide_eq_true_eq] at hkey
  rw [← hkey]
  exact List.mem_of_find?_eq_some he

theorem isSome_get? : (c.get? key).isSome = c.contains key := by
  rw [get?, Option.isSome_map, List.isSome_find?, contains]

theorem shrink_subset (capacity : Nat) (entries : List (K × V)) (queue : List K) :
    (shrink capacity entries queue).1 ⊆ entries := by
  induction queue generalizing entries with
  | nil => exact List.Subset.refl _
  | cons oldest queue ih =>
      rw [shrink]
      split
      · exact List.Subset.trans (ih _) (List.filter_subset_self _)
      · exact List.Subset.refl _

/-- An insertion adds its own entry, and keeps others or drops them. -/
theorem mem_entries_insert {e : K × V} (h : e ∈ (c.insert key value).entries) :
    e = (key, value) ∨ e ∈ c.entries ∧ e.1 ≠ key := by
  by_cases hc : c.contains key = true
  · rw [insert_of_contains hc] at h
    obtain ⟨⟨k, v⟩, hmem, rfl⟩ := List.mem_map.mp h
    by_cases hk : k = key
    · exact Or.inl (by simp only [hk, if_true])
    · exact Or.inr (by simpa only [hk, if_false] using ⟨hmem, hk⟩)
  · rw [insert_of_not_contains hc] at h
    rcases List.mem_append.mp (shrink_subset _ _ _ h) with hold | hnew
    · refine Or.inr ⟨hold, fun heq => hc (List.any_eq_true.mpr ⟨e, hold, decide_eq_true heq⟩)⟩
    · exact Or.inl (List.mem_singleton.mp hnew)

theorem InStep.get?_eq_some_iff (h : c.InStep) :
    c.get? key = some value ↔ (key, value) ∈ c.entries := by
  refine ⟨mem_entries_of_get?, fun hmem => ?_⟩
  have hcontains : c.contains key = true :=
    List.any_eq_true.mpr ⟨(key, value), hmem, decide_eq_true rfl⟩
  rw [← isSome_get?, Option.isSome_iff_exists] at hcontains
  obtain ⟨other, hother⟩ := hcontains
  have hkeys : (c.entries.map Prod.fst).Nodup := by
    rw [h.keys]
    exact h.distinct
  have heq := List.inj_on_of_nodup_map hkeys (mem_entries_of_get? hother) hmem rfl
  rw [hother, (Prod.mk.inj heq).2]

/-- The value that was stored last under a key, after one more call. -/
def note (key : K) (stored : Option V) : CacheCall K V → Option V
  | .insert k value => if k = key then some value else stored
  | .get _ => stored
  | .contains _ => stored
  | .clear => stored

/-- The value that the last of the insertions under a key has stored. -/
def lastInserted (calls : List (CacheCall K V)) (key : K) : Option V := calls.foldl (note key) none

/-- What is found under a key was stored by the last call or was found before it. -/
theorem get?_call (h : c.InStep) (request : CacheCall K V)
    (hget : (c.call request).2.get? key = some value) :
    note key (c.get? key) request = some value := by
  cases request with
  | insert k v =>
      rw [note]
      rcases mem_entries_insert (mem_entries_of_get? hget) with heq | ⟨hmem, hne⟩
      · obtain ⟨rfl, rfl⟩ := Prod.mk.inj heq
        rw [if_pos rfl]
      · rw [if_neg (Ne.symm hne), h.get?_eq_some_iff]
        exact hmem
  | get k => exact hget
  | contains k => exact hget
  | clear => cases hget

/-- What is found under a key in the end was stored by the last insertion under it, given that the
same holds in the beginning. -/
theorem get?_after (h : c.InStep) {stored : Option V}
    (hstored : ∀ v, c.get? key = some v → stored = some v) (calls : List (CacheCall K V))
    (hget : (c.after calls).get? key = some value) :
    calls.foldl (note key) stored = some value := by
  induction calls generalizing c stored with
  | nil => exact hstored value hget
  | cons request calls ih =>
      refine ih (h.call request) (fun v hv => ?_) hget
      have hnote := get?_call h request hv
      cases request with
      | insert k w =>
          rw [note] at hnote ⊢
          split at hnote
          · next heq => rw [if_pos heq, hnote]
          · next hne => rw [if_neg hne, hstored v hnote]
      | _ => exact hstored v hnote

/-! ## What is dropped -/

/-- The keys that a call drops. -/
def dropped (c : Cache K V) (request : CacheCall K V) : List K :=
  c.queue.filter fun k => !(c.call request).2.contains k

/-- The call changes neither which keys are present nor which go first. -/
def IsQuiet (c : Cache K V) : CacheCall K V → Prop
  | .insert key _ => c.contains key = true
  | .get _ => True
  | .contains _ => True
  | .clear => False

theorem contains_insert_self (h : c.InStep) (key : K) (value : V) :
    (c.insert key value).contains key = true := by
  rw [(h.insert key value).contains_iff, queue_insert h]
  split
  · next hc => exact h.contains_iff.mp hc
  · have hroom := h.room
    have hle : (c.queue ++ [key]).length - c.capacity ≤ c.queue.length := by
      rw [List.length_append, List.length_singleton]
      omega
    rw [List.rtake, List.drop_append_of_le_length hle]
    exact List.mem_append_right _ (List.mem_singleton_self key)

/-- Only an insertion that finds the store full drops a key, and it drops
the first one. -/
theorem dropped_insert (h : c.InStep) (key : K) (value : V) :
    c.dropped (.insert key value) =
      if c.contains key ∨ c.size < c.capacity then [] else c.queue.head?.toList := by
  have hcontains (k : K) :
      (c.insert key value).contains k = true ↔ k ∈ (c.insert key value).queue :=
    (h.insert key value).contains_iff
  rw [queue_insert h] at hcontains
  show (c.queue.filter fun k => !(c.insert key value).contains k) = _
  by_cases hc : c.contains key = true
  · simp only [hc, if_true] at hcontains
    rw [if_pos (Or.inl hc), List.filter_eq_nil_iff]
    intro k hk
    simp [(hcontains k).mpr hk]
  have habsent : key ∉ c.queue := fun hmem => hc (h.contains_iff.mpr hmem)
  simp only [hc] at hcontains
  by_cases hroom : c.size < c.capacity
  · rw [if_pos (Or.inr hroom), List.filter_eq_nil_iff]
    rw [h.size_eq] at hroom
    have hnone : (c.queue ++ [key]).length - c.capacity = 0 := by
      rw [List.length_append, List.length_singleton]
      omega
    intro k hk
    have hmem : k ∈ (c.queue ++ [key]).rtake c.capacity := by
      rw [List.rtake, hnone, List.drop_zero]
      exact List.mem_append_left _ hk
    simp [(hcontains k).mpr hmem]
  · rw [if_neg (by simp [hc, hroom])]
    rw [h.size_eq] at hroom
    have hfull : c.queue.length = c.capacity := Nat.le_antisymm h.bounded (Nat.le_of_not_lt hroom)
    cases hq : c.queue with
    | nil =>
        rw [hq] at hfull
        exact absurd hfull (Nat.ne_of_lt h.room)
    | cons oldest queue =>
        have hdistinct := h.nodup_append habsent
        rw [hq, List.cons_append, List.nodup_cons] at hdistinct
        have hrest : (oldest :: queue ++ [key]).rtake c.capacity = queue ++ [key] := by
          rw [List.rtake, ← hfull, hq]
          simp
        rw [hq, hrest] at hcontains
        have hgone : (c.insert key value).contains oldest = false := by
          rw [← Bool.not_eq_true, hcontains]
          exact hdistinct.1
        have hkept : (queue.filter fun k => !(c.insert key value).contains k) = [] := by
          rw [List.filter_eq_nil_iff]
          intro k hk
          simp [(hcontains k).mpr (List.mem_append_left _ hk)]
        rw [List.filter_cons_of_pos (by simp [hgone]), hkept]
        rfl

/-- Which keys a store drops hangs on its queue alone. -/
theorem queue_after_congr (hc : c.InStep) (hd : d.InStep) (hqueue : c.queue = d.queue)
    (hcapacity : c.capacity = d.capacity) (calls : List (CacheCall K V)) :
    (c.after calls).queue = (d.after calls).queue := by
  induction calls generalizing c d with
  | nil => exact hqueue
  | cons request calls ih =>
      refine ih (hc.call request) (hd.call request) ?_ ?_
      · cases request with
        | insert key value =>
            have hcontains : c.contains key = d.contains key := by
              rw [Bool.eq_iff_iff, hc.contains_iff, hd.contains_iff, hqueue]
            show (c.insert key value).queue = (d.insert key value).queue
            rw [queue_insert hc, queue_insert hd, hcontains, hqueue, hcapacity]
        | get key => exact hqueue
        | contains key => exact hqueue
        | clear => rfl
      · rw [capacity_call, capacity_call, hcapacity]

theorem dropped_insert_congr (hc : c.InStep) (hd : d.InStep) (hqueue : c.queue = d.queue)
    (hcapacity : c.capacity = d.capacity) (key : K) (value : V) :
    c.dropped (.insert key value) = d.dropped (.insert key value) := by
  have hcontains : c.contains key = d.contains key := by
    rw [Bool.eq_iff_iff, hc.contains_iff, hd.contains_iff, hqueue]
  rw [dropped_insert hc, dropped_insert hd, hcontains, hc.size_eq, hd.size_eq, hqueue, hcapacity]

theorem queue_call_of_isQuiet {request : CacheCall K V} (h : c.IsQuiet request) :
    (c.call request).2.queue = c.queue := by
  cases request with
  | insert key value =>
      show (c.insert key value).queue = c.queue
      rw [insert_of_contains h]
      rfl
  | get key => rfl
  | contains key => rfl
  | clear => cases h

/-! ## What a run leaves behind -/

/-- The store that a run of a new store leaves behind. -/
def reached (capacity : Nat) (calls : List (CacheCall K V)) : Cache K V :=
  (new capacity).after calls

/-- The last admissions of a run of a new store, as many as there is room
for, the first one in front. -/
def lastAdmitted (capacity : Nat) (calls : List (CacheCall K V)) : List K :=
  ((new capacity : Cache K V).admissions [] calls).rtake (max capacity 1)

/-- A run of a new store leaves the last admissions behind. -/
structure KeepsLast (capacity : Nat) (calls : List (CacheCall K V)) : Prop where
  bounded : (reached capacity calls).size ≤ max capacity 1
  /-- The queue lists the stored keys, each once. -/
  distinct : (reached capacity calls).queue.Nodup
  listed : ∀ key, key ∈ (reached capacity calls).queue
    ↔ (reached capacity calls).contains key = true
  recent : ∀ key, (reached capacity calls).contains key = true
    ↔ key ∈ lastAdmitted capacity calls
  latest : ∀ key, (reached capacity calls).get? key
    = if (reached capacity calls).contains key then lastInserted calls key else none
  /-- The next insertion keeps its own key. -/
  kept : ∀ key value, ((reached capacity calls).insert key value).contains key = true
  /-- The next insertion drops one key at most, the one admitted first. -/
  dropped : ∀ key value, (reached capacity calls).dropped (.insert key value)
    = if (reached capacity calls).contains key ∨ (reached capacity calls).size < max capacity 1
      then [] else (lastAdmitted capacity calls).head?.toList
  /-- A call that admits nothing does not change which keys are dropped, be
  it by the next call or later. -/
  quiet : ∀ request, (reached capacity calls).IsQuiet request → ∀ later key value,
    (((reached capacity calls).call request).2.after later).dropped (.insert key value)
      = ((reached capacity calls).after later).dropped (.insert key value)

theorem keepsLast_reached (capacity : Nat) (calls : List (CacheCall K V)) :
    KeepsLast capacity calls := by
  have hstep : (reached capacity calls).InStep := (InStep.new capacity).after calls
  have hcapacity : (reached capacity calls).capacity = max capacity 1 :=
    capacity_after (new capacity) calls
  have hqueue : (reached capacity calls).queue = lastAdmitted capacity calls :=
    queue_after (InStep.new capacity) (List.rtake_nil _).symm calls
  constructor
  case bounded =>
    rw [hstep.size_eq, ← hcapacity]
    exact hstep.bounded
  case distinct => exact hstep.distinct
  case listed => exact fun key => hstep.contains_iff.symm
  case recent =>
    intro key
    rw [hstep.contains_iff, hqueue]
  case latest =>
    intro key
    rw [← isSome_get?]
    cases hget : (reached capacity calls).get? key with
    | none => rfl
    | some value =>
        have hnone : ∀ v, (new capacity : Cache K V).get? key = some v → none = some v :=
          fun v hv => nomatch hv
        exact (get?_after (InStep.new capacity) hnone calls hget).symm
  case kept => exact fun key value => contains_insert_self hstep key value
  case dropped =>
    intro key value
    rw [dropped_insert hstep, hcapacity, hqueue]
  case quiet =>
    intro request hquiet later key value
    have hafter := queue_after_congr (hstep.call request) hstep (queue_call_of_isQuiet hquiet)
      (capacity_call _ request) later
    refine dropped_insert_congr ((hstep.call request).after later) (hstep.after later) hafter ?_
      key value
    rw [capacity_after, capacity_after, capacity_call]

end Cache

end CodeProfile
