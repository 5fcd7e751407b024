import CodeProfile.Cost.Json
import CodeProfile.Proofs.Cost.Canonical
import CodeProfile.Proofs.Cost.Subexponential

/-!
# Merged costs and their JSON form

JSON means a value throughout (`Json`), not the text of one: how texts are
read and what they may hold is no matter of costs.

A cost is merged if no product in it is a factor of a product and no sum a
term of a sum. Building a product or a sum of merged costs takes away one
level, which is all there is, so the result is merged; so are what JSON
is read as, and what a cost is reduced to. `Cost.Built` says how costs come
about, and the merged costs are just those (`built_iff_merged`).

Reading JSON builds products and sums anew. It gives back what was
written just if that was merged (`ofJson?_toJson_iff`). The headline is
`json_faithful`.
-/

namespace CodeProfile

namespace Cost

/-- No product in the expression is a factor of a product, and no sum a
term of a sum. -/
structure Merged (c : Cost) : Prop where
  products : ∀ fs, multiply fs ∈ c.within → ∀ f ∈ fs, f.isProduct = false
  sums : ∀ ts, add ts ∈ c.within → ∀ t ∈ ts, t.isSum = false

/-- How costs come about. -/
inductive Built : Cost → Prop
  | constant (v : UInt64) : Built (constant v)
  | logarithmic (base : UInt32) (size : String) : Built (logarithmic base size)
  | linear (size : String) : Built (linear size)
  | polynomial (degree : UInt32) (size : String) : Built (polynomial degree size)
  | exponential (base : UInt32) (size : String) : Built (exponential base size)
  | symbolic (name description : String) : Built (symbolic name description)
  | product {cs : List Cost} (parts : ∀ c ∈ cs, Built c) : Built (product cs)
  | sum {cs : List Cost} (parts : ∀ c ∈ cs, Built c) : Built (sum cs)
  | read {isInner : Bool} {j : Json} {c : Cost} (reads : ofJson? isInner j = some c) : Built c
  | reduced {c : Cost} (built : Built c) : Built c.reduce
  | part {c d : Cost} (built : Built c) (mem : d ∈ c.within) : Built d

variable {c f t : Cost} {cs fs ts : List Cost}

/-! ## Parts of merged costs -/

theorem merged_of_isLeaf (hp : c.isProduct = false) (hs : c.isSum = false) : c.Merged := by
  have hself : c.within = [c] := by
    cases c with
    | multiply fs => cases hp
    | add ts => cases hs
    | _ => rfl
  constructor
  · intro fs hfs
    rw [hself, List.mem_singleton] at hfs
    rw [← hfs] at hp
    cases hp
  · intro ts hts
    rw [hself, List.mem_singleton] at hts
    rw [← hts] at hs
    cases hs

theorem Merged.of_mem_within {d : Cost} (h : c.Merged) (hd : d ∈ c.within) : d.Merged where
  products := fun fs hfs => h.products fs (within_subset hd hfs)
  sums := fun ts hts => h.sums ts (within_subset hd hts)

theorem merged_multiply :
    (multiply fs).Merged ↔ ∀ f ∈ fs, f.isProduct = false ∧ f.Merged := by
  constructor
  · intro h f hf
    have hin : f ∈ (multiply fs).within :=
      mem_within_multiply.mpr (.inr ⟨f, hf, mem_within_self f⟩)
    exact ⟨h.products fs (mem_within_self _) f hf, h.of_mem_within hin⟩
  · intro h
    constructor
    · intro gs hgs
      rcases mem_within_multiply.mp hgs with heq | ⟨f, hf, hgs⟩
      · cases heq
        exact fun g hg => (h g hg).1
      · exact (h f hf).2.products gs hgs
    · intro us hus
      rcases mem_within_multiply.mp hus with heq | ⟨f, hf, hus⟩
      · cases heq
      · exact (h f hf).2.sums us hus

theorem merged_add : (add ts).Merged ↔ ∀ t ∈ ts, t.isSum = false ∧ t.Merged := by
  constructor
  · intro h t ht
    have hin : t ∈ (add ts).within := mem_within_add.mpr (.inr ⟨t, ht, mem_within_self t⟩)
    exact ⟨h.sums ts (mem_within_self _) t ht, h.of_mem_within hin⟩
  · intro h
    constructor
    · intro gs hgs
      rcases mem_within_add.mp hgs with heq | ⟨t, ht, hgs⟩
      · cases heq
      · exact (h t ht).2.products gs hgs
    · intro us hus
      rcases mem_within_add.mp hus with heq | ⟨t, ht, hus⟩
      · cases heq
        exact fun u hu => (h u hu).1
      · exact (h t ht).2.sums us hus

theorem Merged.of_mem_factorsOf (h : c.Merged) (hf : f ∈ c.factorsOf) :
    f.isProduct = false ∧ f.Merged := by
  cases hp : c.isProduct with
  | false =>
      rw [factorsOf_of_not_isProduct hp, List.mem_singleton] at hf
      exact hf ▸ ⟨hp, h⟩
  | true =>
      cases c with
      | multiply fs => exact merged_multiply.mp h f hf
      | _ => cases hp

theorem Merged.of_mem_termsOf (h : c.Merged) (ht : t ∈ c.termsOf) :
    t.isSum = false ∧ t.Merged := by
  cases hs : c.isSum with
  | false =>
      rw [termsOf_of_not_isSum hs, List.mem_singleton] at ht
      exact ht ▸ ⟨hs, h⟩
  | true =>
      cases c with
      | add ts => exact merged_add.mp h t ht
      | _ => cases hs

/-! ## Building -/

theorem merged_product (h : ∀ c ∈ cs, c.Merged) : (product cs).Merged := by
  rw [product, merged_multiply]
  intro f hf
  obtain ⟨c, hc, hf⟩ := List.mem_flatMap.mp hf
  exact (h c hc).of_mem_factorsOf hf

theorem merged_sum (h : ∀ c ∈ cs, c.Merged) : (sum cs).Merged := by
  rw [sum, merged_add]
  intro t ht
  obtain ⟨c, hc, ht⟩ := List.mem_flatMap.mp ht
  exact (h c hc).of_mem_termsOf ht

/-- A product in the middle of factors is as good as its factors. -/
theorem product_splice (before group after : List Cost) :
    product (before ++ product group :: after) = product (before ++ group ++ after) := by
  simp only [product, List.flatMap_append, List.flatMap_cons, factorsOf, List.append_assoc]

theorem sum_splice (before group after : List Cost) :
    sum (before ++ sum group :: after) = sum (before ++ group ++ after) := by
  simp only [sum, List.flatMap_append, List.flatMap_cons, termsOf, List.append_assoc]

theorem product_map_product (groups : List (List Cost)) :
    product (groups.map product) = product groups.flatten := by
  rw [product, product, List.flatMap_map, List.flatten_eq_flatMap, List.flatMap_assoc]
  rfl

theorem sum_map_sum (groups : List (List Cost)) :
    sum (groups.map sum) = sum groups.flatten := by
  rw [sum, sum, List.flatMap_map, List.flatten_eq_flatMap, List.flatMap_assoc]
  rfl

theorem product_of_merged (h : (multiply fs).Merged) : product fs = multiply fs := by
  rw [product, flatMap_factorsOf_eq_self fun f hf => (merged_multiply.mp h f hf).1]

theorem sum_of_merged (h : (add ts).Merged) : sum ts = add ts := by
  rw [sum, flatMap_termsOf_eq_self fun t ht => (merged_add.mp h t ht).1]

/-! ## Reduction -/

theorem Canonical.merged (h : c.Canonical) : c.Merged := by
  induction c using Cost.induction with
  | multiply fs ih =>
      cases h with
      | multiply p settled others two =>
          rw [merged_multiply]
          exact fun f hf => ⟨isProduct_of_mem_factors settled hf,
            ih f hf (canonical_of_mem_factors settled others f hf)⟩
  | add ts ih =>
      cases h with
      | add _ terms flat ranks shapes two =>
          rw [merged_add]
          exact fun t ht => ⟨flat t ht, ih t ht (terms t ht)⟩
  | _ => exact merged_of_isLeaf rfl rfl

/-! ## Reading -/

/-- A record is read as a product or a sum of the costs in its lists, or as
a cost without costs inside. -/
theorem ofRecord?_cases {isInner : Bool} {j : Json} {factors terms : Option (List Cost)}
    (h : ofRecord? isInner j factors terms = some c) :
    (∃ fs ∈ factors, c = product fs) ∨ (∃ ts ∈ terms, c = sum ts) ∨
      c.isProduct = false ∧ c.isSum = false := by
  unfold ofRecord? at h
  obtain ⟨⟨kind, parts⟩, -, h⟩ := Option.bind_eq_some_iff.mp h
  dsimp only at h
  split at h
  -- The cases are in the order of `shapes`, with an unknown kind as the last.
  case h_6 =>
    obtain ⟨fs, hfs, h⟩ := Option.bind_eq_some_iff.mp h
    cases h
    exact .inl ⟨fs, hfs, rfl⟩
  case h_7 =>
    obtain ⟨ts, hts, h⟩ := Option.bind_eq_some_iff.mp h
    cases h
    exact .inr (.inl ⟨ts, hts, rfl⟩)
  case h_1 | h_3 =>
    obtain ⟨_, -, h⟩ := Option.bind_eq_some_iff.mp h
    cases h
    exact .inr (.inr ⟨rfl, rfl⟩)
  case h_2 | h_4 | h_5 | h_8 =>
    obtain ⟨_, -, h⟩ := Option.bind_eq_some_iff.mp h
    obtain ⟨_, -, h⟩ := Option.bind_eq_some_iff.mp h
    cases h
    exact .inr (.inr ⟨rfl, rfl⟩)
  case h_9 => cases h

theorem merged_of_ofRecord? {isInner : Bool} {j : Json} {factors terms : Option (List Cost)}
    (h : ofRecord? isInner j factors terms = some c)
    (hfactors : ∀ fs ∈ factors, ∀ f ∈ fs, f.Merged)
    (hterms : ∀ ts ∈ terms, ∀ t ∈ ts, t.Merged) : c.Merged := by
  rcases ofRecord?_cases h with ⟨fs, hfs, rfl⟩ | ⟨ts, hts, rfl⟩ | ⟨hp, hs⟩
  · exact merged_product (hfactors fs hfs)
  · exact merged_sum (hterms ts hts)
  · exact merged_of_isLeaf hp hs

mutual

theorem merged_of_ofJson? {isInner : Bool} {j : Json} {c : Cost} (h : ofJson? isInner j = some c) :
    c.Merged := by
  cases j with
  | object fields =>
      rw [ofJson?] at h
      exact merged_of_ofRecord? h (fun _ hfs => merged_of_listOf? hfs)
        (fun _ hts => merged_of_listOf? hts)
  | array items =>
      rw [ofJson?] at h
      exact merged_of_ofRecord? h (fun _ hfs => merged_of_secondOf? hfs)
        (fun _ hts => merged_of_secondOf? hts)
  | _ => cases h

theorem merged_of_listOf? {key : String} {fields : List (String × Json)} {cs : List Cost}
    (h : listOf? key fields = some cs) : ∀ c ∈ cs, c.Merged := by
  cases fields with
  | nil => cases h
  | cons field rest =>
      obtain ⟨k, v⟩ := field
      rw [listOf?] at h
      split at h
      · exact merged_of_itemsOf? h
      · exact merged_of_listOf? h

theorem merged_of_secondOf? {items : List Json} {cs : List Cost}
    (h : secondOf? items = some cs) : ∀ c ∈ cs, c.Merged := by
  match items, h with
  | [_, v], h => exact merged_of_itemsOf? h

theorem merged_of_itemsOf? {j : Json} {cs : List Cost} (h : itemsOf? j = some cs) :
    ∀ c ∈ cs, c.Merged := by
  cases j with
  | array items => exact merged_of_allOf? h
  | _ => cases h

theorem merged_of_allOf? {js : List Json} {cs : List Cost} (h : allOf? js = some cs) :
    ∀ c ∈ cs, c.Merged := by
  cases js with
  | nil =>
      cases h
      intro c hc
      cases hc
  | cons j js =>
      rw [allOf?] at h
      obtain ⟨d, hd, h⟩ := Option.bind_eq_some_iff.mp h
      obtain ⟨ds, hds, h⟩ := Option.bind_eq_some_iff.mp h
      cases h
      intro c hc
      rcases List.mem_cons.mp hc with rfl | hc
      · exact merged_of_ofJson? hd
      · exact merged_of_allOf? hds c hc

end

/-! ## Writing and reading back -/

theorem toWord32?_toNat (w : UInt32) : Json.toWord32? (.nat w.toNat) = some w.toNat := by
  have hle : w.toNat ≤ maxWord32 := Nat.le_of_lt_succ w.toNat_lt
  simp [Json.toWord32?, Json.toNat?, Json.nat, hle]

theorem toWord64?_toNat (w : UInt64) : Json.toWord64? (.nat w.toNat) = some w.toNat := by
  have hle : w.toNat ≤ maxWord64 := Nat.le_of_lt_succ w.toNat_lt
  simp [Json.toWord64?, Json.toNat?, Json.nat, hle]

theorem allOf?_toJsonAll (h : ∀ c ∈ cs, ofJson? true c.toJson = some c) :
    allOf? (toJsonAll cs) = some cs := by
  induction cs with
  | nil => rfl
  | cons c cs ih =>
      have hc := h c (List.mem_cons_self ..)
      have hcs := ih fun d hd => h d (List.mem_cons_of_mem _ hd)
      rw [toJsonAll, allOf?, hc, hcs]
      rfl

theorem tagged?_string {shapes : List (String × List String)} {name : String}
    (h : (shapes.find? (·.1 = name)).map (·.1) = some name) (byNumber : Bool)
    (fields : List (String × Json)) :
    Json.tagged? "kind" shapes byNumber (.object (("kind", .string name) :: fields)) =
      some (name, .object (("kind", .string name) :: fields)) := by
  obtain ⟨shape, hshape, rfl⟩ := Option.map_eq_some_iff.mp h
  simp [Json.tagged?, Json.field, Json.get?, Json.shape?, hshape]

theorem ofJson?_object (isInner : Bool) (name : String) (fields : List (String × Json)) :
    ofJson? isInner (.object (("kind", .string name) :: fields)) =
      ofRecord? isInner (.object (("kind", .string name) :: fields)) (listOf? "factors" fields)
        (listOf? "terms" fields) := by
  simp [ofJson?, listOf?]

/-- A product is read as the product of what was written. -/
theorem ofJson?_toJson_multiply (isInner : Bool) (h : allOf? (toJsonAll fs) = some fs) :
    ofJson? isInner (multiply fs).toJson = some (product fs) := by
  simp [toJson, ofJson?_object, ofRecord?, tagged?_string, shapes, listOf?, itemsOf?, h]

theorem ofJson?_toJson_add (isInner : Bool) (h : allOf? (toJsonAll ts) = some ts) :
    ofJson? isInner (add ts).toJson = some (sum ts) := by
  simp [toJson, ofJson?_object, ofRecord?, tagged?_string, shapes, listOf?, itemsOf?, h]

theorem ofJson?_toJson_of_isLeaf (isInner : Bool) (hp : c.isProduct = false)
    (hs : c.isSum = false) : ofJson? isInner c.toJson = some c := by
  cases c with
  | multiply fs => cases hp
  | add ts => cases hs
  | _ =>
      simp [toJson, ofJson?_object, ofRecord?, tagged?_string, shapes, Json.field, Json.get?,
        Json.toText?, toWord32?_toNat, toWord64?_toNat]

/-- What is written for a merged cost is read as this cost, alone and inside another. -/
theorem Merged.ofJson?_toJson (h : c.Merged) (isInner : Bool) :
    ofJson? isInner c.toJson = some c := by
  induction c using Cost.induction generalizing isInner with
  | multiply fs ih =>
      have hparts := merged_multiply.mp h
      have hread := allOf?_toJsonAll fun f hf => ih f hf (hparts f hf).2 true
      rw [ofJson?_toJson_multiply isInner hread, product_of_merged h]
  | add ts ih =>
      have hparts := merged_add.mp h
      have hread := allOf?_toJsonAll fun t ht => ih t ht (hparts t ht).2 true
      rw [ofJson?_toJson_add isInner hread, sum_of_merged h]
  | _ => exact ofJson?_toJson_of_isLeaf isInner rfl rfl

theorem ofJson?_toJson_iff {isInner : Bool} : ofJson? isInner c.toJson = some c ↔ c.Merged :=
  ⟨merged_of_ofJson?, fun h => h.ofJson?_toJson isInner⟩

theorem built_iff_merged : Built c ↔ c.Merged := by
  constructor
  · intro h
    induction h with
    | product _ ih => exact merged_product ih
    | sum _ ih => exact merged_sum ih
    | read reads => exact merged_of_ofJson? reads
    | reduced _ _ => exact (reduce_canonical _).merged
    | part _ mem ih => exact ih.of_mem_within mem
    | _ => exact merged_of_isLeaf rfl rfl
  · intro h
    exact .read (h.ofJson?_toJson false)

theorem ofJson?_ofJson? (isInner : Bool) (j : Json) :
    ((ofJson? isInner j).bind fun c => ofJson? isInner c.toJson) = ofJson? isInner j := by
  cases hc : ofJson? isInner j with
  | none => rfl
  | some c => exact (merged_of_ofJson? hc).ofJson?_toJson isInner

/-- The costs that come about are the merged ones, and these are the ones
that JSON keeps. What is read from any JSON is read again from what is
written for it. How parts were grouped makes no difference to a product or
a sum, be it of whole groups or with a group among other parts. JSON means
a value here and not its text, so no limit on how deep texts may nest
enters. -/
theorem json_faithful :
    (∀ c, Built c ↔ c.Merged) ∧
    (∀ isInner c, ofJson? isInner c.toJson = some c ↔ Built c) ∧
    (∀ isInner j,
      ((ofJson? isInner j).bind fun c => ofJson? isInner c.toJson) = ofJson? isInner j) ∧
    (∀ groups : List (List Cost),
      product (groups.map product) = product groups.flatten ∧
      sum (groups.map sum) = sum groups.flatten) ∧
    (∀ before group after : List Cost,
      product (before ++ product group :: after) = product (before ++ group ++ after) ∧
      sum (before ++ sum group :: after) = sum (before ++ group ++ after)) := by
  refine ⟨fun c => built_iff_merged, ?_, ofJson?_ofJson?, ?_, ?_⟩
  · intro isInner c
    rw [ofJson?_toJson_iff, built_iff_merged]
  · intro groups
    exact ⟨product_map_product groups, sum_map_sum groups⟩
  · intro before group after
    exact ⟨product_splice before group after, sum_splice before group after⟩

example :
    ofJson? false (.object [("kind", .string "multiply"), ("factors", .array
      [(multiply [linear "n", linear "m"]).toJson, (linear "n").toJson])]) =
      some (multiply [linear "n", linear "m", linear "n"]) := by
  rfl

end Cost

end CodeProfile
