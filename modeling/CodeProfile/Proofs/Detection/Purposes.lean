import CodeProfile.Proofs.Detection.Spellings
import CodeProfile.Proofs.Number.Counts
import CodeProfile.Proofs.Number.Ranking

/-!
# Purposes and the words that speak for them

The weight of a purpose is a count: two for each word in the names of
functions that speaks for it, and one for each word in the text
(`weight_evidence`). The ranking is the stable sort of the purposes by these
counts (`ranking_eq`), so the purpose that comes out is the first one of the
greatest score (`firstBest_of_head?_likeliest`), and the order of the
functions has no say in the verdict (`sameVerdict_of_perm`). Nor has the
spelling of their names, since a name says the same words in each
(`flatMap_words_of_respelled`). The headline is `spelling_order_irrelevant`.
-/

namespace CodeProfile

open Text

namespace Intent

variable {p : Purpose} {fromNames fromText names permuted respelled : List String}
  {weight : Purpose → ℕ}

/-! ## Weights -/

/-- Adding words adds the weight of each that speaks for the purpose. -/
theorem weight_foldl_add (weight : ℕ) (ws : List String) (e : Evidence) :
    (ws.foldl (Evidence.add p weight) e).weight = e.weight + weight * ws.countP p.isShownBy := by
  induction ws generalizing e with
  | nil => simp
  | cons w ws ih =>
      rw [List.foldl_cons, ih, Evidence.add, List.countP_cons]
      cases p.isShownBy w with
      | false => simp
      | true =>
          simp only [if_true]
          ring

/-- Twice the words from names of functions that speak for the purpose, and those from the text. -/
def weightOf (fromNames fromText : List String) (p : Purpose) : ℕ :=
  2 * fromNames.countP p.isShownBy + fromText.countP p.isShownBy

theorem weight_evidence :
    (evidence p fromNames fromText).weight = weightOf fromNames fromText p := by
  rw [evidence, weight_foldl_add, weight_foldl_add, weightOf, nameWeight, textWeight, Nat.zero_add,
    Nat.one_mul]

theorem weightOf_perm (h : names.Perm permuted) :
    weightOf (permuted.flatMap words) fromText = weightOf (names.flatMap words) fromText := by
  funext p
  have hwords : (names.flatMap words).Perm (permuted.flatMap words) := h.flatMap_right words
  rw [weightOf, weightOf, hwords.countP_eq]

/-- The weights of the words, added one by one in doubles. -/
def addedUp (fromNames fromText : List String) (p : Purpose) : Float :=
  fromText.foldl (fun s w => if p.isShownBy w then s + 1.0 else s)
    (fromNames.foldl (fun s w => if p.isShownBy w then s + 2.0 else s) 0.0)

/-- Counting first and adding in doubles come to the same as far as doubles count. -/
theorem addedUp_eq (h : weightOf fromNames fromText p < 2 ^ 53) :
    (addedUp fromNames fromText p == Float.ofNat (weightOf fromNames fromText p)) = true := by
  have hzero : IsDouble 0.0 (0 : ℕ) := by simpa using IsDouble.zero
  have hone : IsDouble 1.0 (1 : ℕ) := by simpa using IsDouble.one
  have hcount : weightOf fromNames fromText p
      = 0 + 2 * fromNames.countP p.isShownBy + 1 * fromText.countP p.isShownBy := by
    rw [weightOf, Nat.zero_add, Nat.one_mul]
  rw [hcount] at h ⊢
  have hnames := IsDouble.foldl_count p.isShownBy IsDouble.two hzero
    ((Nat.le_add_right _ _).trans_lt h)
  have hadded := IsDouble.foldl_count p.isShownBy hone hnames h
  exact (hadded.beq_iff (.ofNat h)).mpr rfl

/-! ## The order of purposes -/

/-- Whether the first purpose is at least as likely as the second. -/
def asLikely (weight : Purpose → ℕ) (p q : Purpose) : Bool :=
  Float.ofNat (weight q) ≤ Float.ofNat (weight p)

/-- The purposes for which something speaks. -/
def shown (weight : Purpose → ℕ) : List Purpose := Purpose.all.filter (weight · ≠ 0)

theorem asLikely_trans (p q r : Purpose) (hpq : asLikely weight p q = true)
    (hqr : asLikely weight q r = true) : asLikely weight p r = true := by
  rw [asLikely, decide_eq_true_iff] at hpq hqr ⊢
  exact Double.ofNat_le_trans hqr hpq

theorem asLikely_total (p q : Purpose) : (asLikely weight p q || asLikely weight q p) = true := by
  rw [Bool.or_eq_true, asLikely, asLikely, decide_eq_true_iff, decide_eq_true_iff]
  exact Double.ofNat_le_total (weight q) (weight p)

theorem mem_shown : p ∈ shown weight ↔ weight p ≠ 0 := by
  have hall : p ∈ Purpose.all := by cases p <;> decide
  simp [shown, hall]

theorem nodup_shown : (shown weight).Nodup := (by decide : Purpose.all.Nodup).filter _

/-- The purposes for which something speaks, the likeliest first. -/
def likeliest (weight : Purpose → ℕ) : List Purpose := (shown weight).mergeSort (asLikely weight)

theorem likeliest_perm : (likeliest weight).Perm (shown weight) := List.mergeSort_perm _ _

theorem likeliest_eq_nil_iff : likeliest weight = [] ↔ ∀ p, weight p = 0 := by
  rw [List.eq_nil_iff_forall_not_mem]
  simp only [likeliest_perm.mem_iff, mem_shown, ne_eq, not_not]

theorem pairwise_likeliest : (likeliest weight).Pairwise (asLikely weight · ·) :=
  List.pairwise_mergeSort asLikely_trans asLikely_total (shown weight)

/-- The first purpose in the ranking is the first of the likeliest ones. -/
theorem firstBest_of_head?_likeliest (h : (likeliest weight).head? = some p) :
    FirstBest (asLikely weight) p (shown weight) := by
  obtain ⟨below, hbelow⟩ := List.head?_eq_some_iff.mp h
  have hranked : (shown weight).mergeSort (asLikely weight) = [] ++ p :: below := hbelow
  exact firstBest_of_ranked asLikely_trans asLikely_total nodup_shown hranked
    (List.Sublist.refl _) (hbelow ▸ likeliest_perm.symm)

/-! ## The ranking -/

/-- What is said of a purpose for which something speaks. -/
def entry (fromNames fromText : List String) (p : Purpose) : PurposeScore :=
  ⟨p, Float.ofNat (weightOf fromNames fromText p), (evidence p fromNames fromText).keywords⟩

theorem score?_eq (p : Purpose) : score? fromNames fromText p
    = if weightOf fromNames fromText p ≠ 0 then some (entry fromNames fromText p) else .none := by
  rw [score?, weight_evidence, ite_not]
  rfl

theorem ranking_eq : ranking fromNames fromText
    = (likeliest (weightOf fromNames fromText)).map (entry fromNames fromText) := by
  have hfound : Purpose.all.filterMap (score? fromNames fromText)
      = (shown (weightOf fromNames fromText)).map (entry fromNames fromText) := by
    rw [shown, ← List.filterMap_eq_map, List.filterMap_filter]
    simp only [decide_eq_true_eq, score?_eq]
    rfl
  rw [ranking, hfound, likeliest, ← List.map_mergeSort]
  exact fun p _ q _ => rfl

/-! ## Verdicts -/

/-- The same purposes in the same order with the same scores, and the same first one with the same
confidence. -/
structure SameVerdict (i j : Intent) : Prop where
  scores : i.scores.map (fun s => (s.purpose, s.score))
    = j.scores.map fun s => (s.purpose, s.score)
  primary : i.primary = j.primary
  confidence : i.confidence = j.confidence

theorem scores_ofRanking (ranked : List PurposeScore) : (ofRanking ranked).scores = ranked := by
  cases ranked <;> rfl

theorem primary_ofRanking (ranked : List PurposeScore) :
    (ofRanking ranked).primary = ranked.head?.map (·.purpose) := by
  cases ranked <;> rfl

theorem sameVerdict_ofRanking {a b : List PurposeScore}
    (h : a.map (fun s => (s.purpose, s.score)) = b.map fun s => (s.purpose, s.score)) :
    SameVerdict (ofRanking a) (ofRanking b) := by
  have htotal : a.foldl (fun s p => s + p.score) 0.0 = b.foldl (fun s p => s + p.score) 0.0 := by
    have hfold (l : List PurposeScore) : l.foldl (fun s p => s + p.score) 0.0
        = (l.map fun s => (s.purpose, s.score)).foldl (fun s p => s + p.2) 0.0 := by
      rw [List.foldl_map]
    rw [hfold, hfold, h]
  cases a with
  | nil =>
      obtain rfl : b = [] := by simpa using h.symm
      exact ⟨rfl, rfl, rfl⟩
  | cons top rest =>
      cases b with
      | nil => cases h
      | cons top' rest' =>
          obtain ⟨htop, -⟩ := List.cons.inj h
          obtain ⟨hpurpose, hscore⟩ := Prod.mk.inj htop
          refine ⟨h, congrArg some hpurpose, ?_⟩
          simp only [ofRanking, htotal, hscore]

/-- The order of the functions has no say in the verdict. -/
theorem sameVerdict_of_perm (source : String) (h : names.Perm permuted) :
    SameVerdict (of permuted source) (of names source) := by
  refine sameVerdict_ofRanking ?_
  rw [ranking_eq, ranking_eq, List.map_map, List.map_map]
  simp only [Function.comp_def, entry, weightOf_perm h]

/-- What the result for words from names and words from a text says of them. -/
structure Weighs (fromNames fromText : List String) (i : Intent) : Prop where
  /-- The purposes for which something speaks are listed, each once. -/
  listed : (i.scores.map (·.purpose)).Perm (shown (weightOf fromNames fromText))
  /-- Two for each word in a name that speaks for the purpose, one for each in the text. -/
  score : ∀ s ∈ i.scores, s.score = Float.ofNat (2 * fromNames.countP s.purpose.isShownBy
    + fromText.countP s.purpose.isShownBy)
  /-- The score is no other number if the weights are added one by one. -/
  addedUp : ∀ s ∈ i.scores, weightOf fromNames fromText s.purpose < 2 ^ 53 →
    (addedUp fromNames fromText s.purpose == s.score) = true
  ranked : i.scores.Pairwise fun s t => t.score ≤ s.score
  /-- The first purpose of the greatest score comes out. -/
  primary : ∀ p, i.primary = some p →
    FirstBest (asLikely (weightOf fromNames fromText)) p (shown (weightOf fromNames fromText))
  /-- No purpose comes out only if nothing speaks for any. -/
  silent : i.primary = .none ↔ ∀ p, weightOf fromNames fromText p = 0

theorem score_of_mem_ranking : ∀ s ∈ ranking fromNames fromText,
    s.score = Float.ofNat (weightOf fromNames fromText s.purpose) := by
  rw [ranking_eq, List.forall_mem_map]
  intro p _
  rfl

theorem primary_ranking : (ofRanking (ranking fromNames fromText)).primary
    = (likeliest (weightOf fromNames fromText)).head? := by
  rw [primary_ofRanking, ranking_eq, List.head?_map, Option.map_map]
  exact Option.map_id' ..

theorem weighs_ofRanking :
    Weighs fromNames fromText (ofRanking (ranking fromNames fromText)) := by
  refine
    { listed := ?_, score := ?_, addedUp := ?_, ranked := ?_, primary := ?_, silent := ?_ }
  · rw [scores_ofRanking, ranking_eq, List.map_map]
    simpa [Function.comp_def, entry] using likeliest_perm
  · rw [scores_ofRanking]
    exact score_of_mem_ranking
  · rw [scores_ofRanking]
    intro s hs hsmall
    rw [score_of_mem_ranking s hs]
    exact addedUp_eq hsmall
  · rw [scores_ofRanking, ranking_eq, List.pairwise_map]
    exact pairwise_likeliest.imp of_decide_eq_true
  · intro p hp
    rw [primary_ranking] at hp
    exact firstBest_of_head?_likeliest hp
  · rw [primary_ranking, List.head?_eq_none_iff, likeliest_eq_nil_iff]

/-! ## Names and their order -/

/-- The second name is the first, or has the same words in another spelling. -/
inductive Respelled : String → String → Prop where
  | kept (name : String) : Respelled name name
  | respelled (ws : List NameWord) (first second : Spelling) :
      Respelled (String.ofList (first.write ws)) (String.ofList (second.write ws))

theorem words_of_respelled {a b : String} (h : Respelled a b) : words b = words a := by
  cases h with
  | kept => rfl
  | respelled ws first second => rw [words_write, words_write]

theorem flatMap_words_of_respelled (h : List.Forall₂ Respelled names respelled) :
    respelled.flatMap words = names.flatMap words := by
  induction h with
  | nil => rfl
  | cons hname _ ih => rw [List.flatMap_cons, List.flatMap_cons, words_of_respelled hname, ih]

/-- What a snippet is for does not depend on how the names of its functions are spelled, nor, but
for the order in which words are reported, on the order of the functions. -/
theorem spelling_order_irrelevant (source : String)
    (hspelling : List.Forall₂ Respelled names respelled) (horder : names.Perm permuted) :
    (∀ (spelling : Spelling) (ws : List NameWord),
        wordsOfIdentifier (spelling.write ws) = ws.map NameWord.letters)
      ∧ of respelled source = of names source
      ∧ SameVerdict (of permuted source) (of names source)
      ∧ Weighs (names.flatMap words) (words source) (of names source) := by
  refine ⟨fun spelling ws => wordsOfIdentifier_write ws spelling, ?_,
    sameVerdict_of_perm source horder, weighs_ofRanking⟩
  rw [of, of, flatMap_words_of_respelled hspelling]

namespace ParseHeader

def parse : NameWord := ⟨'p', ['a', 'r', 's', 'e'], by decide, by decide, List.all_eq_true.mp rfl⟩

def header : NameWord :=
  ⟨'h', ['e', 'a', 'd', 'e', 'r'], by decide, by decide, List.all_eq_true.mp rfl⟩

theorem respelled_parseHeader : Respelled "parse_header" "parseHeader" := by
  have hsnake : String.ofList (Spelling.snake.write [parse, header]) = "parse_header" := rfl
  have hcamel : String.ofList (Spelling.camel.write [parse, header]) = "parseHeader" := rfl
  exact hsnake ▸ hcamel ▸ .respelled [parse, header] .snake .camel

end ParseHeader

/-- Two functions in both spellings and orders, and a text that calls one of them. Its name speaks
for orchestration twice, and the call once more. -/
theorem of_parseHeader_main :
    List.Forall₂ Respelled ["parse_header", "main"] ["parseHeader", "main"]
      ∧ ["parse_header", "main"].Perm ["main", "parse_header"]
      ∧ of ["parseHeader", "main"] "main()" = of ["parse_header", "main"] "main()"
      ∧ SameVerdict (of ["main", "parse_header"] "main()") (of ["parse_header", "main"] "main()")
      ∧ ∃ s ∈ (of ["parse_header", "main"] "main()").scores,
        s.purpose = .orchestration ∧ s.score = Float.ofNat 3 := by
  have hspelling : List.Forall₂ Respelled ["parse_header", "main"] ["parseHeader", "main"] :=
    .cons ParseHeader.respelled_parseHeader (.cons (.kept "main") .nil)
  have horder : ["parse_header", "main"].Perm ["main", "parse_header"] :=
    .swap "main" "parse_header" []
  obtain ⟨-, hrespelled, hpermuted, hweighs⟩ :=
    spelling_order_irrelevant "main()" hspelling horder
  have hshown : Purpose.orchestration ∈ shown (weightOf
      (["parse_header", "main"].flatMap words) (words "main()")) :=
    mem_shown.mpr (by decide +kernel)
  obtain ⟨s, hs, hpurpose⟩ := List.mem_map.mp (hweighs.listed.mem_iff.mpr hshown)
  refine ⟨hspelling, horder, hrespelled, hpermuted, s, hs, hpurpose, ?_⟩
  rw [hweighs.score s hs, hpurpose]
  exact congrArg Float.ofNat (by decide +kernel)

end Intent

end CodeProfile
