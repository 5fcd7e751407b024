import CodeProfile.Intent
import CodeProfile.Proofs.Text.Collapsed
import CodeProfile.Proofs.Text.Words

/-!
# Spellings of names

A name that is made of words is written with underscores between them or
with a capital at the start of each word but the first. Words of two or more
small letters and digits are found again in both spellings
(`wordsOfIdentifier_write`), so a name says the same however it is spelled
(`words_write`). Underscores cut by themselves. In the other spelling each
capital stands behind a small letter or a digit, so it completes the word
before it (`foldl_capitalised`), and nothing else does (`foldl_small`).
-/

namespace CodeProfile

open Text

/-- A word of a name: a small letter, and behind it one or more small letters and digits. -/
structure NameWord where
  first : Char
  rest : List Char
  first_isLower : first.isLower = true
  rest_ne_nil : rest ≠ []
  rest_small : ∀ c ∈ rest, (c.isLower || c.isDigit) = true

namespace NameWord

def letters (w : NameWord) : List Char := w.first :: w.rest

/-- The word with a capital at its start. -/
def capitalised (w : NameWord) : List Char := w.first.toUpper :: w.rest

def text (w : NameWord) : String := String.ofList w.letters

end NameWord

/-- How the words of a name are told apart. -/
inductive Spelling where
  /-- By an underscore between them. -/
  | snake
  /-- By a capital at the start of each word but the first. -/
  | camel
  deriving DecidableEq, Repr

namespace Spelling

/-- How a word that is not the first of its name is written. -/
def further : Spelling → NameWord → List Char
  | snake, w => '_' :: w.letters
  | camel, w => w.capitalised

/-- The name that is made of the words. -/
def write (spelling : Spelling) : List NameWord → List Char
  | [] => []
  | w :: ws => w.letters ++ ws.flatMap spelling.further

end Spelling

namespace Intent

variable {s : HumpScan} {c : Char} {cs : List Char}

/-! ## Characters of words -/

theorem toNat_lt_of_endsHump (h : endsHump c = true) : c.toNat < 128 := by
  refine toNat_lt_of_isAlphanum ?_
  show (((c.isUpper || c.isLower) || c.isDigit) || c == '_') = true
  rw [Bool.or_assoc c.isUpper]
  simp only [endsHump] at h
  rw [h, Bool.or_true, Bool.true_or]

theorem small_of_endsHump (h : endsHump c = true) : c.isUpper = false ∧ c.toLower = c :=
  forall_ascii (P := fun c => endsHump c = true → c.isUpper = false ∧ c.toLower = c)
    (by decide +kernel) (toNat_lt_of_endsHump h) h

theorem endsHump_of_isLower (h : c.isLower = true) : endsHump c = true := by
  rw [endsHump, h, Bool.true_or]

/-- The capital of a small letter. -/
theorem capital_of_isLower (h : c.isLower = true) :
    c.toUpper.isUpper = true ∧ c.toUpper.toLower = c ∧ endsHump c.toUpper = false :=
  forall_ascii (P := fun c => c.isLower = true →
    c.toUpper.isUpper = true ∧ c.toUpper.toLower = c ∧ endsHump c.toUpper = false)
    (by decide +kernel) (toNat_lt_of_endsHump (endsHump_of_isLower h)) h

/-- The character may stand in an identifier, and cuts none. -/
def InWord (c : Char) : Prop := isIdentifierChar c = true ∧ (c == '_') = false

instance : Decidable (InWord c) := instDecidableAnd

theorem inWord_of_endsHump (h : endsHump c = true) : InWord c :=
  forall_ascii (P := fun c => endsHump c = true → InWord c) (by decide +kernel)
    (toNat_lt_of_endsHump h) h

theorem inWord_toUpper (h : c.isLower = true) : InWord c.toUpper :=
  forall_ascii (P := fun c => c.isLower = true → InWord c.toUpper) (by decide +kernel)
    (toNat_lt_of_endsHump (endsHump_of_isLower h)) h

theorem notDigit_of_isLower (h : c.isLower = true) : c.isDigit = false :=
  forall_ascii (P := fun c => c.isLower = true → c.isDigit = false) (by decide +kernel)
    (toNat_lt_of_endsHump (endsHump_of_isLower h)) h

/-! ## Reading a name -/

/-- A character that ends its word if a capital follows is one more of the current word. -/
theorem step_small (h : endsHump c = true) : s.step c = ⟨s.done, s.current ++ [c], true⟩ := by
  obtain ⟨hupper, hlower⟩ := small_of_endsHump h
  simp [HumpScan.step, hupper, hlower, h]

theorem foldl_small (h : ∀ c ∈ cs, endsHump c = true) (hne : cs ≠ []) :
    cs.foldl HumpScan.step s = ⟨s.done, s.current ++ cs, true⟩ := by
  induction cs generalizing s with
  | nil => exact absurd rfl hne
  | cons c cs ih =>
      rw [List.foldl_cons, step_small (h c List.mem_cons_self)]
      cases cs with
      | nil => rfl
      | cons d cs =>
          rw [ih (fun e he => h e (List.mem_cons_of_mem c he)) (List.cons_ne_nil d cs)]
          simp

/-- A capital behind the end of a word completes it. -/
theorem step_capital (h : c.isLower = true) (hcurrent : s.current ≠ [])
    (hend : s.afterEnd = true) : s.step c.toUpper = ⟨s.done ++ [s.current], [c], false⟩ := by
  obtain ⟨hupper, hlower, hends⟩ := capital_of_isLower h
  simp [HumpScan.step, hupper, hlower, hends, hcurrent, hend]

end Intent

namespace NameWord

open Intent

variable (w : NameWord) {s : HumpScan}

theorem letters_small : ∀ c ∈ w.letters, endsHump c = true := by
  rw [letters, List.forall_mem_cons]
  exact ⟨endsHump_of_isLower w.first_isLower, w.rest_small⟩

theorem letters_ne_nil : w.letters ≠ [] := List.cons_ne_nil w.first w.rest

theorem letters_inWord : ∀ c ∈ w.letters, InWord c :=
  fun c hc => inWord_of_endsHump (w.letters_small c hc)

theorem capitalised_inWord : ∀ c ∈ w.capitalised, InWord c := by
  rw [capitalised, List.forall_mem_cons]
  exact ⟨inWord_toUpper w.first_isLower, fun c hc => inWord_of_endsHump (w.rest_small c hc)⟩

theorem further_isIdentifierChar (spelling : Spelling) :
    ∀ c ∈ spelling.further w, isIdentifierChar c = true := by
  cases spelling with
  | snake =>
      rw [Spelling.further, List.forall_mem_cons]
      exact ⟨by decide, fun c hc => (w.letters_inWord c hc).1⟩
  | camel => exact fun c hc => (w.capitalised_inWord c hc).1

theorem foldl_letters :
    w.letters.foldl HumpScan.step ⟨[], [], false⟩ = ⟨[], w.letters, true⟩ :=
  foldl_small w.letters_small w.letters_ne_nil

/-- A word with a capital at its start completes the word before it. -/
theorem foldl_capitalised (hcurrent : s.current ≠ []) (hend : s.afterEnd = true) :
    w.capitalised.foldl HumpScan.step s = ⟨s.done ++ [s.current], w.letters, true⟩ := by
  rw [capitalised, List.foldl_cons, step_capital w.first_isLower hcurrent hend,
    foldl_small w.rest_small w.rest_ne_nil]
  rfl

end NameWord

namespace Intent

variable (w : NameWord) (ws : List NameWord)

/-- Reading on, the current word and all that begin with a capital are found. -/
theorem words_foldl_capitalised (hcurrent : s.current ≠ []) (hend : s.afterEnd = true) :
    ((ws.flatMap NameWord.capitalised).foldl HumpScan.step s).words
      = s.done ++ s.current :: ws.map NameWord.letters := by
  induction ws generalizing s with
  | nil => simp [HumpScan.words, hcurrent]
  | cons w ws ih =>
      rw [List.flatMap_cons, List.foldl_append, w.foldl_capitalised hcurrent hend,
        ih w.letters_ne_nil rfl]
      simp

theorem humps_camel :
    humps (w.letters ++ ws.flatMap NameWord.capitalised) = (w :: ws).map NameWord.letters := by
  rw [humps, List.foldl_append, w.foldl_letters, words_foldl_capitalised ws w.letters_ne_nil rfl,
    List.nil_append, List.map_cons]

theorem humps_letters : humps w.letters = [w.letters] := by
  simpa using humps_camel w []

/-! ## Names in both spellings -/

/-- Underscores stand between the words of a name, and nowhere else. -/
theorem splitChars_snake : splitChars (· == '_') (Spelling.snake.write (w :: ws))
    = (w :: ws).map NameWord.letters := by
  have hunmarked (w : NameWord) : ∀ c ∈ w.letters, (c == '_') = false :=
    fun c hc => (w.letters_inWord c hc).2
  rw [Spelling.write]
  induction ws generalizing w with
  | nil => simpa using splitChars_undivided (hunmarked w)
  | cons v ws ih =>
      have hmore : splitChars (· == '_') ((v :: ws).flatMap Spelling.snake.further)
          = [] :: (v :: ws).map NameWord.letters := by
        rw [List.flatMap_cons, Spelling.further, List.cons_append, splitChars, ih v]
        rfl
      rw [splitChars_append (hunmarked w) hmore, List.append_nil]
      rfl

/-- A name in the other spelling has no underscores. -/
theorem splitChars_camel : splitChars (· == '_') (Spelling.camel.write (w :: ws))
    = [Spelling.camel.write (w :: ws)] := by
  refine splitChars_undivided ?_
  rw [Spelling.write, List.forall_mem_append, List.forall_mem_flatMap]
  exact ⟨fun c hc => (w.letters_inWord c hc).2, fun v _ c hc => (v.capitalised_inWord c hc).2⟩

/-- Both spellings of a name are cut into its words. -/
theorem wordsOfIdentifier_write (spelling : Spelling) :
    wordsOfIdentifier (spelling.write ws) = ws.map NameWord.letters := by
  cases ws with
  | nil => rfl
  | cons w ws =>
      cases spelling with
      | snake =>
          rw [wordsOfIdentifier, splitChars_snake, List.flatMap_map]
          simp only [humps_letters]
          rw [← List.map_eq_flatMap]
      | camel =>
          rw [wordsOfIdentifier, splitChars_camel, List.flatMap_singleton]
          exact humps_camel w ws

/-- A name in either spelling is one identifier. -/
theorem identifiers_write (spelling : Spelling) :
    identifiers (spelling.write (w :: ws)) = [spelling.write (w :: ws)] := by
  have hwhole : ∀ c ∈ spelling.write (w :: ws), (!isIdentifierChar c) = false := by
    simp only [Bool.not_eq_false']
    rw [Spelling.write, List.forall_mem_append, List.forall_mem_flatMap]
    exact ⟨fun c hc => (w.letters_inWord c hc).1,
      fun v _ => v.further_isIdentifierChar spelling⟩
  have hstart : (spelling.write (w :: ws)).dropWhile Char.isDigit = spelling.write (w :: ws) := by
    rw [Spelling.write, NameWord.letters, List.cons_append, List.dropWhile_cons,
      notDigit_of_isLower w.first_isLower, if_neg Bool.false_ne_true]
  have hne : spelling.write (w :: ws) ≠ [] := List.append_ne_nil_of_left_ne_nil w.letters_ne_nil _
  rw [identifiers, splitChars_undivided hwhole]
  simp [hstart, hne]

/-- A name says its words, however it is spelled. -/
theorem words_write (spelling : Spelling) :
    words (String.ofList (spelling.write ws)) = ws.map NameWord.text := by
  rw [words, String.toList_ofList]
  cases ws with
  | nil => rfl
  | cons w ws =>
      rw [identifiers_write, List.flatMap_singleton, wordsOfIdentifier_write, List.map_map]
      rfl

end Intent

end CodeProfile
