import CodeProfile.Library
import CodeProfile.Proofs.Text.Collapsed

/-!
# Modules that are mistaken for packages

What a module is for is asked in three steps, and the first answer
counts: the table of packages, the words of the name, the modules that
come with the language. The table and the words do not ask for the
language, so each of their entries can stand before a module that comes
with one.

A module belongs to a package of the table if it is named by it
(`NamedBy`): it has the name of the package, alone or with a separator
behind it. The first piece of such a name is that of the package
(`firstPiece_of_namedBy`), and what Rust takes for the package starts with
it (`hasStart_packageRoot_rust`). The rest is a comparison of the tables
(`shape_of_mem_knownKeys`, `shape_of_modules`). It comes out that
nothing stands before the modules of Node, Rust and C, that two packages
stand before modules of Python, and three before those of Java. Where the
modules of a language are not listed, for Go and Java, the words of the
name can do so too (`Mistaken`). The headline is
`categorize_ne_standard_iff_mistaken`.
-/

namespace CodeProfile

open Text

namespace Library

variable {module package key : String} {l : Language}

/-! ## Names of packages -/

/-- All packages of the table. -/
def knownKeys : List String := knownPackages.flatMap (·.2)

/-- The module is the package of this name or a part of it. -/
def NamedBy (module key : String) : Prop :=
  ∃ rest, module = key ++ rest
    ∧ (rest = "" ∨ hasStart rest "/" = true ∨ hasStart rest "." = true)

/-- A word in the name tells what the package is for. -/
def TellsPurpose (package : String) : Prop :=
  ∃ word ∈ splitWhere (!·.isAlphanum) package, lowerAscii word ∈ tellingWords.flatMap (·.2)

theorem hasStart_iff {s start : String} : hasStart s start = true ↔ start.toList <+: s.toList :=
  List.isPrefixOf_iff_prefix

theorem afterStart?_eq_some_iff {s start rest : String} :
    afterStart? s start = some rest ↔ s = start ++ rest := by
  constructor
  · intro h
    rw [afterStart?] at h
    split at h
    · next hstart =>
        obtain ⟨tail, htail⟩ := hasStart_iff.mp hstart
        rw [← Option.some.inj h, ← htail, List.drop_left, ← String.toList_inj]
        simp [← htail]
    · cases h
  · rintro rfl
    have hstart : hasStart (start ++ rest) start = true :=
      hasStart_iff.mpr ⟨rest.toList, String.toList_append.symm⟩
    rw [afterStart?, if_pos hstart, String.toList_append, List.drop_left, String.ofList_toList]

theorem isPartOf_iff : isPartOf module package key = true ↔ package = key ∨ NamedBy module key := by
  simp only [isPartOf, Bool.or_eq_true, beq_iff_eq, Option.any_eq_true, or_assoc, NamedBy,
    afterStart?_eq_some_iff]
  refine or_congr_right ?_
  constructor
  · rintro (rfl | ⟨rest, hmodule, hrest⟩)
    · exact ⟨"", by simp, Or.inl rfl⟩
    · exact ⟨rest, hmodule, Or.inr hrest⟩
  · rintro ⟨rest, rfl, rfl | hrest⟩
    · exact Or.inl (by simp)
    · exact Or.inr ⟨rest, rfl, hrest⟩

theorem isSome_knownCategory? : (knownCategory? module package).isSome = true
    ↔ ∃ key ∈ knownKeys, package = key ∨ NamedBy module key := by
  simp only [knownCategory?, Option.isSome_map, List.find?_isSome, List.any_eq_true, isPartOf_iff,
    knownKeys, List.mem_flatMap]
  constructor
  · rintro ⟨entry, hentry, key, hkey, hpart⟩
    exact ⟨key, ⟨entry, hentry, hkey⟩, hpart⟩
  · rintro ⟨key, ⟨entry, hentry, hkey⟩, hpart⟩
    exact ⟨entry, hentry, key, hkey, hpart⟩

theorem isSome_guessedCategory? :
    (guessedCategory? package).isSome = true ↔ TellsPurpose package := by
  simp only [guessedCategory?, Option.isSome_map, List.find?_isSome, List.any_eq_true, TellsPurpose,
    List.mem_map, List.mem_filter, List.mem_flatMap, List.contains_iff_mem]
  constructor
  · rintro ⟨entry, hentry, _, ⟨word, ⟨hword, -⟩, rfl⟩, htells⟩
    exact ⟨word, hword, entry, hentry, htells⟩
  · rintro ⟨word, hword, entry, hentry, htells⟩
    have hempty : ∀ entry ∈ tellingWords, lowerAscii "" ∉ entry.2 := by decide
    refine ⟨entry, hentry, _, ⟨word, ⟨hword, ?_⟩, rfl⟩, htells⟩
    cases hcase : word.isEmpty with
    | false => rfl
    | true =>
        rw [String.isEmpty_iff.mp hcase] at htells
        exact absurd htells (hempty entry hentry)

/-! ## Pieces of a name -/

theorem NamedBy.split (h : NamedBy module key) : module.toList = key.toList
    ∨ ∃ d tail, (d = '/' ∨ d = '.') ∧ module.toList = key.toList ++ d :: tail := by
  obtain ⟨rest, rfl, rfl | hslash | hdot⟩ := h
  · exact Or.inl (by rw [String.append_empty])
  · obtain ⟨tail, htail⟩ := hasStart_iff.mp hslash
    exact Or.inr ⟨'/', tail, Or.inl rfl, by rw [String.toList_append, ← htail]; rfl⟩
  · obtain ⟨tail, htail⟩ := hasStart_iff.mp hdot
    exact Or.inr ⟨'.', tail, Or.inr rfl, by rw [String.toList_append, ← htail]; rfl⟩

theorem NamedBy.hasStart (h : NamedBy module key) : hasStart module key = true := by
  obtain ⟨rest, rfl, -⟩ := h
  exact hasStart_iff.mpr ⟨rest.toList, String.toList_append.symm⟩

/-- The first piece of a part of a package is that of the package, unless
the part goes on with the other separator. -/
theorem firstPiece_of_namedBy {c : Char} (h : NamedBy module key)
    (hpiece : ∀ x ∈ (firstPiece c module).toList, x ≠ '/' ∧ x ≠ '.') :
    firstPiece c module = firstPiece c key := by
  rw [firstPiece, String.toList_ofList] at hpiece
  rw [firstPiece, firstPiece]
  rcases h.split with hsame | ⟨d, tail, hd, hpart⟩
  · rw [hsame]
  rw [hpart, List.takeWhile_append] at hpiece ⊢
  split
  · next hwhole =>
      rw [if_pos hwhole] at hpiece
      have hkey : key.toList.takeWhile (· != c) = key.toList :=
        (List.takeWhile_prefix _).eq_of_length hwhole
      have hends : d = c := by
        refine Decidable.byContradiction fun hne => ?_
        have hmem : d ∈ key.toList ++ (d :: tail).takeWhile (· != c) := by
          rw [List.takeWhile_cons_of_pos (by simp [hne])]
          exact List.mem_append_right _ List.mem_cons_self
        have hsep := hpiece d hmem
        rcases hd with rfl | rfl
        · exact hsep.1 rfl
        · exact hsep.2 rfl
      rw [List.takeWhile_cons_of_neg (by simp [hends]), hkey, List.append_nil]
  · rfl

/-- The first of the pieces of a text. -/
theorem splitChars_eq_cons (p : Char → Bool) (cs : List Char) :
    ∃ rest, splitChars p cs = cs.takeWhile (!p ·) :: rest := by
  induction cs with
  | nil => exact ⟨[], rfl⟩
  | cons c cs ih =>
      obtain ⟨rest, hrest⟩ := ih
      rw [splitChars, hrest]
      cases hp : p c with
      | true => exact ⟨_, by rw [List.takeWhile_cons_of_neg (by simp [hp])]; rfl⟩
      | false => exact ⟨rest, by rw [List.takeWhile_cons_of_pos (by simp [hp])]; rfl⟩

/-- The package of a module that is not built in is the first piece, unless
it belongs to a scope. -/
theorem packageRoot_javaScript (hbuiltIn : hasStart module "node:" = false)
    (hscope : ∀ x ∈ (packageRoot module .javaScript).toList, x ≠ '/' ∧ x ≠ '.') :
    packageRoot module .javaScript = firstPiece '/' module := by
  obtain ⟨rest, hrest⟩ := splitChars_eq_cons (· == '/') module.toList
  have hpieces :
      splitWhere (· == '/') module = firstPiece '/' module :: rest.map String.ofList := by
    rw [splitWhere, hrest]
    rfl
  have hpath : (afterStart? module "node:").getD module = module := by
    rw [afterStart?, hbuiltIn]
    rfl
  cases rest with
  | nil => simp only [packageRoot, hpath, hpieces, List.map_nil]
  | cons second rest =>
      simp only [packageRoot, hpath, hpieces, List.map_cons] at hscope ⊢
      split at hscope
      · have hslash : '/' ∈ (firstPiece '/' module ++ "/" ++ String.ofList second).toList := by
          simp
        exact absurd rfl (hscope '/' hslash).1
      · next hplain => rw [if_neg hplain]

theorem firstPathSegment_cons {c : Char} (hc : c ≠ ':') (cs : List Char) :
    firstPathSegment (c :: cs) = c :: firstPathSegment cs := by
  have hno : ([':', ':'] : List Char).isPrefixOf (c :: cs) = false := by
    simp [List.isPrefixOf, Ne.symm hc]
  rw [firstPathSegment, firstPathSegment, splitAtFirst?, hno]
  cases splitAtFirst? [':', ':'] cs <;> rfl

theorem firstPathSegment_append {cs : List Char} (h : ∀ x ∈ cs, x ≠ ':') (rest : List Char) :
    firstPathSegment (cs ++ rest) = cs ++ firstPathSegment rest := by
  induction cs with
  | nil => rfl
  | cons c cs ih =>
      rw [List.cons_append, firstPathSegment_cons (h c List.mem_cons_self),
        ih fun x hx => h x (List.mem_cons_of_mem c hx), List.cons_append]

/-- The package of a module starts as the module does, as far as there are
no blanks and no marks of a path. -/
theorem hasStart_packageRoot_rust (h : hasStart module key = true) (hkey : key.toList ≠ [])
    (hplain : ∀ x ∈ key.toList, x ≠ ':' ∧ isBlank x = false) :
    hasStart (packageRoot module .rust) key = true := by
  obtain ⟨tail, htail⟩ := hasStart_iff.mp h
  obtain ⟨c, cs, hcons⟩ := List.exists_cons_of_ne_nil hkey
  have hc := hplain c (hcons ▸ List.mem_cons_self)
  have hmarks : dropPathMarks module.toList = module.toList := by
    rw [← htail, hcons, List.cons_append, dropPathMarks]
    intro _ heq
    exact hc.1 (List.cons.inj heq).1
  have hblanks (rest : List Char) :
      (key.toList ++ rest).dropWhile isBlank = key.toList ++ rest := by
    rw [hcons, List.cons_append, List.dropWhile_cons_of_neg (by simp [hc.2])]
  rw [hasStart_iff, packageRoot, String.toList_ofList, hmarks, ← htail,
    firstPathSegment_append fun x hx => (hplain x hx).1, trimChars, hblanks,
    dropBlanksRight_append fun x hx => (hplain x hx).2]
  exact List.prefix_append _ _

/-! ## Shadowed modules -/

/-- The packages of the table whose names are those of Java's own. -/
def javaKeys : List String := ["java.sql", "javax.swing", "java.awt"]

/-- A module that comes with its language is taken for a package: it has the
name of a package of the table, or a word in its name tells a purpose. -/
def Mistaken (module : String) : Language → Prop
  | .python => firstPiece '.' module ∈ ["itertools", "uuid"]
  | .go => (∃ key ∈ knownKeys, NamedBy module key)
      ∨ hasStart module "node:" = false ∧ TellsPurpose module
  | .java | .kotlin => (∃ key ∈ javaKeys, NamedBy module key) ∨ TellsPurpose module
  | _ => False

theorem knownCategory?_ne_standard : knownCategory? module package ≠ some .standardLibrary := by
  have hnone : ∀ entry ∈ knownPackages, entry.1 ≠ .standardLibrary := by decide
  intro h
  obtain ⟨entry, hentry, hcategory⟩ := Option.map_eq_some_iff.mp h
  exact hnone entry (List.mem_of_find?_eq_some hentry) hcategory

theorem guessedCategory?_ne_standard : guessedCategory? package ≠ some .standardLibrary := by
  have hnone : ∀ entry ∈ tellingWords, entry.1 ≠ .standardLibrary := by decide
  intro h
  obtain ⟨entry, hentry, hcategory⟩ := Option.map_eq_some_iff.mp h
  exact hnone entry (List.mem_of_find?_eq_some hentry) hcategory

/-- A module that comes with its language is told otherwise exactly if one
of the questions asked before has an answer. -/
theorem categorize_ne_standard_iff (hstandard : isStandard module package l = true) :
    categorize module package l ≠ .standardLibrary
      ↔ (knownCategory? module package).isSome = true
        ∨ hasStart module "node:" = false ∧ (guessedCategory? package).isSome = true := by
  rw [categorize]
  cases hknown : knownCategory? module package with
  | some c =>
      have hc : c ≠ .standardLibrary := fun h => knownCategory?_ne_standard (h ▸ hknown)
      simp [hc]
  | none =>
      cases hnode : hasStart module "node:" with
      | true => simp
      | false =>
          cases hguessed : guessedCategory? package with
          | some c =>
              have hc : c ≠ .standardLibrary := fun h => guessedCategory?_ne_standard (h ▸ hguessed)
              simp [hc]
          | none => simp [hstandard]

/-! ## The names in the tables -/

/-- What the names of packages are like. They hold no blanks and no marks of
a path, and are no beginnings of names that come with Rust or with Node.
Three of them fit into the name spaces of Java, no first piece is a module of
Node, and two are modules of Python. -/
theorem shape_of_mem_knownKeys : ∀ key ∈ knownKeys,
    -- Only `List.all` is sure to look at the name and not at every character there is.
    key.toList.all (fun x => x != ':' && !isBlank x) = true
      ∧ key.toList ≠ []
      ∧ (∀ text ∈ ["node:", "std", "core", "alloc"], hasStart text key = false)
      ∧ (∀ start ∈ ["java.", "javax."],
        hasStart start key = true ∨ hasStart key start = true → key ∈ javaKeys)
      ∧ firstPiece '/' key ∉ nodeModules
      ∧ (firstPiece '.' key ∈ pythonModules → firstPiece '.' key ∈ ["itertools", "uuid"]) := by
  decide +kernel

theorem mem_knownKeys : ∀ key ∈ javaKeys ++ ["itertools", "uuid"], key ∈ knownKeys := by
  decide +kernel

theorem plain_of_mem_knownKeys :
    ∀ key ∈ knownKeys, ∀ x ∈ key.toList, x ≠ ':' ∧ isBlank x = false := by
  intro key hkey x hx
  simpa using List.all_eq_true.mp (shape_of_mem_knownKeys key hkey).1 x hx

/-- What the names of modules are like. Those of Node and Python have no
parts, no word in a listed name tells a purpose, and no header of C is in
the table. -/
theorem shape_of_modules :
    (∀ package ∈ nodeModules ++ pythonModules,
        package.toList.all (fun x => x != '/' && x != '.') = true)
      ∧ (∀ package ∈ nodeModules ++ pythonModules ++ ["std", "core", "alloc"] ++ cHeaders,
        (guessedCategory? package).isSome = false)
      ∧ ∀ header ∈ cHeaders, (knownCategory? header header).isSome = false := by
  decide +kernel

theorem plain_of_mem_modules : ∀ package ∈ nodeModules ++ pythonModules,
    ∀ x ∈ package.toList, x ≠ '/' ∧ x ≠ '.' := by
  intro package hpackage x hx
  simpa using List.all_eq_true.mp (shape_of_modules.1 package hpackage) x hx

/-- No word in the name of a listed module tells a purpose. -/
theorem not_tellsPurpose : ∀ package ∈ nodeModules ++ pythonModules ++ ["std", "core", "alloc"]
    ++ cHeaders, ¬ TellsPurpose package := by
  intro package hpackage htells
  rw [← isSome_guessedCategory?, shape_of_modules.2.1 package hpackage] at htells
  cases htells

/-- A text does not start in two ways if neither starts with the other. -/
theorem not_hasStart_of_hasStart {s a b : String} (hs : hasStart s a = true)
    (hab : hasStart a b = false) (hba : hasStart b a = false) : hasStart s b = false := by
  rw [← Bool.not_eq_true, hasStart_iff] at *
  intro hb
  rcases List.prefix_or_prefix_of_prefix hs hb with h | h
  · exact hba h
  · exact hab h

/-- A part of a package is not built in. -/
theorem not_hasStart_node (hkey : key ∈ knownKeys) (h : NamedBy module key) :
    hasStart module "node:" = false := by
  obtain ⟨-, -, hshort, -⟩ := shape_of_mem_knownKeys key hkey
  refine not_hasStart_of_hasStart h.hasStart ?_ (hshort "node:" List.mem_cons_self)
  rw [← Bool.not_eq_true, hasStart_iff]
  intro hnode
  have hcolon : ':' ∈ key.toList := hnode.subset (by decide)
  exact (plain_of_mem_knownKeys key hkey ':' hcolon).1 rfl

/-- A name without separators is its own first piece. -/
theorem firstPiece_of_plain {c : Char} {name : String} (hc : c = '/' ∨ c = '.')
    (hplain : ∀ x ∈ name.toList, x ≠ '/' ∧ x ≠ '.') : firstPiece c name = name := by
  have hkeeps : ∀ x ∈ name.toList, (x != c) = true := by
    intro x hx
    rcases hc with rfl | rfl
    · exact bne_iff_ne.mpr (hplain x hx).1
    · exact bne_iff_ne.mpr (hplain x hx).2
  have hwhole := @List.takeWhile_append_of_pos _ _ name.toList [] hkeeps
  rw [List.append_nil, List.takeWhile_nil, List.append_nil] at hwhole
  rw [firstPiece, hwhole, String.ofList_toList]

/-! ## One language after the other -/

theorem knownCategory?_javaScript (h : packageRoot module .javaScript ∈ nodeModules) :
    knownCategory? module (packageRoot module .javaScript) = none := by
  have hplain := plain_of_mem_modules _ (List.mem_append_left _ h)
  rw [← Option.not_isSome_iff_eq_none, isSome_knownCategory?]
  rintro ⟨key, hkey, hpart⟩
  obtain ⟨-, -, -, -, hnone, -⟩ := shape_of_mem_knownKeys key hkey
  rcases hpart with heq | hnamed
  · rw [← firstPiece_of_plain (Or.inl rfl) hplain, heq] at h
    exact hnone h
  · have hroot := packageRoot_javaScript (not_hasStart_node hkey hnamed) hplain
    rw [hroot] at h hplain
    rw [firstPiece_of_namedBy hnamed hplain] at h
    exact hnone h

theorem isSome_knownCategory?_python (h : packageRoot module .python ∈ pythonModules) :
    (knownCategory? module (packageRoot module .python)).isSome = true
      ↔ packageRoot module .python ∈ ["itertools", "uuid"] := by
  have hplain := plain_of_mem_modules _ (List.mem_append_right _ h)
  rw [isSome_knownCategory?]
  constructor
  · rintro ⟨key, hkey, hpart⟩
    have hpiece : packageRoot module .python = firstPiece '.' key := by
      rcases hpart with rfl | hnamed
      · exact (firstPiece_of_plain (Or.inr rfl) hplain).symm
      · exact firstPiece_of_namedBy hnamed hplain
    obtain ⟨-, -, -, -, -, htwo⟩ := shape_of_mem_knownKeys key hkey
    rw [hpiece] at h ⊢
    exact htwo h
  · exact fun hmem => ⟨_, mem_knownKeys _ (List.mem_append_right _ hmem), Or.inl rfl⟩

theorem knownCategory?_rust (h : packageRoot module .rust ∈ ["std", "core", "alloc"]) :
    knownCategory? module (packageRoot module .rust) = none := by
  rw [← Option.not_isSome_iff_eq_none, isSome_knownCategory?]
  rintro ⟨key, hkey, hpart⟩
  obtain ⟨-, hne, hshort, -⟩ := shape_of_mem_knownKeys key hkey
  have hstart : hasStart (packageRoot module .rust) key = true := by
    rcases hpart with heq | hnamed
    · rw [heq]
      exact hasStart_iff.mpr (List.prefix_refl _)
    · exact hasStart_packageRoot_rust hnamed.hasStart hne (plain_of_mem_knownKeys key hkey)
  rw [hshort _ (List.mem_cons_of_mem _ h)] at hstart
  cases hstart

theorem knownCategory?_c (h : module ∈ cHeaders) : knownCategory? module module = none := by
  rw [← Option.not_isSome_iff_eq_none, shape_of_modules.2.2 module h]
  exact Bool.false_ne_true

/-- A module that is its own package is known if it is a part of a package
of the table. -/
theorem isSome_knownCategory?_self :
    (knownCategory? module module).isSome = true ↔ ∃ key ∈ knownKeys, NamedBy module key := by
  rw [isSome_knownCategory?]
  constructor
  · rintro ⟨key, hkey, rfl | hnamed⟩
    · exact ⟨_, hkey, "", String.append_empty.symm, Or.inl rfl⟩
    · exact ⟨key, hkey, hnamed⟩
  · rintro ⟨key, hkey, hnamed⟩
    exact ⟨key, hkey, Or.inr hnamed⟩

theorem isSome_knownCategory?_java {start : String} (hstart : start ∈ ["java.", "javax."])
    (h : hasStart module start = true) :
    (knownCategory? module module).isSome = true ↔ ∃ key ∈ javaKeys, NamedBy module key := by
  rw [isSome_knownCategory?_self]
  constructor
  · rintro ⟨key, hkey, hnamed⟩
    obtain ⟨-, -, -, hthree, -⟩ := shape_of_mem_knownKeys key hkey
    refine ⟨key, hthree start hstart ?_, hnamed⟩
    rw [hasStart_iff, hasStart_iff]
    exact List.prefix_or_prefix_of_prefix (hasStart_iff.mp hnamed.hasStart) (hasStart_iff.mp h)
  · rintro ⟨key, hkey, hnamed⟩
    exact ⟨key, mem_knownKeys key (List.mem_append_left _ hkey), hnamed⟩

/-- Of the modules that come with a language, the ones taken for a package
are those that a question asked before has an answer for. -/
theorem categorize_ne_standard_iff_mistaken
    (hstandard : isStandard module (packageRoot module l) l = true) :
    categorize module (packageRoot module l) l ≠ .standardLibrary ↔ Mistaken module l := by
  rw [categorize_ne_standard_iff hstandard, isSome_guessedCategory?]
  have hnone (hknown : knownCategory? module (packageRoot module l) = none)
      (htells : ¬ TellsPurpose (packageRoot module l)) :
      ((knownCategory? module (packageRoot module l)).isSome = true
        ∨ hasStart module "node:" = false ∧ TellsPurpose (packageRoot module l)) ↔ False := by
    simp [hknown, htells]
  have hjava (h : hasStart module "java." = true ∨ hasStart module "javax." = true) :
      ((knownCategory? module module).isSome = true
        ∨ hasStart module "node:" = false ∧ TellsPurpose module)
        ↔ (∃ key ∈ javaKeys, NamedBy module key) ∨ TellsPurpose module := by
    have hapart : ∀ start ∈ ["java.", "javax."],
        hasStart start "node:" = false ∧ hasStart "node:" start = false := by
      decide
    obtain ⟨start, hstart, hmodule⟩ :
        ∃ start ∈ ["java.", "javax."], hasStart module start = true := by
      simpa using h
    have hnode := not_hasStart_of_hasStart hmodule (hapart start hstart).1 (hapart start hstart).2
    rw [isSome_knownCategory?_java hstart hmodule, hnode]
    simp only [true_and]
  cases l with
  | javaScript | typeScript =>
      have hmem := List.contains_iff_mem.mp hstandard
      refine hnone (knownCategory?_javaScript hmem) (not_tellsPurpose _ ?_)
      exact List.mem_append_left _ (List.mem_append_left _ (List.mem_append_left _ hmem))
  | python =>
      have hmem := List.contains_iff_mem.mp hstandard
      have htells : ¬ TellsPurpose (packageRoot module .python) := not_tellsPurpose _
        (List.mem_append_left _ (List.mem_append_left _ (List.mem_append_right _ hmem)))
      rw [isSome_knownCategory?_python hmem]
      simp only [htells, and_false, or_false]
      rfl
  | rust =>
      have hmem := List.contains_iff_mem.mp hstandard
      refine hnone (knownCategory?_rust hmem) (not_tellsPurpose _ ?_)
      exact List.mem_append_left _ (List.mem_append_right _ hmem)
  | c | cpp =>
      have hmem := List.contains_iff_mem.mp hstandard
      exact hnone (knownCategory?_c hmem) (not_tellsPurpose _ (List.mem_append_right _ hmem))
  | go => exact or_congr_left isSome_knownCategory?_self
  | java | kotlin => exact hjava (Bool.or_eq_true_iff.mp hstandard)
  | _ => cases hstandard

end Library

end CodeProfile
