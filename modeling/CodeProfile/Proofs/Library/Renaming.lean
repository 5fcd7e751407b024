import Mathlib.Data.List.Find
import CodeProfile.Proofs.Library.Dependencies

/-!
# Renamed imports in Rust

A path may be imported under another name: `use p as y` imports what `use p`
does. The package of a module is read off the whole text of the declaration,
up to its first `::`. So the alias is cut off where the path has a second
segment, and is taken for a part of the package where it has none
(`packageRoot_several`, `packageRoot_renamed`).

With a second segment nothing changes: the two modules are asked the same
questions with the same answers (`categorize_renamed`). Without one, the
package has blanks in it, which no package of a table has. It is neither
local nor known nor standard, and what it is for can only be guessed from
its words, the alias among them (`toLibrary_renamed_single`). The headline
is `renamed_iff`, for a single import and for the packages to install of a
whole snippet. The standard library under another name is to be installed
(`stdRenamed_installed`).
-/

namespace CodeProfile

open Text

/-- A name in a path: at least one character, no blanks, and none of the
marks that divide names. -/
structure PathName where
  text : String
  unspaced : Unspaced text.toList
  undivided : ∀ c ∈ text.toList, c ≠ ':' ∧ c ≠ '/' ∧ c ≠ '.'

/-- A path of a `use` declaration: names with `::` between them, and perhaps
in front of the first. -/
structure UsePath where
  isGlobal : Bool
  first : PathName
  rest : List PathName

namespace UsePath

/-- The path as it is written. -/
def text (p : UsePath) : String :=
  (if p.isGlobal then "::" else "") ++ p.first.text
    ++ String.join (p.rest.map fun s => "::" ++ s.text)

/-- The path with another name for what it imports. -/
def renamed (p : UsePath) (y : PathName) : String := p.text ++ " as " ++ y.text

/-- What the package of a path without a second segment is read as when the
path is renamed. -/
def mergedPackage (p : UsePath) (y : PathName) : String := p.first.text ++ " as " ++ y.text

variable {p : UsePath} {y : PathName} {module : String} {cs : List Char}

/-! ## The text of a path -/

/-- The module is the path with more behind it. -/
def Starts (p : UsePath) (module : String) (more : List Char) : Prop :=
  module.toList = (if p.isGlobal then [':', ':'] else []) ++ (p.first.text.toList
    ++ (p.rest.flatMap (fun s => ':' :: ':' :: s.text.toList) ++ more))

theorem starts_text (p : UsePath) : p.Starts p.text [] := by
  cases hglobal : p.isGlobal <;>
    simp [Starts, text, hglobal, String.toList_join, List.flatMap_map]

theorem starts_renamed (p : UsePath) (y : PathName) :
    p.Starts (p.renamed y) (" as ".toList ++ y.text.toList) := by
  cases hglobal : p.isGlobal <;>
    simp [Starts, renamed, text, hglobal, String.toList_join, List.flatMap_map]

/-- What stands between a path and its other name holds no mark. -/
theorem undivided_as : ∀ c ∈ " as ".toList, c ≠ ':' ∧ c ≠ '/' ∧ c ≠ '.' := by simp

theorem exists_first (p : UsePath) : ∃ c cs, p.first.text.toList = c :: cs ∧ c ≠ ':' := by
  obtain ⟨c, cs, hcs⟩ := List.exists_cons_of_ne_nil p.first.unspaced.ne_nil
  exact ⟨c, cs, hcs, (p.first.undivided c (hcs ▸ List.mem_cons_self)).1⟩

theorem dropPathMarks_first (p : UsePath) (cs : List Char) :
    Library.dropPathMarks (p.first.text.toList ++ cs) = p.first.text.toList ++ cs := by
  obtain ⟨c, ds, hfirst, hc⟩ := p.exists_first
  rw [hfirst, List.cons_append, Library.dropPathMarks]
  rintro _ heq
  exact hc (List.cons.inj heq).1

/-- The package is what stands in front of the second segment. -/
theorem packageRoot_of_starts (h : p.Starts module cs) : Library.packageRoot module .rust
    = String.ofList (trimChars (p.first.text.toList ++ Library.firstPathSegment
        (p.rest.flatMap (fun s => ':' :: ':' :: s.text.toList) ++ cs))) := by
  have hmarks : Library.dropPathMarks module.toList = p.first.text.toList
      ++ (p.rest.flatMap (fun s => ':' :: ':' :: s.text.toList) ++ cs) := by
    rw [h]
    cases p.isGlobal with
    | true => exact p.dropPathMarks_first _
    | false => exact p.dropPathMarks_first _
  rw [Library.packageRoot, hmarks,
    Library.firstPathSegment_append fun c hc => (p.first.undivided c hc).1]

theorem trimChars_first (p : UsePath) : trimChars p.first.text.toList = p.first.text.toList :=
  trimChars_eq (fun c hc => p.first.unspaced.notBlank c (List.mem_of_mem_head? hc))
    (fun c hc => p.first.unspaced.notBlank c (List.mem_of_mem_getLast? hc))

/-- With a second segment the package is the first one, whatever follows. -/
theorem packageRoot_several (hrest : p.rest ≠ []) (h : p.Starts module cs) :
    Library.packageRoot module .rust = p.first.text := by
  obtain ⟨s, rest, hcons⟩ := List.exists_cons_of_ne_nil hrest
  have hnone (ds : List Char) : Library.firstPathSegment (':' :: ':' :: ds) = [] := by
    simp [Library.firstPathSegment, splitAtFirst?, List.isPrefixOf]
  rw [packageRoot_of_starts h, hcons, List.flatMap_cons, List.cons_append, List.cons_append,
    List.cons_append, List.cons_append, hnone, List.append_nil, p.trimChars_first,
    String.ofList_toList]

theorem packageRoot_text (p : UsePath) : Library.packageRoot p.text .rust = p.first.text := by
  by_cases hrest : p.rest = []
  · have hnone : Library.firstPathSegment [] = [] := rfl
    rw [packageRoot_of_starts p.starts_text, hrest, List.flatMap_nil, List.nil_append, hnone,
      List.append_nil, p.trimChars_first, String.ofList_toList]
  · exact packageRoot_several hrest p.starts_text

/-- Without one, the alias is taken for a part of it. -/
theorem packageRoot_renamed (hrest : p.rest = []) (y : PathName) :
    Library.packageRoot (p.renamed y) .rust = p.mergedPackage y := by
  have hwhole : Library.firstPathSegment (" as ".toList ++ y.text.toList)
      = " as ".toList ++ y.text.toList := by
    have hplain : ∀ c ∈ " as ".toList ++ y.text.toList, c ≠ ':' := by
      intro c hc
      rcases List.mem_append.mp hc with has | halias
      · exact (undivided_as c has).1
      · exact (y.undivided c halias).1
    have hsplit := Library.firstPathSegment_append hplain []
    rwa [List.append_nil, show Library.firstPathSegment [] = [] from rfl, List.append_nil] at hsplit
  have hends : trimChars (p.mergedPackage y).toList = (p.mergedPackage y).toList := by
    obtain ⟨c, ds, hfirst, -⟩ := p.exists_first
    refine trimChars_eq (fun d hd => ?_) (fun d hd => ?_)
    · refine p.first.unspaced.notBlank d ?_
      simp only [mergedPackage, String.toList_append, hfirst, List.cons_append, List.head?_cons,
        Option.mem_def, Option.some.injEq] at hd
      rw [← hd, hfirst]
      exact List.mem_cons_self
    · refine y.unspaced.notBlank d (List.mem_of_mem_getLast? ?_)
      rwa [mergedPackage, String.toList_append,
        List.getLast?_append_of_ne_nil _ y.unspaced.ne_nil] at hd
  have hmerged : p.first.text.toList ++ (" as ".toList ++ y.text.toList)
      = (p.mergedPackage y).toList := by
    simp [mergedPackage]
  rw [packageRoot_of_starts (p.starts_renamed y), hrest, List.flatMap_nil, List.nil_append,
    hwhole, hmerged, hends, String.ofList_toList]

/-! ## Packages without parts -/

/-- No mark in the module goes on behind a package of the table. -/
def Undivided (module : String) : Prop := ∀ c ∈ module.toList, c ≠ '/' ∧ c ≠ '.'

theorem undivided_text (p : UsePath) : Undivided p.text := by
  intro c hc
  rw [p.starts_text, List.append_nil] at hc
  rcases List.mem_append.mp hc with hglobal | hc
  · split at hglobal
    · rcases List.mem_pair.mp hglobal with rfl | rfl <;> decide
    · cases hglobal
  rcases List.mem_append.mp hc with hfirst | hrest
  · exact (p.first.undivided c hfirst).2
  obtain ⟨s, -, hs⟩ := List.mem_flatMap.mp hrest
  rcases List.mem_cons.mp hs with rfl | hs
  · decide
  rcases List.mem_cons.mp hs with rfl | hs
  · decide
  · exact (s.undivided c hs).2

theorem undivided_renamed (p : UsePath) (y : PathName) : Undivided (p.renamed y) := by
  intro c hc
  rw [renamed, String.toList_append, String.toList_append] at hc
  rcases List.mem_append.mp hc with hc | halias
  · exact (List.mem_append.mp hc).elim (p.undivided_text c) fun has => (undivided_as c has).2
  · exact (y.undivided c halias).2

/-- Which package of the table has the name, if any. -/
def namedCategory? (package : String) : Option LibraryCategory :=
  (Library.knownPackages.find? fun (_, keys) => keys.contains package).map (·.1)

/-- Such a module is known by its package only, if it is the package or has
marks that no package has. -/
theorem knownCategory?_of_undivided {package : String} (h : Undivided module)
    (hname : module = package ∨ ∃ c ∈ module.toList, c = ':' ∨ isBlank c = true) :
    Library.knownCategory? module package = namedCategory? package := by
  have hpart {key : String} (hkey : key ∈ Library.knownKeys) :
      Library.isPartOf module package key = true ↔ package = key := by
    rw [Library.isPartOf_iff, or_iff_left_iff_imp]
    intro hnamed
    rcases hnamed.split with hsame | ⟨d, ds, hd, hgoes⟩
    · rcases hname with rfl | ⟨c, hc, hmark⟩
      · exact String.toList_inj.mp hsame
      · have hplain := Library.plain_of_mem_knownKeys key hkey c (hsame ▸ hc)
        rcases hmark with rfl | hblank
        · exact absurd rfl hplain.1
        · rw [hplain.2] at hblank
          cases hblank
    · have hd' := h d (hgoes ▸ List.mem_append_right _ List.mem_cons_self)
      exact absurd hd (not_or.mpr hd')
  rw [Library.knownCategory?, namedCategory?, List.find?_congr]
  intro row hrow
  rw [Bool.eq_iff_iff, List.any_eq_true, List.contains_iff_mem]
  constructor
  · rintro ⟨key, hkey, hmatch⟩
    rwa [(hpart (List.mem_flatMap.mpr ⟨row, hrow, hkey⟩)).mp hmatch]
  · exact fun hkey => ⟨package, hkey, (hpart (List.mem_flatMap.mpr ⟨row, hrow, hkey⟩)).mpr rfl⟩

theorem blank_mem_renamed (p : UsePath) (y : PathName) :
    ∃ c ∈ (p.renamed y).toList, c = ':' ∨ isBlank c = true :=
  ⟨' ', by simp [renamed], Or.inr rfl⟩

theorem knownCategory?_renamed (p : UsePath) (y : PathName) (package : String) :
    Library.knownCategory? (p.renamed y) package = namedCategory? package :=
  knownCategory?_of_undivided (p.undivided_renamed y) (Or.inr (p.blank_mem_renamed y))

theorem knownCategory?_text (p : UsePath) :
    Library.knownCategory? p.text p.first.text = namedCategory? p.first.text := by
  refine knownCategory?_of_undivided p.undivided_text ?_
  by_cases hsingle : p.isGlobal = false ∧ p.rest = []
  · refine Or.inl (String.toList_inj.mp ?_)
    rw [p.starts_text, hsingle.1, hsingle.2]
    simp
  · refine Or.inr ⟨':', ?_, Or.inl rfl⟩
    rw [p.starts_text]
    by_cases hglobal : p.isGlobal = true
    · simp [hglobal]
    · obtain ⟨s, rest, hcons⟩ := List.exists_cons_of_ne_nil
        (not_and.mp hsingle (Bool.not_eq_true _ ▸ hglobal))
      simp [hcons]

/-! ## Built-in modules of another language -/

/-- The module starts like a module of Node exactly if its first name is
that of Node and is followed by another. -/
theorem hasStart_node_iff (h : p.Starts module cs) (hcs : ∀ c ∈ cs, c ≠ ':') :
    hasStart module "node:" = true
      ↔ p.isGlobal = false ∧ p.first.text = "node" ∧ p.rest ≠ [] := by
  rw [Library.hasStart_iff, h]
  constructor
  · intro hnode
    cases hglobal : p.isGlobal with
    | true =>
        rw [hglobal] at hnode
        exact absurd (List.cons_prefix_cons.mp hnode).1 (by decide)
    | false =>
        obtain ⟨tail, htail⟩ := hnode
        rw [hglobal, if_neg Bool.false_ne_true, List.nil_append] at htail
        have hfirst (more : List Char) : (p.first.text.toList ++ more).takeWhile (· != ':')
            = p.first.text.toList ++ more.takeWhile (· != ':') :=
          List.takeWhile_append_of_pos fun c hc => bne_iff_ne.mpr (p.first.undivided c hc).1
        cases hrest : p.rest with
        | nil =>
            rw [hrest, List.flatMap_nil, List.nil_append] at htail
            have hcolon : ':' ∈ p.first.text.toList ++ cs :=
              htail ▸ List.mem_append_left _ (by decide)
            rcases List.mem_append.mp hcolon with hmem | hmem
            · exact absurd rfl (p.first.undivided ':' hmem).1
            · exact absurd rfl (hcs ':' hmem)
        | cons s rest =>
            have hname := congrArg (List.takeWhile (· != ':')) htail
            rw [hfirst, hrest, List.flatMap_cons] at hname
            refine ⟨rfl, String.toList_inj.mp ?_, List.cons_ne_nil s rest⟩
            simpa using hname.symm
  · rintro ⟨hglobal, hname, hrest⟩
    obtain ⟨s, rest, hcons⟩ := List.exists_cons_of_ne_nil hrest
    rw [hglobal, hname, hcons]
    exact List.prefix_append "node:".toList _

theorem hasStart_node_text (p : UsePath) : hasStart p.text "node:" = true
    ↔ p.isGlobal = false ∧ p.first.text = "node" ∧ p.rest ≠ [] :=
  hasStart_node_iff p.starts_text fun _ hc => absurd hc List.not_mem_nil

theorem hasStart_node_renamed (p : UsePath) (y : PathName) : hasStart (p.renamed y) "node:" = true
    ↔ p.isGlobal = false ∧ p.first.text = "node" ∧ p.rest ≠ [] :=
  hasStart_node_iff (p.starts_renamed y) fun c hc =>
    (List.mem_append.mp hc).elim (fun has => (undivided_as c has).1)
      fun halias => (y.undivided c halias).1

/-! ## The two imports -/

/-- What is read off the import without another name. -/
def plainLibrary (p : UsePath) (line : Nat) : LibraryInfo :=
  Import.toLibrary .rust ⟨p.text, false, line⟩

/-- What is read off the import with another name. -/
def renamedLibrary (p : UsePath) (y : PathName) (line : Nat) : LibraryInfo :=
  Import.toLibrary .rust ⟨p.renamed y, false, line⟩

theorem plainLibrary_eq (p : UsePath) (line : Nat) : p.plainLibrary line =
    { name := p.text
      package := p.first.text
      category := if ["crate", "self", "super"].contains p.first.text then .unknown
        else Library.categorize p.text p.first.text .rust
      isLocal := ["crate", "self", "super"].contains p.first.text
      line } := by
  simp only [plainLibrary, Import.toLibrary, Library.isLocalModule, packageRoot_text, Bool.false_or]

theorem categorize_renamed (p : UsePath) (y : PathName) :
    Library.categorize (p.renamed y) p.first.text .rust
      = Library.categorize p.text p.first.text .rust := by
  have hnode : hasStart (p.renamed y) "node:" = hasStart p.text "node:" := by
    rw [Bool.eq_iff_iff, hasStart_node_renamed, hasStart_node_text]
  rw [Library.categorize, Library.categorize, knownCategory?_renamed, knownCategory?_text, hnode]
  rfl

/-- With a second segment the other name changes nothing but the text. -/
theorem renamedLibrary_several (hrest : p.rest ≠ []) (y : PathName) (m n : Nat) :
    p.renamedLibrary y n = { p.plainLibrary m with
      name := p.renamed y
      line := n } := by
  rw [plainLibrary_eq]
  simp only [renamedLibrary, Import.toLibrary, Library.isLocalModule,
    packageRoot_several hrest (p.starts_renamed y), categorize_renamed, Bool.false_or]

theorem mergedPackage_ne {name : String} (hname : ∀ c ∈ name.toList, isBlank c = false) :
    p.mergedPackage y ≠ name := by
  rintro rfl
  have hspace := hname ' ' (by simp [mergedPackage])
  cases hspace

theorem namedCategory?_mergedPackage (p : UsePath) (y : PathName) :
    namedCategory? (p.mergedPackage y) = none := by
  rw [namedCategory?, Option.map_eq_none_iff, List.find?_eq_none]
  intro row hrow hkey
  have hmem : p.mergedPackage y ∈ Library.knownKeys :=
    List.mem_flatMap.mpr ⟨row, hrow, List.contains_iff_mem.mp hkey⟩
  exact mergedPackage_ne (fun c hc => (Library.plain_of_mem_knownKeys _ hmem c hc).2) rfl

/-- Without one, the alias makes it a package that is not known, not local
and not standard. -/
theorem renamedLibrary_single (hrest : p.rest = []) (y : PathName) (line : Nat) :
    p.renamedLibrary y line =
      { name := p.renamed y
        package := p.mergedPackage y
        category := (Library.guessedCategory? (p.mergedPackage y)).getD .unknown
        isLocal := false
        line } := by
  have hlisted (names : List String) (hall : ∀ name ∈ names, ∀ c ∈ name.toList, isBlank c = false) :
      names.contains (p.mergedPackage y) = false := by
    rw [← Bool.not_eq_true, List.contains_iff_mem]
    exact fun hmem => mergedPackage_ne (hall _ hmem) rfl
  have hlocal := hlisted ["crate", "self", "super"] (by simp [isBlank])
  have hstandard := hlisted ["std", "core", "alloc"] (by simp [isBlank])
  have hnode : hasStart (p.renamed y) "node:" = false := by
    rw [← Bool.not_eq_true, hasStart_node_renamed]
    exact fun h => h.2.2 hrest
  have hcategory : Library.categorize (p.renamed y) (p.mergedPackage y) .rust
      = (Library.guessedCategory? (p.mergedPackage y)).getD .unknown := by
    simp only [Library.categorize, knownCategory?_renamed, namedCategory?_mergedPackage, hnode,
      Library.isStandard, hstandard, Bool.false_eq_true, if_false]
    cases Library.guessedCategory? (p.mergedPackage y) <;> rfl
  simp only [renamedLibrary, Import.toLibrary, Library.isLocalModule, packageRoot_renamed hrest,
    hlocal, hcategory, Bool.false_or, Bool.false_eq_true, if_false]

/-- So it must always be installed. -/
theorem isThirdParty_renamedLibrary (hrest : p.rest = []) (y : PathName) (line : Nat) :
    (p.renamedLibrary y line).isThirdParty = true := by
  rw [renamedLibrary_single hrest, LibraryInfo.isThirdParty]
  cases hguessed : Library.guessedCategory? (p.mergedPackage y) with
  | none => rfl
  | some c =>
      have hc : c ≠ .standardLibrary := fun h => Library.guessedCategory?_ne_standard (h ▸ hguessed)
      simp [hc]

/-- The first names of paths into the project and of those that come with the
language. -/
def ownNames : List String := ["crate", "self", "super", "std", "core", "alloc"]

/-- What comes with the language is told so, and without a second segment
nothing else is. -/
theorem categorize_single (hrest : p.rest = []) :
    Library.categorize p.text p.first.text .rust = .standardLibrary
      ↔ p.first.text ∈ ["std", "core", "alloc"] := by
  have hmistaken := @Library.categorize_ne_standard_iff_mistaken p.text .rust
  rw [packageRoot_text] at hmistaken
  constructor
  · intro hcategory
    by_contra hnot
    have hnode : hasStart p.text "node:" = false := by
      rw [← Bool.not_eq_true, hasStart_node_text]
      exact fun h => h.2.2 hrest
    have hstandard : Library.isStandard p.text p.first.text .rust = false := by
      rw [← Bool.not_eq_true]
      exact fun h => hnot (List.contains_iff_mem.mp h)
    rw [Library.categorize] at hcategory
    cases hknown : Library.knownCategory? p.text p.first.text with
    | some c =>
        rw [hknown] at hcategory
        exact Library.knownCategory?_ne_standard (hknown.trans (congrArg some hcategory))
    | none =>
        rw [hknown, hnode, hstandard] at hcategory
        cases hguessed : Library.guessedCategory? p.first.text with
        | some c =>
            rw [hguessed] at hcategory
            exact Library.guessedCategory?_ne_standard (hguessed.trans (congrArg some hcategory))
        | none =>
            rw [hguessed] at hcategory
            cases hcategory
  · intro hmem
    have hnever := hmistaken (List.contains_iff_mem.mpr hmem)
    exact Decidable.not_not.mp fun hne => hnever.mp hne

/-- A single name must be installed unless it is one of these. -/
theorem isThirdParty_plainLibrary (hrest : p.rest = []) (line : Nat) :
    (p.plainLibrary line).isThirdParty = true ↔ p.first.text ∉ ownNames := by
  have hown : p.first.text ∈ ownNames ↔ p.first.text ∈ ["crate", "self", "super"]
      ∨ p.first.text ∈ ["std", "core", "alloc"] := List.mem_append (s := ["crate", "self", "super"])
  rw [hown, plainLibrary_eq, LibraryInfo.isThirdParty]
  by_cases hlocal : p.first.text ∈ ["crate", "self", "super"]
  · simp [hlocal]
  · have hlocal' : ["crate", "self", "super"].contains p.first.text = false := by
      rw [← Bool.not_eq_true, List.contains_iff_mem]
      exact hlocal
    simp only [hlocal', hlocal, Bool.false_eq_true, if_false, Bool.not_false, Bool.true_and,
      bne_iff_ne, ne_eq, categorize_single hrest, false_or]

end UsePath

/-! ## Declarations -/

namespace SyntaxTree

variable {s t : SyntaxTree} {p : UsePath} {y : PathName}

/-- The place is a declaration with the module behind `use`. -/
def Declares (d : Place) (module : String) : Prop :=
  d.kind = "use_declaration" ∧ (d.childByField? "argument").map (·.text) = some module

/-- What a declaration imports is among the libraries, with the line of its
first import. -/
theorem library_of_declares {d : Place} {module : String} (ht : t.language = .rust)
    (hd : d ∈ t.places) (h : Declares d module) :
    ∃ n, Import.toLibrary .rust ⟨module, false, n⟩ ∈ t.libraries.libraries := by
  obtain ⟨hkind, hargument⟩ := h
  have hmodules : Import.modulesAt t.language d = [module] := by
    simp only [Import.modulesAt, ht, hkind, hargument, Option.toList_some]
  have himport : ⟨module, Import.isQuotedInclude t.language d, d.startLine⟩ ∈ t.imports := by
    refine List.mem_flatMap.mpr ⟨d, hd, ?_⟩
    rw [hmodules]
    exact List.mem_singleton_self _
  obtain ⟨⟨_, _, n⟩, hj, rfl⟩ := Import.exists_mem_firstOfEach himport
  obtain rfl : _ = false := isQuotedLocal_of_mem_imports (Import.mem_of_mem_firstOfEach hj)
    (by rw [ht]; decide)
  exact ⟨n, List.mem_map.mpr ⟨_, hj, by rw [ht]⟩⟩

/-! ## What is to be installed -/

theorem thirdPartyPackages_singleton {i : Import} (ht : t.imports = [i]) :
    t.libraries.thirdPartyPackages = (Import.packageToInstall? t.language i).toList := by
  have hfirst : Import.firstOfEach [i] = [i] := rfl
  rw [thirdPartyPackages_libraries, ht, hfirst]
  cases h : Import.packageToInstall? t.language i <;> simp [h, Text.distinct]

/-- The second import is of the same module as the first, or gives another
name to a path of several segments. -/
def Renames (i j : Import) : Prop :=
  j.module = i.module
    ∨ ∃ (p : UsePath) (y : PathName), p.rest ≠ [] ∧ i.module = p.text ∧ j.module = p.renamed y

theorem packageToInstall?_renames {i j : Import} (hi : i.isQuotedLocal = false)
    (hj : j.isQuotedLocal = false) (h : Renames i j) :
    Import.packageToInstall? .rust j = Import.packageToInstall? .rust i := by
  obtain ⟨module, _, line⟩ := i
  obtain ⟨other, _, line'⟩ := j
  obtain rfl : _ = false := hi
  obtain rfl : _ = false := hj
  rcases h with hsame | ⟨p, y, hrest, hi, hj⟩
  · obtain rfl : other = module := hsame
    simp only [Import.packageToInstall?, Import.toLibrary, LibraryInfo.isThirdParty]
  · obtain rfl : module = p.text := hi
    obtain rfl : other = p.renamed y := hj
    have hlibrary := UsePath.renamedLibrary_several hrest y line line'
    rw [UsePath.renamedLibrary, UsePath.plainLibrary] at hlibrary
    rw [Import.packageToInstall?, Import.packageToInstall?, hlibrary]
    generalize Import.toLibrary .rust ⟨p.text, false, line⟩ = lib
    rfl

/-- Other names for paths of several segments do not change the packages to
install. -/
theorem thirdPartyPackages_renames (hs : s.language = .rust) (ht : t.language = .rust)
    (h : List.Forall₂ Renames s.imports t.imports) :
    t.libraries.thirdPartyPackages = s.libraries.thirdPartyPackages := by
  have hquoted {u : SyntaxTree} (hu : u.language = .rust) {i : Import} (hi : i ∈ u.imports) :
      i.isQuotedLocal = false :=
    isQuotedLocal_of_mem_imports hi (by rw [hu]; decide)
  have hsame {imports renamed : List Import} (h : List.Forall₂ Renames imports renamed)
      (himports : ∀ i ∈ imports, i.isQuotedLocal = false)
      (hrenamed : ∀ j ∈ renamed, j.isQuotedLocal = false) :
      renamed.filterMap (Import.packageToInstall? .rust)
        = imports.filterMap (Import.packageToInstall? .rust) := by
    induction h with
    | nil => rfl
    | cons hij _ ih =>
        rw [List.forall_mem_cons] at himports hrenamed
        rw [List.filterMap_cons, List.filterMap_cons, ih himports.2 hrenamed.2,
          packageToInstall?_renames himports.1 hrenamed.1 hij]
  rw [thirdPartyPackages_eq (by rw [ht]; decide), thirdPartyPackages_eq (by rw [hs]; decide), hs,
    ht, hsame h (fun _ => hquoted hs) (fun _ => hquoted ht)]

/-- For the only import, another name changes the package to install if the
path has no second segment. -/
theorem thirdPartyPackages_renamed_iff {m n : Nat} (hs : s.language = .rust)
    (ht : t.language = .rust) (hplain : s.imports = [⟨p.text, false, m⟩])
    (hrenamed : t.imports = [⟨p.renamed y, false, n⟩]) :
    t.libraries.thirdPartyPackages = s.libraries.thirdPartyPackages ↔ p.rest ≠ [] := by
  constructor
  · rw [thirdPartyPackages_singleton hplain, thirdPartyPackages_singleton hrenamed, hs, ht]
    intro hsame hrest
    have hthird : Import.packageToInstall? .rust ⟨p.renamed y, false, n⟩
        = some (p.mergedPackage y) := by
      have hlibrary : Import.toLibrary .rust ⟨p.renamed y, false, n⟩ = p.renamedLibrary y n := rfl
      rw [Import.packageToInstall?, hlibrary,
        if_pos (UsePath.isThirdParty_renamedLibrary hrest y n), UsePath.renamedLibrary_single hrest]
    have hplainPackage : ∀ package ∈ Import.packageToInstall? .rust ⟨p.text, false, m⟩,
        package = p.first.text := by
      intro package hpackage
      have hlibrary : Import.toLibrary .rust ⟨p.text, false, m⟩ = p.plainLibrary m := rfl
      rw [Import.packageToInstall?, hlibrary, UsePath.plainLibrary_eq] at hpackage
      exact (Option.some.inj (Option.ite_none_right_eq_some.mp hpackage).2).symm
    have hmem : p.mergedPackage y ∈ (Import.packageToInstall? .rust ⟨p.text, false, m⟩).toList := by
      rw [← hsame, hthird]
      exact List.mem_singleton_self _
    exact UsePath.mergedPackage_ne p.first.unspaced.notBlank
      (hplainPackage _ (Option.mem_toList.mp hmem))
  · intro hrest
    refine thirdPartyPackages_renames hs ht ?_
    rw [hplain, hrenamed]
    exact .cons (Or.inr ⟨p, y, hrest, rfl, rfl⟩) .nil

end SyntaxTree

/-- What another name changes about the import of a path. -/
structure Renaming (p : UsePath) (y : PathName) : Prop where
  /-- A declaration of the path, alone or with the other name, is read as the
  library told here. -/
  declared : ∀ t : SyntaxTree, t.language = .rust → ∀ d ∈ t.places,
    (SyntaxTree.Declares d p.text → ∃ m, p.plainLibrary m ∈ t.libraries.libraries)
      ∧ (SyntaxTree.Declares d (p.renamed y) → ∃ n, p.renamedLibrary y n ∈ t.libraries.libraries)
  /-- The package stays exactly if there is a second segment. -/
  package : Library.packageRoot (p.renamed y) .rust = Library.packageRoot p.text .rust ↔ p.rest ≠ []
  /-- In the libraries too, where the lines may differ. -/
  library : ∀ m n, (p.renamedLibrary y n).package = (p.plainLibrary m).package ↔ p.rest ≠ []
  isLocal : ∀ m n, (p.renamedLibrary y n).isLocal = (p.plainLibrary m).isLocal
    ↔ p.rest ≠ [] ∨ p.first.text ∉ ["crate", "self", "super"]
  /-- Without a second segment the category is what can be guessed from the
  package with the alias in it. -/
  category : ∀ m n, (p.renamedLibrary y n).category = (p.plainLibrary m).category
    ↔ p.rest ≠ [] ∨ (p.plainLibrary m).category
        = (Library.guessedCategory? (p.mergedPackage y)).getD .unknown
  thirdParty : ∀ m n, (p.renamedLibrary y n).isThirdParty = (p.plainLibrary m).isThirdParty
    ↔ p.rest ≠ [] ∨ p.first.text ∉ UsePath.ownNames
  /-- The same decides over the packages to install if nothing else is
  imported. -/
  installs : ∀ s t : SyntaxTree, s.language = .rust → t.language = .rust →
    (∃ m, s.imports = [⟨p.text, false, m⟩]) → (∃ n, t.imports = [⟨p.renamed y, false, n⟩]) →
      (t.libraries.thirdPartyPackages = s.libraries.thirdPartyPackages ↔ p.rest ≠ [])
  /-- Several segments may be renamed anywhere in a snippet. -/
  snippet : ∀ s t : SyntaxTree, s.language = .rust → t.language = .rust →
    List.Forall₂ SyntaxTree.Renames s.imports t.imports →
      t.libraries.thirdPartyPackages = s.libraries.thirdPartyPackages

theorem renamed_iff (p : UsePath) (y : PathName) : Renaming p y := by
  have hinstalls (s t : SyntaxTree) (hs : s.language = .rust) (ht : t.language = .rust) :
      (∃ m, s.imports = [⟨p.text, false, m⟩]) → (∃ n, t.imports = [⟨p.renamed y, false, n⟩]) →
        (t.libraries.thirdPartyPackages = s.libraries.thirdPartyPackages ↔ p.rest ≠ []) :=
    fun ⟨_, hplain⟩ ⟨_, hrenamed⟩ => SyntaxTree.thirdPartyPackages_renamed_iff hs ht hplain hrenamed
  have hsnippet (s t : SyntaxTree) (hs : s.language = .rust) (ht : t.language = .rust) :=
    @SyntaxTree.thirdPartyPackages_renames s t hs ht
  have hdeclared (t : SyntaxTree) (ht : t.language = .rust) (d : Place) (hd : d ∈ t.places) :
      (SyntaxTree.Declares d p.text → ∃ m, p.plainLibrary m ∈ t.libraries.libraries)
        ∧ (SyntaxTree.Declares d (p.renamed y) →
          ∃ n, p.renamedLibrary y n ∈ t.libraries.libraries) :=
    ⟨SyntaxTree.library_of_declares ht hd, SyntaxTree.library_of_declares ht hd⟩
  by_cases hrest : p.rest = []
  · have hmerged : p.mergedPackage y ≠ p.first.text :=
      UsePath.mergedPackage_ne p.first.unspaced.notBlank
    refine ⟨hdeclared, ?package, ?library, ?isLocal, ?category, ?thirdParty, hinstalls, hsnippet⟩
    case package =>
      rw [UsePath.packageRoot_renamed hrest, p.packageRoot_text]
      exact iff_of_false hmerged (not_not_intro hrest)
    all_goals intro m n
    case library =>
      rw [UsePath.renamedLibrary_single hrest, UsePath.plainLibrary_eq]
      exact iff_of_false hmerged (not_not_intro hrest)
    case isLocal =>
      rw [UsePath.renamedLibrary_single hrest, UsePath.plainLibrary_eq]
      simp [hrest]
    case category =>
      rw [UsePath.renamedLibrary_single hrest, eq_comm]
      simp [hrest]
    case thirdParty =>
      rw [UsePath.isThirdParty_renamedLibrary hrest, eq_comm,
        UsePath.isThirdParty_plainLibrary hrest]
      simp [hrest]
  · refine ⟨hdeclared, ?package, ?library, ?isLocal, ?category, ?thirdParty, hinstalls, hsnippet⟩
    case package =>
      rw [UsePath.packageRoot_several hrest (p.starts_renamed y), p.packageRoot_text]
      exact iff_of_true rfl hrest
    all_goals
      intro m n
      rw [UsePath.renamedLibrary_several hrest y m n]
      generalize p.plainLibrary m = lib
    case library => exact iff_of_true rfl hrest
    all_goals exact iff_of_true rfl (Or.inl hrest)

namespace StdImport

def source : String := "use std;"

def file : NodeSpec := ⟨"source_file", 0, 8, true, false, none⟩

def declaration : NodeSpec := ⟨"use_declaration", 0, 8, true, false, none⟩

def path : NodeSpec := ⟨"identifier", 4, 7, true, false, some "argument"⟩

def tree : SyntaxTree :=
  ⟨.rust, source, file.node source 0 [declaration.node source 1 [path.node source 2 []]]⟩

theorem built : tree.Built :=
  ⟨source, .rust, [.openNode file, .openNode declaration, .leaf path, .closeNode, .closeNode],
    by rfl⟩

/-- The imported path. -/
def usePath : UsePath := ⟨false, ⟨"std", ⟨by simp, by simp [isBlank]⟩, by simp⟩, []⟩

end StdImport

namespace StdRenamed

def source : String := "use std as s;"

def file : NodeSpec := ⟨"source_file", 0, 13, true, false, none⟩

def declaration : NodeSpec := ⟨"use_declaration", 0, 13, true, false, none⟩

def clause : NodeSpec := ⟨"use_as_clause", 4, 12, true, false, some "argument"⟩

def path : NodeSpec := ⟨"identifier", 4, 7, true, false, some "path"⟩

def name : NodeSpec := ⟨"identifier", 11, 12, true, false, some "alias"⟩

def tree : SyntaxTree :=
  ⟨.rust, source, file.node source 0 [declaration.node source 1
    [clause.node source 2 [path.node source 3 [], name.node source 4 []]]]⟩

theorem built : tree.Built :=
  ⟨source, .rust, [.openNode file, .openNode declaration, .openNode clause, .leaf path, .leaf name,
    .closeNode, .closeNode, .closeNode], by rfl⟩

/-- The other name of the path. -/
def otherName : PathName := ⟨"s", ⟨by simp, by simp [isBlank]⟩, by simp⟩

end StdRenamed

/-- The standard library needs no package, and with another name it needs
one that cannot exist. -/
theorem stdRenamed_installed :
    StdImport.tree.Built ∧ StdRenamed.tree.Built
      ∧ StdImport.tree.imports = [⟨StdImport.usePath.text, false, 1⟩]
      ∧ StdRenamed.tree.imports = [⟨StdImport.usePath.renamed StdRenamed.otherName, false, 1⟩]
      ∧ StdImport.tree.libraries.libraries = [⟨"std", "std", .standardLibrary, false, 1⟩]
      ∧ StdRenamed.tree.libraries.libraries = [⟨"std as s", "std as s", .unknown, false, 1⟩]
      ∧ StdImport.tree.libraries.thirdPartyPackages = []
      ∧ StdRenamed.tree.libraries.thirdPartyPackages = ["std as s"]
      ∧ (ExecutionContext.of StdRenamed.source .rust .script
          StdRenamed.tree.libraries).installCommand = some "cargo add std as s" := by
  refine ⟨StdImport.built, StdRenamed.built, ?_⟩
  decide +kernel

end CodeProfile
