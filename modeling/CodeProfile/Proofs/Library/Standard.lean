import CodeProfile.Execution
import CodeProfile.Proofs.Library.Mistaken
import CodeProfile.Proofs.Tree.Building

/-!
# What snippets need that import nothing but what comes with their language

Whether a module must be installed is read off what it is for, so a module
that comes with the language is third party exactly if it is mistaken for
a package (`isThirdParty_toLibrary_iff`). A snippet whose imports are all
local or come with its language has third-party libraries exactly if one
of them is (`any_isThirdParty_iff`), and the same decides over its package
manager, its command to install packages and the blocker that names them
(`standardModules`). The smallest snippet that needs a package for no
reason imports `uuid` in Python (`uuid_installed`).
-/

namespace CodeProfile

open Text

namespace Library

variable {l : Language}

theorem category_toLibrary {i : Import} (hlocal : (i.toLibrary l).isLocal = false) :
    (i.toLibrary l).category = categorize i.module (packageRoot i.module l) l := by
  have hnot : (i.isQuotedLocal || isLocalModule i.module l) = false := hlocal
  simp only [Import.toLibrary, hnot, Bool.false_eq_true, if_false]

/-- An imported module that comes with the language, and is not local, is
third party exactly if it is mistaken for a package. -/
theorem isThirdParty_toLibrary_iff {i : Import} (hlocal : (i.toLibrary l).isLocal = false)
    (hstandard : isStandard i.module (packageRoot i.module l) l = true) :
    (i.toLibrary l).isThirdParty = true ↔ Mistaken i.module l := by
  rw [← categorize_ne_standard_iff_mistaken hstandard, ← category_toLibrary hlocal,
    LibraryInfo.isThirdParty, hlocal]
  simp

end Library

/-! ## Imports of a snippet -/

namespace Import

variable {i : Import} {imports seen : List Import}

/-- Keeps an import unless one of the same module was seen. -/
def keepFirst (seen : List Import) (i : Import) : List Import :=
  if seen.any (·.module == i.module) then seen else seen ++ [i]

theorem mem_of_mem_foldl (h : i ∈ imports.foldl keepFirst seen) : i ∈ seen ∨ i ∈ imports := by
  induction imports generalizing seen with
  | nil => exact Or.inl h
  | cons j imports ih =>
      rcases ih h with hseen | hrest
      · rw [keepFirst] at hseen
        split at hseen
        · exact Or.inl hseen
        · rcases List.mem_append.mp hseen with hold | hnew
          · exact Or.inl hold
          · exact Or.inr (List.mem_singleton.mp hnew ▸ List.mem_cons_self)
      · exact Or.inr (List.mem_cons_of_mem j hrest)

theorem exists_mem_foldl (h : (∃ j ∈ seen, j.module = i.module) ∨ i ∈ imports) :
    ∃ j ∈ imports.foldl keepFirst seen, j.module = i.module := by
  induction imports generalizing seen with
  | nil => exact h.resolve_right (List.not_mem_nil)
  | cons j imports ih =>
      refine ih ?_
      rw [keepFirst]
      rcases h with ⟨k, hk, hmodule⟩ | hmem
      · refine Or.inl ⟨k, ?_, hmodule⟩
        split
        · exact hk
        · exact List.mem_append_left _ hk
      · rcases List.mem_cons.mp hmem with rfl | hrest
        · refine Or.inl ?_
          split
          · next hany =>
              obtain ⟨k, hk, hsame⟩ := List.any_eq_true.mp hany
              exact ⟨k, hk, beq_iff_eq.mp hsame⟩
          · exact ⟨i, List.mem_append_right _ (List.mem_singleton_self i), rfl⟩
        · exact Or.inr hrest

theorem mem_of_mem_firstOfEach (h : i ∈ firstOfEach imports) : i ∈ imports :=
  (@mem_of_mem_foldl i imports [] h).resolve_left List.not_mem_nil

/-- Each module that is imported is the module of a first import. -/
theorem exists_mem_firstOfEach (h : i ∈ imports) :
    ∃ j ∈ firstOfEach imports, j.module = i.module :=
  @exists_mem_foldl i imports [] (Or.inr h)

end Import

namespace SyntaxTree

variable {t : SyntaxTree} {l : Language}

/-- Every import of the snippet is local or comes with the language. -/
def ImportsStandard (t : SyntaxTree) : Prop :=
  ∀ i ∈ t.imports, (i.toLibrary t.language).isLocal = true
    ∨ Library.isStandard i.module (Library.packageRoot i.module t.language) t.language = true

/-- An import of the snippet comes with the language and is mistaken for a
package. -/
def ImportsMistaken (t : SyntaxTree) : Prop :=
  ∃ i ∈ t.imports, (i.toLibrary t.language).isLocal = false
    ∧ Library.Mistaken i.module t.language

/-- Only C has imports that are local by their quotation marks. -/
theorem isQuotedLocal_of_mem_imports {i : Import} (hi : i ∈ t.imports) (hl : t.language ≠ .c) :
    i.isQuotedLocal = false := by
  obtain ⟨p, -, hp⟩ := List.mem_flatMap.mp hi
  obtain ⟨m, -, rfl⟩ := List.mem_map.mp hp
  simp only [Import.isQuotedInclude, beq_eq_false_iff_ne.mpr hl, Bool.false_and]

theorem any_isThirdParty_iff (h : t.ImportsStandard) :
    t.libraries.libraries.any (·.isThirdParty) = true ↔ t.ImportsMistaken := by
  simp only [SyntaxTree.libraries, List.any_map, List.any_eq_true, Function.comp_apply]
  constructor
  · rintro ⟨i, hi, hthird⟩
    have hmem := Import.mem_of_mem_firstOfEach hi
    have hlocal : (i.toLibrary t.language).isLocal = false := by
      rw [LibraryInfo.isThirdParty, Bool.and_eq_true, Bool.not_eq_true'] at hthird
      exact hthird.1
    have hstandard := (h i hmem).resolve_left (by simp [hlocal])
    exact ⟨i, hmem, hlocal, (Library.isThirdParty_toLibrary_iff hlocal hstandard).mp hthird⟩
  · rintro ⟨i, hi, hlocal, hmistaken⟩
    obtain ⟨j, hj, hmodule⟩ := Import.exists_mem_firstOfEach hi
    have hmem := Import.mem_of_mem_firstOfEach hj
    have hl : t.language ≠ .c := by
      intro hc
      rw [hc] at hmistaken
      exact hmistaken
    have hsame : (j.toLibrary t.language).isLocal = (i.toLibrary t.language).isLocal := by
      simp only [Import.toLibrary, hmodule, isQuotedLocal_of_mem_imports hi hl,
        isQuotedLocal_of_mem_imports hmem hl]
    rw [← hsame] at hlocal
    rw [← hmodule] at hmistaken
    have hstandard := (h j hmem).resolve_left (by simp [hlocal])
    exact ⟨j, hj, (Library.isThirdParty_toLibrary_iff hlocal hstandard).mpr hmistaken⟩

/-- A language with mistaken modules has a tool that installs packages. -/
theorem installs_of_importsMistaken (h : t.ImportsMistaken) :
    Library.packageManager? t.language ≠ none
      ∧ ∀ packages ≠ [], ExecutionContext.installCommandOf packages t.language ≠ none := by
  obtain ⟨i, -, -, hmistaken⟩ := h
  generalize t.language = l at hmistaken
  have hsome (packages : List String) (hne : packages ≠ []) : packages.isEmpty = false := by
    rw [← Bool.not_eq_true, List.isEmpty_iff]
    exact hne
  cases l with
  | python | go | java | kotlin =>
      refine ⟨Option.some_ne_none _, fun packages hne => ?_⟩
      rw [ExecutionContext.installCommandOf, hsome packages hne]
      exact Option.some_ne_none _
  | _ => cases hmistaken

end SyntaxTree

/-! ## What has to be installed -/

namespace LibraryReport

variable {r : LibraryReport}

theorem distinct_eq_nil_iff {xs : List String} : distinct xs = [] ↔ xs = [] := by
  simp only [List.eq_nil_iff_forall_not_mem, mem_distinct]

theorem thirdPartyPackages_eq_nil_iff :
    r.thirdPartyPackages = [] ↔ ¬ r.libraries.any (·.isThirdParty) = true := by
  rw [thirdPartyPackages, distinct_eq_nil_iff, List.map_eq_nil_iff, thirdParty,
    List.filter_eq_nil_iff, List.any_eq_true]
  simp only [not_exists, not_and]

end LibraryReport

namespace ExecutionIntent

variable {r : LibraryReport}

/-- How the blocker starts that names the packages to install. -/
def packagesBlocker : String := "requires third-party packages"

theorem hasStart_append (start rest : String) : hasStart (start ++ rest) start = true :=
  Library.hasStart_iff.mpr ⟨rest.toList, String.toList_append.symm⟩

/-- How blockers of other kinds start. -/
def otherBlockers : List String :=
  ["no entry point", "configuration only; nothing to execute", "needs ", "requires the "]

theorem not_packagesBlocker {b start : String} (hstart : start ∈ otherBlockers)
    (h : hasStart b start = true) : hasStart b packagesBlocker = false := by
  have hapart : ∀ start ∈ otherBlockers,
      hasStart start packagesBlocker = false ∧ hasStart packagesBlocker start = false := by
    decide +kernel
  exact Library.not_hasStart_of_hasStart h (hapart start hstart).1 (hapart start hstart).2

theorem typeBlockers_start {codeType : CodeType} {b : String}
    (h : b ∈ typeBlockers r codeType) : ∃ start ∈ otherBlockers, hasStart b start = true := by
  cases codeType with
  | configuration =>
      rw [List.mem_singleton.mp h]
      exact ⟨_, by decide, hasStart_append "configuration only; nothing to execute" ""⟩
  | test =>
      rw [List.mem_singleton.mp h, String.append_assoc]
      exact ⟨"needs ", by decide, hasStart_append _ _⟩
  | _ => cases h

/-- Packages stand in the way exactly if there are any. -/
theorem exists_packagesBlocker_iff (codeType : CodeType) (entries : List EntryPoint) :
    (∃ b ∈ (ExecutionIntent.of codeType entries r).blockers, hasStart b packagesBlocker = true)
      ↔ r.thirdPartyPackages ≠ [] := by
  simp only [ExecutionIntent.of, List.mem_append]
  constructor
  · rintro ⟨b, hmem, hstart⟩ hnone
    have hother : ∃ start ∈ otherBlockers, hasStart b start = true := by
      rcases hmem with ((hentry | htype) | hneeds) | hruntime
      · split at hentry
        · rw [List.mem_singleton.mp hentry]
          exact ⟨_, by decide, hasStart_append "no entry point" ""⟩
        · cases hentry
      · exact typeBlockers_start htype
      · rw [if_pos (List.isEmpty_iff.mpr hnone)] at hneeds
        cases hneeds
      · obtain ⟨f, -, rfl⟩ := List.mem_map.mp hruntime
        rw [String.append_assoc]
        exact ⟨"requires the ", by decide, hasStart_append _ _⟩
    obtain ⟨start, hlisted, hb⟩ := hother
    rw [not_packagesBlocker hlisted hb] at hstart
    cases hstart
  · intro hsome
    have hlabel : hasStart "requires third-party packages: " packagesBlocker = true := by decide
    refine ⟨"requires third-party packages: " ++ join ", " r.thirdPartyPackages,
      Or.inl (Or.inr ?_), ?_⟩
    · rw [if_neg fun hempty => hsome (List.isEmpty_iff.mp hempty)]
      exact List.mem_singleton_self _
    · exact Library.hasStart_iff.mpr ((Library.hasStart_iff.mp hlabel).trans
        (Library.hasStart_iff.mp (hasStart_append _ _)))

end ExecutionIntent

/-- What becomes of modules that come with a language. -/
structure StandardModules (l : Language) : Prop where
  /-- One that is not local is third party exactly if it is mistaken for a
  package. -/
  thirdParty : ∀ i : Import, (i.toLibrary l).isLocal = false →
    Library.isStandard i.module (Library.packageRoot i.module l) l = true →
      ((i.toLibrary l).isThirdParty = true ↔ Library.Mistaken i.module l)
  /-- A snippet that imports nothing else has a package manager exactly if
  one of them is mistaken. -/
  manager : ∀ t : SyntaxTree, t.language = l → t.ImportsStandard →
    (t.libraries.packageManager = none ↔ ¬ t.ImportsMistaken)
  install : ∀ t : SyntaxTree, t.language = l → t.ImportsStandard → ∀ codeType,
    ((ExecutionContext.of t.source l codeType t.libraries).installCommand = none
      ↔ ¬ t.ImportsMistaken)
  blocker : ∀ t : SyntaxTree, t.language = l → t.ImportsStandard → ∀ codeType entries,
    ((∃ b ∈ (ExecutionIntent.of codeType entries t.libraries).blockers,
        hasStart b "requires third-party packages" = true) ↔ t.ImportsMistaken)

theorem standardModules (l : Language) : StandardModules l := by
  constructor
  case thirdParty =>
    exact fun i hlocal hstandard => Library.isThirdParty_toLibrary_iff hlocal hstandard
  case manager =>
    rintro t rfl hstandard
    constructor
    · intro hnone hmistaken
      have hany := (SyntaxTree.any_isThirdParty_iff hstandard).mpr hmistaken
      have hmanager : t.libraries.packageManager = Library.packageManager? t.language := if_pos hany
      exact (SyntaxTree.installs_of_importsMistaken hmistaken).1 (hmanager ▸ hnone)
    · intro hnot
      exact if_neg fun hany => hnot ((SyntaxTree.any_isThirdParty_iff hstandard).mp hany)
  case install =>
    rintro t rfl hstandard codeType
    have hpackages : t.libraries.thirdPartyPackages = [] ↔ ¬ t.ImportsMistaken := by
      rw [LibraryReport.thirdPartyPackages_eq_nil_iff, SyntaxTree.any_isThirdParty_iff hstandard]
    show ExecutionContext.installCommandOf t.libraries.thirdPartyPackages t.language = none ↔ _
    constructor
    · intro hnone hmistaken
      have hne : t.libraries.thirdPartyPackages ≠ [] := fun hnil => hpackages.mp hnil hmistaken
      exact (SyntaxTree.installs_of_importsMistaken hmistaken).2 _ hne hnone
    · intro hnot
      rw [hpackages.mpr hnot]
      rfl
  case blocker =>
    rintro t rfl hstandard codeType entries
    rw [← SyntaxTree.any_isThirdParty_iff hstandard]
    refine (ExecutionIntent.exists_packagesBlocker_iff codeType entries).trans ?_
    rw [ne_eq, LibraryReport.thirdPartyPackages_eq_nil_iff, Decidable.not_not]

namespace UuidImport

def source : String := "import uuid"

def module : NodeSpec := ⟨"module", 0, 11, true, false, none⟩

def statement : NodeSpec := ⟨"import_statement", 0, 11, true, false, none⟩

def name : NodeSpec := ⟨"dotted_name", 7, 11, true, false, some "name"⟩

def tree : SyntaxTree :=
  ⟨.python, source, module.node source 0 [statement.node source 1 [name.node source 2 []]]⟩

theorem built : tree.Built :=
  ⟨source, .python, [.openNode module, .openNode statement, .leaf name, .closeNode, .closeNode],
    by rfl⟩

end UuidImport

open UuidImport in
/-- A module of Python that has the name of a package of another language is
to be installed. -/
theorem uuid_installed :
    tree.Built ∧ tree.imports = [⟨"uuid", false, 1⟩]
      ∧ Library.isStandard "uuid" (Library.packageRoot "uuid" .python) .python = true
      ∧ Library.isLocalModule "uuid" .python = false
      ∧ tree.libraries.libraries = [⟨"uuid", "uuid", .utility, false, 1⟩]
      ∧ tree.libraries.packageManager = some "pip"
      ∧ (ExecutionContext.of tree.source .python .script tree.libraries).installCommand
        = some "pip install uuid" := by
  refine ⟨built, ?_, ?_, ?_, ?_, ?_, ?_⟩
  all_goals decide +kernel

end CodeProfile
