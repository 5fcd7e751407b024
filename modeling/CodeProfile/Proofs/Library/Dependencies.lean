import CodeProfile.CodeType.Classification
import CodeProfile.Proofs.Library.Standard
import CodeProfile.Proofs.Text.FirstOccurrences

/-!
# One account of what a snippet depends on

What a snippet depends on is told in four places: the list of libraries, the
package manager, the command that installs packages, and the blockers of
running it. They are derived apart from each other, with two tables by
language and two ways to drop repetitions, by module and by package.

The libraries are those of the first imports of the modules
(`find?_of_mem_firstOfEach`), so their names are the modules in the order of
first import (`names_inOrder`). The two tables know the same languages
(`isSome_packageManager?`), and the tables that install at all name the
packages or leave that to a project file (`installCommandOf_eq_some`). The
headline is `dependencies_agree`.
-/

namespace CodeProfile

open Text

/-! ## First imports -/

namespace Import

variable {i j : Import} {imports : List Import}

theorem firstOfEach_concat (imports : List Import) (i : Import) :
    firstOfEach (imports ++ [i]) = keepFirst (firstOfEach imports) i := by
  rw [firstOfEach, firstOfEach, List.foldl_append]
  rfl

theorem any_firstOfEach (imports : List Import) (module : String) :
    (firstOfEach imports).any (·.module == module) = true ↔ ∃ j ∈ imports, j.module = module := by
  simp only [List.any_eq_true, beq_iff_eq]
  constructor
  · rintro ⟨j, hj, hmodule⟩
    exact ⟨j, mem_of_mem_firstOfEach hj, hmodule⟩
  · rintro ⟨j, hj, rfl⟩
    exact exists_mem_firstOfEach hj

/-- The modules of the first imports are all modules, each once. -/
theorem map_module_firstOfEach (imports : List Import) :
    (firstOfEach imports).map (·.module) = distinct (imports.map (·.module)) := by
  induction imports using List.reverseRecOn with
  | nil => rfl
  | append_singleton imports i ih =>
      have hseen : (firstOfEach imports).any (·.module == i.module) = true
          ↔ i.module ∈ imports.map (·.module) := by
        rw [any_firstOfEach, List.mem_map]
      rw [firstOfEach_concat, keepFirst, List.map_append, List.map_singleton, distinct_concat]
      by_cases hmem : i.module ∈ imports.map (·.module)
      · rw [if_pos (hseen.mpr hmem), if_pos hmem, ih]
      · rw [if_neg (hmem ∘ hseen.mp), if_neg hmem, List.map_append, ih, List.map_singleton]

/-- A first import is the first one of its module. -/
theorem find?_of_mem_firstOfEach (h : j ∈ firstOfEach imports) :
    imports.find? (·.module == j.module) = some j := by
  induction imports using List.reverseRecOn with
  | nil => cases h
  | append_singleton imports i ih =>
      rw [firstOfEach_concat, keepFirst] at h
      split at h
      · rw [List.find?_append, ih h]
        rfl
      · next hnew =>
          rcases List.mem_append.mp h with hold | hlast
          · rw [List.find?_append, ih hold]
            rfl
          · obtain rfl := List.mem_singleton.mp hlast
            have hnone : imports.find? (·.module == j.module) = none := by
              rw [List.find?_eq_none]
              intro k hk hsame
              exact hnew ((any_firstOfEach ..).mpr ⟨k, hk, beq_iff_eq.mp hsame⟩)
            rw [List.find?_append, hnone, List.find?_singleton, beq_self_eq_true]
            rfl

/-- What is asked of imports by their modules alone can be asked of the
first imports. -/
theorem distinct_filterMap_firstOfEach {f : Import → Option String}
    (hf : ∀ i ∈ imports, ∀ j ∈ imports, i.module = j.module → f i = f j) :
    distinct ((firstOfEach imports).filterMap f) = distinct (imports.filterMap f) := by
  have hsingle (i : Import) : [i].filterMap f = (f i).toList := by
    cases h : f i <;> simp [h]
  induction imports using List.reverseRecOn with
  | nil => rfl
  | append_singleton imports i ih =>
      have hrest := ih fun j hj k hk =>
        hf j (List.mem_append_left _ hj) k (List.mem_append_left _ hk)
      rw [firstOfEach_concat, keepFirst, List.filterMap_append, hsingle]
      cases hi : f i with
      | none =>
          rw [Option.toList_none, List.append_nil, ← hrest]
          split
          · rfl
          · rw [List.filterMap_append, hsingle, hi, Option.toList_none,
              List.append_nil]
      | some package =>
          rw [Option.toList_some, distinct_concat]
          have hknown : package ∈ (firstOfEach imports).filterMap f
              ↔ package ∈ imports.filterMap f := by
            rw [← mem_distinct, hrest, mem_distinct]
          split
          · next hseen =>
              obtain ⟨j, hj, hmodule⟩ := (any_firstOfEach ..).mp hseen
              have hsame : f j = some package :=
                hi ▸ hf j (List.mem_append_left _ hj) i (by simp) hmodule
              rw [if_pos (List.mem_filterMap.mpr ⟨j, hj, hsame⟩), hrest]
          · rw [List.filterMap_append, hsingle, hi, Option.toList_some,
              distinct_concat, hrest]
            exact if_congr hknown rfl rfl

/-- The package that must be installed for an import, if any. -/
def packageToInstall? (l : Language) (i : Import) : Option String :=
  if (i.toLibrary l).isThirdParty then some (i.toLibrary l).package else none

end Import

namespace SyntaxTree

variable {t : SyntaxTree} {lib : LibraryInfo}

theorem map_name_libraries (t : SyntaxTree) :
    t.libraries.libraries.map (·.name) = (Import.firstOfEach t.imports).map (·.module) := by
  rw [SyntaxTree.libraries, List.map_map]
  rfl

/-- The libraries are named by the imported modules, in the order of first
import. -/
theorem names_inOrder (t : SyntaxTree) :
    InOrderOfFirst (t.libraries.libraries.map (·.name)) (t.imports.map (·.module)) := by
  rw [map_name_libraries, Import.map_module_firstOfEach]
  exact inOrderOfFirst_distinct _

theorem described_of_mem_libraries (h : lib ∈ t.libraries.libraries) :
    ∃ i, t.imports.find? (·.module == lib.name) = some i ∧ lib = i.toLibrary t.language := by
  obtain ⟨i, hi, rfl⟩ := List.mem_map.mp h
  exact ⟨i, Import.find?_of_mem_firstOfEach hi, rfl⟩

theorem thirdPartyPackages_libraries (t : SyntaxTree) : t.libraries.thirdPartyPackages
    = distinct ((Import.firstOfEach t.imports).filterMap
      (Import.packageToInstall? t.language)) := by
  rw [LibraryReport.thirdPartyPackages, LibraryReport.thirdParty, SyntaxTree.libraries]
  congr 1
  induction Import.firstOfEach t.imports with
  | nil => rfl
  | cons i imports ih =>
      rw [List.map_cons, List.filter_cons, List.filterMap_cons, Import.packageToInstall?]
      split
      · rw [List.map_cons, ih]
      · exact ih

/-- Outside C, where the quotation marks of an import count, the packages to
install can be read off all imports. -/
theorem thirdPartyPackages_eq (hl : t.language ≠ .c) : t.libraries.thirdPartyPackages
    = distinct (t.imports.filterMap (Import.packageToInstall? t.language)) := by
  rw [thirdPartyPackages_libraries, Import.distinct_filterMap_firstOfEach]
  intro i hi j hj hmodule
  simp only [Import.packageToInstall?, Import.toLibrary, LibraryInfo.isThirdParty, hmodule,
    isQuotedLocal_of_mem_imports hi hl, isQuotedLocal_of_mem_imports hj hl]

end SyntaxTree

/-! ## Two tables of languages -/

namespace ExecutionContext

/-- How a command starts that installs the packages named behind it. -/
def installers : List String :=
  ["npm install ", "pip install ", "go get ", "cargo add ", "gem install ", "composer require ",
   "dotnet add package "]

variable {l : Language} {packages : List String} {command : String}

/-- A language has a package manager exactly if there is a command that
installs packages, whatever the packages. -/
theorem isSome_packageManager? (hpackages : packages ≠ []) :
    (Library.packageManager? l).isSome = (installCommandOf packages l).isSome := by
  have hsome := List.isEmpty_eq_false_iff.mpr hpackages
  cases l <;> simp [installCommandOf, hsome, Library.packageManager?]

/-- A command that installs packages names all of them, or leaves that to
the project file of Java and Kotlin. -/
theorem installCommandOf_eq_some (h : installCommandOf packages l = some command) :
    packages ≠ [] ∧ (l ∈ [Language.java, .kotlin] ∧ command = "mvn dependency:resolve"
      ∨ ∃ start ∈ installers, command = start ++ join " " packages) := by
  have hpackages : packages ≠ [] := by
    rintro rfl
    cases h
  have hsome := List.isEmpty_eq_false_iff.mpr hpackages
  refine ⟨hpackages, ?_⟩
  cases l with
  | java | kotlin =>
      simp only [installCommandOf, hsome, Bool.false_eq_true, if_false] at h
      exact Or.inl ⟨by decide, (Option.some.inj h).symm⟩
  | javaScript | typeScript | python | go | rust | cSharp | php | ruby =>
      simp only [installCommandOf, hsome, Bool.false_eq_true, if_false] at h
      exact Or.inr ⟨_, by decide, (Option.some.inj h).symm⟩
  | _ =>
      simp only [installCommandOf, ite_self] at h
      cases h

end ExecutionContext

/-! ## Four accounts -/

/-- What the record of a snippet says about its dependencies. -/
structure DependenciesAgree (t : SyntaxTree) : Prop where
  /-- The libraries are the imported modules, each once, in the order of
  first import. -/
  names : InOrderOfFirst (t.libraries.libraries.map (·.name)) (t.imports.map (·.module))
  /-- Each is described by its first import. -/
  described : ∀ lib ∈ t.libraries.libraries, ∃ i,
    t.imports.find? (·.module == lib.name) = some i ∧ lib = i.toLibrary t.language
  /-- The packages to install are those of the third-party libraries, each
  once, in the order of first import. -/
  packages : InOrderOfFirst t.libraries.thirdPartyPackages
    ((t.libraries.libraries.filter (·.isThirdParty)).map (·.package))
  /-- In a language with packages, this is the order of the imports for which
  they are installed. -/
  imported : t.language ≠ .c → InOrderOfFirst t.libraries.thirdPartyPackages
    (t.imports.filterMap (Import.packageToInstall? t.language))
  /-- The record of a snippet holds a context and an intent for these
  libraries, so that what follows is said of both. -/
  record : ∀ adapter, ∃ codeType entries,
    (t.codeType t.libraries adapter).context
        = some (ExecutionContext.of t.source t.language codeType t.libraries)
      ∧ (t.codeType t.libraries adapter).intent
        = some (ExecutionIntent.of codeType entries t.libraries)
  /-- There is a package manager exactly if there is a command to install. -/
  manager : ∀ codeType, t.libraries.packageManager.isSome
    = (ExecutionContext.of t.source t.language codeType t.libraries).installCommand.isSome
  /-- A command that lists packages lists these. -/
  command : ∀ codeType command,
    (ExecutionContext.of t.source t.language codeType t.libraries).installCommand = some command →
      t.libraries.thirdPartyPackages ≠ []
        ∧ (t.language ∈ [Language.java, .kotlin] ∧ command = "mvn dependency:resolve"
          ∨ ∃ start ∈ ExecutionContext.installers,
              command = start ++ join " " t.libraries.thirdPartyPackages)
  /-- Packages stand in the way of running exactly if there are any. -/
  blocker : ∀ codeType entries,
    (∃ b ∈ (ExecutionIntent.of codeType entries t.libraries).blockers,
        hasStart b "requires third-party packages" = true)
      ↔ t.libraries.thirdPartyPackages ≠ []

theorem dependencies_agree (t : SyntaxTree) : DependenciesAgree t := by
  have hany : t.libraries.libraries.any (·.isThirdParty) = true
      ↔ t.libraries.thirdPartyPackages ≠ [] := by
    rw [ne_eq, LibraryReport.thirdPartyPackages_eq_nil_iff, Decidable.not_not]
  constructor
  case names => exact t.names_inOrder
  case described => exact fun lib hlib => SyntaxTree.described_of_mem_libraries hlib
  case packages => exact inOrderOfFirst_distinct _
  case imported =>
    intro hl
    rw [SyntaxTree.thirdPartyPackages_eq hl]
    exact inOrderOfFirst_distinct _
  case record => exact fun adapter => ⟨_, _, rfl, rfl⟩
  case manager =>
    intro codeType
    have hcommand : (ExecutionContext.of t.source t.language codeType t.libraries).installCommand
        = ExecutionContext.installCommandOf t.libraries.thirdPartyPackages t.language := rfl
    have hmanager : t.libraries.packageManager
        = if t.libraries.libraries.any (·.isThirdParty)
          then Library.packageManager? t.language else none := rfl
    rw [hcommand, hmanager]
    by_cases hpackages : t.libraries.thirdPartyPackages = []
    · rw [if_neg (fun h => hany.mp h hpackages), hpackages]
      rfl
    · rw [if_pos (hany.mpr hpackages), ExecutionContext.isSome_packageManager? hpackages]
  case command => exact fun codeType command h => ExecutionContext.installCommandOf_eq_some h
  case blocker => exact fun codeType entries =>
    ExecutionIntent.exists_packagesBlocker_iff codeType entries

end CodeProfile
