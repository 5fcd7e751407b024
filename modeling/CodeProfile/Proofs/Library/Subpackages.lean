import CodeProfile.Proofs.Library.Standard

/-!
# Parts of packages, as libraries and as frameworks

An import is asked about twice: the table of packages tells what it is
for, and each framework has packages that show it. Both know that a part
of a package has the name of the package in front, but the table takes a
`/` or a `.` for the separator (`goesOn_of_namedBy`), and the frameworks
only a `.` (`isShownBy_toLibrary`).

A framework is reported with nine tenths or more exactly if a library
shows it (`Framework.reported_iff`). What the text uses of it never makes
up for the import: there are at most four kinds of use, and the
confidences that come of them are computed (`confidenceOf_bounds`).

So the two answers part where a name goes on behind a `/` and the package
that is read off the name does too. In JavaScript the package ends in
front of that `/` (`packageRoot_subpackage`), in the other languages it
does not (`hasStart_packageRoot`), and the frameworks of these languages
have no other packages that could show them (`shape_of_mem_packages`). The
headline is `reported_iff_of_matchedPackage`. In Go, where parts of packages
are written with a `/`, a part of Gin does not show Gin
(`ginBinding_unreported`).
-/

namespace CodeProfile

open Text

/-! ## The table entry by entry -/

namespace Library

variable {module package key : String} {c : LibraryCategory} {l : Language}

/-- The packages of the table, each with what it is for. -/
def knownEntries : List (LibraryCategory × String) :=
  knownPackages.flatMap fun row => row.2.map (row.1, ·)

/-- The first entry of the table that the module belongs to. -/
def matchedPackage? (module package : String) : Option (LibraryCategory × String) :=
  knownEntries.find? fun entry => isPartOf module package entry.2

theorem knownCategory?_eq_matchedPackage? (module package : String) :
    knownCategory? module package = (matchedPackage? module package).map (·.1) := by
  have hrow (c : LibraryCategory) (keys : List String) :
      (keys.map (c, ·)).find? (fun entry => isPartOf module package entry.2)
        = (keys.find? (isPartOf module package)).map (c, ·) := by
    rw [List.find?_map]
    rfl
  rw [knownCategory?, matchedPackage?, knownEntries]
  -- The first row with a match holds the first match of all, as the rows are set end to end.
  induction knownPackages with
  | nil => rfl
  | cons row rows ih =>
      rw [List.flatMap_cons, List.find?_append, hrow]
      cases hfound : row.2.find? (isPartOf module package) with
      | none =>
          have hany : row.2.any (isPartOf module package) = false := by
            simpa using hfound
          rw [List.find?_cons_of_neg (by simp [hany]), ih]
          rfl
      | some key =>
          have hany : row.2.any (isPartOf module package) = true :=
            List.any_eq_true.mpr ⟨key, List.mem_of_find?_eq_some hfound, List.find?_some hfound⟩
          rw [List.find?_cons_of_pos (by simpa using hany)]
          rfl

theorem categorize_of_matchedPackage? (h : matchedPackage? module package = some (c, key)) :
    categorize module package l = c := by
  rw [categorize, knownCategory?_eq_matchedPackage?, h]
  rfl

/-! ## What is in front of a separator -/

theorem splitChars_append_cons {p : Char → Bool} {d : Char} (hd : p d = true)
    (cs rest : List Char) :
    splitChars p (cs ++ d :: rest) = splitChars p cs ++ splitChars p rest := by
  induction cs with
  | nil =>
      obtain ⟨more, hmore⟩ := splitChars_eq_cons p rest
      simp [splitChars, hmore, hd]
  | cons c cs ih =>
      obtain ⟨more, hmore⟩ := splitChars_eq_cons p cs
      rw [List.cons_append, splitChars, ih, splitChars, hmore, List.cons_append]
      cases hc : p c <;> simp

/-- The pieces of a name are those of a whole package: one, or two if it
belongs to a scope. -/
def WholePackage : List String → Prop
  | [first] => hasStart first "@" = false
  | [first, _] => hasStart first "@" = true
  | _ => False

instance : DecidablePred WholePackage
  | [] => inferInstanceAs (Decidable False)
  | [first] => inferInstanceAs (Decidable (hasStart first "@" = false))
  | [first, _] => inferInstanceAs (Decidable (hasStart first "@" = true))
  | _ :: _ :: _ :: _ => inferInstanceAs (Decidable False)

/-- In JavaScript, what stands behind a package and a `/` does not count. -/
theorem packageRoot_subpackage (hbuiltIn : hasStart module "node:" = false)
    (hkey : hasStart key "node:" = false) (hwhole : WholePackage (splitWhere (· == '/') key))
    (h : hasStart module (key ++ "/") = true) :
    packageRoot module .javaScript = packageRoot key .javaScript := by
  have hpath {name : String} (hname : hasStart name "node:" = false) :
      (afterStart? name "node:").getD name = name := by
    rw [afterStart?, hname]
    rfl
  obtain ⟨rest, hrest⟩ := hasStart_iff.mp h
  have hmodule : module.toList = key.toList ++ '/' :: rest := by
    rw [← hrest, String.toList_append, List.append_assoc]
    rfl
  obtain ⟨more, hmore⟩ := splitChars_eq_cons (· == '/') rest
  have hpieces : splitWhere (· == '/') module = splitWhere (· == '/') key
      ++ String.ofList (rest.takeWhile (!· == '/')) :: more.map String.ofList := by
    rw [splitWhere, hmodule, splitChars_append_cons (p := (· == '/')) rfl, hmore, List.map_append]
    rfl
  simp only [packageRoot, hpath hbuiltIn, hpath hkey, hpieces]
  generalize splitWhere (· == '/') key = pieces at hwhole
  rcases pieces with _ | ⟨first, _ | ⟨second, _ | ⟨third, others⟩⟩⟩
  · cases hwhole
  · have hscope : hasStart first "@" = false := hwhole
    simp [hscope]
  · rfl
  · cases hwhole

/-! ## Packages that show frameworks -/

/-- What the packages that show frameworks are like. None of them goes on
behind the name of another, in either way, and in each language of the
framework they are names of packages. -/
theorem shape_of_mem_packages (f : Framework) : ∀ key ∈ f.packages,
    (∀ other ∈ f.packages, hasStart other (key ++ "/") = false
      ∧ hasStart (other ++ ".") (key ++ "/") = false
      ∧ hasStart (key ++ "/") (other ++ ".") = false)
    ∧ (.javaScript ∈ f.languages ∨ .typeScript ∈ f.languages → hasStart key "node:" = false
      ∧ WholePackage (splitWhere (· == '/') key) ∧ packageRoot key .javaScript = key)
    ∧ (.python ∈ f.languages → key.toList.all (· != '.') = true)
    ∧ (.rust ∈ f.languages → key.toList.all (fun x => x != ':' && !isBlank x) = true) := by
  cases f <;> decide +kernel

/-- In JavaScript, the package that shows a framework is what is read off the
name of a part of it. -/
theorem packageRoot_eq_key {f : Framework} (hlang : l ∈ f.languages)
    (hl : l ∈ [Language.javaScript, .typeScript]) (hkey : key ∈ f.packages)
    (hbuiltIn : hasStart module "node:" = false) (h : hasStart module (key ++ "/") = true) :
    packageRoot module l = key := by
  obtain ⟨-, hscript, -⟩ := shape_of_mem_packages f key hkey
  rcases List.mem_pair.mp hl with rfl | rfl
  · obtain ⟨hnode, hwhole, hself⟩ := hscript (Or.inl hlang)
    exact (packageRoot_subpackage hbuiltIn hnode hwhole h).trans hself
  · obtain ⟨hnode, hwhole, hself⟩ := hscript (Or.inr hlang)
    exact (packageRoot_subpackage hbuiltIn hnode hwhole h).trans hself

/-- Outside JavaScript, the `/` behind a package that shows a framework is
part of the package that is read off the name. -/
theorem hasStart_packageRoot {f : Framework} (hlang : l ∈ f.languages)
    (hl : l ∉ [Language.javaScript, .typeScript]) (hkey : key ∈ f.packages)
    (h : hasStart module (key ++ "/") = true) :
    hasStart (packageRoot module l) (key ++ "/") = true := by
  obtain ⟨-, -, hpython, hrust⟩ := shape_of_mem_packages f key hkey
  cases l with
  | javaScript | typeScript => simp at hl
  | python =>
      have hkeeps : (key ++ "/").toList.all (· != '.') = true := by
        rw [String.toList_append, List.all_append, hpython hlang]
        rfl
      obtain ⟨rest, hrest⟩ := hasStart_iff.mp h
      rw [hasStart_iff, packageRoot, firstPiece, String.toList_ofList, ← hrest,
        List.takeWhile_append_of_pos (List.all_eq_true.mp hkeeps)]
      exact List.prefix_append ..
  | rust =>
      have hplain : (key ++ "/").toList.all (fun x => x != ':' && !isBlank x) = true := by
        rw [String.toList_append, List.all_append, hrust hlang]
        rfl
      refine hasStart_packageRoot_rust h (by simp) ?_
      intro x hx
      simpa using List.all_eq_true.mp hplain x hx
  | _ => exact h

/-- A part of a package goes on behind its name with one separator or the
other. -/
theorem goesOn_of_namedBy (h : NamedBy module key) : module = key
    ∨ hasStart module (key ++ "/") = true ∨ hasStart module (key ++ ".") = true := by
  rcases h.split with hsame | ⟨d, tail, hd, hpart⟩
  · exact Or.inl (String.toList_inj.mp hsame)
  · refine Or.inr ?_
    simp only [hasStart_iff, hpart, String.toList_append, List.prefix_append_right_inj]
    rcases hd with rfl | rfl
    · exact Or.inl (List.prefix_append ['/'] tail)
    · exact Or.inr (List.prefix_append ['.'] tail)

theorem isShownBy_toLibrary {f : Framework} {i : Import} : f.isShownBy (i.toLibrary l) = true
    ↔ ∃ p ∈ f.packages, packageRoot i.module l = p ∨ i.module = p
      ∨ hasStart i.module (p ++ ".") = true := by
  simp only [Framework.isShownBy, Import.toLibrary, List.any_eq_true, Bool.or_eq_true, beq_iff_eq,
    or_assoc]

/-- A module that belongs to a package of the table shows the framework of
the package, unless its name goes on behind a `/` and the language is not
JavaScript. -/
theorem isShownBy_iff_of_isPartOf {f : Framework} {i : Import} (hlang : l ∈ f.languages)
    (hknown : key ∈ knownKeys) (hkey : key ∈ f.packages)
    (h : isPartOf i.module (packageRoot i.module l) key = true) :
    f.isShownBy (i.toLibrary l) = true
      ↔ l ∈ [Language.javaScript, .typeScript] ∨ hasStart i.module (key ++ "/") = false := by
  obtain ⟨hapart, -⟩ := shape_of_mem_packages f key hkey
  rw [isShownBy_toLibrary]
  constructor
  · rintro ⟨other, hother, hshown⟩
    obtain ⟨hkeep, hdot, hslash⟩ := hapart other hother
    refine or_iff_not_imp_left.mpr fun hl => Bool.eq_false_iff.mpr fun hstart => ?_
    rcases hshown with hpackage | hname | hpart
    · have hroot := hasStart_packageRoot hlang hl hkey hstart
      rw [hpackage, hkeep] at hroot
      cases hroot
    · rw [hname, hkeep] at hstart
      cases hstart
    · rw [not_hasStart_of_hasStart hpart hdot hslash] at hstart
      cases hstart
  · intro hshows
    refine ⟨key, hkey, ?_⟩
    rcases isPartOf_iff.mp h with hpackage | hnamed
    · exact Or.inl hpackage
    rcases goesOn_of_namedBy hnamed with hsame | hstart | hdot
    · exact Or.inr (Or.inl hsame)
    · -- Behind a `/` the name alone shows nothing, so the package must.
      refine Or.inl ?_
      have hl : l ∈ [Language.javaScript, .typeScript] := by
        refine hshows.resolve_right fun hnot => ?_
        rw [hstart] at hnot
        cases hnot
      exact packageRoot_eq_key hlang hl hkey (not_hasStart_node hknown hnamed) hstart
    · exact Or.inr (Or.inr hdot)

theorem isPartOf_of_matchedPackage? (h : matchedPackage? module package = some (c, key)) :
    key ∈ knownKeys ∧ isPartOf module package key = true := by
  obtain ⟨row, hrow, hentry⟩ := List.mem_flatMap.mp (List.mem_of_find?_eq_some h)
  obtain ⟨_, hkey, hsame⟩ := List.mem_map.mp hentry
  have hpart := List.find?_some h
  exact ⟨List.mem_flatMap.mpr ⟨row, hrow, (Prod.mk.inj hsame).2 ▸ hkey⟩, hpart⟩

end Library

/-! ## Reports -/

namespace Framework

variable {f : Framework} {source : String} {l : Language} {libraries : List LibraryInfo}

/-- The framework is reported as likely as an import makes it. -/
def Reported (f : Framework) (source : String) (l : Language) (libraries : List LibraryInfo) :
    Prop :=
  ∃ info ∈ detect source l libraries, info.framework = f ∧ 0.9 ≤ info.confidence

/-- The confidence in a framework that is imported or not and of which so
many kinds of use were found. -/
def confidenceOf (isImported : Bool) (used : Nat) : Float :=
  let byImport := if !isImported then 0.0 else importSignal
  let byUse := useSignal * Scalar.least (Float.ofNat used / 2.0) 1.0
  let bonus := if !isImported || used == 0 then 0.0 else 0.1
  Scalar.round2 (Scalar.least (Scalar.greatest byImport byUse + bonus) 1.0)

/-- There are at most four kinds of use, so no more than ten confidences. -/
theorem confidenceOf_bounds : ∀ used ≤ 4, 0.9 ≤ confidenceOf true used
    ∧ 0.5 < confidenceOf true used ∧ ¬ 0.9 ≤ confidenceOf false used := by
  decide +kernel

/-- The uses of a framework, each with its written form. -/
def patterns (f : Framework) : List (String × Pattern) := f.uses.map fun u => (u, .ofText u)

/-- How many kinds of use of the framework were found. -/
def usedCount (f : Framework) (source : String) : Nat :=
  (f.patterns.filter (·.2.isMatch source)).length

theorem usedCount_le (f : Framework) (source : String) : f.usedCount source ≤ 4 := by
  have huses : f.patterns.length ≤ 4 := by
    rw [patterns, List.length_map]
    cases f <;> decide
  exact Nat.le_trans (List.length_filter_le _ _) huses

theorem info?_eq (f : Framework) (source : String) (libraries : List LibraryInfo) :
    ∃ indicators, f.info? f.patterns source libraries
      = if !libraries.any f.isShownBy && f.usedCount source == 0 then none
        else some ⟨f, f.name, f.category,
          confidenceOf (libraries.any f.isShownBy) (f.usedCount source), indicators⟩ := by
  have himported : ((libraries.filter f.isShownBy).map (·.name)).isEmpty
      = !libraries.any f.isShownBy := by
    rw [Bool.eq_iff_iff]
    simp
  have hused : ((f.patterns.filter (·.2.isMatch source)).map (·.1)).isEmpty
      = (f.usedCount source == 0) := by
    rw [Bool.eq_iff_iff]
    simp [usedCount]
  refine ⟨((libraries.filter f.isShownBy).map (·.name)).map ("import " ++ ·)
    ++ ((f.patterns.filter (·.2.isMatch source)).map (·.1)).map ("api " ++ ·), ?_⟩
  simp only [info?, himported, hused, List.length_map]
  rfl

theorem mem_detect_iff {info : FrameworkInfo} : info ∈ detect source l libraries
    ↔ ∃ f : Framework, l ∈ f.languages ∧ f.info? f.patterns source libraries = some info
      ∧ 0.5 < info.confidence := by
  have hall (f : Framework) : f ∈ all := by
    cases f <;> decide
  simp only [detect, usePatterns, List.mem_mergeSort, List.mem_filter, List.mem_filterMap,
    List.mem_map, List.contains_iff_mem, decide_eq_true_eq]
  constructor
  · rintro ⟨⟨_, ⟨⟨f, -, rfl⟩, hlang⟩, hinfo⟩, hover⟩
    exact ⟨f, hlang, hinfo, hover⟩
  · rintro ⟨f, hlang, hinfo, hover⟩
    exact ⟨⟨_, ⟨⟨f, hall f, rfl⟩, hlang⟩, hinfo⟩, hover⟩

/-- A framework is reported as likely as an import makes it exactly if a
library shows it, whatever the text uses of it. -/
theorem reported_iff : f.Reported source l libraries
    ↔ l ∈ f.languages ∧ ∃ lib ∈ libraries, f.isShownBy lib = true := by
  rw [← List.any_eq_true]
  constructor
  · rintro ⟨info, hmem, hframework, hconfidence⟩
    obtain ⟨g, hlang, hinfo, -⟩ := mem_detect_iff.mp hmem
    obtain ⟨indicators, heq⟩ := info?_eq g source libraries
    obtain ⟨-, -, hlow⟩ := confidenceOf_bounds (g.usedCount source) (usedCount_le g source)
    rw [heq] at hinfo
    split at hinfo
    · cases hinfo
    · cases hinfo
      cases hframework
      refine ⟨hlang, Decidable.byContradiction fun hnot => ?_⟩
      rw [Bool.eq_false_iff.mpr hnot] at hconfidence
      exact hlow hconfidence
  · rintro ⟨hlang, hshown⟩
    obtain ⟨hhigh, hover, -⟩ := confidenceOf_bounds (f.usedCount source) (usedCount_le f source)
    obtain ⟨indicators, hinfo⟩ := info?_eq f source libraries
    rw [hshown, Bool.not_true, Bool.false_and] at hinfo
    exact ⟨_, mem_detect_iff.mpr ⟨f, hlang, hinfo, hover⟩, rfl, hhigh⟩

end Framework

/-! ## Two answers to one import -/

/-- A library whose purpose the table tells by a package that shows a
framework: the framework is reported as imported, unless the name of the
library goes on behind a `/`, the language is not JavaScript, and no other
library shows the framework. -/
theorem reported_iff_of_matchedPackage {t : SyntaxTree} {lib : LibraryInfo} {f : Framework}
    {c : LibraryCategory} {key : String} (hlib : lib ∈ t.libraries.libraries)
    (hlocal : lib.isLocal = false) (hlang : t.language ∈ f.languages)
    (hentry : Library.matchedPackage? lib.name lib.package = some (c, key))
    (hkey : key ∈ f.packages) (source : String) :
    lib.category = c
      ∧ (f.Reported source t.language t.libraries.libraries
        ↔ (t.language ∈ [Language.javaScript, .typeScript] ∨ hasStart lib.name (key ++ "/") = false)
          ∨ ∃ other ∈ t.libraries.libraries, other ≠ lib ∧ f.isShownBy other = true) := by
  obtain ⟨i, hi, rfl⟩ := List.mem_map.mp hlib
  obtain ⟨hknown, hpart⟩ := Library.isPartOf_of_matchedPackage? hentry
  have hshown := Library.isShownBy_iff_of_isPartOf hlang hknown hkey hpart
  refine ⟨?_, ?_⟩
  · rw [Library.category_toLibrary hlocal]
    exact Library.categorize_of_matchedPackage? hentry
  · rw [Framework.reported_iff, and_iff_right hlang]
    constructor
    · rintro ⟨other, hother, hshows⟩
      by_cases hsame : other = i.toLibrary t.language
      · exact Or.inl (hshown.mp (hsame ▸ hshows))
      · exact Or.inr ⟨other, hother, hsame, hshows⟩
    · rintro (hholds | ⟨other, hother, -, hshows⟩)
      · exact ⟨_, hlib, hshown.mpr hholds⟩
      · exact ⟨other, hother, hshows⟩

namespace AngularTesting

def source : String := "import \"@angular/core/testing\""

def program : NodeSpec := ⟨"program", 0, 30, true, false, none⟩

def statement : NodeSpec := ⟨"import_statement", 0, 30, true, false, none⟩

def path : NodeSpec := ⟨"string", 7, 30, true, false, some "source"⟩

def tree : SyntaxTree :=
  ⟨.typeScript, source, program.node source 0 [statement.node source 1 [path.node source 2 []]]⟩

def library : LibraryInfo := ⟨"@angular/core/testing", "@angular/core", .framework, false, 1⟩

end AngularTesting

open AngularTesting in
/-- In TypeScript a part of a package shows the framework of the package. -/
theorem angularTesting_reported :
    tree.libraries.libraries = [library]
      ∧ Library.matchedPackage? library.name library.package = some (.framework, "@angular/core")
      ∧ hasStart library.name "@angular/core/" = true
      ∧ ∀ text, Framework.angular.Reported text .typeScript [library] := by
  have hlibraries : tree.libraries.libraries = [library] := by
    decide +kernel
  have hentry : Library.matchedPackage? library.name library.package
      = some (.framework, "@angular/core") := by
    decide +kernel
  have hlib : library ∈ tree.libraries.libraries := hlibraries ▸ List.mem_singleton_self _
  refine ⟨hlibraries, hentry, by decide, fun text => ?_⟩
  obtain ⟨-, hreported⟩ := reported_iff_of_matchedPackage (f := .angular) hlib (by decide)
    (by decide) hentry (by decide) text
  rw [hlibraries] at hreported
  exact hreported.mpr (Or.inl (Or.inl (by decide)))

namespace GinBinding

def source : String := "import \"github.com/gin-gonic/gin/binding\""

def file : NodeSpec := ⟨"source_file", 0, 41, true, false, none⟩

def declaration : NodeSpec := ⟨"import_declaration", 0, 41, true, false, none⟩

def spec : NodeSpec := ⟨"import_spec", 7, 41, true, false, none⟩

def path : NodeSpec := ⟨"interpreted_string_literal", 7, 41, true, false, some "path"⟩

def tree : SyntaxTree :=
  ⟨.go, source, file.node source 0 [declaration.node source 1
    [spec.node source 2 [path.node source 3 []]]]⟩

def library : LibraryInfo :=
  ⟨"github.com/gin-gonic/gin/binding", "github.com/gin-gonic/gin/binding", .framework, false, 1⟩

theorem built : tree.Built :=
  ⟨source, .go, [.openNode file, .openNode declaration, .openNode spec, .leaf path, .closeNode,
    .closeNode, .closeNode], by rfl⟩

end GinBinding

open GinBinding in
/-- A part of Gin is a framework by the table, and does not show Gin. -/
theorem ginBinding_unreported :
    tree.Built ∧ tree.libraries.libraries = [library]
      ∧ Library.matchedPackage? library.name library.package
        = some (.framework, "github.com/gin-gonic/gin")
      ∧ .go ∈ Framework.gin.languages ∧ "github.com/gin-gonic/gin" ∈ Framework.gin.packages
      ∧ ∀ text, ¬ Framework.gin.Reported text .go tree.libraries.libraries := by
  have hlibraries : tree.libraries.libraries = [library] := by
    decide +kernel
  refine ⟨built, hlibraries, by decide +kernel, by decide, by decide, ?_⟩
  intro text hreported
  obtain ⟨-, other, hother, hshows⟩ := Framework.reported_iff.mp hreported
  rw [hlibraries, List.mem_singleton] at hother
  exact absurd (hother ▸ hshows) (by decide)

end CodeProfile
