import CodeProfile.Settings.Search
import Mathlib.Tactic.SplitIfs

/-!
# Which settings hold in a directory

Settings are looked for in a directory and in those above it. What stands
in the file some levels up, as it is written, is `writtenAt?`; that the
file is missing, cannot be read or is malformed makes no difference. The
search takes the first of these and repairs it (`search_eq`).

`FoundWithin` says what it is to search up to a number of levels above:
the result is the nearest written settings with the senseless values
replaced, and the defaults if there are none. This has one solution
(`foundWithin_iff`), so two reaches are compared by what they find. The
search reaches nine levels up, as the directory itself counts among the
ten that are searched. Its headline is `search_exact`; a file ten levels
up is not found (`tenthParent_overlooked`).
-/

namespace CodeProfile

/-! ## Directories above -/

namespace Path

/-- The directory some levels above, if there are as many. -/
def above? : Nat → String → Option String
  | 0, directory => some directory
  | level + 1, directory => (parent? directory).bind (above? level)

/-- A directory and those above it, level by level. -/
theorem ancestors_eq (count : Nat) (directory : String) :
    ancestors count directory = (List.range count).filterMap (above? · directory) := by
  induction count generalizing directory with
  | zero => rfl
  | succ count ih =>
      rw [ancestors, List.range_succ_eq_map, List.filterMap_cons, List.filterMap_map]
      cases hparent : parent? directory with
      | none => simp [above?, hparent, Function.comp_def]
      | some parent => simp [above?, hparent, Function.comp_def, ih parent]

end Path

namespace Settings

/-! ## Repair -/

/-- `result` has what is written, with the language replaced where it is unknown and the capacity
where it is nought. -/
structure Validated (written result : Settings) : Prop where
  detection_eq : result.detection = written.detection.map fun d =>
    ⟨if (Language.ofId d.defaultLanguage).isUnknown then "javascript" else d.defaultLanguage,
      d.useAdapters⟩
  output_eq : result.output = written.output
  cache_eq : result.cache = written.cache.map fun c =>
    ⟨c.enabled, if c.capacity = 0 then 64 else c.capacity, c.debounceMs⟩

theorem validated_iff {written result : Settings} :
    Validated written result ↔ result = written.repair := by
  have hdetection (d : DetectionSettings) : d.repair
      = ⟨if (Language.ofId d.defaultLanguage).isUnknown then "javascript" else d.defaultLanguage,
        d.useAdapters⟩ := by
    rw [DetectionSettings.repair, DetectionSettings.fallback]
    split_ifs <;> rfl
  have hcache (c : CacheSettings) :
      c.repair = ⟨c.enabled, if c.capacity = 0 then 64 else c.capacity, c.debounceMs⟩ := by
    rw [CacheSettings.repair]
    split_ifs <;> rfl
  constructor
  · rintro ⟨hd, ho, hc⟩
    cases result
    simp_all [repair]
  · rintro rfl
    exact ⟨by simp [repair, hdetection], rfl, by simp [repair, hcache]⟩

/-- Values that make sense: a known language, and a capacity that keeps something. -/
structure Sensible (s : Settings) : Prop where
  known : s.detectionOrDefault.fallback.isUnknown = false
  positive : ∀ c ∈ s.cache, 1 ≤ c.capacity

theorem sensible_default : Sensible default := ⟨by decide, fun _ h => nomatch h⟩

theorem sensible_repair (s : Settings) : Sensible s.repair := by
  refine ⟨?_, fun c hc => ?_⟩
  · rw [detectionOrDefault, repair]
    cases s.detection with
    | none => exact sensible_default.known
    | some d =>
        rw [Option.map_some, Option.getD_some, DetectionSettings.repair]
        split_ifs with hunknown
        · exact sensible_default.known
        · exact Bool.eq_false_iff.mpr hunknown
  · obtain ⟨d, -, rfl⟩ := Option.map_eq_some_iff.mp hc
    rw [CacheSettings.repair]
    split_ifs with hzero
    · exact Nat.le_add_left 1 63
    · exact Nat.one_le_iff_ne_zero.mpr hzero

theorem repair_eq_default_iff {s : Settings} : s.repair = default ↔ s = default := by
  cases s
  simp [repair, default]

/-! ## Nearest settings -/

section

variable (read : FileReader) (start : String)

/-- What stands in the file some levels above, as it is written, if there is a file that can be
read and understood. -/
def writtenAt? (level : Nat) : Option Settings := do
  let directory ← Path.above? level start
  let text ← (read (Path.join directory fileName)).toOption
  (Toml.ofText? text).bind ofToml?

/-- `written` stands up to `reach` levels above, and nothing stands nearer. -/
def NearestWithin (reach : Nat) (written : Settings) : Prop :=
  ∃ level ≤ reach, writtenAt? read start level = some written
    ∧ ∀ nearer < level, writtenAt? read start nearer = none

/-- `result` comes of a search up to `reach` levels above: it is what the nearest file says, or the
defaults. Only settings without any section are the defaults as well. -/
structure FoundWithin (reach : Nat) (result : Settings) : Prop where
  validated : ∀ written, NearestWithin read start reach written → Validated written result
  default_iff : result = default ↔ ∀ written, NearestWithin read start reach written →
    written = default

variable {read start} {reach : Nat} {written result : Settings}

theorem findSome?_range_eq_some_iff {α : Type} {f : Nat → Option α} {n : Nat} {a : α} :
    (List.range n).findSome? f = some a ↔
      ∃ i < n, f i = some a ∧ ∀ j < i, f j = none := by
  induction n with
  | zero => simp
  | succ n ih =>
      rw [List.range_succ, List.findSome?_append]
      cases hfirst : (List.range n).findSome? f with
      | some b =>
          rw [Option.some_or, ← hfirst, ih]
          constructor
          · rintro ⟨i, hi, h⟩
            exact ⟨i, Nat.lt_succ_of_lt hi, h⟩
          · rintro ⟨i, hi, ha, hnone⟩
            refine ⟨i, Nat.lt_of_le_of_ne (Nat.le_of_lt_succ hi) ?_, ha, hnone⟩
            rintro rfl
            have hfirst' : (List.range i).findSome? f = none :=
              List.findSome?_eq_none_iff.mpr fun j hj => hnone j (List.mem_range.mp hj)
            rw [hfirst'] at hfirst
            cases hfirst
      | none =>
          rw [List.findSome?_eq_none_iff] at hfirst
          have hbefore : ∀ j < n, f j = none := fun j hj => hfirst j (List.mem_range.mpr hj)
          rw [Option.none_or, List.findSome?_singleton]
          constructor
          · exact fun ha => ⟨n, Nat.lt_succ_self n, ha, hbefore⟩
          · rintro ⟨i, hi, ha, -⟩
            rcases Nat.lt_succ_iff_lt_or_eq.mp hi with hlt | rfl
            · rw [hbefore i hlt] at ha
              cases ha
            · exact ha

theorem nearestWithin_iff : NearestWithin read start reach written ↔
    (List.range (reach + 1)).findSome? (writtenAt? read start) = some written := by
  rw [findSome?_range_eq_some_iff]
  simp only [NearestWithin, Nat.lt_succ_iff]

theorem foundWithin_iff : FoundWithin read start reach result ↔
    result = ((List.range (reach + 1)).findSome? (writtenAt? read start)).elim default repair := by
  have hnearest (written : Settings) : NearestWithin read start reach written ↔
      (List.range (reach + 1)).findSome? (writtenAt? read start) = some written :=
    nearestWithin_iff
  cases hfound : (List.range (reach + 1)).findSome? (writtenAt? read start) with
  | none =>
      simp only [hfound, reduceCtorEq, iff_false] at hnearest
      constructor
      · exact fun h => h.default_iff.mpr fun written hw => absurd hw (hnearest written)
      · rintro rfl
        exact ⟨fun written hw => absurd hw (hnearest written),
          iff_of_true rfl fun written hw => absurd hw (hnearest written)⟩
  | some s =>
      simp only [hfound, Option.some.injEq] at hnearest
      constructor
      · exact fun h => validated_iff.mp (h.validated s ((hnearest s).mpr rfl))
      · rintro rfl
        refine ⟨fun written hw => validated_iff.mpr ?_, ?_⟩
        · rw [← (hnearest written).mp hw]
          rfl
        · simp [hnearest, repair_eq_default_iff]

/-! ## The search -/

/-- A file some levels above is used if it can be, and what it says is repaired. -/
theorem bind_ofFile? (level : Nat) :
    (Path.above? level start).bind (fun directory => ofFile? (read (Path.join directory fileName)))
      = (writtenAt? read start level).map repair := by
  rw [writtenAt?]
  cases Path.above? level start with
  | none => rfl
  | some directory =>
      show ofFile? (read (Path.join directory fileName)) = _
      simp only [bind, Option.bind_some]
      cases read (Path.join directory fileName) <;> rfl

theorem search_eq : search read start
    = ((List.range searchDepth).findSome? (writtenAt? read start)).elim default repair := by
  have hlevels : ((Path.ancestors searchDepth start).map
        fun directory => read (Path.join directory fileName)).findSome? ofFile?
      = ((List.range searchDepth).findSome? (writtenAt? read start)).map repair := by
    rw [List.findSome?_map, Path.ancestors_eq, ← List.head?_filterMap, List.filterMap_filterMap,
      List.head?_filterMap, List.map_findSome?]
    exact congrArg (List.findSome? · _) (funext bind_ofFile?)
  rw [search, ofChain, hlevels]
  cases (List.range searchDepth).findSome? (writtenAt? read start) <;> rfl

theorem foundWithin_search : FoundWithin read start 9 (search read start) :=
  foundWithin_iff.mpr search_eq

theorem sensible_search : Sensible (search read start) := by
  rw [search_eq]
  cases (List.range searchDepth).findSome? (writtenAt? read start) with
  | none => exact sensible_default
  | some s => exact sensible_repair s

/-- Looking one level further makes a difference only where nothing stands nearer. -/
theorem foundWithin_succ_iff (h : FoundWithin read start reach result) :
    FoundWithin read start (reach + 1) result ↔
      ∀ written, (∀ nearer, ¬ NearestWithin read start reach nearer) →
        writtenAt? read start (reach + 1) = some written → written = default := by
  obtain rfl := foundWithin_iff.mp h
  rw [foundWithin_iff, List.range_succ (n := reach + 1), List.findSome?_append,
    List.findSome?_singleton]
  simp only [nearestWithin_iff]
  cases (List.range (reach + 1)).findSome? (writtenAt? read start) with
  | some s => simp
  | none =>
      cases writtenAt? read start (reach + 1) with
      | none => simp
      | some written => simp [eq_comm (a := default), repair_eq_default_iff]

end

/-- For every reader of files and every directory: the search finds what stands up to nine levels
above and gives sensible values. What stands up to ten levels above it finds as well, unless
nothing stands nearer than ten levels and something that is not empty there. -/
theorem search_exact (read : FileReader) (start : String) :
    FoundWithin read start 9 (search read start) ∧ Sensible (search read start)
      ∧ (FoundWithin read start 10 (search read start) ↔
        ∀ written, (∀ nearer, ¬ NearestWithin read start 9 nearer) →
          writtenAt? read start 10 = some written → written = default) :=
  ⟨foundWithin_search, sensible_search, foundWithin_succ_iff foundWithin_search⟩

/-- A file in the topmost directory and no other. -/
def onTop : FileReader := fun path =>
  if path = "/.codeprint.toml" then .ok "[cache]\ncapacity = 5\n" else .error .missing

/-- Ten levels below that directory its file is the nearest one within ten parents, and the defaults
are given. -/
theorem tenthParent_overlooked :
    Path.above? 10 "/a/b/c/d/e/f/g/h/i/j" = some "/"
      ∧ NearestWithin onTop "/a/b/c/d/e/f/g/h/i/j" 10 ⟨none, none, some ⟨true, 5, 300⟩⟩
      ∧ search onTop "/a/b/c/d/e/f/g/h/i/j" = default
      ∧ ¬ FoundWithin onTop "/a/b/c/d/e/f/g/h/i/j" 10 (search onTop "/a/b/c/d/e/f/g/h/i/j") := by
  have hnearest : NearestWithin onTop "/a/b/c/d/e/f/g/h/i/j" 10
      ⟨none, none, some ⟨true, 5, 300⟩⟩ := nearestWithin_iff.mpr (by decide +kernel)
  have hsearch : search onTop "/a/b/c/d/e/f/g/h/i/j" = default := by decide +kernel
  refine ⟨by decide +kernel, hnearest, hsearch, fun h => ?_⟩
  have hdefault := h.default_iff.mp hsearch _ hnearest
  cases hdefault

end Settings

end CodeProfile
