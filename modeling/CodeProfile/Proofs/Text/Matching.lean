import CodeProfile.Proofs.Text.Needs

/-!
# Following a match through a text

`Pattern.first p k c` is what a search finds that matches `p` from `c` on
and then goes on with `k`, in order of preference. It is computed from the
parts of the pattern (`first_seq`, `first_either`, `first_group`), and for
a repeated class from one character to the next (`first_many_cons`). A
repetition takes a whole run of characters if the search can go on behind
it (`first_many_greedy`), or if it cannot go on inside
(`first_many_stuck`).

The first match in a text is found behind a part where no match can begin
(`groupsFrom_skip`). Alternatives that need a character which the text lacks
do not count (`groupsFrom_of_without`).
-/

namespace CodeProfile.Text

namespace Cursor

/-- The place between two parts of a text. -/
def here (before after : List Char) (groups : List GroupMatch) : Cursor :=
  ⟨before, after, after.length, groups⟩

theorem textTo_here (b b' w rest : List Char) (g g' : List GroupMatch) :
    (here b (w ++ rest) g).textTo (here b' rest g') = String.ofList w := by
  simp [textTo, here]

end Cursor

open Cursor

namespace Pattern

/-! ## What a match goes on with -/

section

variable {β : Type} {p q : Pattern} {k : Cursor → Option β} {c : Cursor}

/-- The first result of `k` at an end of a match from `c`. -/
def first (p : Pattern) (k : Cursor → Option β) (c : Cursor) : Option β := (p.ends c).findSome? k

theorem first_seq : (seq p q).first k c = p.first (q.first k) c := by
  have hall (ds : List Cursor) : (ds.flatMap q.ends).findSome? k = ds.findSome? (q.first k) := by
    induction ds with
    | nil => rfl
    | cons d ds ih =>
        rw [List.flatMap_cons, List.findSome?_append, ih, List.findSome?_cons, first]
        cases (q.ends d).findSome? k <;> rfl
  exact hall (p.ends c)

theorem first_either : (either p q).first k c = (p.first k c).or (q.first k c) := by
  simp only [first, ends, List.findSome?_append]

theorem first_empty : empty.first k c = k c := by
  simp [first, ends]

theorem first_anchor (a : Anchor) :
    (anchor a).first k c = if c.satisfies a then k c else none := by
  simp only [first, ends]
  split <;> simp

theorem first_group (i : Nat) : (group i p).first k c =
    p.first (fun d => k { d with groups := ⟨i, c.left, c.textTo d⟩ :: d.groups }) c := by
  simp only [first, ends, List.findSome?_map]
  rfl

end

section

variable {β : Type} {k : Cursor → Option β} {cls : CharClass} {b : List Char} {x : Char}
  {xs : List Char} {g : List GroupMatch}

theorem ends_one_cons : (one cls).ends (here b (x :: xs) g) =
    if cls.holds x then [here (x :: b) xs g] else [] := rfl

theorem first_one_cons : (one cls).first k (here b (x :: xs) g) =
    if cls.holds x then k (here (x :: b) xs g) else none := by
  rw [first, ends_one_cons]
  split <;> simp

theorem first_many_nil : (many false (one cls)).first k (here b [] g) = k (here b [] g) := by
  have hends : (many false (one cls)).ends (here b [] g) = [here b [] g] := rfl
  rw [first, hends, List.findSome?_singleton]

/-- A repetition takes one more character first. -/
theorem first_many_cons : (many false (one cls)).first k (here b (x :: xs) g) =
    if cls.holds x then
      ((many false (one cls)).first k (here (x :: b) xs g)).or (k (here b (x :: xs) g))
    else k (here b (x :: xs) g) := by
  have hends : (many false (one cls)).ends (here b (x :: xs) g) =
      repeatEnds (one cls).ends false (xs.length + 1) (here b (x :: xs) g) := rfl
  rw [first, hends, repeatEnds_succ, ends_one_cons]
  split
  next =>
    have hmore : ([here (x :: b) xs g].filter fun d => d.left < (here b (x :: xs) g).left) =
        [here (x :: b) xs g] := List.filter_cons_of_pos (by simp [here])
    simp only [hmore, List.flatMap_singleton, Bool.false_eq_true, if_false, List.findSome?_append,
      List.findSome?_singleton]
    rfl
  next => simp

/-- The text goes on without a character of the class. -/
def StopsAt (cls : CharClass) (rest : List Char) : Prop := ∀ x ∈ rest.head?, cls.holds x = false

theorem stopsAt_nil : StopsAt cls [] := nofun

theorem stopsAt_cons (h : cls.holds x = false) : StopsAt cls (x :: xs) := by
  rintro y hy
  obtain rfl := Option.some_inj.mp hy
  exact h

theorem first_many_stop {rest : List Char} (h : StopsAt cls rest) :
    (many false (one cls)).first k (here b rest g) = k (here b rest g) := by
  cases rest with
  | nil => exact first_many_nil
  | cons x xs => rw [first_many_cons, h x rfl, if_neg Bool.false_ne_true]

/-- A repetition takes the whole run if the search goes on behind it. -/
theorem first_many_greedy {w rest : List Char} (hw : ∀ x ∈ w, cls.holds x = true)
    (hrest : StopsAt cls rest) {r : β} (hk : k (here (w.reverse ++ b) rest g) = some r) :
    (many false (one cls)).first k (here b (w ++ rest) g) = some r := by
  induction w generalizing b with
  | nil => rw [List.nil_append, first_many_stop hrest]; exact hk
  | cons x w ih =>
      obtain ⟨hx, hw⟩ := List.forall_mem_cons.mp hw
      rw [List.reverse_cons, List.append_assoc, List.singleton_append] at hk
      rw [List.cons_append, first_many_cons, if_pos hx, ih hw hk, Option.some_or]

/-- A repetition takes the whole run if the search cannot go on between two characters of it. -/
theorem first_many_stuck {w rest : List Char} (hw : ∀ x ∈ w, cls.holds x = true)
    (hrest : StopsAt cls rest)
    (hk : ∀ u z v, w = u ++ z :: v → k (here (u.reverse ++ b) (z :: v ++ rest) g) = none) :
    (many false (one cls)).first k (here b (w ++ rest) g) = k (here (w.reverse ++ b) rest g) := by
  induction w generalizing b with
  | nil => exact first_many_stop hrest
  | cons x w ih =>
      obtain ⟨hx, hw⟩ := List.forall_mem_cons.mp hw
      have hnow : k (here b (x :: (w ++ rest)) g) = none := hk [] x w rfl
      have hlater : (many false (one cls)).first k (here (x :: b) (w ++ rest) g) =
          k (here (w.reverse ++ x :: b) rest g) := by
        refine ih hw fun u z v hsplit => ?_
        have hcons := hk (x :: u) z v (by rw [hsplit, List.cons_append])
        rwa [List.reverse_cons, List.append_assoc, List.singleton_append] at hcons
      rw [List.cons_append, first_many_cons, if_pos hx, hlater, hnow, Option.or_none,
        List.reverse_cons, List.append_assoc, List.singleton_append]

end

/-! ## Where a match can begin -/

/-- The classes of which one reads the first character of every match, if the pattern tells. -/
def openings : Pattern → Option (List CharClass)
  | one cls => some [cls]
  | seq (anchor _) q => openings q
  | seq p _ => openings p
  | either p q => do return (← openings p) ++ (← openings q)
  | group _ p => openings p
  | _ => none

/-- None of the classes holds the character. -/
def NoneHolds (classes : List CharClass) (x : Char) : Prop := ∀ cls ∈ classes, cls.holds x = false

/-- No match begins in front of a character that no opening class holds, or at the end. -/
theorem ends_eq_nil_of_openings {p : Pattern} {classes : List CharClass}
    (h : p.openings = some classes) {c : Cursor} (hc : ∀ x ∈ c.after.head?, NoneHolds classes x) :
    p.ends c = [] := by
  induction p generalizing c classes with
  | one cls =>
      obtain rfl := Option.some_inj.mp h
      obtain ⟨before, after, left, groups⟩ := c
      cases after with
      | nil => rfl
      | cons x xs =>
          have hx : cls.holds x = false := hc x rfl cls (List.mem_singleton_self cls)
          exact if_neg (by rw [hx]; exact Bool.false_ne_true)
  | seq p q ihp ihq =>
      rw [ends, List.flatMap_eq_nil_iff]
      intro d hd
      cases p with
      | anchor a =>
          rw [ends] at hd
          split at hd
          · rw [List.mem_singleton.mp hd]
            exact ihq h hc
          · cases hd
      | _ =>
          rw [ihp h hc] at hd
          cases hd
  | either p q ihp ihq =>
      simp only [openings, Option.bind_eq_bind, Option.bind_eq_some_iff, Option.pure_def,
        Option.some_inj] at h
      obtain ⟨ps, hp, qs, hq, rfl⟩ := h
      rw [ends, ihp hp fun x hx cls hcls => hc x hx cls (List.mem_append_left _ hcls),
        ihq hq fun x hx cls hcls => hc x hx cls (List.mem_append_right _ hcls), List.append_nil]
  | group i p ih => rw [ends, ih h hc, List.map_nil]
  | _ => cases h

/-! ## Finding the first match -/

section

variable {p : Pattern} {b : List Char} {x : Char} {u rest : List Char}

/-- What the groups have matched in the first match from a place on. -/
def groupsFrom (p : Pattern) (before after : List Char) : Option (List GroupMatch) :=
  (p.findFrom (here before after []) after.length).map (·.2.groups)

theorem groupsFrom_of_first {β : Type} {f : List GroupMatch → β} {r : β}
    (h : p.first (fun d => some (f d.groups)) (here b rest []) = some r) :
    (p.groupsFrom b rest).map f = some r := by
  have hhead : (p.ends (here b rest [])).head?.map (fun d => f d.groups) = some r := by
    rw [← h, first]
    cases p.ends (here b rest []) <;> rfl
  obtain ⟨d, hd, hgroups⟩ := Option.map_eq_some_iff.mp hhead
  rw [groupsFrom]
  cases rest with
  | nil => simp [findFrom, hd, hgroups]
  | cons x xs => simp [findFrom, hd, hgroups]

theorem groupsFrom_nil (h : p.ends (here b [] []) = []) : p.groupsFrom b [] = none := by
  simp [groupsFrom, findFrom, h]

theorem groupsFrom_cons (h : p.ends (here b (x :: rest) []) = []) :
    p.groupsFrom b (x :: rest) = p.groupsFrom (x :: b) rest := by
  rw [groupsFrom, List.length_cons, findFrom, h]
  rfl

theorem ends_eq_nil_of_first {c : Cursor} (h : p.first some c = none) : p.ends c = [] := by
  cases hends : p.ends c with
  | nil => rfl
  | cons d ds => simp [first, hends] at h

/-- A match is looked for behind a part where none can begin. -/
theorem groupsFrom_skip {classes : List CharClass} (hp : p.openings = some classes)
    (hu : ∀ x ∈ u, NoneHolds classes x) :
    p.groupsFrom b (u ++ rest) = p.groupsFrom (u.reverse ++ b) rest := by
  induction u generalizing b with
  | nil => rfl
  | cons x u ih =>
      obtain ⟨hx, hu⟩ := List.forall_mem_cons.mp hu
      have hends : p.ends (here b (x :: (u ++ rest)) []) = [] :=
        ends_eq_nil_of_openings hp fun y hy => Option.some_inj.mp hy ▸ hx
      rw [List.cons_append, groupsFrom_cons hends, ih hu, List.reverse_cons, List.append_assoc,
        List.singleton_append]

theorem groupsFrom_of_openings {classes : List CharClass} (hp : p.openings = some classes)
    (hu : ∀ x ∈ u, NoneHolds classes x) : p.groupsFrom b u = none := by
  rw [← List.append_nil u, groupsFrom_skip hp hu]
  exact groupsFrom_nil (ends_eq_nil_of_openings hp nofun)

theorem groupsFrom_of_needs {cs : List Char} (h : p.needs cs = true) (hrest : ∀ x ∈ rest, x ∉ cs) :
    p.groupsFrom b rest = none := by
  rw [groupsFrom, findFrom_eq_none h hrest]
  rfl

/-- The pattern without the alternatives that read one of the characters. -/
def without (cs : List Char) : Pattern → Pattern
  | either p q =>
    if p.needs cs then without cs q else if q.needs cs then without cs p
    else either (without cs p) (without cs q)
  | group i p => group i (without cs p)
  | p => p

theorem ends_without {cs : List Char} {c : Cursor} (hc : ∀ x ∈ c.after, x ∉ cs) :
    (p.without cs).ends c = p.ends c := by
  induction p with
  | either p q ihp ihq =>
      rw [without]
      split
      next hp => rw [ihq, ends, ends_eq_nil hp hc, List.nil_append]
      next =>
        split
        next hq => rw [ihp, ends, ends_eq_nil hq hc, List.append_nil]
        next => rw [ends, ihp, ihq, ends]
  | group i p ih => rw [without, ends, ih, ends]
  | _ => rfl

/-- Alternatives that read a character which the text lacks do not count. -/
theorem groupsFrom_of_without {q : Pattern} {cs : List Char} (hp : p.without cs = q)
    (hrest : ∀ x ∈ rest, x ∉ cs) : p.groupsFrom b rest = q.groupsFrom b rest := by
  have hfind (n : Nat) : ∀ c : Cursor, (∀ x ∈ c.after, x ∉ cs) →
      (p.without cs).findFrom c n = p.findFrom c n := by
    induction n with
    | zero => intro c hc; rw [findFrom, ends_without hc, findFrom]
    | succ n ih =>
        intro c hc
        rw [findFrom, ends_without hc, findFrom]
        cases hafter : c.after with
        | nil => simp [Cursor.next?, hafter]
        | cons x xs =>
            have hnext := ih { c with before := x :: c.before, after := xs, left := c.left - 1 }
              fun y hy => hc y (hafter ▸ List.mem_cons_of_mem x hy)
            simp [Cursor.next?, hafter, hnext]
  rw [← hp, groupsFrom, ← hfind _ _ hrest, groupsFrom]

end

theorem find?_groups (p : Pattern) (s : String) :
    (p.find? s).map (·.groups) = p.groupsFrom [] s.toList := by
  rw [find?, Option.map_map]
  rfl

/-- The first of all matches is the one that is found first. -/
theorem matchesIn_of_groupsFrom {p : Pattern} {s : String} {gs : List GroupMatch}
    (h : p.groupsFrom [] s.toList = some gs) : ∃ m ms, p.matchesIn s = m :: ms ∧ m.groups = gs := by
  obtain ⟨⟨c, d⟩, hfind, hgroups⟩ := Option.map_eq_some_iff.mp h
  have hstart : p.findFrom (ofChars s.toList) (ofChars s.toList).left = some (c, d) := hfind
  refine ⟨Match.ofEnds c d,
    p.matchesFrom (2 * s.toList.length + 1) { d with groups := [] } (some d.left), ?_, hgroups⟩
  rw [matchesIn, matchesFrom, hstart]
  simp only [reduceCtorEq, and_false, if_false]
  rfl

end Pattern

end CodeProfile.Text
