/- # Stitchwork.Proofs.Files.Places — what stands where, and where paths lead.

Writing a file changes what stands at one place and no directory.  So a path that leads to a file to be written leads
there before and after other files have been written, and the place that it leads to can be told from its text: up from
where it begins as often as the path goes up all in all, and down from there.
-/
import Stitchwork.Files.Tree
import Stitchwork.Proofs.Text.Pieces

namespace Stitchwork.Files

open Stitchwork.Text

variable {place here parts : List String} {t : Tree} {path : String}

/-! ## Paths as texts -/

theorem slash_toList : ("/" : String).toList = ['/'] := rfl

/-- The parts of a path that goes on behind a slash. -/
theorem cut_slash (s t : String) : cut (s ++ "/" ++ t) "/" = cut s "/" ++ cut t "/" := by
  simp only [cut_eq slash_toList, String.toList_append, slash_toList, List.append_assoc, List.singleton_append,
    List.splitOn_append_cons_self, List.map_append]

theorem top_not_mem_cut (s : String) : top ∉ cut s "/" := by
  intro h
  exact not_mem_of_mem_cut slash_toList h (by decide)

/-- The last part of a path. -/
def lastPart (path : String) : String := (cut path "/").getLastD ""

theorem lastPart_eq_getLast (path : String) :
    lastPart path = (cut path "/").getLast (cut_ne_nil slash_toList path) := by
  rw [lastPart, List.getLastD_eq_getLast?, List.getLast?_eq_some_getLast, Option.getD_some]

/-- The parts of a path are those of the way to a directory and a name in it. -/
theorem cut_eq_concat (path : String) : cut path "/" = (cut path "/").dropLast ++ [lastPart path] := by
  rw [lastPart_eq_getLast, List.dropLast_concat_getLast]

/-- A path that goes on without a slash has a longer last part. -/
theorem lastPart_append (s : String) {t : String} (ht : '/' ∉ t.toList) : lastPart (s ++ t) = lastPart s ++ t := by
  have hgrow : ∀ (ps : List (List Char)) (p u : List Char),
      ['/'].intercalate (ps ++ [p]) ++ u = ['/'].intercalate (ps ++ [p ++ u]) := by
    intro ps p u
    induction ps with
    | nil => simp
    | cons q ps ih =>
      cases ps with
      | nil => simp
      | cons r ps => simpa using ih
  have hjoin : s ++ t = join "/" ((cut s "/").dropLast ++ [lastPart s ++ t]) := by
    apply String.toList_inj.1
    calc (s ++ t).toList
      _ = (join "/" ((cut s "/").dropLast ++ [lastPart s])).toList ++ t.toList := by
        rw [← cut_eq_concat, join_cut slash_toList, String.toList_append]
      _ = _ := by
        simp only [join, String.toList_append, String.toList_ofList, List.map_append, List.map_singleton,
          slash_toList, hgrow]
  have hclean : ∀ p ∈ (cut s "/").dropLast ++ [lastPart s ++ t], '/' ∉ p.toList := by
    intro p hp
    rcases List.mem_append.1 hp with hp | hp
    · exact not_mem_of_mem_cut slash_toList (List.dropLast_subset _ hp)
    · have hlast : lastPart s ∈ cut s "/" := by
        rw [lastPart_eq_getLast]
        exact List.getLast_mem _
      rw [List.mem_singleton.1 hp, String.toList_append, List.mem_append, not_or]
      exact ⟨not_mem_of_mem_cut slash_toList hlast, ht⟩
  rw [lastPart, hjoin, cut_join slash_toList (by simp) hclean]
  simp

/-- The last part of a path that goes on behind a slash is that of the rest. -/
theorem lastPart_slash (s t : String) : lastPart (s ++ "/" ++ t) = lastPart t := by
  rw [lastPart, cut_slash, cut_eq_concat t]
  simp

/-- A path that goes on begins where it began. -/
theorem startOf_append (home : List String) {s : String} (hs : s.isEmpty = false) (t : String) :
    startOf home (s ++ t) = startOf home s := by
  have hne : s.toList ≠ [] := by
    intro hnil
    rw [String.toList_eq_nil_iff.1 hnil] at hs
    cases hs
  obtain ⟨c, cs, hcs⟩ := List.exists_cons_of_ne_nil hne
  have habsolute : isAbsolute (s ++ t) = isAbsolute s := by
    simp only [isAbsolute, startsWith, String.toList_append, hcs, List.cons_append, slash_toList, afterStart?]
    split <;> rfl
  rw [startOf, startOf, habsolute]

theorem normalFrom_append (here xs ys : List String) :
    normalFrom here (xs ++ ys) = (normalFrom here xs).bind fun place => normalFrom place.reverse ys := by
  induction xs generalizing here with
  | nil => simp [normalFrom]
  | cons x xs ih =>
    rw [List.cons_append, normalFrom, normalFrom]
    split
    · exact ih here
    split
    · cases above here with
      | none => rfl
      | some up => exact ih up
    · exact ih (x :: here)

/-! ### The course of a path -/

/-- How parts of a path go all in all: up a number of directories, and then down; the way down is in reverse. -/
structure Course where
  ups : Nat
  downs : List String
deriving DecidableEq, Repr

/-- A course that goes on with a part. -/
def Course.go (c : Course) (part : String) : Course :=
  if stays part then c
  else if goesUp part then
    match c.downs with
    | [] => ⟨c.ups + 1, []⟩
    | _ :: downs => ⟨c.ups, downs⟩
  else ⟨c.ups, part :: c.downs⟩

/-- The course of the parts of a path. -/
def course (parts : List String) : Course := parts.foldl Course.go ⟨0, []⟩

/-- The directory so many directories above a place, both in reverse. -/
def climb : Nat → List String → Option (List String)
  | 0, here => some here
  | n + 1, here => (climb n here).bind above

theorem above_suffix {up : List String} (h : above here = some up) : up <:+ here := by
  match here with
  | [] => cases h
  | [part] =>
    rw [above] at h
    split at h
    · next htop =>
      cases h
      obtain rfl := beq_iff_eq.1 htop
      exact List.suffix_refl _
    · cases h
      exact List.nil_suffix
  | part :: next :: rest =>
    cases h
    exact List.suffix_cons part _

theorem climb_suffix {n : Nat} {base : List String} (h : climb n here = some base) : base <:+ here := by
  induction n generalizing base with
  | zero =>
    cases h
    exact List.suffix_refl _
  | succ n ih =>
    obtain ⟨up, hup, habove⟩ := Option.bind_eq_some_iff.1 h
    exact (above_suffix habove).trans (ih hup)

/-- Going up from below a directory leads to the directory. -/
theorem above_cons {part : String} (hpart : part ≠ top) (rest : List String) : above (part :: rest) = some rest := by
  cases rest with
  | nil => simp [above, hpart]
  | cons next rest => rfl

/-- A path leads up and then down as its course says. -/
theorem normalFrom_course (hparts : top ∉ parts) (h : normalFrom here parts = some place) :
    ∃ base, climb (course parts).ups here = some base ∧ place = base.reverse ++ (course parts).downs.reverse := by
  -- what has been walked so far is a course itself, and the walk stands at its end
  suffices hgeneral : ∀ (c : Course) (base : List String), climb c.ups here = some base → top ∉ c.downs →
      normalFrom (c.downs ++ base) parts = some place → ∃ base', climb (parts.foldl Course.go c).ups here = some base' ∧
        place = base'.reverse ++ (parts.foldl Course.go c).downs.reverse by
    exact hgeneral ⟨0, []⟩ here rfl List.not_mem_nil h
  clear h
  induction parts with
  | nil =>
    intro c base hbase _ h
    simp only [normalFrom, Option.some.injEq, List.reverse_append] at h
    exact ⟨base, hbase, h.symm⟩
  | cons part rest ih =>
    intro c base hbase hdowns h
    rw [List.mem_cons, not_or] at hparts
    rw [normalFrom] at h
    rw [List.foldl_cons]
    by_cases hstays : stays part
    · rw [if_pos hstays] at h
      rw [Course.go, if_pos hstays]
      exact ih hparts.2 c base hbase hdowns h
    rw [if_neg hstays] at h
    rw [Course.go, if_neg hstays]
    by_cases hup : goesUp part
    · rw [if_pos hup] at h ⊢
      obtain ⟨up, habove, hrest⟩ := Option.bind_eq_some_iff.1 h
      cases hc : c.downs with
      | nil =>
        rw [hc, List.nil_append] at habove
        refine ih hparts.2 ⟨c.ups + 1, []⟩ up ?_ List.not_mem_nil hrest
        rw [climb, hbase]
        exact habove
      | cons down downs =>
        rw [hc] at habove hdowns
        rw [List.mem_cons, not_or] at hdowns
        rw [List.cons_append, above_cons (Ne.symm hdowns.1)] at habove
        cases habove
        exact ih hparts.2 ⟨c.ups, downs⟩ base hbase hdowns.2 hrest
    · rw [if_neg hup] at h ⊢
      refine ih hparts.2 ⟨c.ups, part :: c.downs⟩ base hbase ?_ h
      simp only [List.mem_cons, not_or]
      exact ⟨hparts.1, hdowns⟩

/-- Where a path leads from a directory: the directory has a part below the point up to which the path climbs, and the
path leads inside the directory exactly if it goes down by this part again. -/
theorem normalFrom_reverse_course {dir : List String} (hparts : top ∉ parts)
    (h : normalFrom dir.reverse parts = some place) :
    ∃ base below, dir = base ++ below ∧ climb (course parts).ups dir.reverse = some base.reverse ∧
      place = base ++ (course parts).downs.reverse ∧ (dir <+: place ↔ below <+: (course parts).downs.reverse) := by
  obtain ⟨up, hclimb, hplace⟩ := normalFrom_course hparts h
  obtain ⟨removed, hremoved⟩ := climb_suffix hclimb
  have hdir : dir = up.reverse ++ removed.reverse := by
    rw [← List.reverse_append, hremoved, List.reverse_reverse]
  refine ⟨up.reverse, removed.reverse, hdir, by rw [List.reverse_reverse, hclimb], hplace, ?_⟩
  rw [hplace, hdir, List.prefix_append_right_inj]

namespace Tree

/-! ## What stands where -/

theorem lookup_map_replace (es : List (List String × Entry)) (place q : List String) (e : Entry) :
    (es.map fun x => if x.1 == place then (place, e) else x).lookup q =
      if q = place ∧ (es.lookup place).isSome then some e else es.lookup q := by
  induction es with
  | nil => simp
  | cons x es ih =>
    obtain ⟨p, old⟩ := x
    rw [List.map_cons]
    by_cases hp : p = place
    · subst hp
      rw [if_pos (beq_self_eq_true p)]
      simp only [List.lookup_cons, ih]
      by_cases hq : q = p
      · simp [hq]
      · simp [hq, beq_eq_false_iff_ne.2 hq]
    · rw [if_neg (by simpa using hp)]
      simp only [List.lookup_cons, ih, beq_eq_false_iff_ne.2 (Ne.symm hp)]
      by_cases hq : q = p
      · simp [hq, hp]
      · simp [beq_eq_false_iff_ne.2 hq]

theorem lookup_append_singleton (es : List (List String × Entry)) (place q : List String) (e : Entry) :
    (es ++ [(place, e)]).lookup q = (es.lookup q).or (if q = place then some e else none) := by
  induction es with
  | nil =>
    by_cases hq : q = place
    · simp [hq]
    · simp [List.lookup_cons, hq, beq_eq_false_iff_ne.2 hq]
  | cons x es ih =>
    rw [List.cons_append, List.lookup_cons, List.lookup_cons, ih]
    split <;> rfl

@[simp] theorem home_set (t : Tree) (place : List String) (e : Entry) : (t.set place e).home = t.home := by
  rw [set]
  split <;> rfl

/-- Putting something at a place changes what stands there and nothing else. -/
theorem at?_set (t : Tree) (hplace : t.at? place ≠ some .directory) (e : Entry) (q : List String) :
    (t.set place e).at? q = if q = place then some e else t.at? q := by
  have hhome : place.isPrefixOf t.home = false := by
    rw [at?] at hplace
    split at hplace
    · exact absurd rfl hplace
    · next hno => exact Bool.eq_false_iff.2 hno
  have hlookup : (t.set place e).entries.lookup q = if q = place then some e else t.entries.lookup q := by
    rw [set]
    split
    · next hthere =>
      rw [lookup_map_replace, hthere]
      simp
    · next hthere =>
      rw [lookup_append_singleton]
      by_cases hq : q = place
      · rw [hq, Option.not_isSome_iff_eq_none.1 hthere]
        rfl
      · simp [hq]
  rw [at?, at?, home_set, hlookup]
  by_cases hq : q = place
  · subst hq
    simp [hhome]
  · simp [hq]

theorem map_replace_of_lookup_eq_none {es : List (List String × Entry)} (h : es.lookup place = none) (e : Entry) :
    (es.map fun x => if x.1 == place then (place, e) else x) = es := by
  induction es with
  | nil => rfl
  | cons x es ih =>
    rw [List.lookup_cons] at h
    split at h
    · cases h
    · next hx =>
      have hne : (x.1 == place) = false := by
        rw [beq_eq_false_iff_ne] at hx ⊢
        exact Ne.symm hx
      rw [List.map_cons, ih h, hne]
      rfl

/-- Of two things that are put at a place, the second stays. -/
theorem set_set (t : Tree) (place : List String) (e e' : Entry) : (t.set place e).set place e' = t.set place e' := by
  obtain ⟨home, es⟩ := t
  cases hes : es.lookup place with
  | some old =>
    have hreplaced : ((es.map fun x => if x.1 == place then (place, e) else x).lookup place).isSome = true := by
      rw [lookup_map_replace, hes]
      simp
    simp only [set, hes, Option.isSome_some, if_true, hreplaced, List.map_map, Tree.mk.injEq, true_and]
    refine List.map_congr_left fun x _ => ?_
    by_cases hx : (x.1 == place) = true
    · rw [Function.comp_apply, if_pos hx, if_pos hx, if_pos (beq_self_eq_true place)]
    · rw [Function.comp_apply, if_neg hx]
  | none =>
    have hbehind : ((es ++ [(place, e)]).lookup place).isSome = true := by
      rw [lookup_append_singleton, hes]
      simp
    simp only [set, hes, Option.isSome_none, hbehind, if_true, List.map_append, map_replace_of_lookup_eq_none hes,
      Bool.false_eq_true, if_false, List.map_singleton, beq_self_eq_true]

/-! ## Directories that stay -/

/-- The trees have the same directories. -/
structure SameDirectories (t u : Tree) : Prop where
  home : u.home = t.home
  directory : ∀ q, u.at? q = some .directory ↔ t.at? q = some .directory

theorem SameDirectories.refl (t : Tree) : SameDirectories t t := ⟨rfl, fun _ => Iff.rfl⟩

theorem SameDirectories.symm {u : Tree} (h : SameDirectories t u) : SameDirectories u t :=
  ⟨h.home.symm, fun q => (h.directory q).symm⟩

theorem SameDirectories.trans {u v : Tree} (h : SameDirectories t u) (h' : SameDirectories u v) : SameDirectories t v :=
  ⟨h'.home.trans h.home, fun q => (h'.directory q).trans (h.directory q)⟩

/-- Putting a file where no directory is leaves the directories. -/
theorem sameDirectories_set (t : Tree) (hplace : t.at? place ≠ some .directory) (c : Content) :
    SameDirectories t (t.set place (.file c)) := by
  refine ⟨home_set t place _, fun q => ?_⟩
  rw [at?_set t hplace]
  by_cases hq : q = place
  · subst hq
    simp [hplace]
  · rw [if_neg hq]

/-! ## Walks -/

/-- Where a part of a path leads from a place, if anywhere; both places are in reverse. -/
def nextPlace (here : List String) (part : String) : Option (List String) :=
  if stays part then some here
  else if goesUp part then above here
  else if isTooLong part then none
  else some (part :: here)

theorem walk_nil_eq_ok {e : Entry} : t.walk here [] = .ok (place, e) ↔ place = here.reverse ∧ t.at? place = some e := by
  rw [walk]
  constructor
  · intro h
    split at h
    · next he =>
      cases h
      exact ⟨rfl, he⟩
    · cases h
  · rintro ⟨rfl, he⟩
    rw [he]

/-- A step of a walk: it begins in a directory, and the walk goes on where the part leads. -/
theorem walk_cons_eq_ok {rest : List String} {part : String} {r : List String × Entry} :
    t.walk here (part :: rest) = .ok r ↔
      t.at? here.reverse = some .directory ∧ ∃ next, nextPlace here part = some next ∧ t.walk next rest = .ok r := by
  rw [walk, nextPlace]
  cases t.at? here.reverse with
  | none => simp
  | some e =>
    cases e with
    | file c => simp
    | directory =>
      by_cases hstays : stays part = true
      · simp [hstays]
      by_cases hup : goesUp part = true
      · cases above here with
        | none => simp [hstays, hup]
        | some up => simp [hstays, hup]
      by_cases hlong : isTooLong part = true
      · simp [hstays, hup, hlong]
      · simp [hstays, hup, hlong]

/-- A walk that ends in a directory goes through directories only. -/
theorem SameDirectories.walk {u : Tree} (h : SameDirectories t u)
    (hwalk : t.walk here parts = .ok (place, .directory)) : u.walk here parts = .ok (place, .directory) := by
  induction parts generalizing here with
  | nil =>
    rw [walk_nil_eq_ok] at hwalk ⊢
    exact ⟨hwalk.1, (h.directory _).2 hwalk.2⟩
  | cons part rest ih =>
    rw [walk_cons_eq_ok] at hwalk ⊢
    obtain ⟨hhere, next, hnext, hrest⟩ := hwalk
    exact ⟨(h.directory _).2 hhere, next, hnext, ih hrest⟩

/-- A walk leads where the text of the path says. -/
theorem normalFrom_of_walk {e : Entry} (h : t.walk here parts = .ok (place, e)) :
    normalFrom here parts = some place := by
  induction parts generalizing here with
  | nil =>
    rw [walk_nil_eq_ok] at h
    rw [normalFrom, h.1]
  | cons part rest ih =>
    obtain ⟨-, next, hnext, hrest⟩ := walk_cons_eq_ok.1 h
    unfold nextPlace at hnext
    rw [normalFrom]
    split at hnext
    · cases hnext
      simp [*]
    split at hnext
    · simp [*]
    split at hnext
    · cases hnext
    · cases hnext
      simp [*]

/-- A walk in two pieces: the first leads to a directory, and the second goes on from there. -/
theorem walk_append {xs ys : List String} (h : t.walk here (xs ++ ys) = .ok (place, .directory)) :
    ∃ dir, t.walk here xs = .ok (dir, .directory) ∧ t.walk dir.reverse ys = .ok (place, .directory) := by
  induction xs generalizing here with
  | nil =>
    rw [List.nil_append] at h
    have hhere : t.at? here.reverse = some .directory := by
      cases ys with
      | nil =>
        obtain ⟨rfl, hplace⟩ := walk_nil_eq_ok.1 h
        exact hplace
      | cons y ys => exact (walk_cons_eq_ok.1 h).1
    exact ⟨here.reverse, walk_nil_eq_ok.2 ⟨rfl, hhere⟩, by rwa [List.reverse_reverse]⟩
  | cons x xs ih =>
    obtain ⟨hhere, next, hnext, hrest⟩ := walk_cons_eq_ok.1 h
    obtain ⟨dir, hdir, hys⟩ := ih hrest
    exact ⟨dir, walk_cons_eq_ok.2 ⟨hhere, next, hnext, hdir⟩, hys⟩

/-- A walk to a directory and a name in it. -/
theorem walk_concat {xs dir : List String} {name : String} {e : Entry} (hwalk : t.walk here xs = .ok (dir, .directory))
    (hstays : stays name = false) (hup : goesUp name = false) (hlong : isTooLong name = false)
    (he : t.at? (dir ++ [name]) = some e) : t.walk here (xs ++ [name]) = .ok (dir ++ [name], e) := by
  induction xs generalizing here with
  | nil =>
    obtain ⟨rfl, hhere⟩ := walk_nil_eq_ok.1 hwalk
    refine walk_cons_eq_ok.2 ⟨hhere, name :: here, ?_, walk_nil_eq_ok.2 ⟨by simp, he⟩⟩
    simp [nextPlace, hstays, hup, hlong]
  | cons x xs ih =>
    obtain ⟨hhere, next, hnext, hrest⟩ := walk_cons_eq_ok.1 hwalk
    exact walk_cons_eq_ok.2 ⟨hhere, next, hnext, ih hrest⟩

/-! ## Files that are written -/

/-- What is known of the place of a file that is to be written. -/
theorem target_eq_ok :
    t.target path = .ok place ↔ path.isEmpty = false ∧ hasNull path = false ∧
      ∃ dir, t.walk (startOf t.home path) (cut path "/").dropLast = .ok (dir, .directory) ∧
        stays (lastPart path) = false ∧ goesUp (lastPart path) = false ∧ isTooLong (lastPart path) = false ∧
        t.at? (dir ++ [lastPart path]) ≠ some .directory ∧ dir ++ [lastPart path] = place := by
  have hname : (cut path "/").getLastD "" = lastPart path := rfl
  simp only [target, hname]
  by_cases hempty : path.isEmpty = true
  · simp [hempty]
  by_cases hnull : hasNull path = true
  · simp [hempty, hnull]
  cases t.walk (startOf t.home path) (cut path "/").dropLast with
  | error f => simp [hempty, hnull]
  | ok r =>
    obtain ⟨dir, e⟩ := r
    cases e with
    | file c => simp [hempty, hnull]
    | directory =>
      by_cases hstays : stays (lastPart path) = true
      · simp [hempty, hnull, hstays]
      by_cases hup : goesUp (lastPart path) = true
      · simp [hempty, hnull, hup]
      by_cases hlong : isTooLong (lastPart path) = true
      · simp [hempty, hnull, hstays, hup, hlong]
      cases hat : t.at? (dir ++ [lastPart path]) with
      | none => simp [hempty, hnull, hstays, hup, hlong, hat]
      | some e =>
        cases e with
        | file c => simp [hempty, hnull, hstays, hup, hlong, hat]
        | directory => simp [hempty, hnull, hstays, hup, hlong, hat]

theorem SameDirectories.target {u : Tree} (h : SameDirectories t u) :
    u.target path = .ok place ↔ t.target path = .ok place := by
  suffices hone : ∀ {t u : Tree}, SameDirectories t u → t.target path = .ok place → u.target path = .ok place from
    ⟨hone h.symm, hone h⟩
  intro t u h htarget
  obtain ⟨hempty, hnull, dir, hwalk, hstays, hup, hlong, hno, hplace⟩ := target_eq_ok.1 htarget
  refine target_eq_ok.2 ⟨hempty, hnull, dir, ?_, hstays, hup, hlong, ?_, hplace⟩
  · rw [h.home]
    exact h.walk hwalk
  · rwa [ne_eq, h.directory]

theorem at?_of_target (h : t.target path = .ok place) : t.at? place ≠ some .directory := by
  obtain ⟨-, -, dir, -, -, -, -, hno, rfl⟩ := target_eq_ok.1 h
  exact hno

/-- The place of a file that is to be written ends with the last part of the path. -/
theorem getLast?_of_target (h : t.target path = .ok place) : place.getLast? = some (lastPart path) := by
  obtain ⟨-, -, dir, -, -, -, -, -, rfl⟩ := target_eq_ok.1 h
  rw [List.getLast?_concat]

/-- A file that stands where a path leads to is found on the path. -/
theorem file?_of_target (h : t.target path = .ok place) {c : Content} (hc : t.at? place = some (.file c)) :
    t.file? path = some place := by
  obtain ⟨hempty, -, dir, hwalk, hstays, hup, hlong, -, rfl⟩ := target_eq_ok.1 h
  rw [file?, find, hempty, cut_eq_concat, walk_concat hwalk hstays hup hlong hc]
  rfl

/-- The place that a path behind a directory leads to: the directory is there, and the text of the rest tells the
way. -/
theorem target_behind {output rest : String} (houtput : output.isEmpty = false)
    (h : t.target (output ++ "/" ++ rest) = .ok place) :
    ∃ dir, t.find output = .ok (dir, .directory) ∧ normalFrom dir.reverse (cut rest "/") = some place := by
  obtain ⟨-, -, inner, hwalk, hstays, hup, -, -, rfl⟩ := target_eq_ok.1 h
  have hrest := cut_ne_nil slash_toList rest
  rw [String.append_assoc, startOf_append _ houtput, ← String.append_assoc, cut_slash,
    List.dropLast_append_of_ne_nil hrest] at hwalk
  obtain ⟨dir, hdir, hinner⟩ := walk_append hwalk
  refine ⟨dir, by rw [find, houtput]; exact hdir, ?_⟩
  rw [lastPart_slash] at hstays hup ⊢
  rw [cut_eq_concat, normalFrom_append, normalFrom_of_walk hinner]
  simp [normalFrom, hstays, hup]

/-! ## Changes -/

/-- The second tree has the directories of the first one, and its files but for those at places of one sort. -/
structure ChangesOnly (P : List String → Prop) (t u : Tree) : Prop extends SameDirectories t u where
  elsewhere : ∀ q, ¬ P q → u.at? q = t.at? q

section

variable {P Q : List String → Prop} {t u v : Tree}

theorem ChangesOnly.refl (P : List String → Prop) (t : Tree) : ChangesOnly P t t :=
  ⟨.refl t, fun _ _ => rfl⟩

theorem ChangesOnly.trans (h : ChangesOnly P t u) (h' : ChangesOnly P u v) : ChangesOnly P t v :=
  ⟨h.toSameDirectories.trans h'.toSameDirectories, fun q hq => (h'.elsewhere q hq).trans (h.elsewhere q hq)⟩

theorem ChangesOnly.mono (h : ChangesOnly P t u) (hPQ : ∀ q, P q → Q q) : ChangesOnly Q t u :=
  ⟨h.toSameDirectories, fun q hq => h.elsewhere q fun hP => hq (hPQ q hP)⟩

/-- What is new stands at one of the places. -/
theorem ChangesOnly.place_of_new (h : ChangesOnly P t u) {q : List String} {e : Entry} (hthere : u.at? q = some e)
    (hnew : t.at? q ≠ some e) : P q := by
  refine Classical.byContradiction fun hq => ?_
  rw [h.elsewhere q hq] at hthere
  exact hnew hthere

/-- Writing a file changes what stands at its place. -/
theorem changesOnly_set (h : t.target path = .ok place) (c : Content) :
    ChangesOnly (fun q => t.target path = .ok q) t (t.set place (.file c)) := by
  refine ⟨sameDirectories_set t (at?_of_target h) c, fun q hq => ?_⟩
  rw [at?_set t (at?_of_target h), if_neg]
  rintro rfl
  exact hq h

end

/-! ## Directories that are made -/

/-- Making directories changes no file. -/
theorem at?_makeFrom_file (t : Tree) (here parts q : List String) (c : Content) :
    (t.makeFrom here parts).1.at? q = some (.file c) ↔ t.at? q = some (.file c) := by
  induction parts generalizing t here with
  | nil => rfl
  | cons part rest ih =>
    rw [makeFrom]
    split
    · exact ih t here
    split
    · split
      · rfl
      · split
        · rfl
        · exact ih t _
    split
    · rfl
    split
    · rfl
    split
    · exact ih t _
    · rfl
    · next hnone =>
      rw [ih, at?_set t (by rw [hnone]; exact nofun)]
      split
      · next hq =>
        rw [hq, hnone]
        constructor <;> intro h <;> cases h
      · rfl

theorem at?_makeDirectories_file (t : Tree) (path : String) (q : List String) (c : Content) :
    (t.makeDirectories path).1.at? q = some (.file c) ↔ t.at? q = some (.file c) := by
  rw [makeDirectories]
  split
  · rfl
  split
  · rfl
  · exact at?_makeFrom_file t _ _ q c

end Tree

end Stitchwork.Files
