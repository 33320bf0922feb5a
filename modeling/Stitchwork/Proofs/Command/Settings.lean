/- # Stitchwork.Proofs.Command.Settings — settings are read up to a second equals sign.

Settings are given as one text: names and values with an equals sign between them and commas between the settings, and
with white space around each name and each value.  Every setting is read under its name, in order, without the white
space.  Of its value, only what stands in front of an equals sign is kept, so settings are read as they are given if and
only if there is none in their values.
-/
import Mathlib.Data.List.Basic
import Stitchwork.Pattern.Params
import Stitchwork.Proofs.Table
import Stitchwork.Proofs.Text.Pieces

namespace Stitchwork.Text

/-! ## Texts with white space around them -/

/-- A text with white space around it, and none at its own ends. -/
structure Padded where
  before : String
  inner : String
  after : String
  isBlank_before : ∀ c ∈ before.toList, isBlank c
  isBlank_after : ∀ c ∈ after.toList, isBlank c
  trim_inner : trim inner = inner

namespace Padded

/-- The text together with the white space. -/
def text (p : Padded) : String := p.before ++ p.inner ++ p.after

/-- White space around a text is removed with what the text has of its own. -/
theorem trim_append {before s after : String} (hbefore : ∀ c ∈ before.toList, isBlank c)
    (hafter : ∀ c ∈ after.toList, isBlank c) : trim (before ++ s ++ after) = trim s := by
  rw [trim, trim, String.toList_append, String.toList_append, trimBy_append_right hafter, trimBy_append_left hbefore]

theorem trim_text (p : Padded) : trim p.text = p.inner :=
  (trim_append p.isBlank_before p.isBlank_after).trans p.trim_inner

/-- A character that is not white space stands in the text itself. -/
theorem mem_text_iff (p : Padded) {x : Char} (hx : isBlank x = false) : x ∈ p.text.toList ↔ x ∈ p.inner.toList := by
  have hbefore : x ∉ p.before.toList := fun h => by rw [p.isBlank_before x h] at hx; cases hx
  have hafter : x ∉ p.after.toList := fun h => by rw [p.isBlank_after x h] at hx; cases hx
  rw [text, String.toList_append, String.toList_append, List.mem_append, List.mem_append, or_iff_left hafter,
    or_iff_right hbefore]

end Padded

/-! ## In front of an equals sign -/

/-- What stands in front of the first equals sign, or everything. -/
def beforeEquals (s : String) : String := String.ofList (s.toList.takeWhile (· != '='))

theorem not_mem_beforeEquals (s : String) : '=' ∉ (beforeEquals s).toList := by
  rw [beforeEquals, String.toList_ofList]
  intro hmem
  have hall := List.all_eq_true.1 (List.all_takeWhile (p := (· != '=')) (l := s.toList)) _ hmem
  cases hall

theorem takeWhile_bne_append {s : List Char} (h : '=' ∉ s) (t : List Char) :
    (s ++ t).takeWhile (· != '=') = s ++ t.takeWhile (· != '=') := by
  refine List.takeWhile_append_of_pos fun c hc => ?_
  rw [bne_iff_ne]
  rintro rfl
  exact h hc

theorem beforeEquals_of_not_mem {s : String} (h : '=' ∉ s.toList) : beforeEquals s = s := by
  have hall := takeWhile_bne_append h []
  rw [List.append_nil, List.takeWhile_nil, List.append_nil] at hall
  rw [beforeEquals, hall, String.ofList_toList]

theorem beforeEquals_append {s : String} (h : '=' ∉ s.toList) (t : String) : beforeEquals (s ++ "=" ++ t) = s := by
  rw [beforeEquals, String.toList_append, String.toList_append, List.append_assoc, takeWhile_bne_append h]
  show String.ofList (s.toList ++ []) = s
  rw [List.append_nil, String.ofList_toList]

/-- A text with an equals sign, taken apart at the first one. -/
theorem exists_eq_append_equals {s : String} (h : '=' ∈ s.toList) : ∃ u v, '=' ∉ u.toList ∧ s = u ++ "=" ++ v := by
  obtain ⟨u, v, huv, hu⟩ := List.eq_append_cons_of_mem h
  refine ⟨String.ofList u, String.ofList v, by rwa [String.toList_ofList], ?_⟩
  rw [← String.toList_inj, huv]
  simp [String.toList_append, String.toList_ofList]

/-- The first piece between equals signs. -/
theorem exists_cut_equals (s : String) : ∃ rest, cut s "=" = beforeEquals s :: rest := by
  by_cases h : '=' ∈ s.toList
  · obtain ⟨u, v, hu, rfl⟩ := exists_eq_append_equals h
    rw [cut_append (show "=".toList = ['='] from rfl) hu, beforeEquals_append hu]
    exact ⟨_, rfl⟩
  · rw [cut_of_not_mem (show "=".toList = ['='] from rfl) h, beforeEquals_of_not_mem h]
    exact ⟨_, rfl⟩

theorem isBlank_equals : isBlank '=' = false := by decide

/-- White space around a text does not count in front of an equals sign either. -/
theorem Padded.trim_beforeEquals (p : Padded) : trim (beforeEquals p.text) = trim (beforeEquals p.inner) := by
  have hbefore : '=' ∉ p.before.toList := fun h => by cases (p.isBlank_before _ h).symm.trans isBlank_equals
  by_cases h : '=' ∈ p.inner.toList
  · -- what stands behind the text stands behind the equals sign too
    obtain ⟨u, v, hu, huv⟩ := exists_eq_append_equals h
    have hfront : '=' ∉ (p.before ++ u).toList := by
      rw [String.toList_append, List.mem_append, not_or]
      exact ⟨hbefore, hu⟩
    have htext : p.text = p.before ++ u ++ "=" ++ (v ++ p.after) := by
      rw [text, huv]
      simp only [String.append_assoc]
    rw [htext, beforeEquals_append hfront, huv, beforeEquals_append hu]
    have hpad : trim (p.before ++ u ++ "") = trim u := Padded.trim_append p.isBlank_before (List.forall_mem_nil _)
    rwa [String.append_empty] at hpad
  · have htext : '=' ∉ p.text.toList := fun hmem => h ((p.mem_text_iff isBlank_equals).1 hmem)
    rw [beforeEquals_of_not_mem htext, beforeEquals_of_not_mem h, p.trim_text, p.trim_inner]

end Stitchwork.Text

namespace Stitchwork.Command

open Stitchwork.Pattern Stitchwork.Text

/-! ## Settings -/

/-- A setting as it may be given. -/
structure Setting where
  name : Padded
  value : Padded
  comma_name : ',' ∉ name.inner.toList
  equals_name : '=' ∉ name.inner.toList
  comma_value : ',' ∉ value.inner.toList

namespace Setting

/-- The setting as text. -/
def text (s : Setting) : String := s.name.text ++ "=" ++ s.value.text

/-- What is meant by the setting. -/
def meant (s : Setting) : String × String := (s.name.inner, s.value.inner)

/-- What is kept of the setting. -/
def kept (s : Setting) : String × String := (s.name.inner, trim (beforeEquals s.value.inner))

theorem comma_text (s : Setting) : ',' ∉ s.text.toList := by
  have hblank : isBlank ',' = false := by decide
  rw [text, String.toList_append, String.toList_append, List.mem_append, List.mem_append,
    s.name.mem_text_iff hblank, s.value.mem_text_iff hblank, not_or, not_or]
  exact ⟨⟨s.comma_name, by decide⟩, s.comma_value⟩

/-- The pieces of a setting: its name, its value up to an equals sign, and what is dropped. -/
theorem exists_cut_text (s : Setting) :
    ∃ rest, cut s.text "=" = s.name.text :: beforeEquals s.value.text :: rest := by
  have hname : '=' ∉ s.name.text.toList := fun h => s.equals_name ((s.name.mem_text_iff isBlank_equals).1 h)
  obtain ⟨rest, hrest⟩ := exists_cut_equals s.value.text
  rw [text, cut_append (show "=".toList = ['='] from rfl) hname, hrest]
  exact ⟨rest, rfl⟩

/-- A setting is kept as it is meant if and only if there is no equals sign in its value. -/
theorem kept_eq_meant_iff (s : Setting) : s.kept = s.meant ↔ '=' ∉ s.value.inner.toList := by
  rw [kept, meant, Prod.mk.injEq, and_iff_right rfl]
  constructor
  · intro h hmem
    rw [← h] at hmem
    exact not_mem_beforeEquals _ (mem_of_mem_trim hmem)
  · intro h
    rw [beforeEquals_of_not_mem h, s.value.trim_inner]

end Setting

/-- Every setting is read under its name, in order. -/
theorem entries_readSettings {ss : List Setting} (h : (ss.map fun s => s.meant.1).Nodup) :
    (readSettings (join "," (ss.map Setting.text))).entries = ss.map Setting.kept := by
  cases ss with
  | nil => rfl
  | cons first rest =>
    have hpieces : cut (join "," ((first :: rest).map Setting.text)) "," = (first :: rest).map Setting.text := by
      refine cut_join (show ",".toList = [','] from rfl) (List.cons_ne_nil _ _) fun piece hpiece => ?_
      obtain ⟨s, -, rfl⟩ := List.mem_map.1 hpiece
      exact s.comma_text
    have hnodup : (((first :: rest).map Setting.kept).map (·.1)).Nodup := by
      rw [List.map_map]
      exact h
    rw [readSettings, hpieces, List.filterMap_map, List.filterMap_eq_map_iff_forall_eq_some.2 fun s _ => ?_,
      Table.entries_ofList_of_nodup hnodup]
    obtain ⟨dropped, hcut⟩ := s.exists_cut_text
    rw [Function.comp_apply, hcut]
    show some (trim s.name.text, trim (beforeEquals s.value.text)) = _
    rw [s.name.trim_text, s.value.trim_beforeEquals]
    rfl

/-- **Settings are read up to an equals sign in their values.**  Settings with names of their own are all read, in order
and without the white space around their names and values, and of each value what stands in front of an equals sign is
kept.  So the table is the one that is meant if and only if no value has an equals sign in it. -/
theorem settings_as_meant_iff {ss : List Setting} (h : (ss.map fun s => s.meant.1).Nodup) :
    (readSettings (join "," (ss.map Setting.text))).entries = ss.map Setting.kept ∧
    ((readSettings (join "," (ss.map Setting.text))).entries = ss.map Setting.meant ↔
      ∀ s ∈ ss, '=' ∉ s.value.inner.toList) := by
  have hentries := entries_readSettings h
  refine ⟨hentries, ?_⟩
  rw [hentries, List.map_inj_left]
  exact forall₂_congr fun s _ => s.kept_eq_meant_iff

/-- A setting with an equals sign in its value. -/
def equalsInValue : Setting where
  name := ⟨" ", "a", "", List.all_eq_true.1 rfl, List.all_eq_true.1 rfl, by decide⟩
  value := ⟨"", "b=c", " ", List.all_eq_true.1 rfl, List.all_eq_true.1 rfl, by decide⟩
  comma_name := by decide
  equals_name := by decide
  comma_value := by decide

/-- The value is read without what stands behind the equals sign. -/
theorem equalsInValue_is_cut : equalsInValue.text = " a=b=c " ∧
    (readSettings (join "," [equalsInValue.text])).entries = [("a", "b")] ∧
    (readSettings (join "," [equalsInValue.text])).entries ≠ [("a", "b=c")] := by
  have hnames : ([equalsInValue].map fun s => s.meant.1).Nodup := by decide
  obtain ⟨hkept, hmeant⟩ := settings_as_meant_iff hnames
  refine ⟨rfl, hkept.trans (by decide +kernel), fun h => ?_⟩
  exact hmeant.1 h equalsInValue (List.mem_singleton_self _) (by decide)

end Stitchwork.Command
