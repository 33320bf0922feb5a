/- # Stitchwork.Proofs.Workbench — what a document holds after definitions have been added.

Definitions are added to a document one after the other.  One whose name is taken is refused and leaves the workbench
as it is, and the work goes on with the next.  So a document holds, of each kind whose names must be unique, the
definitions that came first under their names, in the order in which they came; it holds all configs, values and
components; and its metadata is that of all additions together.
-/
import Stitchwork.Proofs.Pattern.Provenance
import Stitchwork.Workbench

namespace Stitchwork

variable {α : Type}

/-! ## The first under each name -/

/-- Have two things the same name? -/
def sameName (nameOf : α → String) (a b : α) : Bool := nameOf a == nameOf b

/-- A thing that comes last is kept if its name is new. -/
theorem eraseDupsBy_concat (nameOf : α → String) (xs : List α) (x : α) :
    (xs ++ [x]).eraseDupsBy (sameName nameOf) =
      xs.eraseDupsBy (sameName nameOf) ++ if nameOf x ∈ xs.map nameOf then [] else [x] := by
  -- each step takes the namesakes of the first thing out of the rest, so the induction is on the length
  induction hn : xs.length using Nat.strongRecOn generalizing xs with
  | ind n ih =>
    cases xs with
    | nil => simp [List.eraseDupsBy_cons]
    | cons a as =>
      subst hn
      have hrest := ih _ (by simpa using Nat.lt_succ_of_le (List.length_filter_le _ as))
        (as.filter fun b => sameName nameOf b a = false) rfl
      rw [List.cons_append, List.eraseDupsBy_cons, List.eraseDupsBy_cons, List.filter_append]
      by_cases hxa : nameOf x = nameOf a
      · simp [sameName, hxa]
      · have hmem : nameOf x ∈ (as.filter fun b => sameName nameOf b a = false).map nameOf ↔
            nameOf x ∈ as.map nameOf := by
          simp only [List.mem_map, List.mem_filter, sameName]
          grind
        have hx : [x].filter (fun b => sameName nameOf b a = false) = [x] := by simp [sameName, hxa]
        simp only [hx, hrest, hmem, List.map_cons, List.mem_cons, hxa, false_or, List.cons_append]

theorem mem_map_eraseDupsBy (nameOf : α → String) {xs : List α} {k : String} :
    k ∈ (xs.eraseDupsBy (sameName nameOf)).map nameOf ↔ k ∈ xs.map nameOf := by
  induction xs using List.reverseRecOn with
  | nil => simp
  | append_singleton xs x ih =>
    rw [eraseDupsBy_concat, List.map_append, List.map_append, List.mem_append, List.mem_append, ih]
    split <;> simp_all

theorem nodup_map_eraseDupsBy (nameOf : α → String) (xs : List α) :
    ((xs.eraseDupsBy (sameName nameOf)).map nameOf).Nodup := by
  induction xs using List.reverseRecOn with
  | nil => simp
  | append_singleton xs x ih =>
    rw [eraseDupsBy_concat, List.map_append]
    split
    · simpa using ih
    · next hnew =>
      rw [← mem_map_eraseDupsBy nameOf] at hnew
      refine List.nodup_append.2 ⟨ih, by simp, ?_⟩
      intro k hk l hl
      rw [List.map_singleton, List.mem_singleton] at hl
      subst hl
      exact ne_of_mem_of_not_mem hk hnew

/-- Under a name, the first thing is found. -/
theorem find?_eraseDupsBy (nameOf : α → String) (xs : List α) (k : String) :
    (xs.eraseDupsBy (sameName nameOf)).find? (nameOf · == k) = xs.find? (nameOf · == k) := by
  induction xs using List.reverseRecOn with
  | nil => rfl
  | append_singleton xs x ih =>
    rw [eraseDupsBy_concat, List.find?_append, List.find?_append, ih]
    split
    · next htaken =>
      -- a namesake in front is found instead
      cases hfind : xs.find? (nameOf · == k) with
      | some y => rfl
      | none =>
        have hne : nameOf x ≠ k := by
          rintro rfl
          obtain ⟨y, hy, hname⟩ := List.mem_map.1 htaken
          exact absurd (beq_iff_eq.2 hname) (List.find?_eq_none.1 hfind y hy)
        simp [hne]
    · rfl

end Stitchwork

namespace Stitchwork.Pattern

/-! ## One addition -/

theorem addUnique_of_mem {α : Type} {kind : Kind} (nameOf : α → String) (inj : α → Definition)
    (hname : ∀ a, (inj a).name = nameOf a) {xs : List α} {x : α}
    (h : (inj x).name ∈ (xs.map inj).map Definition.name) :
    addUnique kind nameOf xs x = .error (.duplicate kind (inj x).name) := by
  rw [List.map_map, List.mem_map] at h
  obtain ⟨y, hy, heq⟩ := h
  rw [Function.comp_apply, hname, hname] at heq
  have htaken : xs.any (nameOf · == nameOf x) = true := List.any_eq_true.2 ⟨y, hy, beq_iff_eq.2 heq⟩
  rw [addUnique, if_pos htaken, hname]

/-- A definition whose name is taken is refused. -/
theorem Document.add_of_mem {d : Document} {x : Definition} (hunique : x.kind.isUnique)
    (h : x.name ∈ d.names x.kind) : d.add x = .error (.duplicate x.kind x.name) := by
  cases x with
  | metadata m => cases hunique
  | component c => cases hunique
  | config c => cases hunique
  | value v => cases hunique
  | action a => rw [add, addUnique_of_mem Action.name .action (fun _ => rfl) h]; rfl
  | block b => rw [add, addUnique_of_mem Block.name .block (fun _ => rfl) h]; rfl
  | chart c => rw [add, addUnique_of_mem Chart.name .chart (fun _ => rfl) h]; rfl
  | color c => rw [add, addUnique_of_mem Color.name .color (fun _ => rfl) h]; rfl
  | image i => rw [add, addUnique_of_mem Image.name .image (fun _ => rfl) h]; rfl

/-- Adding a definition fails exactly if its name must be unique and is taken. -/
theorem Document.add_eq_error_iff {d : Document} {x : Definition} {e : Error} :
    d.add x = .error e ↔ (x.kind.isUnique ∧ x.name ∈ d.names x.kind) ∧ e = .duplicate x.kind x.name := by
  by_cases htaken : x.kind.isUnique ∧ x.name ∈ d.names x.kind
  · rw [add_of_mem htaken.1 htaken.2]
    simp [htaken, eq_comm]
  · obtain ⟨d', hd'⟩ := add_of_not_mem fun hunique hmem => htaken ⟨hunique, hmem⟩
    rw [hd']
    constructor
    · intro h
      cases h
    · exact fun h => absurd h.1 htaken

/-! ## Many additions -/

/-- The definitions of a kind. -/
def Kind.among (k : Kind) (xs : List Definition) : List Definition := xs.filter (·.kind = k)

/-- The document holds what additions have left in it. -/
structure Document.Holds (d : Document) (xs : List Definition) : Prop where
  unique : ∀ k, k.isUnique → d.listed k = (k.among xs).eraseDupsBy (sameName Definition.name)
  listed : ∀ k, k.isUnique = false → k ≠ .metadata → d.listed k = k.among xs
  metadata : d.metadataTexts = xs.flatMap Definition.metadataTexts

theorem holds_empty : Document.empty.Holds [] where
  unique k _ := by cases k <;> rfl
  listed k _ _ := by cases k <;> rfl
  metadata := rfl

theorem among_concat (k : Kind) (xs : List Definition) (x : Definition) :
    k.among (xs ++ [x]) = k.among xs ++ if k = x.kind then [x] else [] := by
  by_cases hk : k = x.kind
  · simp [Kind.among, hk]
  · simp [Kind.among, hk, Ne.symm hk]

section

variable {d : Document} {xs : List Definition}

theorem Document.Holds.mem_names (hd : d.Holds xs) {k : Kind} (hk : k.isUnique) {name : String} :
    name ∈ d.names k ↔ name ∈ (k.among xs).map Definition.name := by
  rw [names, hd.unique k hk, mem_map_eraseDupsBy]

theorem metadataTexts_of_kind_ne {x : Definition} (h : x.kind ≠ .metadata) : x.metadataTexts = [] := by
  cases x with
  | metadata m => exact absurd rfl h
  | _ => rfl

/-- A step: an addition that succeeds. -/
theorem Document.Holds.add (hd : d.Holds xs) {x : Definition} {d' : Document} (h : d.add x = .ok d') :
    d'.Holds (xs ++ [x]) := by
  have hgained := gained_add h
  refine ⟨fun k hk => ?_, fun k hk hmetadata => ?_, ?_⟩
  · have hlisted := hgained k
    rw [Gained, if_neg (by rintro rfl; cases hk)] at hlisted
    rw [hlisted, hd.unique k hk, among_concat]
    by_cases hkind : k = x.kind
    · have hnew : x.name ∉ (k.among xs).map Definition.name := by
        subst hkind
        exact fun hmem => not_mem_of_add h hk ((hd.mem_names hk).2 hmem)
      rw [if_pos hkind, eraseDupsBy_concat, if_neg hnew]
    · rw [if_neg hkind, List.append_nil, List.append_nil]
  · have hlisted := hgained k
    rw [Gained, if_neg hmetadata] at hlisted
    rw [hlisted, hd.listed k hk hmetadata, among_concat]
  · have htexts := hgained .metadata
    rw [Gained, if_pos rfl] at htexts
    rw [htexts, hd.metadata, List.flatMap_append]
    by_cases hkind : x.kind = .metadata
    · rw [if_pos hkind.symm]
    · rw [if_neg (Ne.symm hkind), List.flatMap_singleton, metadataTexts_of_kind_ne hkind, List.flatMap_nil]

/-- A step: an addition that fails changes nothing, as if it had not been made. -/
theorem Document.Holds.refused (hd : d.Holds xs) {x : Definition} {e : Error} (h : d.add x = .error e) :
    d.Holds (xs ++ [x]) := by
  obtain ⟨⟨hunique, hmem⟩, -⟩ := add_eq_error_iff.1 h
  have hmetadata : x.kind ≠ .metadata := by
    intro hkind
    rw [hkind] at hunique
    cases hunique
  refine ⟨fun k hk => ?_, fun k hk hk' => ?_, ?_⟩
  · rw [hd.unique k hk, among_concat]
    by_cases hkind : k = x.kind
    · subst hkind
      rw [if_pos rfl, eraseDupsBy_concat, if_pos ((hd.mem_names hk).1 hmem), List.append_nil]
    · rw [if_neg hkind, List.append_nil]
  · have hkind : k ≠ x.kind := by
      rintro rfl
      rw [hunique] at hk
      cases hk
    rw [hd.listed k hk hk', among_concat, if_neg hkind, List.append_nil]
  · rw [hd.metadata, List.flatMap_append, List.flatMap_singleton, metadataTexts_of_kind_ne hmetadata, List.append_nil]

/-! ## Looking up -/

theorem map_findNamed {α : Type} {kind : Kind} {nameOf : α → String} (inj : α → Definition)
    (hname : ∀ a, (inj a).name = nameOf a) (ys : List α) (name : String) :
    (findNamed kind nameOf ys name).map inj =
      match (ys.map inj).find? (·.name == name) with
      | some x => .ok x
      | none => .error (.undefined kind name) := by
  have hfind : (ys.map inj).find? (·.name == name) = (ys.find? (nameOf · == name)).map inj := by
    rw [List.find?_map]
    simp only [Function.comp_def, hname]
  rw [findNamed, hfind]
  cases ys.find? (nameOf · == name) with
  | none => rfl
  | some y => rfl

/-- Looking up a definition is finding it among those of its kind. -/
theorem Document.get_eq_find? (d : Document) {k : Kind} (hk : k.isUnique) (name : String) :
    d.get k name =
      match (d.listed k).find? (·.name == name) with
      | some x => .ok x
      | none => .error (.undefined k name) := by
  cases k with
  | action => exact map_findNamed .action (fun _ => rfl) d.actions name
  | block => exact map_findNamed .block (fun _ => rfl) d.blocks name
  | chart => exact map_findNamed .chart (fun _ => rfl) d.charts name
  | color => exact map_findNamed .color (fun _ => rfl) d.colors name
  | image => exact map_findNamed .image (fun _ => rfl) d.images name
  | _ => cases hk

/-- The table of colours has the first colour under each name. -/
theorem valueIn?_colors (cs : List Color) (name : String) :
    Table.valueIn? name (cs.map fun c => (c.name, c.value)) = (cs.find? (·.name == name)).map Color.value := by
  induction cs with
  | nil => rfl
  | cons c cs ih =>
    by_cases hc : c.name = name
    · simp [Table.valueIn?, hc]
    · simp [Table.valueIn?, hc, ih]

/-- The table of colours says what looking up colours says, if their names are distinct. -/
theorem Document.get?_colorTable (hd : (d.names .color).Nodup) {name value : String} :
    d.colorTable.get? name = some value ↔ ∃ c, d.get .color name = .ok (.color c) ∧ c.value = value := by
  have hnodup : ((d.colors.map fun c => (c.name, c.value)).map (·.1)).Nodup := by
    rw [names, listed, List.map_map] at hd
    rw [List.map_map]
    exact hd
  rw [colorTable, Table.get?, Table.entries_ofList_of_nodup hnodup, valueIn?_colors, get, findNamed]
  cases d.colors.find? (·.name == name) with
  | none => simp [Except.map]
  | some c => simp [Except.map]

end

end Stitchwork.Pattern

namespace Stitchwork.Workbench

open Stitchwork.Pattern

/-! ## Additions on a workbench -/

/-- The workbench after a new document has been made and definitions have been added to it, whether all could be added
or not. -/
def adding (w : Workbench) (xs : List Definition) : Workbench :=
  (w.run (.new :: xs.map fun x => .addMade (some x))).2

theorem run_append (w : Workbench) (ss ts : List Step) : (w.run (ss ++ ts)).2 = ((w.run ss).2.run ts).2 := by
  induction ss generalizing w with
  | nil => rfl
  | cons s ss ih => exact ih (w.step s).2

theorem adding_concat (w : Workbench) (xs : List Definition) (x : Definition) :
    w.adding (xs ++ [x]) = ((w.adding xs).step (.addMade (some x))).2 := by
  rw [adding, List.map_append, ← List.cons_append, run_append]
  rfl

/-- The current document of the workbench. -/
def currentDocument? (w : Workbench) : Option Document := w.document? w.current

theorem currentDocument?_setDocument {w : Workbench} {d : Document} (h : w.currentDocument? = some d) (d' : Document) :
    (w.setDocument w.current d').currentDocument? = some d' := by
  rw [currentDocument?, document?] at h
  obtain ⟨i, hi, hd⟩ := Option.bind_eq_some_iff.1 h
  obtain ⟨hlt, -⟩ := List.getElem?_eq_some_iff.1 hd
  simp [currentDocument?, document?, setDocument, hi, hlt]

theorem currentDocument?_push (w : Workbench) (d : Document) : (w.push d).currentDocument? = some d := by
  simp [push, currentDocument?, document?]

/-- What adding a definition to the current document does. -/
theorem step_addMade {w : Workbench} {d : Document} (h : w.currentDocument? = some d) (x : Definition) :
    w.step (.addMade (some x)) =
      match d.add x with
      | .ok d' => (.ok .done, w.setDocument w.current d')
      | .error e => (.error e, w) := by
  rw [currentDocument?] at h
  cases hadd : d.add x with
  | error e => simp [step, addDefinition, h, hadd]
  | ok d' => simp [step, addDefinition, h, hadd]

/-- The current document holds what the additions have left in it. -/
theorem holds_adding (w : Workbench) (xs : List Definition) :
    ∃ d, (w.adding xs).currentDocument? = some d ∧ d.Holds xs := by
  induction xs using List.reverseRecOn with
  | nil => exact ⟨Document.empty, currentDocument?_push w _, holds_empty⟩
  | append_singleton xs x ih =>
    obtain ⟨d, hcurrent, hd⟩ := ih
    rw [adding_concat, step_addMade hcurrent]
    cases hadd : d.add x with
    | error e => exact ⟨d, hcurrent, hd.refused hadd⟩
    | ok d' => exact ⟨d', currentDocument?_setDocument hcurrent d', hd.add hadd⟩

end Stitchwork.Workbench
