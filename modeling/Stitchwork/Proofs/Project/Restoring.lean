/- # Stitchwork.Proofs.Project.Restoring — what can be restored can be packaged and compiled.

Packaging and compiling read the texts that a document stores, and no other.  So if all of these can be restored, neither
reports that a text is not a document.  A text of a document that has been read can be restored if and only if the
element in it is self-contained.
-/
import Stitchwork.Proofs.Pattern.Packages
import Stitchwork.Proofs.Pattern.SelfContained
import Stitchwork.Proofs.Project.Reports

namespace Stitchwork.Project

open Stitchwork.Formula Stitchwork.Markup Stitchwork.Pattern

variable {bad : Error}

/-- The report is not made of any text that the document stores. -/
def RestoresWithout (bad : Error) (d : Document) : Prop := d.All fun x => ∀ s ∈ x.stored, Avoids bad (restore s)

section

variable (hbad : isStrange bad)

include hbad

/-! ## Packaging -/

omit hbad in
theorem avoids_restoreAll {ss : List String} (h : ∀ s ∈ ss, Avoids bad (restore s)) : Avoids bad (restoreAll ss) :=
  avoids_listMapM h

omit hbad in
theorem avoids_restorePlain {ss : List String} (h : ∀ s ∈ ss, Avoids bad (restore s)) : Avoids bad (restorePlain ss) :=
  avoids_bind (avoids_restoreAll h) fun _ => avoids_ok _

theorem avoids_writeParams (t : Table Value) : Avoids bad (writeParams t) := by
  refine avoids_bind (avoids_listMapM fun p _ => ?_) fun _ => avoids_ok _
  rw [writeParam]
  split
  · exact avoids_ok _
  · split
    · exact avoids_ok _
    · exact avoids_error hbad rfl

/-- The element of a definition is there unless its parameters cannot be written or what it stores cannot be
restored. -/
theorem avoids_toElement {x : Definition} (h : ∀ s ∈ x.stored, Avoids bad (restore s)) : Avoids bad x.toElement.1 := by
  cases x with
  | action a =>
    refine avoids_bind (avoids_writeParams hbad _) fun params => ?_
    rw [Definition.stored] at h
    cases htexts : a.elements with
    | none => exact avoids_error hbad rfl
    | some texts =>
      rw [htexts] at h
      exact avoids_bind (avoids_restoreAll h) fun _ => avoids_ok _
  | block b =>
    exact avoids_bind (avoids_writeParams hbad _) fun _ => avoids_bind (avoids_restorePlain h) fun _ => avoids_ok _
  | chart c => exact avoids_bind (avoids_restorePlain h) fun _ => avoids_ok _
  | component c =>
    change Avoids bad c.toElement
    rw [Component.toElement]
    rw [Definition.stored] at h
    cases htexts : c.elements with
    | none => exact avoids_error hbad rfl
    | some texts =>
      rw [htexts] at h
      exact avoids_bind (avoids_restorePlain h) fun _ => avoids_ok _
  | metadata m => exact avoids_bind (avoids_restoreAll h) fun _ => avoids_ok _
  | _ => exact avoids_ok _

theorem avoids_packageTree {d : Document} (hd : RestoresWithout bad d) : Avoids bad d.packageTree.1 := by
  have heach : ∀ k, ∀ x ∈ d.listed k, Avoids bad x.toElement.1 := fun k x hx => avoids_toElement hbad (hd k x hx)
  have hleading : Avoids bad d.leadingElements := by
    refine avoids_bind (avoids_listMapM fun m hm => heach .metadata _ (List.mem_map_of_mem hm)) fun _ => ?_
    exact avoids_bind (avoids_listMapM fun a ha => heach .action _ (List.mem_map_of_mem ha)) fun _ => avoids_ok _
  have htrailing : Avoids bad d.trailingElements := by
    refine avoids_bind (avoids_listMapM fun c hc => heach .chart _ (List.mem_map_of_mem hc)) fun _ => ?_
    refine avoids_bind (avoids_listMapM fun b hb => heach .block _ (List.mem_map_of_mem hb)) fun _ => ?_
    exact avoids_bind (avoids_listMapM fun c hc => heach .component _ (List.mem_map_of_mem hc)) fun _ => avoids_ok _
  rw [Document.packageTree]
  split
  · next e he => exact avoids_passed hleading he
  · split
    · next e he => exact avoids_passed htrailing he
    · exact avoids_ok _

theorem avoids_package {d : Document} (hd : RestoresWithout bad d) (hasRoot : Bool) (n : Nat) :
    Avoids bad ((package hasRoot d).run n).1.1 := by
  cases hasRoot with
  | true => exact avoids_error hbad rfl
  | false =>
    have hstamp : RestoresWithout bad (stamp d n) := fun k => by
      rw [listed_stamp]
      exact hd k
    rw [package_run]
    cases h : (stamp d n).packageTree.1 with
    | error e => exact avoids_passed (avoids_packageTree hbad hstamp) h
    | ok tree => exact avoids_ok _

/-! ## Compiling -/

omit hbad in
theorem avoids_patternElement {d : Document} (hd : RestoresWithout bad d) : Avoids bad (patternElement d) := by
  have hmetadata : Avoids bad (metadataElement d) := by
    rw [metadataElement]
    cases hm : d.metadata with
    | none => exact avoids_ok _
    | some m =>
      have hstored := hd .metadata (.metadata m) (by rw [Document.listed, hm]; exact List.mem_singleton_self _)
      exact avoids_bind (avoids_restoreAll hstored) fun _ => avoids_ok _
  exact avoids_bind hmetadata fun _ => avoids_ok _

/-- Only that a config does not allow a value is reported by configs. -/
theorem avoids_configValue (hallowed : ∀ value config, bad ≠ .notAllowed value config) (chosen : Table String)
    (globals : Scope) (c : Config) : Avoids bad (configValue chosen globals c).1 := by
  rw [configValue]
  split
  · split
    · dsimp only
      split
      · exact avoids_ok _
      · exact fun h => hallowed _ _ (Except.error.inj h).symm
    · exact avoids_ok _
  · cases h : expandText globals c.value with
    | error e => exact avoids_passed (avoids_expandText hbad globals c.value) h
    | ok s => exact avoids_ok _

theorem avoids_configure (hallowed : ∀ value config, bad ≠ .notAllowed value config) (chosen : Table String)
    (globals : Scope) (configs : List Config) : Avoids bad (configure chosen globals configs).elements := by
  induction configs generalizing globals with
  | nil => exact avoids_ok _
  | cons c rest ih =>
    rw [configure]
    have hvalue := avoids_configValue hbad hallowed chosen globals c
    split
    · next e left h => exact avoids_passed hvalue (congrArg Prod.fst h)
    · next v left h =>
      split
      · next e he => exact avoids_passed (avoids_configElement hbad c v) he
      · dsimp only
        cases hrest : (configure chosen (globals.insert c.name v) rest).elements with
        | error e => exact avoids_passed (ih _) hrest
        | ok es => exact avoids_ok _

omit hbad in
/-- What a document stores without the report is what its expansion reads without it. -/
theorem RestoresWithout.storedAvoid {d : Document} (hd : RestoresWithout bad d) : StoredAvoid bad d where
  actions a ha texts htexts s hs := by
    refine hd .action (.action a) (List.mem_map_of_mem ha) s ?_
    rw [Definition.stored, Option.mem_def.1 htexts]
    exact hs
  blocks b hb := hd .block (.block b) (List.mem_map_of_mem hb)
  charts c hc := hd .chart (.chart c) (List.mem_map_of_mem hc)
  components c hc texts htexts s hs := by
    refine hd .component (.component c) (List.mem_map_of_mem hc) s ?_
    rw [Definition.stored, Option.mem_def.1 htexts]
    exact hs

theorem avoids_build (hdeep : bad ≠ .tooDeep) (hallowed : ∀ value config, bad ≠ .notAllowed value config) {d : Document}
    (hd : RestoresWithout bad d) (choices : Choices) (name id : String) : Avoids bad (build d choices name id).tree := by
  rw [build]
  split
  · next e he => exact avoids_passed (avoids_patternElement hd) he
  dsimp only
  split
  · next e he => exact avoids_passed (avoids_configure hbad hallowed _ _ _) he
  split
  · next globals e he => exact avoids_passed (avoids_evaluateValues hbad _ d.values) (congrArg Prod.snd he)
  · refine avoids_bind (avoids_listMapM fun c _ => avoids_colorElement hbad choices.colors c) fun _ => ?_
    exact avoids_bind (avoids_parts hbad hdeep hd.storedAvoid) fun _ => avoids_ok _

theorem avoids_compile (hdeep : bad ≠ .tooDeep) (hallowed : ∀ value config, bad ≠ .notAllowed value config) {d : Document}
    (hd : RestoresWithout bad d) (c : Compilation) (choices : Choices) (name : String) (n : Nat) :
    Avoids bad ((compile c choices name d).run n).1.text := by
  rw [compile]
  split
  · exact avoids_error hbad rfl
  · obtain ⟨started, globals⟩ := c
    cases started with
    | true => exact avoids_error hbad rfl
    | false => exact avoids_bind (avoids_build hbad hdeep hallowed hd choices name _) (avoids_write hbad)

end

/-! ## Stored texts on their own -/

/-- A document that can be packaged can restore all that it stores. -/
theorem exists_restored_of_package {d : Document} {n : Nat} {text : String}
    (h : ((package false d).run n).1.1 = .ok text) : d.All fun x => ∀ s ∈ x.stored, ∃ m, restore s = .ok m := by
  obtain ⟨tree, htree, -⟩ := map_eq_ok.1 h
  obtain ⟨heads, hheads, -⟩ := packageTree_eq_ok htree
  intro k x hx s hs
  -- packaging restores the definitions in turn, so the text is among those that it has restored
  have hmem : x ∈ (stamp d n).packaged := by
    refine List.mem_flatMap.2 ⟨k, by cases k <;> decide, ?_⟩
    rw [listed_stamp]
    exact hx
  obtain ⟨i, hi, rfl⟩ := List.mem_iff_getElem.1 hmem
  obtain ⟨fields, ms, -, hms, -⟩ := toElement_eq_ok (hheads.get hi (hheads.length_eq ▸ hi))
  obtain ⟨j, hj, rfl⟩ := List.mem_iff_getElem.1 hs
  have hrestored := mapM_eq_ok.1 hms
  exact ⟨_, hrestored.get hj (hrestored.length_eq ▸ hj)⟩

/-- **Stored texts on their own.**  Every text that a document stores when it has been read is the text of an element
that can be written, with the declaration of patterns on it where it stands in a block, a chart or a component.  It can
be restored if and only if this element is self-contained, and nothing but a fault of namespaces is reported.  If all
stored texts can be restored, neither packaging nor compiling reports that a text is not a document; and the document
can be packaged only if all can be restored. -/
theorem stored_texts_restore_iff_self_contained {sources : Sources} {main : String} {n n' : Nat} {d : Document}
    (h : (readPattern sources main).run.run n = (.ok d, n')) :
    (d.All fun x => ∀ s ∈ x.stored, ∃ e, Sound e ∧ s = (x.declared e).write ∧
      ((x.declared e).SelfContained ↔ ∃ m, restore s = .ok m) ∧
      ∀ report, restore s = .error report → ∃ f : Markup.Fault, f.ofNamespaces ∧ report = .markup f) ∧
    ((d.All fun x => ∀ s ∈ x.stored, ∃ m, restore s = .ok m) →
      (∀ hasRoot i f, ((package hasRoot d).run i).1.1 ≠ .error (.markup f)) ∧
      ∀ packager c choices name i f,
        ((compile c choices name { d with pkgVersion := packager }).run i).1.text ≠ .error (.markup f)) ∧
    ∀ i text, ((package false d).run i).1.1 = .ok text → d.All fun x => ∀ s ∈ x.stored, ∃ m, restore s = .ok m := by
  have hsound := ensures_readPattern_sound sources main n d n' h
  refine ⟨fun k x hx s hs => ?_, fun hall => ?_, fun i text => exists_restored_of_package⟩
  -- the declaration is made before the text is stored, so it counts when the text is restored
  · obtain ⟨e, he, rfl⟩ := hsound k x hx s hs
    exact ⟨e, he, rfl, (he.declared x).restore⟩
  · have hwithout : ∀ f packager, RestoresWithout (.markup f) { d with pkgVersion := packager } := by
      intro f packager k x hx s hs
      have hlisted : ({ d with pkgVersion := packager } : Document).listed k = d.listed k := by cases k <;> rfl
      rw [hlisted] at hx
      obtain ⟨m, hm⟩ := hall k x hx s hs
      rw [hm]
      exact avoids_ok m
    refine ⟨fun hasRoot i f => avoids_package rfl (hwithout f d.pkgVersion) hasRoot i, fun packager c choices name i f => ?_⟩
    -- expansions and configs make reports of their own, which are not about markup
    have hdeep : Error.markup f ≠ .tooDeep := nofun
    have hallowed : ∀ value config, Error.markup f ≠ .notAllowed value config := nofun
    exact avoids_compile rfl hdeep hallowed (hwithout f packager) c choices name i

/-- A pattern with an action that uses a prefix which the root of the pattern declares. -/
def borrowedPrefix : String :=
  "<pattern xmlns:opaf=\"u\" xmlns:z=\"v\"><opaf:define_action name=\"a\"><action z:k=\"1\"/></opaf:define_action>" ++
    "</pattern>"

/-- The action is not self-contained, and so the pattern cannot be packaged although it can be read. -/
theorem borrowedPrefix_cannot_be_packaged : ∃ d n', (readPattern (oneFile "p" borrowedPrefix) "p").run.run 0 = (.ok d, n') ∧
    (∃ a ∈ d.actions, ∃ e : Element, e.write ∈ (Definition.action a).stored ∧ ¬e.SelfContained) ∧
    ∀ i text, ((package false d).run i).1.1 ≠ .ok text := by
  have hcheck : (((readPattern (oneFile "p" borrowedPrefix) "p").run.run 0).1.toOption.any fun d =>
      d.actions.any fun a => (Definition.action a).stored.any fun s => (restore s).toOption.isNone) = true := by
    decide +kernel
  rcases hr : (readPattern (oneFile "p" borrowedPrefix) "p").run.run 0 with ⟨r, n'⟩
  rw [hr] at hcheck
  cases r with
  | error e => cases hcheck
  | ok d =>
    obtain ⟨a, ha, hany⟩ := List.any_eq_true.1 hcheck
    obtain ⟨s, hs, hnone⟩ := List.any_eq_true.1 hany
    have hlisted : Definition.action a ∈ d.listed .action := List.mem_map_of_mem ha
    have hfails : ¬∃ m, restore s = .ok m := by
      rintro ⟨m, hm⟩
      rw [hm] at hnone
      cases hnone
    obtain ⟨heach, -, hpackage⟩ := stored_texts_restore_iff_self_contained hr
    obtain ⟨e, -, rfl, hiff, -⟩ := heach .action _ hlisted s hs
    exact ⟨d, n', rfl, ⟨a, ha, e, hs, fun hcontained => hfails (hiff.1 hcontained)⟩,
      fun i text htext => hfails (hpackage i text htext .action _ hlisted _ hs)⟩

end Stitchwork.Project
