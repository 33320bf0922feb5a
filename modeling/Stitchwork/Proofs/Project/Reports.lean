/- # Stitchwork.Proofs.Project.Reports — what the parts of a project report.

Once the values of the configs are chosen, no step makes a report that is strange to an expansion, unless it is made
of a stored text.  A bounded expansion reports by itself that it went too deep; this is left out here.
-/
import Stitchwork.Proofs.Project.Expansion

namespace Stitchwork.Project

open Stitchwork.Formula Stitchwork.Markup Stitchwork.Pattern

variable {α : Type} {bad : Error}

/-- The report is not made of any stored text that an expansion reads. -/
structure StoredAvoid (bad : Error) (d : Document) : Prop where
  actions : ActionsAvoid bad d
  blocks : ∀ b ∈ d.blocks, ∀ s ∈ b.elements, Avoids bad (restore s)
  charts : ∀ c ∈ d.charts, ∀ s ∈ c.rows, Avoids bad (restore s)
  components : ∀ c ∈ d.components, ∀ texts ∈ c.elements, ∀ s ∈ texts, Avoids bad (restore s)

theorem storedAvoid_of_isForeign (hbad : isForeign bad) (d : Document) : StoredAvoid bad d where
  actions := actionsAvoid_of_isForeign hbad d
  blocks _ _ s _ := avoids_restore hbad s
  charts _ _ s _ := avoids_restore hbad s
  components _ _ _ _ s _ := avoids_restore hbad s

section

variable (hbad : isStrange bad)

include hbad

/-! ## Expansions -/

section

variable {c : Context} (hdeep : bad ≠ .tooDeep) (hstored : StoredAvoid bad c.document)

include hdeep hstored

theorem avoids_expandTo_of_stored (depth : Nat) (scope : Scope) (n : Node) : Avoids bad (expandTo c depth scope n) := by
  induction depth generalizing scope n with
  | zero =>
    exact avoids_expandNode hbad hstored.actions scope n fun _ _ _ _ _ h => hdeep (Except.error.inj h).symm
  | succ depth ih =>
    refine avoids_expandNode hbad hstored.actions scope n fun _ _ block hblock inner => ?_
    refine avoids_expandTexts fun s hs => ⟨?_, fun e _ => ih inner e.toNode⟩
    exact hstored.blocks block (findNamed_eq_ok hblock).1 s hs

theorem avoids_expand {texts : List String} (h : ∀ s ∈ texts, Avoids bad (restore s)) : Avoids bad (c.expand texts) :=
  avoids_expandTexts fun s hs => ⟨h s hs, fun e _ => avoids_expandTo_of_stored hbad hdeep hstored _ _ e.toNode⟩

theorem avoids_chartExpansion {chart : Chart} (hchart : chart ∈ c.document.charts) :
    Avoids bad (chartExpansion c chart) := by
  refine avoids_bind (avoids_holdsIfGiven hbad _ _) fun kept => ?_
  cases kept with
  | false => exact avoids_ok _
  | true => exact avoids_bind (avoids_expand hbad hdeep hstored (hstored.charts chart hchart)) fun _ => avoids_ok _

theorem avoids_componentExpansion {component : Component} (hcomponent : component ∈ c.document.components) :
    Avoids bad (componentExpansion c component) := by
  refine avoids_bind (avoids_holdsIfGiven hbad _ _) fun kept => ?_
  cases kept with
  | false => exact avoids_ok _
  | true =>
    cases htexts : component.elements with
    | none => exact avoids_error hbad rfl
    | some texts =>
      have hrestore := hstored.components component hcomponent texts htexts
      exact avoids_bind (avoids_expand hbad hdeep hstored hrestore) fun _ => avoids_ok _

theorem avoids_parts : Avoids bad (parts c) := by
  refine avoids_bind (avoids_expandEach fun _ => avoids_chartExpansion hbad hdeep hstored) fun _ => ?_
  exact avoids_bind (avoids_expandEach fun _ => avoids_componentExpansion hbad hdeep hstored) fun _ => avoids_ok _

end

/-! ## Configs, colours and values -/

theorem avoids_configElement (c : Config) (v : Value) : Avoids bad (configElement c v) := by
  rw [configElement, textOfValue]
  cases v.text? with
  | none => exact avoids_error hbad rfl
  | some s =>
    change Avoids bad (ite _ _ _)
    split
    · exact avoids_error hbad rfl
    · exact avoids_ok _

theorem avoids_normalColor (s : String) : Avoids bad (normalColor s) := by
  rw [normalColor]
  split
  · exact avoids_error hbad rfl
  · exact avoids_ok _

theorem avoids_colorElement (chosen : Table String) (c : Color) : Avoids bad (colorElement chosen c) := by
  rw [colorElement]
  cases chosen.get? c.name with
  | none => exact avoids_ok _
  | some s => exact avoids_bind (avoids_normalColor hbad _) fun _ => avoids_ok _

theorem avoids_evaluateValue (globals : Scope) (v : NamedValue) : Avoids bad (evaluateValue globals v) := by
  refine avoids_bind (avoids_holdsIfGiven hbad _ _) fun kept => ?_
  cases kept with
  | false => exact avoids_ok _
  | true => exact avoids_bind (avoids_expandText hbad _ _) fun _ => avoids_ok _

theorem avoids_evaluateValues (globals : Scope) (vs : List NamedValue) : Avoids bad (evaluateValues globals vs).2 := by
  induction vs generalizing globals with
  | nil => exact avoids_ok ()
  | cons v vs ih =>
    rw [evaluateValues]
    cases h : evaluateValue globals v with
    | error e => exact avoids_passed (avoids_evaluateValue hbad globals v) h
    | ok globals' => exact ih globals'

theorem avoids_write (project : Expansion) : Avoids bad (write project) := by
  change Avoids bad (ite _ _ _)
  split
  · exact avoids_ok _
  · exact avoids_error hbad rfl

end

end Stitchwork.Project
