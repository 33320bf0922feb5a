/- # Stitchwork.Proofs.Pattern.Stored — what the stored elements of a document are.

Blocks, charts and components store the elements in them as texts.  Checking has removed from these elements
everything that is not an element, at every depth; declaring the prefix, writing and reading again put nothing
back.  So whoever reads a stored text finds elements only.  Actions store elements that have not been checked,
but all of these have the same name.
-/
import Stitchwork.Proofs.Pattern.Heads

namespace Stitchwork.Markup

/-! ## Trees of elements -/

mutual

/-- The node is an element, and so is everything below it. -/
def Bare : Node → Prop
  | .element _ _ children => AllBare children
  | _ => False

/-- Nodes that are elements, like everything below them. -/
def AllBare : List Node → Prop
  | [] => True
  | n :: ns => Bare n ∧ AllBare ns

end

theorem allBare_iff {ns : List Node} : AllBare ns ↔ ∀ n ∈ ns, Bare n := by
  induction ns with
  | nil => exact iff_of_true trivial nofun
  | cons n ns ih => rw [AllBare, ih, List.forall_mem_cons]

theorem Bare.isElement {n : Node} (h : Bare n) : n.isElement = true := by
  cases n with
  | element name attrs children => rfl
  | _ => cases h

end Stitchwork.Markup

namespace Stitchwork.Pattern

open Stitchwork.Markup

/-! ## Elements that are stored -/

mutual

theorem bare_of_pruned (n : Node) (h : Pruned noProse n) : Bare n := by
  cases n with
  | element name attrs children => exact allBare_of_allPruned children (h.resolve_left nofun)
  | _ => cases h

theorem allBare_of_allPruned (ns : List Node) (h : AllPruned noProse ns) : AllBare ns := by
  cases ns with
  | nil => trivial
  | cons n ns => exact ⟨bare_of_pruned n h.1, allBare_of_allPruned ns h.2⟩

end

/-- What is read from a stored text holds prose only where it may, and has the right name. -/
theorem Definition.IsRead.of_restore {x : Definition} (hx : x.IsRead) {s : String} (hs : s ∈ x.stored) {m : Element}
    (h : restore s = .ok m) :
    Pruned x.kind.holdsProse (x.restored m).toNode ∧ x.kind.storesName (x.restored m).name := by
  obtain ⟨f, es, hstores⟩ := hx.stores
  rw [hstores.stored] at hs
  obtain ⟨e, he, rfl⟩ := List.mem_map.1 hs
  have hread := mapError_eq_ok.1 h
  refine ⟨hstores.restores.pruned (hstores.ok e he) hread (hstores.pruned e he), ?_⟩
  rw [hstores.restores.name (hstores.ok e he) hread]
  exact hstores.named e he

/-! ## Documents -/

/-- The texts of the elements in blocks, charts and components. -/
def Document.storedTexts (d : Document) : List String :=
  d.blocks.flatMap (·.elements) ++ d.charts.flatMap (·.rows) ++ d.components.flatMap (·.elements.getD [])

/-- What a document stores: blocks, charts and components elements of elements, and actions `action` elements. -/
structure Document.Stocked (d : Document) : Prop where
  elements : ∀ s ∈ d.storedTexts, ∀ e, restore s = .ok e → Bare e.toNode
  actions : ∀ a ∈ d.actions, ∀ texts ∈ a.elements, ∀ s ∈ texts, ∀ e, restore s = .ok e → e.name = "action"

theorem Document.IsRead.stocked {d : Document} (h : d.IsRead) : d.Stocked where
  elements := by
    intro s hs e he
    simp only [storedTexts, List.mem_append, List.mem_flatMap, or_assoc] at hs
    rcases hs with ⟨b, hb, hs⟩ | ⟨c, hc, hs⟩ | ⟨c, hc, hs⟩
    · exact bare_of_pruned _ ((h.definitions .block (.block b) (List.mem_map_of_mem hb)).of_restore hs he).1
    · exact bare_of_pruned _ ((h.definitions .chart (.chart c) (List.mem_map_of_mem hc)).of_restore hs he).1
    · exact bare_of_pruned _ ((h.definitions .component (.component c) (List.mem_map_of_mem hc)).of_restore hs he).1
  actions := by
    intro a ha texts htexts s hs e he
    have hstored : s ∈ (Definition.action a).stored := by
      rw [Definition.stored, Option.mem_def.1 htexts]
      exact hs
    exact beq_iff_eq.1 ((h.definitions .action (.action a) (List.mem_map_of_mem ha)).of_restore hstored he).2

end Stitchwork.Pattern
