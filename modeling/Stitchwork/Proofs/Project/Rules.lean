/- # Stitchwork.Proofs.Project.Rules — the rules that make the elements of a project.

Every element below the charts and components of a project is made by one of six rules, from an element that the
document stores and in a scope that grows out of the global values.  A property of nodes that every rule keeps, with
what it takes of scopes and of stored elements, holds of all that is made.
-/
import Stitchwork.Proofs.Markup.Readable
import Stitchwork.Proofs.Pattern.Stored
import Stitchwork.Proofs.Project.Independence

namespace Stitchwork.Project

open Stitchwork.Formula Stitchwork.Markup Stitchwork.Pattern

theorem forall_wrap {P : Node → Prop} {e : Element} {a : Expansion} (h : P (e.append a.nodes).toNode) :
    ∀ n ∈ (a.wrap e).nodes, P n :=
  List.forall_mem_singleton.2 h

theorem forall_expandTexts {P E : Node → Prop} {expand : Node → Except Error Expansion}
    (hexpand : ∀ n, P n → ∀ a, expand n = .ok a → ∀ m ∈ a.nodes, E m) {texts : List String}
    (htexts : ∀ s ∈ texts, ∀ e, restore s = .ok e → P e.toNode) {a : Expansion}
    (ha : expandTexts expand texts = .ok a) : ∀ m ∈ a.nodes, E m := by
  rw [expandTexts_eq] at ha
  refine forall_expandEach (fun s hs b hb => ?_) ha
  obtain ⟨e, he, hb⟩ := bind_eq_ok.1 hb
  exact hexpand _ (htexts s hs e he) b hb

/-- What it takes for a property `E` to hold of every node that is made.  The scopes that elements are expanded in have
the property `S`, and the name and attributes of each element that is expanded have the property `Q`. -/
structure Rules (c : Context) (S : Scope → Prop) (Q : String → Table String → Prop) (E : Node → Prop) : Prop where
  action : ∀ {scope : Scope} {e : Element} {a : Expansion}, S scope → Q e.name e.attrs →
    expandAction c scope e = .ok a → ∀ n ∈ a.nodes, E n
  instruction : ∀ {scope : Scope} {e head : Element} {ns : List Node}, S scope → Q e.name e.attrs →
    instructionHead scope e = .ok head → (∀ n ∈ ns, E n) → E (head.append ns).toNode
  repeats : ∀ {scope : Scope} {e head : Element} {ns : List Node}, S scope → Q e.name e.attrs →
    e.name = "opaf:repeat" → repeatHead scope e = .ok head → (∀ n ∈ ns, E n) → E (head.append ns).toNode
  row : ∀ {scope : Scope} {e head : Element} {ns : List Node}, S scope → Q e.name e.attrs →
    e.name = "opaf:row" → rowHead scope e = .ok head → (∀ n ∈ ns, E n) → E (head.append ns).toNode
  image : ∀ {e : Element} {a : Expansion}, Q e.name e.attrs → expandImage c e = .ok a → ∀ n ∈ a.nodes, E n
  text : ∀ {scope : Scope} {e : Element} {a : Expansion}, S scope → Q e.name e.attrs →
    expandTextElement scope e = .ok a → ∀ n ∈ a.nodes, E n
  globals : S c.globals
  update : ∀ {scope : Scope}, S scope → S (scope.update c.globals)
  enter : ∀ {scope inner : Scope} {e : Element} {texts : List String}, S scope → Q e.name e.attrs →
    enterBlock c scope e = .ok (inner, texts) → S inner
  stored : ∀ s ∈ c.document.storedTexts, ∀ e, restore s = .ok e → Throughout Q e.toNode

namespace Rules

variable {c : Context} {S : Scope → Prop} {Q : String → Table String → Prop} {E F : Node → Prop}
  {content : Scope → List String → Except Error Expansion}

mutual

/-- **One node.**  What a node becomes has the property, if that is so for the blocks of the document. -/
theorem expandNode (h : Rules c S Q E)
    (hcontent : ∀ inner, S inner → ∀ block ∈ c.document.blocks, ∀ a, content inner block.elements = .ok a →
      ∀ n ∈ a.nodes, E n)
    {scope : Scope} (hscope : S scope) (n : Node) (hn : Throughout Q n) {a : Expansion}
    (ha : Project.expandNode c content scope n = .ok a) : ∀ m ∈ a.nodes, E m := by
  cases n with
  | element name attrs children =>
    have hchildren := fun b => @expandNodes h hcontent _ (h.update hscope) children hn.2 b
    have hsource : Q (Element.mk name attrs []).name (Element.mk name attrs []).attrs := hn.1
    rw [Project.expandNode] at ha
    obtain ⟨kept, -, ha⟩ := bind_eq_ok.1 ha
    split at ha
    · cases ha
      exact nofun
    split at ha
    · exact h.action hscope hsource ha
    split at ha
    · obtain ⟨⟨inner, texts⟩, henter, ha⟩ := bind_eq_ok.1 ha
      obtain ⟨block, hblock, rfl⟩ := enterBlock_eq_ok henter
      exact hcontent inner (h.enter hscope hsource henter) block (findNamed_eq_ok hblock).1 a ha
    split at ha
    · obtain ⟨head, hhead, ha⟩ := bind_eq_ok.1 ha
      obtain ⟨inner, hinner, ha⟩ := bind_eq_ok.1 ha
      cases ha
      exact forall_wrap (h.instruction (h.update hscope) hsource hhead (hchildren _ hinner))
    split at ha
    · next hname =>
      obtain ⟨head, hhead, ha⟩ := bind_eq_ok.1 ha
      obtain ⟨inner, hinner, ha⟩ := bind_eq_ok.1 ha
      cases ha
      exact forall_wrap (h.repeats (h.update hscope) hsource (beq_iff_eq.1 hname) hhead (hchildren _ hinner))
    split at ha
    · next hname =>
      obtain ⟨head, hhead, ha⟩ := bind_eq_ok.1 ha
      obtain ⟨inner, hinner, ha⟩ := bind_eq_ok.1 ha
      cases ha
      exact forall_wrap (h.row (h.update hscope) hsource (beq_iff_eq.1 hname) hhead (hchildren _ hinner))
    split at ha
    · exact h.image hsource ha
    split at ha
    · exact h.text hscope hsource ha
    · cases ha
      exact nofun
  | _ => cases ha

theorem expandNodes (h : Rules c S Q E)
    (hcontent : ∀ inner, S inner → ∀ block ∈ c.document.blocks, ∀ a, content inner block.elements = .ok a →
      ∀ n ∈ a.nodes, E n)
    {scope : Scope} (hscope : S scope) (ns : List Node) (hns : ThroughoutAll Q ns) {a : Expansion}
    (ha : Project.expandNodes c content scope ns = .ok a) : ∀ m ∈ a.nodes, E m := by
  cases ns with
  | nil =>
    cases ha
    exact nofun
  | cons n ns =>
    rw [Project.expandNodes] at ha
    obtain ⟨b, hb, ha⟩ := bind_eq_ok.1 ha
    obtain ⟨others, hothers, ha⟩ := bind_eq_ok.1 ha
    cases ha
    exact List.forall_mem_append.2 ⟨expandNode h hcontent hscope n hns.1 hb, expandNodes h hcontent hscope ns hns.2 hothers⟩

end

/-- The depth to which blocks may stand in blocks: each level is one node more, in the scope inside the block. -/
theorem expandTo (h : Rules c S Q E) (depth : Nat) {scope : Scope} (hscope : S scope) (n : Node)
    (hn : Throughout Q n) (a : Expansion) (ha : Project.expandTo c depth scope n = .ok a) : ∀ m ∈ a.nodes, E m := by
  induction depth generalizing scope n a with
  | zero => exact h.expandNode (by rintro _ _ _ _ _ ⟨⟩) hscope n hn ha
  | succ depth ih =>
    refine h.expandNode (fun inner hinner block hblock b hb => ?_) hscope n hn ha
    refine forall_expandTexts (ih hinner) (fun s hs => h.stored s ?_) hb
    exact List.mem_append_left _ (List.mem_append_left _ (List.mem_flatMap.2 ⟨block, hblock, hs⟩))

/-- **Every part.**  What charts and components become has a property that their elements take from their content. -/
theorem parts (h : Rules c S Q E)
    (hchart : ∀ chart ∈ c.document.charts, ∀ ns, (∀ n ∈ ns, E n) →
      F ((element "chart" [("name", chart.name)]).append ns).toNode)
    (hcomponent : ∀ component ∈ c.document.components, ∀ ns, (∀ n ∈ ns, E n) →
      F ((element "component" [("name", component.name), ("unique_id", component.uniqueId.getD "")]).append ns).toNode)
    {a : Expansion} (ha : Project.parts c = .ok a) : ∀ n ∈ a.nodes, F n := by
  have hexpand : ∀ {texts : List String}, texts ⊆ c.document.storedTexts → ∀ {b}, c.expand texts = .ok b →
      ∀ n ∈ b.nodes, E n :=
    fun hsub _ hb => forall_expandTexts (h.expandTo _ h.globals) (fun s hs => h.stored s (hsub hs)) hb
  obtain ⟨charts, hcharts, ha⟩ := bind_eq_ok.1 ha
  obtain ⟨components, hcomponents, ha⟩ := bind_eq_ok.1 ha
  cases ha
  refine List.forall_mem_append.2 ⟨forall_expandEach ?_ hcharts, forall_expandEach ?_ hcomponents⟩
  · intro chart hmem b hb
    rcases chartExpansion_eq_ok hb with ⟨-, rfl⟩ | ⟨rows, -, hrows, rfl⟩
    · exact nofun
    · refine forall_wrap (hchart chart hmem _ (hexpand (fun s hs => ?_) hrows))
      exact List.mem_append_left _ (List.mem_append_right _ (List.mem_flatMap.2 ⟨chart, hmem, hs⟩))
  · intro component hmem b hb
    rcases componentExpansion_eq_ok hb with ⟨-, rfl⟩ | ⟨texts, content, -, htexts, hcontent, rfl⟩
    · exact nofun
    · refine forall_wrap (hcomponent component hmem _ (hexpand (fun s hs => ?_) hcontent))
      refine List.mem_append_right _ (List.mem_flatMap.2 ⟨component, hmem, ?_⟩)
      rwa [htexts]

end Rules

end Stitchwork.Project
