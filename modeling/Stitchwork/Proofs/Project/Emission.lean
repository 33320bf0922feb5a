/- # Stitchwork.Proofs.Project.Emission — properties of everything that a project is made of.

The elements of a project are made by a few rules: those with fixed names, rows and repeats with the attributes that are
copied from the pattern, and the elements of actions.  A property of nodes that every rule keeps, with what it takes of
scopes and of the elements that the document stores, holds of the whole project.
-/
import Stitchwork.Proofs.Markup.Readable
import Stitchwork.Proofs.Pattern.Reopening
import Stitchwork.Proofs.Project.Configuration
import Stitchwork.Proofs.Project.Vocabulary

namespace Stitchwork.Project

open Stitchwork.Formula Stitchwork.Markup Stitchwork.Pattern

variable {e : Element} {scope : Scope} {es : List Element}

/-- The names of elements and attributes of a project that are not taken from the pattern. -/
def fixedNames : List String :=
  ["project", "image", "pattern", "metadata", "config", "color", "chart", "component", "text", "instruction", "name",
   "unique_id", "spec_version", "data", "version", "value", "tag", "caption"]

/-- What it takes for a property `E` to hold of every node in the parts of a project.  The texts of attributes have the
property `V`, the scopes that elements are expanded in have the property `S`, and the name and attributes of each
element that is expanded have the property `Q`. -/
structure Emission (c : Context) (V : String → Prop) (S : Scope → Prop) (Q : String → Table String → Prop)
    (E : Node → Prop) : Prop where
  /-- Elements with fixed names. -/
  fixed : ∀ {tag : String} {attrs : List (String × String)} {ns : List Node}, tag ∈ fixedNames →
    (∀ a ∈ attrs, a.1 ∈ fixedNames ∧ V a.2) → (∀ n ∈ ns, E n) → E ((element tag attrs).append ns).toNode
  /-- Rows and repeats. -/
  copied : ∀ {scope : Scope} {e : Element} {tag : String} {t : Table String} {ns : List Node}, S scope →
    Q e.name e.attrs → (e.name, tag) ∈ [("opaf:row", "row"), ("opaf:repeat", "repeat")] →
    copyArguments scope Table.empty (argumentsOf e) = .ok t → (∀ n ∈ ns, E n) → E (.element tag t ns)
  /-- The elements of actions. -/
  action : ∀ {scope : Scope} {e : Element} {a : Expansion}, S scope → Q e.name e.attrs →
    expandAction c scope e = .ok a → ∀ n ∈ a.nodes, E n
  /-- Texts that are taken as they are. -/
  given : ∀ {name : String} {attrs : Table String}, Q name attrs → ∀ a ∈ attrs.entries, V a.2
  /-- Texts whose formulas are replaced. -/
  expanded : ∀ {scope : Scope} {name : String} {attrs : Table String}, S scope → Q name attrs →
    ∀ a ∈ attrs.entries, ∀ s, expandText scope a.2 = .ok s → V s
  /-- The text of an attribute that is not there. -/
  absent : V ""
  globals : S c.globals
  update : ∀ {scope : Scope}, S scope → S (scope.update c.globals)
  enter : ∀ {scope inner : Scope} {e : Element} {texts : List String}, S scope → Q e.name e.attrs →
    enterBlock c scope e = .ok (inner, texts) → S inner
  stored : ∀ s ∈ c.document.storedTexts, ∀ e, restore s = .ok e → Throughout Q e.toNode
  charts : ∀ chart ∈ c.document.charts, V chart.name
  components : ∀ component ∈ c.document.components, V component.name ∧ V (component.uniqueId.getD "")

namespace Emission

variable {c : Context} {V : String → Prop} {S : Scope → Prop} {Q : String → Table String → Prop} {E : Node → Prop}

/-! ## Single elements -/

theorem single (h : Emission c V S Q E) {tag : String} (htag : tag ∈ fixedNames) {attrs : List (String × String)}
    (hattrs : ∀ a ∈ attrs, a.1 ∈ fixedNames ∧ V a.2) : E (element tag attrs).toNode :=
  h.fixed htag hattrs (List.forall_mem_nil E)

theorem attr?_given (h : Emission c V S Q E) (he : Q e.name e.attrs) {k v : String} (hv : e.attr? k = some v) : V v :=
  h.given he (k, v) (Table.mem_of_valueIn? hv)

theorem attr_given (h : Emission c V S Q E) (he : Q e.name e.attrs) (k : String) : V (e.attr k) := by
  rw [Element.attr]
  cases hv : e.attrs.get? k with
  | none => exact h.absent
  | some v => exact h.attr?_given he hv

/-- The text of an attribute that need not be there, with its formulas replaced. -/
theorem attr?_expanded (h : Emission c V S Q E) (hscope : S scope) (he : Q e.name e.attrs) {k : String}
    {r : Option String} (hr : (e.attr? k).mapM (expandText scope) = .ok r) : ∀ v ∈ r, V v := by
  cases hv : e.attr? k with
  | none =>
    rw [hv] at hr
    cases hr
    exact nofun
  | some v =>
    rw [hv, mapM_some_eq_ok] at hr
    obtain ⟨s, hs, rfl⟩ := hr
    rintro _ ⟨⟩
    exact h.expanded hscope he (k, v) (Table.mem_of_valueIn? hv) s hs

theorem expandImage (h : Emission c V S Q E) (he : Q e.name e.attrs) {a : Expansion}
    (ha : Project.expandImage c e = .ok a) : ∀ n ∈ a.nodes, E n := by
  obtain ⟨_, -, ha⟩ := bind_eq_ok.1 ha
  cases ha
  intro n hn
  rw [List.mem_singleton.1 hn]
  have hgiven : ∀ k ∈ ["tag", "caption"], ∀ a ∈ ((e.attr? k).map (k, ·)).toList, a.1 ∈ fixedNames ∧ V a.2 := by
    intro k hk a ha
    obtain ⟨v, hv, rfl⟩ := Option.map_eq_some_iff.1 (Option.mem_toList.1 ha)
    have hfixed : ∀ k ∈ ["tag", "caption"], k ∈ fixedNames := by decide
    exact ⟨hfixed k hk, h.attr?_given he hv⟩
  have hattrs : ∀ a ∈ [("name", e.attr "name")] ++ ((e.attr? "tag").map ("tag", ·)).toList ++
      ((e.attr? "caption").map ("caption", ·)).toList, a.1 ∈ fixedNames ∧ V a.2 := by
    simp only [List.forall_mem_append, List.forall_mem_singleton]
    exact ⟨⟨⟨show "name" ∈ fixedNames by decide, h.attr_given he "name"⟩, hgiven "tag" (by simp)⟩, hgiven "caption" (by simp)⟩
  exact h.single (by decide) hattrs

theorem expandTextElement (h : Emission c V S Q E) (hscope : S scope) (he : Q e.name e.attrs) {a : Expansion}
    (ha : Project.expandTextElement scope e = .ok a) : ∀ n ∈ a.nodes, E n := by
  obtain ⟨data, hdata, ha⟩ := bind_eq_ok.1 ha
  cases ha
  intro n hn
  rw [List.mem_singleton.1 hn]
  refine h.single (by decide) fun a ha => ?_
  obtain ⟨v, hv, rfl⟩ := Option.map_eq_some_iff.1 (Option.mem_toList.1 ha)
  exact ⟨show "data" ∈ fixedNames by decide, h.attr?_expanded hscope he hdata v hv⟩

theorem instructionHead (h : Emission c V S Q E) (hscope : S scope) {head : Element} (he : Q e.name e.attrs)
    (hhead : Project.instructionHead scope e = .ok head) {ns : List Node} (hns : ∀ n ∈ ns, E n) :
    E (head.append ns).toNode := by
  obtain ⟨name, hname, hhead⟩ := bind_eq_ok.1 hhead
  cases hhead
  refine h.fixed (by decide) (fun a ha => ?_) hns
  obtain ⟨v, hv, rfl⟩ := Option.map_eq_some_iff.1 (Option.mem_toList.1 ha)
  exact ⟨show "name" ∈ fixedNames by decide, h.attr?_expanded hscope he hname v hv⟩

/-! ## Parts -/

theorem rules (h : Emission c V S Q E) : Rules c S Q E where
  action := h.action
  instruction hscope hsource hhead hns := h.instructionHead hscope hsource hhead hns
  repeats hscope hsource hname hhead hns := by
    obtain ⟨-, t, ht, rfl⟩ := repeatHead_eq_ok hhead
    have hmade : E (.element "repeat" t _) := h.copied hscope hsource (by simp [hname]) ht hns
    exact hmade
  row hscope hsource hname hhead hns := by
    obtain ⟨-, t, ht, rfl⟩ := rowHead_eq_ok hhead
    have hmade : E (.element "row" t _) := h.copied hscope hsource (by simp [hname]) ht hns
    exact hmade
  image hsource ha := h.expandImage hsource ha
  text hscope hsource ha := h.expandTextElement hscope hsource ha
  globals := h.globals
  update := h.update
  enter := h.enter
  stored := h.stored

theorem parts (h : Emission c V S Q E) {a : Expansion} (ha : Project.parts c = .ok a) : ∀ n ∈ a.nodes, E n := by
  refine h.rules.parts (fun chart hchart ns hns => ?_) (fun component hcomponent ns hns => ?_) ha
  · refine h.fixed (by decide) ?_ hns
    exact List.forall_mem_singleton.2 ⟨show "name" ∈ fixedNames by decide, h.charts chart hchart⟩
  · have hvalues := h.components component hcomponent
    refine h.fixed (by decide) ?_ hns
    simp only [List.forall_mem_cons]
    exact ⟨⟨show "name" ∈ fixedNames by decide, hvalues.1⟩, ⟨show "unique_id" ∈ fixedNames by decide, hvalues.2⟩, nofun⟩

end Emission

/-! ## In front of the parts -/

/-- Evaluating configs keeps a property of the global values, and their elements have a property, if that is so for each
config. -/
theorem forall_configure {chosen : Table String} {S : Scope → Prop} {G : Element → Prop} {cs : List Config}
    (hstep : ∀ c ∈ cs, ∀ start, S start → ∀ v e, Settles chosen start c v e → S (start.insert c.name v) ∧ G e)
    {start : Scope} (hstart : S start) (h : (configure chosen start cs).elements = .ok es) :
    S (configure chosen start cs).globals ∧ ∀ e ∈ es, G e := by
  induction cs generalizing start es with
  | nil =>
    cases h
    exact ⟨hstart, nofun⟩
  | cons c cs ih =>
    rw [List.forall_mem_cons] at hstep
    rw [elements_configure_cons] at h
    obtain ⟨⟨v, e⟩, hsettle, h⟩ := bind_eq_ok.1 h
    obtain ⟨rest, hrest, rfl⟩ := map_eq_ok.1 h
    obtain ⟨hinsert, hfirst⟩ := hstep.1 start hstart v e (settles_iff.2 hsettle)
    obtain ⟨hglobals, hothers⟩ := ih hstep.2 hinsert hrest
    rw [globals_configure_cons hsettle]
    exact ⟨hglobals, List.forall_mem_cons.2 ⟨hfirst, hothers⟩⟩

/-- Evaluating values keeps a property of the global values, if that is so for each value. -/
theorem forall_evaluateValues {S : Scope → Prop} {vs : List NamedValue}
    (hstep : ∀ v ∈ vs, ∀ scope, S scope → ∀ scope', evaluateValue scope v = .ok scope' → S scope') (hscope : S scope)
    {scope' : Scope} (h : evaluateValues scope vs = (scope', .ok ())) : S scope' := by
  induction vs generalizing scope with
  | nil =>
    cases h
    exact hscope
  | cons v vs ih =>
    rw [List.forall_mem_cons] at hstep
    rw [evaluateValues] at h
    split at h
    · cases h
    · next middle hmiddle => exact ih hstep.2 (hstep.1 scope hscope middle hmiddle) h

theorem exists_of_mem_mapM {α β ε : Type} {f : α → Except ε β} {xs : List α} {ys : List β} (h : xs.mapM f = .ok ys)
    {y : β} (hy : y ∈ ys) : ∃ x ∈ xs, f x = .ok y :=
  exists_of_mem_right (mapM_eq_ok.1 h) hy

/-- What it takes for texts and scopes to have the properties in what stands in front of the charts and components. -/
structure Front (d : Document) (choices : Choices) (V : String → Prop) (S : Scope → Prop) : Prop where
  fresh : S Table.empty
  config : ∀ c ∈ d.configs, ∀ scope, S scope → ∀ v, Binds choices.configs scope c v →
    S (scope.insert c.name v) ∧ V c.name ∧ ∀ s, v.text? = some s → V s
  value : ∀ v ∈ d.values, ∀ scope, S scope → ∀ scope', evaluateValue scope v = .ok scope' → S scope'
  color : ∀ color ∈ d.colors, V color.name ∧ V color.value
  chosen : ∀ s v, normalColor s = .ok v → V v
  image : ∀ i ∈ d.images, V i.name ∧ V i.data.text
  name : V d.name
  uniqueId : V (d.uniqueId.getD "")
  version : V (versionText d.version)

namespace Front

variable {d : Document} {choices : Choices} {V : String → Prop} {S : Scope → Prop}

theorem configs (h : Front d choices V S) (hes : (configure choices.configs Table.empty d.configs).elements = .ok es) :
    S (configure choices.configs Table.empty d.configs).globals ∧
      ∀ e ∈ es, ∃ k s, e = element "config" [("name", k), ("value", s)] ∧ V k ∧ V s := by
  refine forall_configure (fun c hc scope hscope v e hsettles => ?_) h.fresh hes
  obtain ⟨hinsert, hname, htext⟩ := h.config c hc scope hscope v hsettles.toBinds
  obtain ⟨s, hs, rfl⟩ := hsettles.shown
  exact ⟨hinsert, c.name, s, rfl, hname, htext s hs⟩

theorem globals (h : Front d choices V S) {name id : String} {project : Expansion}
    (hbuild : (build d choices name id).tree = .ok project) : S (build d choices name id).globals := by
  obtain ⟨_, configs, _, _, -, hconfigs, hvalues, -⟩ := build_eq_ok hbuild
  exact forall_evaluateValues h.value (h.configs hconfigs).1 hvalues

theorem colors (h : Front d choices V S) (hes : d.colors.mapM (colorElement choices.colors) = .ok es) :
    ∀ e ∈ es, ∃ k s, e = element "color" [("name", k), ("value", s)] ∧ V k ∧ V s := by
  intro e he
  obtain ⟨color, hcolor, he⟩ := exists_of_mem_mapM hes he
  obtain ⟨hname, hvalue⟩ := h.color color hcolor
  unfold colorElement at he
  split at he
  · obtain ⟨v, hv, he⟩ := bind_eq_ok.1 he
    cases he
    exact ⟨_, v, rfl, hname, h.chosen _ v hv⟩
  · cases he
    exact ⟨_, _, rfl, hname, hvalue⟩

end Front

variable {d : Document} {choices : Choices} {V : String → Prop} {S : Scope → Prop} {Q : String → Table String → Prop}
  {E : Node → Prop}

/-- **A whole project.**  What is built has the property, if all that it is made of has. -/
theorem Emission.project {name id : String} (h : Emission ⟨d, (build d choices name id).globals⟩ V S Q E)
    (hfront : Front d choices V S) (hname : V name) (hid : V id) (hformat : V formatVersion)
    (hmetadata : ∀ m ∈ d.metadata, ∀ s ∈ m.elements, ∀ e, restore s = .ok e → E e.toNode) {project : Expansion}
    (hbuild : (build d choices name id).tree = .ok project) : ∀ n ∈ project.nodes, E n := by
  obtain ⟨pattern, configs, colors, content, hpattern, hconfigs, -, hcolors, hcontent, rfl⟩ := build_eq_ok hbuild
  -- images, configs and colours each have two attributes with fixed names
  have htwo : ∀ {tag k l v w : String}, tag ∈ fixedNames → k ∈ fixedNames → l ∈ fixedNames → V v → V w →
      E (element tag [(k, v), (l, w)]).toNode := by
    intro tag k l v w htag hk hl hv hw
    refine h.single htag ?_
    simp only [List.forall_mem_cons]
    exact ⟨⟨hk, hv⟩, ⟨hl, hw⟩, List.forall_mem_nil _⟩
  have himages : ∀ e ∈ imageElements d, E e.toNode := by
    intro e he
    obtain ⟨i, hi, rfl⟩ := List.mem_map.1 he
    exact htwo (by decide) (by decide) (by decide) (hfront.image i hi).1 (hfront.image i hi).2
  have hconfig : ∀ e ∈ configs, E e.toNode := by
    intro e he
    obtain ⟨k, s, rfl, hk, hs⟩ := (hfront.configs hconfigs).2 e he
    exact htwo (by decide) (by decide) (by decide) hk hs
  have hcolor : ∀ e ∈ colors, E e.toNode := by
    intro e he
    obtain ⟨k, s, rfl, hk, hs⟩ := hfront.colors hcolors e he
    exact htwo (by decide) (by decide) (by decide) hk hs
  have hpatternNode : E pattern.toNode := by
    obtain ⟨metadata, hmeta, hpattern⟩ := bind_eq_ok.1 hpattern
    cases hpattern
    refine h.fixed (by decide) ?_ ?_
    · simp only [List.forall_mem_cons]
      exact ⟨⟨show "unique_id" ∈ fixedNames by decide, hfront.uniqueId⟩,
        ⟨show "name" ∈ fixedNames by decide, hfront.name⟩, ⟨show "version" ∈ fixedNames by decide, hfront.version⟩,
        List.forall_mem_nil _⟩
    · unfold metadataElement at hmeta
      split at hmeta
      · cases hmeta
        exact List.forall_mem_nil _
      · next m hm =>
        obtain ⟨es, hes, hmeta⟩ := bind_eq_ok.1 hmeta
        cases hmeta
        refine List.forall_mem_singleton.2 (h.fixed (by decide) (List.forall_mem_nil _) fun n hn => ?_)
        obtain ⟨e, he, rfl⟩ := List.mem_map.1 hn
        obtain ⟨s, hs, he⟩ := exists_of_mem_mapM hes he
        exact hmetadata m hm s hs e he
  have hrootAttrs : ∀ a ∈ [("name", name), ("unique_id", id), ("spec_version", formatVersion)],
      a.1 ∈ fixedNames ∧ V a.2 := by
    simp only [List.forall_mem_cons]
    exact ⟨⟨show "name" ∈ fixedNames by decide, hname⟩, ⟨show "unique_id" ∈ fixedNames by decide, hid⟩,
      ⟨show "spec_version" ∈ fixedNames by decide, hformat⟩, List.forall_mem_nil _⟩
  have hchildren : ∀ n ∈ (imageElements d ++ [pattern] ++ configs ++ colors).map Element.toNode ++ content.nodes, E n := by
    refine List.forall_mem_append.2 ⟨List.forall_mem_map.2 ?_, h.parts hcontent⟩
    simp only [List.forall_mem_append, List.forall_mem_singleton]
    exact ⟨⟨⟨himages, hpatternNode⟩, hconfig⟩, hcolor⟩
  have hroot := h.fixed (show "project" ∈ fixedNames by decide) hrootAttrs hchildren
  exact forall_wrap hroot

end Stitchwork.Project
