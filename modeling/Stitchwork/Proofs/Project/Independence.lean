/- # Stitchwork.Proofs.Project.Independence — the parts of a project do not depend on each other.

The charts and components of a pattern are expanded one behind the other, with one table of values that all of
them share.  The table is never changed, so what a part becomes does not depend on the parts in front of it:
taking parts away, or putting them into another order, takes away or reorders what they become.
-/
import Stitchwork.Proofs.Project.Expansion
import Stitchwork.Proofs.Project.Scoping

namespace Stitchwork.Project

open Stitchwork.Formula Stitchwork.Markup Stitchwork.Pattern

variable {a : Expansion} {e : Element} {chosen : Table String} {d : Document} {c : Context}

/-! ## Siblings with one table -/

/-- What the watched expansion does with the stored elements of a block, at the given depth. -/
def watchContent (c : Context) : Nat → Invocation → List String → Watched Expansion
  | 0 => fun _ _ => throw .tooDeep
  | depth + 1 => fun use => watchTexts (watchTo c depth (some use))

/-- Siblings expanded with a table that they share: what they become, and the table afterwards. -/
def siblings (c : Context) (depth : Nat) (i : Option Invocation) (scope : Scope) (ns : List Node) :
    Except Error Expansion × Scope :=
  let (r, w) := (watchNodes c (watchContent c depth) i ns).run.run ⟨scope, []⟩
  (r, w.scope)

/-- What the plain expansion does with the stored elements of a block, at the given depth. -/
def contentTo (c : Context) : Nat → Scope → List String → Except Error Expansion
  | 0 => fun _ _ => .error .tooDeep
  | depth + 1 => fun inner => expandTexts (expandTo c depth inner)

/-- A scope that is as the rules of scoping say has the global values. -/
theorem update_of_scopeIs (hg : c.globals.keys.Nodup) {scope : Scope} {i : Option Invocation} (h : ScopeIs c scope i) :
    scope.update c.globals = scope := by
  cases i with
  | none =>
    rw [ScopeIs] at h
    rw [h]
    exact Table.update_self hg
  | some use =>
    refine Table.update_of_forall_get? fun e he => ?_
    have hfound : c.globals.get? e.1 = some e.2 := Table.valueIn?_of_mem hg he
    rw [h.2, Invocation.meaning, hfound, Option.some_or]

/-- Siblings leave the table as it is, and become what they become in that scope. -/
theorem siblings_eq (hg : c.globals.keys.Nodup) (depth : Nat) {scope : Scope} {i : Option Invocation}
    (hi : ScopeIs c scope i) (ns : List Node) :
    siblings c depth i scope ns = (expandNodes c (contentTo c depth) scope ns, scope) := by
  have hcontent : ∀ use texts, use.Proper c → Follows c (use.scope c.globals) (watchContent c depth use texts)
      (contentTo c depth (use.scope c.globals) texts) := by
    intro use texts hproper
    cases depth with
    | zero => exact follows_throw _
    | succ depth =>
      have hinside : ScopeIs c (use.scope c.globals) (some use) := ⟨hproper, use.get?_scope hg⟩
      exact watchTexts_follows (fun m => watchTo_follows hg depth hinside (use.scope_update hg) m) texts
  obtain ⟨calls, hrun, -⟩ := watchNodes_follows hcontent hi (update_of_scopeIs hg hi) ns []
  rw [siblings, hrun]

/-! ## What a part becomes -/

/-- Each thing becomes one element with the tag, or nothing if its condition does not hold. -/
def OneOrNone {α : Type} (f : α → Except Error Expansion) (condition : α → Except Error Bool)
    (tag : String) : Prop :=
  ∀ x a, f x = .ok a → (condition x = .ok false ∧ a = .none) ∨
    ∃ e : Element, condition x = .ok true ∧ e.name = tag ∧ a.nodes = [e.toNode]

theorem chartExpansion_eq_ok {chart : Chart} (h : chartExpansion c chart = .ok a) :
    (holdsIfGiven c.globals chart.condition = .ok false ∧ a = .none) ∨
      ∃ rows, holdsIfGiven c.globals chart.condition = .ok true ∧ c.expand chart.rows = .ok rows ∧
        a = rows.wrap (element "chart" [("name", chart.name)]) := by
  obtain ⟨kept, hkept, h⟩ := bind_eq_ok.1 h
  cases kept with
  | false =>
    cases h
    exact .inl ⟨hkept, rfl⟩
  | true =>
    obtain ⟨rows, hrows, h⟩ := bind_eq_ok.1 h
    cases h
    exact .inr ⟨rows, hkept, hrows, rfl⟩

theorem componentExpansion_eq_ok {component : Component} (h : componentExpansion c component = .ok a) :
    (holdsIfGiven c.globals component.condition = .ok false ∧ a = .none) ∨
      ∃ texts content, holdsIfGiven c.globals component.condition = .ok true ∧ component.elements = some texts ∧
        c.expand texts = .ok content ∧ a = content.wrap (element "component"
          [("name", component.name), ("unique_id", component.uniqueId.getD "")]) := by
  obtain ⟨kept, hkept, h⟩ := bind_eq_ok.1 h
  cases kept with
  | false =>
    cases h
    exact .inl ⟨hkept, rfl⟩
  | true =>
    rw [if_pos rfl] at h
    split at h
    · cases h
    · next texts htexts =>
      obtain ⟨content, hcontent, h⟩ := bind_eq_ok.1 h
      cases h
      exact .inr ⟨texts, content, hkept, htexts, hcontent, rfl⟩

theorem oneOrNone_chartExpansion (c : Context) :
    OneOrNone (chartExpansion c) (holdsIfGiven c.globals ·.condition) "chart" := by
  intro chart a h
  rcases chartExpansion_eq_ok h with hnone | ⟨rows, hkept, -, rfl⟩
  · exact .inl hnone
  · exact .inr ⟨_, hkept, rfl, rfl⟩

theorem oneOrNone_componentExpansion (c : Context) :
    OneOrNone (componentExpansion c) (holdsIfGiven c.globals ·.condition) "component" := by
  intro component a h
  rcases componentExpansion_eq_ok h with hnone | ⟨texts, content, hkept, -, -, rfl⟩
  · exact .inl hnone
  · exact .inr ⟨_, hkept, rfl, rfl⟩

section

variable {α : Type} {f : α → Except Error Expansion} {condition : α → Except Error Bool} {tag : String}

/-- The element that a thing becomes, if it becomes one. -/
def becomes (f : α → Except Error Expansion) (x : α) : Option Element :=
  match f x with
  | .ok a => a.nodes.head?.bind Node.element?
  | .error _ => none

/-- Can what a thing becomes be written? -/
def becomesWritable (f : α → Except Error Expansion) (x : α) : Bool :=
  match f x with
  | .ok a => a.writable
  | .error _ => true

theorem becomes_eq {x : α} (h : f x = .ok a) : becomes f x = a.nodes.head?.bind Node.element? := by
  rw [becomes, h]

theorem nodes_eq_becomes (hf : OneOrNone f condition tag) {x : α} (h : f x = .ok a) :
    a.nodes = (becomes f x).toList.map Element.toNode := by
  rw [becomes_eq h]
  rcases hf x a h with ⟨-, rfl⟩ | ⟨e, -, -, hnodes⟩
  · rfl
  · rw [hnodes]
    rfl

theorem condition_eq_becomes (hf : OneOrNone f condition tag) {x : α} (h : f x = .ok a) :
    condition x = .ok (becomes f x).isSome := by
  rw [becomes_eq h]
  rcases hf x a h with ⟨hcondition, rfl⟩ | ⟨e, hcondition, -, hnodes⟩
  · exact hcondition
  · rw [hcondition, hnodes]
    rfl

theorem name_of_becomes (hf : OneOrNone f condition tag) {x : α} (h : f x = .ok a) (he : becomes f x = some e) :
    e.name = tag := by
  rw [becomes_eq h] at he
  rcases hf x a h with ⟨-, rfl⟩ | ⟨e', -, hname, hnodes⟩
  · cases he
  · rw [hnodes] at he
    cases he
    exact hname

/-- Things that can each be expanded become what each becomes, in their order. -/
theorem expandEach_eq (hf : OneOrNone f condition tag) {xs : List α} (h : ∀ x ∈ xs, ∃ b, f x = .ok b) :
    expandEach f xs =
      .ok ⟨(xs.filterMap (becomes f)).map Element.toNode, xs.all (becomesWritable f)⟩ := by
  induction xs with
  | nil => rfl
  | cons x xs ih =>
    rw [List.forall_mem_cons] at h
    obtain ⟨b, hb⟩ := h.1
    have hwritable : becomesWritable f x = b.writable := by rw [becomesWritable, hb]
    have hnodes := nodes_eq_becomes hf hb
    rw [expandEach, hb, ih h.2, List.all_cons, hwritable, List.filterMap_cons]
    show Except.ok (Expansion.append b _) = _
    rw [Expansion.append, hnodes]
    cases becomes f x with
    | none => rfl
    | some e => rfl

end

/-! ## What stands in front of the parts -/

theorem name_of_configElement {c : Config} {v : Value} (h : configElement c v = .ok e) : e.name = "config" := by
  obtain ⟨s, -, h⟩ := bind_eq_ok.1 h
  split at h
  · cases h
  · cases h
    rfl

theorem name_of_configure {globals : Scope} {configs : List Config} {es : List Element}
    (h : (configure chosen globals configs).elements = .ok es) : ∀ e ∈ es, e.name = "config" := by
  induction configs generalizing globals es with
  | nil =>
    cases h
    exact nofun
  | cons c rest ih =>
    rw [configure] at h
    split at h
    · cases h
    · dsimp only at h
      split at h
      · cases h
      · next element helement =>
        obtain ⟨others, hothers, rfl⟩ := map_eq_ok.1 h
        exact List.forall_mem_cons.2 ⟨name_of_configElement helement, ih hothers⟩

theorem name_of_colorElement {c : Color} (h : colorElement chosen c = .ok e) : e.name = "color" := by
  unfold colorElement at h
  dsimp only at h
  split at h
  all_goals
    obtain ⟨value, -, h⟩ := bind_eq_ok.1 h
    cases h
    rfl

theorem name_of_colorElements {colors : List Color} {es : List Element}
    (h : colors.mapM (colorElement chosen) = .ok es) : ∀ e ∈ es, e.name = "color" := by
  induction colors generalizing es with
  | nil =>
    cases h
    exact nofun
  | cons c rest ih =>
    rw [List.mapM_cons] at h
    obtain ⟨e, he, h⟩ := bind_eq_ok.1 h
    obtain ⟨others, hothers, h⟩ := bind_eq_ok.1 h
    cases h
    exact List.forall_mem_cons.2 ⟨name_of_colorElement he, ih hothers⟩

theorem name_of_patternElement (h : patternElement d = .ok e) : e.name = "pattern" := by
  obtain ⟨metadata, -, h⟩ := bind_eq_ok.1 h
  cases h
  rfl

/-- The tags of what stands in front of the charts and components of a project. -/
def frontTags : List String := ["image", "pattern", "config", "color"]

/-- What a project that has been built is made of: what its pattern, configs and colours become, and then its charts
and components, expanded with the global values that the configs and values have given. -/
theorem build_eq_ok {choices : Choices} {name id : String} {project : Expansion}
    (h : (build d choices name id).tree = .ok project) :
    ∃ pattern configs colors content, patternElement d = .ok pattern ∧
      (configure choices.configs Table.empty d.configs).elements = .ok configs ∧
      evaluateValues (configure choices.configs Table.empty d.configs).globals d.values =
        ((build d choices name id).globals, .ok ()) ∧
      d.colors.mapM (colorElement choices.colors) = .ok colors ∧
      parts ⟨d, (build d choices name id).globals⟩ = .ok content ∧
      project = content.wrap ((projectRoot name id).append
        ((imageElements d ++ [pattern] ++ configs ++ colors).map Element.toNode)) := by
  cases hpattern : patternElement d with
  | error e => simp [build, hpattern] at h
  | ok pattern =>
    cases hconfigs : (configure choices.configs Table.empty d.configs).elements with
    | error e => simp [build, hpattern, hconfigs] at h
    | ok configs =>
      rcases hvalues : evaluateValues (configure choices.configs Table.empty d.configs).globals d.values with
        ⟨globals, _ | u⟩
      · simp [build, hpattern, hconfigs, hvalues] at h
      · simp only [build, hpattern, hconfigs, hvalues] at h ⊢
        obtain ⟨colors, hcolors, h⟩ := bind_eq_ok.1 h
        obtain ⟨content, hcontent, h⟩ := bind_eq_ok.1 h
        cases h
        exact ⟨pattern, configs, colors, content, rfl, rfl, trivial, hcolors, hcontent, rfl⟩

/-- A project is written as a document, if it can be written. -/
theorem write_wrap_eq_ok {content : Expansion} {text : String} :
    write (content.wrap e) = .ok text ↔ content.writable = true ∧ text = writeDocument (e.append content.nodes) := by
  have htext : writeNodes (content.wrap e).nodes = writeNode (e.append content.nodes).toNode := by
    rw [Expansion.wrap, writeNodes, writeNodes, List.append_nil]
  rw [write, htext]
  show (if content.writable = true then _ else _) = _ ↔ _
  split
  · next hwritable =>
    rw [Except.ok.injEq]
    exact ⟨fun h => ⟨hwritable, h.symm⟩, fun h => h.2.symm⟩
  · next hwritable => exact ⟨nofun, fun h => absurd h.1 hwritable⟩

/-- A project that has been built has a front, which does not depend on the charts and components. -/
theorem exists_front {choices : Choices} {name id : String} {project : Expansion}
    (h : (build d choices name id).tree = .ok project) :
    ∃ front : List Element, (∀ e ∈ front, e.name ∈ frontTags) ∧ ∀ charts components,
      let d' : Document := { d with charts := charts, components := components }
      let globals := (evaluateValues (configure choices.configs Table.empty d.configs).globals d.values).1
      (build d' choices name id).globals = globals ∧
        (build d' choices name id).tree = (do
          let content ← parts ⟨d', globals⟩
          .ok (content.wrap ((projectRoot name id).append (front.map Element.toNode)))) := by
  obtain ⟨pattern, configs, colors, -, hpattern, hconfigs, hvalues, hcolors, -⟩ := build_eq_ok h
  refine ⟨imageElements d ++ [pattern] ++ configs ++ colors, ?_, ?_⟩
  · intro e he
    simp only [List.mem_append, List.mem_singleton, imageElements, List.mem_map, or_assoc] at he
    rcases he with ⟨i, -, rfl⟩ | rfl | he | he
    · simp [frontTags, element]
    · simp [frontTags, name_of_patternElement hpattern]
    · simp [frontTags, name_of_configure hconfigs e he]
    · simp [frontTags, name_of_colorElements hcolors e he]
  · intro charts components d' globals'
    -- neither the metadata nor the configs, values and colours of the two documents differ
    have hpattern' : patternElement d' = .ok pattern := hpattern
    generalize (build d choices name id).globals = globals at hvalues
    simp only [build, hpattern', d', hconfigs, hvalues, hcolors, globals']
    exact ⟨trivial, rfl⟩

/-! ## Independence -/

/-- Charts and components that can each be expanded become the same wherever they stand: what is looked up does
not depend on which of them there are. -/
theorem parts_eq {globals : Scope} {charts : List Chart} {components : List Component}
    (hcharts : ∀ k ∈ charts, ∃ a, chartExpansion ⟨d, globals⟩ k = .ok a)
    (hcomponents : ∀ k ∈ components, ∃ a, componentExpansion ⟨d, globals⟩ k = .ok a) :
    parts ⟨{ d with charts := charts, components := components }, globals⟩ =
      .ok ⟨(charts.filterMap (becomes (chartExpansion ⟨d, globals⟩)) ++
          components.filterMap (becomes (componentExpansion ⟨d, globals⟩))).map Element.toNode,
        charts.all (becomesWritable (chartExpansion ⟨d, globals⟩)) &&
          components.all (becomesWritable (componentExpansion ⟨d, globals⟩))⟩ := by
  have halike : Alike ⟨d, globals⟩ ⟨{ d with charts := charts, components := components }, globals⟩ :=
    ⟨rfl, rfl, rfl, rfl, rfl⟩
  rw [parts, chartExpansion_alike halike, componentExpansion_alike halike,
    expandEach_eq (oneOrNone_chartExpansion _) hcharts,
    expandEach_eq (oneOrNone_componentExpansion _) hcomponents, List.map_append]
  rfl

/-- Where all are writable, so are some. -/
theorem all_of_subset {α : Type} {p : α → Bool} {xs ys : List α} (h : xs ⊆ ys) (hys : ys.all p = true) :
    xs.all p = true := by
  rw [List.all_eq_true] at hys ⊢
  exact fun x hx => hys x (h hx)

/-- A pattern with a chart and three components, one of which is left out. -/
def threeComponents : Document :=
  { Document.empty with
    values := [⟨"rows", "2", none, none⟩]
    blocks := [⟨"edge", ["<opaf:repeat xmlns:opaf=\"u\" count=\"${n}\"><opaf:row type=\"${kind}\"/></opaf:repeat>"],
      ⟨[("n", .str "1"), ("kind", .str "flat")]⟩⟩]
    charts := [⟨"lace", ["<opaf:row xmlns:opaf=\"u\" type=\"${rows}\"/>"], none⟩]
    components := [
      ⟨"front", none, some ["<opaf:block xmlns:opaf=\"u\" name=\"edge\" n=\"${rows}\"/>"], none⟩,
      ⟨"hood", none, some ["<opaf:block xmlns:opaf=\"u\" name=\"nowhere\"/>"], some "False"⟩,
      ⟨"back", none, some ["<opaf:block xmlns:opaf=\"u\" name=\"edge\"/>"], some "true"⟩] }

end Stitchwork.Project
