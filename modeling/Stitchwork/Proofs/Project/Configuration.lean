/- # Stitchwork.Proofs.Project.Configuration — what the configs of a project are bound to.

The rule is stated first, without the algorithm.  A config that is chosen is bound to the chosen text, which must be one of
its allowed values if it lists any; no formula in that text is looked at.  Any other config is bound to its default, whose
formulas see the configs in front of it and nothing else.  A config that is required must not be blank.  Evaluation follows
the rule exactly: it succeeds with the values and elements of the rule, or it makes the report of the first config that
breaks it.  What configs are bound to then lasts: values, charts and components are all evaluated with it.
-/
import Stitchwork.Proofs.Formula.Coerce
import Stitchwork.Proofs.Pattern.Provenance
import Stitchwork.Proofs.Project.Independence
import Stitchwork.Proofs.Project.Order

namespace Stitchwork.Project

open Stitchwork.Formula Stitchwork.Markup Stitchwork.Pattern

/-! ## The rule -/

/-- Is the text of the value blank? -/
def isBlank (v : Value) : Bool := v.text?.any fun s => (Text.trim s).isEmpty

/-- The config is bound to the value where the configs in front of it have the values `before`. -/
structure Binds (chosen : Table String) (before : Scope) (c : Config) (v : Value) : Prop where
  /-- A chosen text is taken as it is, and is allowed. -/
  of_chosen : ∀ s, chosen.get? c.name = some s → v = coerce s ∧ (c.allowed.given = true → s ∈ c.allowed.values)
  /-- A default is evaluated. -/
  of_default : chosen.get? c.name = none → ∃ s, expandText before c.value = .ok s ∧ v = coerce s

/-- The config is bound to the value and shown as the element, which the rule about blank values allows. -/
structure Settles (chosen : Table String) (before : Scope) (c : Config) (v : Value) (e : Element) : Prop
    extends Binds chosen before c v where
  filled : c.required = true → isBlank v = false
  shown : ∃ s, v.text? = some s ∧ e = element "config" [("name", c.name), ("value", s)]

/-- What a config that breaks the rule reports. -/
inductive Breaks (chosen : Table String) (before : Scope) (c : Config) : Error → Prop
  | notAllowed {s : String} : chosen.get? c.name = some s → c.allowed.given = true → s ∉ c.allowed.values →
      Breaks chosen before c (.notAllowed s c.name)
  | default {report : Error} : chosen.get? c.name = none → expandText before c.value = .error report →
      Breaks chosen before c report
  | blank {v : Value} : Binds chosen before c v → c.required = true → isBlank v = true →
      Breaks chosen before c (.valueRequired c.name)

/-- The values of configs behind those of a table. -/
def bound (start : Scope) (cs : List Config) (vs : List Value) : Scope := start.insertAll ((cs.map Config.name).zip vs)

/-- Each config is settled with the configs in front of it, and with what was there before all of them. -/
structure AllSettled (chosen : Table String) (start : Scope) (cs : List Config) (vs : List Value) (es : List Element) :
    Prop where
  values : vs.length = cs.length
  elements : es.length = cs.length
  each : ∀ i c v e, cs[i]? = some c → vs[i]? = some v → es[i]? = some e →
    Settles chosen (bound start (cs.take i) vs) c v e

/-! ## One config -/

section

variable {chosen : Table String} {globals : Scope} {c : Config} {v : Value} {e : Element} {report : Error}

theorem configValue_eq_ok : (configValue chosen globals c).1 = .ok v ↔ Binds chosen globals c v := by
  rw [configValue]
  cases hchosen : chosen.get? c.name with
  | none =>
    show (expandText globals c.value).map coerce = .ok v ↔ _
    rw [map_eq_ok]
    constructor
    · rintro ⟨s, hs, rfl⟩
      exact ⟨by simp [hchosen], fun _ => ⟨s, hs, rfl⟩⟩
    · intro h
      obtain ⟨s, hs, rfl⟩ := h.of_default hchosen
      exact ⟨s, hs, rfl⟩
  | some s =>
    have hbinds : Binds chosen globals c v ↔ v = coerce s ∧ (c.allowed.given = true → s ∈ c.allowed.values) := by
      constructor
      · exact fun h => h.of_chosen s hchosen
      · intro h
        refine ⟨fun t ht => ?_, by simp [hchosen]⟩
        cases hchosen.symm.trans ht
        exact h
    rw [hbinds]
    by_cases hgiven : c.allowed.given = true
    · by_cases hmem : s ∈ c.allowed.values
      · simp [hgiven, Allowed.find, hmem, @eq_comm _ v]
      · simp [hgiven, Allowed.find, hmem]
    · simp [hgiven, @eq_comm _ v]

/-- A config that is bound to nothing reports a value that is not allowed, or what its default reports. -/
theorem configValue_eq_error : (configValue chosen globals c).1 = .error report ↔
    (∃ s, chosen.get? c.name = some s ∧ c.allowed.given = true ∧ s ∉ c.allowed.values ∧ report = .notAllowed s c.name) ∨
      chosen.get? c.name = none ∧ expandText globals c.value = .error report := by
  rw [configValue]
  cases hchosen : chosen.get? c.name with
  | none => cases expandText globals c.value <;> simp [Except.map]
  | some s =>
    by_cases hgiven : c.allowed.given = true
    · by_cases hmem : s ∈ c.allowed.values
      · simp [hgiven, Allowed.find, hmem]
      · simp [hgiven, Allowed.find, hmem, @eq_comm _ report]
    · simp [hgiven]

/-- A value that a config is bound to has been read from a text, so it can be written. -/
theorem Binds.exists_text (h : Binds chosen globals c v) : ∃ s, v.text? = some s := by
  have hcoerce : ∃ s, v = coerce s := by
    cases hchosen : chosen.get? c.name with
    | none =>
      obtain ⟨s, -, hv⟩ := h.of_default hchosen
      exact ⟨s, hv⟩
    | some s => exact ⟨s, (h.of_chosen s hchosen).1⟩
  obtain ⟨s, rfl⟩ := hcoerce
  obtain ⟨t, ht, -⟩ := coerce_spec s
  exact ⟨t, ht⟩

/-- The element of a config whose value can be written: a blank value is refused if one is required. -/
theorem configElement_of_text {s : String} (hs : v.text? = some s) : configElement c v =
    if c.required = true ∧ isBlank v = true then .error (.valueRequired c.name)
    else .ok (element "config" [("name", c.name), ("value", s)]) := by
  have hblank : isBlank v = (Text.trim s).isEmpty := by simp [isBlank, hs]
  rw [configElement, textOfValue, hs, hblank]
  simp only [← Bool.and_eq_true]
  rfl

/-- The value and the element of a config, or what it reports. -/
def settle (chosen : Table String) (before : Scope) (c : Config) : Except Error (Value × Element) := do
  let v ← (configValue chosen before c).1
  let e ← configElement c v
  .ok (v, e)

theorem settles_iff : Settles chosen globals c v e ↔ settle chosen globals c = .ok (v, e) := by
  constructor
  · intro h
    obtain ⟨s, hs, rfl⟩ := h.shown
    have hfilled : ¬(c.required = true ∧ isBlank v = true) := by
      rintro ⟨hrequired, hblank⟩
      rw [h.filled hrequired] at hblank
      cases hblank
    rw [settle, configValue_eq_ok.2 h.toBinds]
    show (configElement c v >>= fun e => .ok (v, e)) = _
    rw [configElement_of_text hs, if_neg hfilled]
    rfl
  · intro h
    obtain ⟨v', hv, h⟩ := bind_eq_ok.1 h
    obtain ⟨e', he, h⟩ := bind_eq_ok.1 h
    cases h
    have hbinds := configValue_eq_ok.1 hv
    obtain ⟨s, hs⟩ := hbinds.exists_text
    rw [configElement_of_text hs] at he
    split at he
    · cases he
    · next hfilled =>
      cases he
      exact ⟨hbinds, fun hrequired => by simpa [hrequired] using hfilled, s, hs, rfl⟩

theorem breaks_iff : Breaks chosen globals c report ↔ settle chosen globals c = .error report := by
  constructor
  · intro h
    cases h with
    | notAllowed hchosen hgiven hmem =>
      exact bind_eq_error.2 (.inl (configValue_eq_error.2 (.inl ⟨_, hchosen, hgiven, hmem, rfl⟩)))
    | default hchosen hreport => exact bind_eq_error.2 (.inl (configValue_eq_error.2 (.inr ⟨hchosen, hreport⟩)))
    | blank hbinds hrequired hblank =>
      obtain ⟨s, hs⟩ := hbinds.exists_text
      refine bind_eq_error.2 (.inr ⟨_, configValue_eq_ok.2 hbinds, bind_eq_error.2 (.inl ?_)⟩)
      rw [configElement_of_text hs, if_pos ⟨hrequired, hblank⟩]
  · intro h
    rcases bind_eq_error.1 h with h | ⟨v, hv, h⟩
    · rcases configValue_eq_error.1 h with ⟨s, hchosen, hgiven, hmem, rfl⟩ | ⟨hchosen, hreport⟩
      · exact .notAllowed hchosen hgiven hmem
      · exact .default hchosen hreport
    · rcases bind_eq_error.1 h with h | ⟨e, -, h⟩
      · have hbinds := configValue_eq_ok.1 hv
        obtain ⟨s, hs⟩ := hbinds.exists_text
        rw [configElement_of_text hs] at h
        split at h
        · next hboth =>
          cases h
          exact .blank hbinds hboth.1 hboth.2
        · cases h
      · cases h

end

/-! ## All configs -/

section

variable {chosen : Table String} {start : Scope} {c : Config} {cs : List Config} {v : Value} {vs : List Value}
  {e : Element} {es : List Element} {report : Error}

theorem allSettled_nil : AllSettled chosen start [] vs es ↔ vs = [] ∧ es = [] := by
  constructor
  · exact fun h => ⟨List.length_eq_zero_iff.1 h.values, List.length_eq_zero_iff.1 h.elements⟩
  · rintro ⟨rfl, rfl⟩
    exact ⟨rfl, rfl, nofun⟩

/-- The first config sees what was there before; to the others it is one of the things that were there. -/
theorem allSettled_cons : AllSettled chosen start (c :: cs) vs es ↔ ∃ v vs' e es', vs = v :: vs' ∧ es = e :: es' ∧
    Settles chosen start c v e ∧ AllSettled chosen (start.insert c.name v) cs vs' es' := by
  constructor
  · intro h
    obtain ⟨v, vs, rfl⟩ := List.exists_cons_of_length_eq_add_one h.values
    obtain ⟨e, es, rfl⟩ := List.exists_cons_of_length_eq_add_one h.elements
    refine ⟨v, vs, e, es, rfl, rfl, h.each 0 c v e rfl rfl rfl, ?_⟩
    exact ⟨Nat.succ.inj h.values, Nat.succ.inj h.elements, fun i c' v' e' => h.each (i + 1) c' v' e'⟩
  · rintro ⟨v, vs, e, es, rfl, rfl, hfirst, h⟩
    refine ⟨congrArg Nat.succ h.values, congrArg Nat.succ h.elements, fun i => ?_⟩
    cases i with
    | zero =>
      rintro _ _ _ ⟨⟩ ⟨⟩ ⟨⟩
      exact hfirst
    | succ i => exact h.each i

theorem elements_configure_cons (chosen : Table String) (start : Scope) (c : Config) (cs : List Config) :
    (configure chosen start (c :: cs)).elements = (settle chosen start c >>= fun p =>
      (configure chosen (start.insert c.name p.1) cs).elements.map (p.2 :: ·)) := by
  rw [configure, settle]
  rcases configValue chosen start c with ⟨_ | v, left⟩
  · rfl
  · cases helement : configElement c v with
    | error report => simp [helement, bind, Except.bind]
    | ok e => simp [helement, bind, Except.bind]

theorem globals_configure_cons (h : settle chosen start c = .ok (v, e)) (cs : List Config) :
    (configure chosen start (c :: cs)).globals = (configure chosen (start.insert c.name v) cs).globals := by
  obtain ⟨v', hv, h⟩ := bind_eq_ok.1 h
  obtain ⟨e', he, h⟩ := bind_eq_ok.1 h
  cases h
  rw [configure]
  rcases hvalue : configValue chosen start c with ⟨r, left⟩
  rw [hvalue] at hv
  cases hv
  simp only [he]

/-- **Success.**  Evaluating configs succeeds with elements if and only if these are what the rule says, and leaves the
configs bound to the values of the rule. -/
theorem configure_eq_ok (cs : List Config) {start : Scope} {es : List Element} :
    (configure chosen start cs).elements = .ok es ↔
      ∃ vs, AllSettled chosen start cs vs es ∧ (configure chosen start cs).globals = bound start cs vs := by
  induction cs generalizing start es with
  | nil =>
    simp only [allSettled_nil]
    constructor
    · rintro ⟨⟩
      exact ⟨[], ⟨rfl, rfl⟩, rfl⟩
    · rintro ⟨vs, ⟨rfl, rfl⟩, -⟩
      rfl
  | cons c cs ih =>
    -- the first config is settled with what is there, and the others with what is there then
    rw [elements_configure_cons, bind_eq_ok]
    simp only [allSettled_cons, settles_iff]
    constructor
    · rintro ⟨⟨v, e⟩, hfirst, hrest⟩
      obtain ⟨es', hes', rfl⟩ := map_eq_ok.1 hrest
      obtain ⟨vs, hall, hbound⟩ := ih.1 hes'
      refine ⟨v :: vs, ⟨v, vs, e, es', rfl, rfl, hfirst, hall⟩, ?_⟩
      rw [globals_configure_cons hfirst, hbound]
      rfl
    · rintro ⟨_, ⟨v, vs, e, es', rfl, rfl, hfirst, hall⟩, hbound⟩
      rw [globals_configure_cons hfirst] at hbound
      exact ⟨(v, e), hfirst, map_eq_ok.2 ⟨es', ih.2 ⟨vs, hall, hbound⟩, rfl⟩⟩

/-- **Failure.**  Evaluating configs fails if and only if some config breaks the rule and all in front of it are settled,
and makes the report of that config. -/
theorem configure_eq_error (cs : List Config) {start : Scope} :
    (configure chosen start cs).elements = .error report ↔ ∃ front c back vs es, cs = front ++ c :: back ∧
      AllSettled chosen start front vs es ∧ Breaks chosen (bound start front vs) c report := by
  induction cs generalizing start with
  | nil =>
    constructor
    · exact nofun
    · rintro ⟨front, c, back, vs, es, hcs, -⟩
      simp at hcs
  | cons c cs ih =>
    rw [elements_configure_cons, bind_eq_error]
    simp only [map_eq_error]
    constructor
    · rintro (hfirst | ⟨⟨v, e⟩, hfirst, hrest⟩)
      · exact ⟨[], c, cs, [], [], rfl, allSettled_nil.2 ⟨rfl, rfl⟩, breaks_iff.2 hfirst⟩
      · obtain ⟨front, c', back, vs, es, rfl, hall, hbreaks⟩ := ih.1 hrest
        have hsettled := allSettled_cons.2 ⟨v, vs, e, es, rfl, rfl, settles_iff.2 hfirst, hall⟩
        exact ⟨c :: front, c', back, v :: vs, e :: es, rfl, hsettled, hbreaks⟩
    · rintro ⟨front, c', back, vs, es, hcs, hall, hbreaks⟩
      cases front with
      | nil =>
        obtain ⟨rfl, rfl⟩ := List.cons.inj hcs
        obtain ⟨rfl, rfl⟩ := allSettled_nil.1 hall
        exact .inl (breaks_iff.1 hbreaks)
      | cons f front =>
        obtain ⟨rfl, rfl⟩ := List.cons.inj hcs
        obtain ⟨v, vs, e, es, rfl, rfl, hfirst, hall⟩ := allSettled_cons.1 hall
        exact .inr ⟨(v, e), settles_iff.1 hfirst, ih.2 ⟨front, c', back, vs, es, rfl, hall, hbreaks⟩⟩

/-! ## Bindings that last -/

/-- Where configs have distinct names, each is bound to its own value. -/
theorem get?_bound (hnames : (cs.map Config.name).Nodup) (hlength : vs.length = cs.length) {i : Nat}
    (hc : cs[i]? = some c) (hv : vs[i]? = some v) : (bound Table.empty cs vs).get? c.name = some v := by
  have hzip : ((cs.map Config.name).zip vs).map (·.1) = cs.map Config.name :=
    List.map_fst_zip (by rw [hlength, List.length_map])
  have hmem : (c.name, v) ∈ (cs.map Config.name).zip vs := by
    refine List.mem_iff_getElem?.2 ⟨i, ?_⟩
    simp [List.getElem?_zip_eq_some, hc, hv]
  have hdistinct : (((cs.map Config.name).zip vs).map (·.1)).Nodup := by
    rw [hzip]
    exact hnames
  show Table.valueIn? c.name (Table.ofList _).entries = some v
  rw [Table.entries_ofList_of_nodup hdistinct]
  exact Table.valueIn?_of_mem hdistinct hmem

/-- Values do not change what another name means. -/
theorem get?_evaluateValues {k : String} (values : List NamedValue) (h : ∀ w ∈ values, w.name ≠ k) (globals : Scope) :
    (evaluateValues globals values).1.get? k = globals.get? k := by
  induction values generalizing globals with
  | nil => rfl
  | cons w rest ih =>
    rw [List.forall_mem_cons] at h
    rw [evaluateValues, evaluateValue_eq]
    cases addition globals w with
    | error report => rfl
    | ok o =>
      show (evaluateValues (addTo globals w.name o) rest).1.get? k = _
      rw [ih h.2, get?_addTo, if_neg (Ne.symm h.1)]

end

/-! ## Projects -/

/-- The configs of a project. -/
def configsOf (root : Element) : List Element := root.elements.filter (·.name == "config")

/-- Charts and components become elements that say so. -/
theorem name_of_parts {c : Context} {content : Expansion} (h : parts c = .ok content) :
    ∃ es : List Element, content.nodes = es.map Element.toNode ∧ ∀ e ∈ es, e.name = "chart" ∨ e.name = "component" := by
  obtain ⟨charts, hcharts, h⟩ := bind_eq_ok.1 h
  obtain ⟨components, hcomponents, h⟩ := bind_eq_ok.1 h
  cases h
  have hchart := forall_of_expandEach hcharts
  have hcomponent := forall_of_expandEach hcomponents
  cases hcharts.symm.trans (expandEach_eq (oneOrNone_chartExpansion c) hchart)
  cases hcomponents.symm.trans (expandEach_eq (oneOrNone_componentExpansion c) hcomponent)
  refine ⟨_, List.map_append.symm, fun e he => ?_⟩
  rcases List.mem_append.1 he with he | he
  · obtain ⟨k, hk, hbecomes⟩ := List.mem_filterMap.1 he
    obtain ⟨b, hb⟩ := hchart k hk
    exact .inl (name_of_becomes (oneOrNone_chartExpansion c) hb hbecomes)
  · obtain ⟨k, hk, hbecomes⟩ := List.mem_filterMap.1 he
    obtain ⟨b, hb⟩ := hcomponent k hk
    exact .inr (name_of_becomes (oneOrNone_componentExpansion c) hb hbecomes)

/-- The elements of a project that has been built: images, what is said about the pattern, configs and colours, and then
charts and components. -/
theorem elements_build {c : Context} {content : Expansion} (hcontent : parts c = .ok content) (front : List Element)
    (name id : String) : ∃ es : List Element, (∀ e ∈ es, e.name = "chart" ∨ e.name = "component") ∧
      (((projectRoot name id).append (front.map Element.toNode)).append content.nodes).elements = front ++ es := by
  obtain ⟨es, hnodes, hes⟩ := name_of_parts hcontent
  have helements : ∀ xs : List Element, (xs.map Element.toNode).filterMap Node.element? = xs := by
    intro xs
    rw [List.filterMap_map]
    exact List.filterMap_some
  refine ⟨es, hes, ?_⟩
  simp only [Element.elements, Element.append, projectRoot, element, List.nil_append, hnodes, List.filterMap_append,
    helements]

theorem filter_name_eq_nil {tag : String} {xs : List Element} (h : ∀ e ∈ xs, e.name ≠ tag) :
    xs.filter (·.name == tag) = [] :=
  List.filter_eq_nil_iff.2 fun e he => by simpa using h e he

theorem filter_name_eq_self {tag : String} {xs : List Element} (h : ∀ e ∈ xs, e.name = tag) :
    xs.filter (·.name == tag) = xs :=
  List.filter_eq_self.2 fun e he => by simpa using h e he

theorem name_of_imageElements (d : Document) : ∀ e ∈ imageElements d, e.name = "image" := by
  simp [imageElements, element]

/-- The configs of a project that has been built are the elements that its configs have become. -/
theorem configsOf_build {d : Document} {pattern : Element} {configs colors : List Element} {chosen : Choices}
    {content : Expansion} {name id : String} (hpattern : patternElement d = .ok pattern)
    (hconfigs : (configure chosen.configs Table.empty d.configs).elements = .ok configs)
    (hcolors : d.colors.mapM (colorElement chosen.colors) = .ok colors) {c : Context} (hcontent : parts c = .ok content) :
    configsOf (((projectRoot name id).append
      ((imageElements d ++ [pattern] ++ configs ++ colors).map Element.toNode)).append content.nodes) = configs := by
  obtain ⟨es, hes, helements⟩ := elements_build hcontent (imageElements d ++ [pattern] ++ configs ++ colors) name id
  have himages : ∀ e ∈ imageElements d, e.name ≠ "config" := fun e he => by simp [name_of_imageElements d e he]
  have hhead : ∀ e ∈ [pattern], e.name ≠ "config" := by simp [name_of_patternElement hpattern]
  have hcolor : ∀ e ∈ colors, e.name ≠ "config" := fun e he => by simp [name_of_colorElements hcolors e he]
  have hpart : ∀ e ∈ es, e.name ≠ "config" := fun e he => by rcases hes e he with h | h <;> simp [h]
  simp only [configsOf, helements, List.filter_append, filter_name_eq_nil himages, filter_name_eq_nil hhead,
    filter_name_eq_self (name_of_configure hconfigs), filter_name_eq_nil hcolor, filter_name_eq_nil hpart,
    List.nil_append, List.append_nil]

/-- Compiling gets as far as the configs and fails there. -/
def FailsInConfigs (choices : Choices) (d : Document) (report : Error) : Prop :=
  (∃ pattern, patternElement d = .ok pattern) ∧
    (configure choices.configs Table.empty d.configs).elements = .error report

theorem build_of_failsInConfigs {choices : Choices} {d : Document} {report : Error} (h : FailsInConfigs choices d report)
    (name id : String) : (build d choices name id).tree = .error report := by
  obtain ⟨⟨pattern, hpattern⟩, hreport⟩ := h
  simp only [build, hpattern, hreport]

/-- A packaged pattern with a config that allows a text with a formula, a config that reads it, and a value. -/
def formulaAllowed : String :=
  "<pattern xmlns:opaf=\"u\" pkg_version=\"p\"><opaf:define_config name=\"a\" value=\"1\" required=\"true\" " ++
    "allowed_values=\"1, $\x7bb\x7d\"/><opaf:define_config name=\"b\" value=\"$\x7ba\x7d!\"/>" ++
    "<opaf:define_value name=\"w\" value=\"$\x7bb\x7d\"/></pattern>"

/-- The formula is chosen. -/
def formulaChosen : Choices := ⟨⟨[("a", "$\x7bb\x7d")]⟩, Table.empty⟩

end Stitchwork.Project
