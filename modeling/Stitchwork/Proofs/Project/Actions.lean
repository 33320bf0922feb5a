/- # Stitchwork.Proofs.Project.Actions — the colour, the chart and the attributes of an action.

The use of an action passes texts, and each text is read as a number if it says one.  Three parameters are meant as texts:
the colour, the chart, and the attributes that are added.  A text that says no number does what it is meant to do.  A text
that says a number does not: as a colour it is of the wrong kind, whatever colours there are; as a chart it is empty, and
the project cannot be written unless the number is zero; as attributes it fails at the first element that is kept.
-/
import Stitchwork.Proofs.Project.Calls
import Stitchwork.Proofs.Project.Order
import Stitchwork.Proofs.Project.Vocabulary
import Stitchwork.Proofs.Text.Pieces

namespace Stitchwork.Project

open Stitchwork.Formula Stitchwork.Markup Stitchwork.Pattern

variable {params : Table Value} {s : String} {texts : List String} {e x : Element} {action : Action} {d : Document}
  {c : Context} {call : Call}

/-! ## What is passed -/

theorem coerce_ne_str (h : coerce s ≠ .str s) (t : String) : coerce s ≠ .str t := by
  rw [coerce] at h ⊢
  split
  · rintro ⟨⟩
  · next hint =>
    rw [hint] at h
    split
    · rintro ⟨⟩
    · next hdouble =>
      rw [hdouble] at h
      exact absurd rfl h

/-- The use of an action whose arguments are accepted. -/
structure Uses (c : Context) (call : Call) (e : Element) (action : Action) (params : Table Value) : Prop where
  node : call.node = e.toNode
  tag : e.name = "opaf:action"
  kept : elementHolds call.scope e = .ok true
  defined : c.document.action (e.attr "name") = .ok action
  bound : bindArguments call.scope action.params (argumentsOf e) = .ok params
  checked : checkParams .action (e.attr "name") params = .ok ()

/-- The use of an action that a call is on, if its arguments are accepted. -/
def Call.use? (c : Context) (call : Call) : Option (Element × Action × Table Value) := do
  let e ← call.node.element?
  guard (e.name = "opaf:action" ∧ (elementHolds call.scope e).toOption = some true)
  let action ← (c.document.action (e.attr "name")).toOption
  let params ← (bindArguments call.scope action.params (argumentsOf e)).toOption
  guard ((checkParams .action (e.attr "name") params).toOption.isSome = true)
  some (e, action, params)

theorem toOption_eq_some {α : Type} {r : Except Error α} {a : α} : r.toOption = some a ↔ r = .ok a := by
  cases r with
  | error report => simp [Except.toOption]
  | ok b => simp [Except.toOption]

theorem Call.uses (h : call.use? c = some (e, action, params)) : Uses c call e action params := by
  simp only [Call.use?, Option.bind_eq_bind, Option.bind_eq_some_iff, Option.guard_eq_some', toOption_eq_some,
    Option.some.injEq, Prod.mk.injEq] at h
  obtain ⟨e', he, _, ⟨htag, hkept⟩, action', haction, params', hparams, _, hchecked, rfl, rfl, rfl⟩ := h
  have hnode : call.node = e'.toNode := by
    cases hn : call.node with
    | element name attrs children =>
      rw [hn] at he
      cases he
      rfl
    | _ =>
      rw [hn] at he
      cases he
  obtain ⟨_, hok⟩ := Option.isSome_iff_exists.1 hchecked
  exact ⟨hnode, htag, hkept, haction, hparams, toOption_eq_some.1 hok⟩

/-- The parameters that are meant as texts. -/
def textParameters : List String := ["color", "chart", "attrs"]

theorem expandAttr_of_literal {k : String} (hk : k ∈ textParameters) (hs : Literal s) (scope : Scope) :
    expandAttr scope (k, s) = .ok s := by
  have hdeclaration : (k == "xmlns") = false := by
    have hall : ∀ k ∈ textParameters, (k == "xmlns") = false := by decide
    exact hall k hk
  rw [expandAttr, hdeclaration, Bool.false_and, if_neg Bool.false_ne_true, expandText, expand_of_literal hs]
  rfl

/-- What is passed without formulas for a parameter that is meant as a text is what the text says. -/
theorem Uses.get?_params (h : Uses c call e action params) (hlawful : Lawful call.node) {k : String}
    (hk : k ∈ textParameters) (hs : e.attr? k = some s) (hliteral : Literal s) : params.get? k = some (coerce s) := by
  have hnodup : (e.attrs.entries.map (·.1)).Nodup := by
    rw [h.node] at hlawful
    exact hlawful.1.nodup
  have hfree : protectedAttrs.contains k = false := by
    have hall : ∀ k ∈ textParameters, protectedAttrs.contains k = false := by decide
    exact hall k hk
  have hmem : (k, s) ∈ argumentsOf e := by
    refine List.mem_filter.2 ⟨Table.mem_of_valueIn? hs, ?_⟩
    simp only [hfree, Bool.not_false]
  have hdistinct : ((argumentsOf e).map (·.1)).Nodup := (List.filter_sublist.map _).nodup hnodup
  obtain ⟨values, hvalues, rfl⟩ := map_eq_ok.1 ((bindArguments_eq ..).symm.trans h.bound)
  -- the last entry of a name counts, and names are distinct
  have hpassed : Table.valueIn? k (argumentsOf e).reverse = some s := by
    rw [Table.valueIn?_reverse hdistinct]
    exact Table.valueIn?_of_mem hdistinct hmem
  obtain ⟨t, ht, hvalue⟩ := valueIn?_of_forall₂ (List.rel_reverse (forall₂_evaluateArguments hvalues)) hpassed
  cases (expandAttr_of_literal hk hliteral call.scope).symm.trans ht
  rw [Table.get?_insertAll, hvalue, Option.some_or]

/-- What the use of an action gives by itself: its colour is checked, and then its elements are expanded. -/
theorem Uses.ownResult (h : Uses c call e action params) : ownResult c call = (do
      checkColor c.document params
      match action.elements with
      | some texts => expandActionTexts params texts
      | none => .error .wrongKind) := by
  obtain ⟨name, attrs, children⟩ := e
  obtain ⟨i, scope, node⟩ := call
  obtain ⟨rfl, rfl, hkept, hdefined, hbound, hchecked⟩ := h
  have hheld : elementHolds scope ⟨"opaf:action", attrs, []⟩ = .ok true := hkept
  have haction : c.document.action ((⟨"opaf:action", attrs, []⟩ : Element).attr "name") = .ok action := hdefined
  have hparams : bindArguments scope action.params (argumentsOf ⟨"opaf:action", attrs, []⟩) = .ok params := hbound
  have haccepted : checkParams .action ((⟨"opaf:action", attrs, []⟩ : Element).attr "name") params = .ok () := hchecked
  show (do
    if !(← elementHolds scope ⟨"opaf:action", attrs, []⟩) then Except.ok Expansion.none
    else expandAction c scope ⟨"opaf:action", attrs, []⟩) = _
  rw [hheld]
  show expandAction c scope ⟨"opaf:action", attrs, []⟩ = _
  rw [expandAction, haction]
  show (bindArguments scope action.params (argumentsOf ⟨"opaf:action", attrs, []⟩) >>= _) = _
  rw [hparams]
  show (checkParams .action ((⟨"opaf:action", attrs, []⟩ : Element).attr "name") params >>= _) = _
  rw [haccepted]
  rfl

/-! ## Colours -/

theorem contains_colorTable : d.colorTable.contains s = true ↔ ∃ k ∈ d.colors, k.name = s := by
  rw [Table.contains, Option.isSome_iff_ne_none, Document.colorTable, Table.ofList, Table.get?_insertAll,
    Table.get?_empty, Option.or_none, ne_eq, Table.valueIn?_eq_none_iff, Decidable.not_not]
  simp

theorem checkColor_of_text (h : params.get? "color" = some (.str s)) :
    checkColor d params = if ∃ k ∈ d.colors, k.name = s then .ok () else .error (.undefinedColor s) := by
  simp only [checkColor, h, contains_colorTable]

theorem checkColor_of_number (h : params.get? "color" = some (coerce s)) (hs : coerce s ≠ .str s) :
    checkColor d params = .error .wrongKind := by
  have hnot := coerce_ne_str hs
  rw [checkColor, h]
  split
  · next heq => cases heq
  · next t heq => exact absurd (Option.some.inj heq) (hnot t)
  · rfl

/-! ## Elements -/

theorem eq_of_toNode {y : Element} (h : [x.toNode] = [y.toNode]) : x = y := by
  simpa using congrArg Node.element? (List.singleton_inj.1 h)

theorem mem_descendants_of_mem {ns : List Node} (h : x.toNode ∈ ns) : x ∈ descendants x.name ns := by
  induction ns with
  | nil => cases h
  | cons n ns ih =>
    rw [descendants, List.mem_append]
    rcases List.mem_cons.1 h with rfl | h
    · exact .inl (by simp [Element.toNode, selfAndDescendants])
    · exact .inr (ih h)

/-- The element of an action becomes `x`; `own` is the element with its own attributes, evaluated. -/
structure Emits (params : Table Value) (texts : List String) (own x : Element) : Prop where
  source : ∃ text ∈ texts, ∃ e attrs, restore text = .ok e ∧
    expandAttrs params (e.eraseAttr "condition").attrs.entries = .ok attrs ∧ own = { e with attrs := ⟨attrs⟩ }
  added : ∃ y, addAttrs params own = .ok y ∧ (addChart params y).nodes = [x.toNode]

/-- Every node that the elements of an action become is what some element becomes. -/
theorem exists_emits {a : Expansion} (h : expandActionTexts params texts = .ok a) :
    ∀ n ∈ a.nodes, ∃ own x : Element, n = x.toNode ∧ Emits params texts own x := by
  rw [expandActionTexts_eq] at h
  refine forall_expandEach (fun s hs b hb n hn => ?_) h
  obtain ⟨e, he, hb⟩ := bind_eq_ok.1 hb
  rcases expandActionElement_eq_ok hb with rfl | ⟨attrs, y, hattrs, hy, rfl⟩
  · cases hn
  · have hone : ∃ x : Element, (addChart params y).nodes = [x.toNode] := by
      rcases nodes_addChart params y with hnodes | ⟨t, hnodes⟩
      · exact ⟨_, hnodes⟩
      · exact ⟨_, hnodes⟩
    obtain ⟨x, hx⟩ := hone
    rw [hx] at hn
    exact ⟨_, x, List.mem_singleton.1 hn, ⟨s, hs, e, attrs, he, hattrs, rfl⟩, y, hy, hx⟩

/-- The elements of an action can be written if there are none, or if their chart can be written. -/
theorem writable_expandActionTexts {v : Value} (hv : params.get? "chart" = some v) {a : Expansion}
    (h : expandActionTexts params texts = .ok a) : a.writable = true ↔ a.nodes = [] ∨ (rawText v).2 = true := by
  induction texts generalizing a with
  | nil =>
    cases h
    simp [Expansion.none]
  | cons s rest ih =>
    obtain ⟨e, he, h⟩ := bind_eq_ok.1 h
    obtain ⟨b, hb, h⟩ := bind_eq_ok.1 h
    obtain ⟨others, hothers, h⟩ := bind_eq_ok.1 h
    cases h
    have hrest := ih hothers
    rcases expandActionElement_eq_ok hb with rfl | ⟨attrs, y, hattrs, hy, rfl⟩
    · exact hrest
    · simp only [Expansion.append, addChart, hv, Bool.and_eq_true, hrest, List.cons_append, reduceCtorEq, false_or]
      exact ⟨fun h => h.1, fun h => ⟨h, .inr h⟩⟩

/-- Every emitted element has the chart, as a text. -/
theorem Emits.chart {own : Element} (h : Emits params texts own x) {v : Value} (hv : params.get? "chart" = some v) :
    x.attr? "chart" = some (rawText v).1 := by
  obtain ⟨y, -, hx⟩ := h.added
  simp only [addChart, hv] at hx
  have hsame : y.setAttr "chart" (rawText v).1 = x := eq_of_toNode hx
  rw [← hsame, Element.attr?, Element.setAttr, Table.get?_insert, if_pos rfl]

/-! ## Attributes -/

theorem nodup_eraseDups (xs : List String) : xs.eraseDups.Nodup := by
  induction hn : xs.length using Nat.strong_induction_on generalizing xs with
  | _ n ih =>
    cases xs with
    | nil => exact List.nodup_nil
    | cons x xs =>
      rw [List.eraseDups_cons, List.nodup_cons]
      refine ⟨by simp [List.mem_eraseDups], ih _ ?_ _ rfl⟩
      rw [← hn, List.length_cons]
      exact Nat.lt_succ_of_le (List.length_filter_le _ _)

theorem mem_distinct {x : String} {xs : List String} : x ∈ distinct xs ↔ x ∈ xs := by
  rw [distinct, List.mem_mergeSort, List.mem_eraseDups]

theorem nodup_distinct (xs : List String) : (distinct xs).Nodup :=
  (List.mergeSort_perm _ _).nodup_iff.2 (nodup_eraseDups xs)

/-- Joining distinct pieces of texts and cutting again gives the pieces. -/
theorem cut_join_distinct {xs : List String} (hne : xs ≠ []) (h : ∀ x ∈ xs, ',' ∉ x.toList) :
    Text.cut (Text.join "," (distinct xs)) "," = distinct xs := by
  refine Text.cut_join rfl ?_ fun x hx => h x (mem_distinct.1 hx)
  obtain ⟨x, hx⟩ := List.exists_mem_of_ne_nil xs hne
  exact List.ne_nil_of_mem (mem_distinct.2 hx)

/-- The attributes of an emitted element are those that are passed and its own, each once. -/
theorem Emits.attrs {own : Element} (h : Emits params texts own x) (hs : params.get? "attrs" = some (.str s)) :
    ∃ t, x.attr? "attrs" = some t ∧ (Text.cut t ",").Nodup ∧
      ∀ p, p ∈ Text.cut t "," ↔ p ∈ Text.cut s "," ∨ ∃ o, own.attr? "attrs" = some o ∧ p ∈ Text.cut o "," := by
  obtain ⟨y, hy, hx⟩ := h.added
  simp only [addAttrs, hs, Except.ok.injEq] at hy
  have hkept : x.attr? "attrs" = y.attr? "attrs" := by
    rcases nodes_addChart params y with hnodes | ⟨chart, hnodes⟩
    · have hsame : y = x := eq_of_toNode (hnodes.symm.trans hx)
      rw [hsame]
    · have hsame : y.setAttr "chart" chart = x := eq_of_toNode (hnodes.symm.trans hx)
      rw [← hsame, Element.attr?, Element.setAttr, Table.get?_insert, if_neg (by decide)]
      rfl
  have hjoined : y.attr? "attrs" = some (Text.join ","
      (distinct (Text.cut s "," ++ ((own.attr? "attrs").map (Text.cut · ",")).getD []))) := by
    rw [← hy, Element.attr?, Element.setAttr, Table.get?_insert, if_pos rfl]
  have hpieces : ∀ p ∈ Text.cut s "," ++ ((own.attr? "attrs").map (Text.cut · ",")).getD [], ',' ∉ p.toList := by
    intro p hp
    rcases List.mem_append.1 hp with hp | hp
    · exact Text.not_mem_of_mem_cut rfl hp
    · cases howns : own.attr? "attrs" with
      | none =>
        rw [howns] at hp
        cases hp
      | some o =>
        rw [howns] at hp
        exact Text.not_mem_of_mem_cut rfl hp
  have hne : Text.cut s "," ++ ((own.attr? "attrs").map (Text.cut · ",")).getD [] ≠ [] :=
    List.append_ne_nil_of_left_ne_nil (Text.cut_ne_nil rfl s) _
  refine ⟨_, hkept.trans hjoined, ?_⟩
  rw [cut_join_distinct hne hpieces]
  refine ⟨nodup_distinct _, fun p => ?_⟩
  rw [mem_distinct, List.mem_append]
  cases own.attr? "attrs" <;> simp

theorem addAttrs_of_number (h : params.get? "attrs" = some (coerce s)) (hs : coerce s ≠ .str s) (e : Element) :
    addAttrs params e = .error .absent := by
  have hnot := coerce_ne_str hs
  rw [addAttrs, h]
  split
  · next heq => cases heq
  · next t heq => exact absurd (Option.some.inj heq) (hnot t)
  · rfl

/-- The elements of an action up to the first that is kept: those in front are dropped, and its own attributes can be
evaluated. -/
structure Keeps (params : Table Value) (texts : List String) : Prop where
  first : ∃ front text back e attrs, texts = front ++ text :: back ∧ expandActionTexts params front = .ok .none ∧
    restore text = .ok e ∧ (∀ condition, e.attr? "condition" = some condition → holds params condition = .ok true) ∧
    expandAttrs params (e.eraseAttr "condition").attrs.entries = .ok attrs

/-- An element that is kept and cannot be given its attributes fails. -/
theorem expandActionElement_of_addAttrs_error {report : Error} (h : ∀ e, addAttrs params e = .error report)
    {attrs : List (String × String)}
    (hcondition : ∀ condition, e.attr? "condition" = some condition → holds params condition = .ok true)
    (hattrs : expandAttrs params (e.eraseAttr "condition").attrs.entries = .ok attrs) :
    expandActionElement params e = .error report := by
  have hkept : partHolds params e = .ok true := by
    rw [partHolds]
    split
    · next condition hgiven => exact hcondition condition hgiven
    · rfl
  rw [expandActionElement_eq, hkept]
  show expandAttrs params (e.eraseAttr "condition").attrs.entries >>= _ = _
  rw [hattrs]
  show addAttrs params _ >>= _ = _
  rw [h]
  rfl

/-- If no element can be given its attributes, the first that is kept fails. -/
theorem Keeps.fails {report : Error} (h : ∀ e, addAttrs params e = .error report) (hkeeps : Keeps params texts) :
    expandActionTexts params texts = .error report := by
  obtain ⟨front, text, back, e, attrs, rfl, hfront, he, hcondition, hattrs⟩ := hkeeps.first
  have hfirst := expandActionElement_of_addAttrs_error h hcondition hattrs
  rw [expandActionTexts_append, hfront]
  show expandActionTexts params (text :: back) >>= _ = _
  rw [expandActionTexts, he]
  show (expandActionElement params e >>= _) >>= _ = _
  rw [hfirst]
  rfl

/-! ## Projects -/

/-- Compiling gets as far as the charts and components. -/
structure ReachesParts (d : Document) (choices : Choices) : Prop where
  pattern : ∃ e, patternElement d = .ok e
  configs : ∃ es, (configure choices.configs Table.empty d.configs).elements = .ok es
  values : (evaluateValues (configure choices.configs Table.empty d.configs).globals d.values).2 = .ok ()
  colors : ∃ es, d.colors.mapM (colorElement choices.colors) = .ok es

/-- From there on a project is what its charts and components become, inside the root. -/
theorem ReachesParts.tree {choices : Choices} (h : ReachesParts d choices) (name id : String) :
    ∃ root, (build d choices name id).tree = (do
      let content ← parts ⟨d, (build d choices name id).globals⟩
      .ok (content.wrap root)) := by
  obtain ⟨⟨pattern, hpattern⟩, ⟨configs, hconfigs⟩, hvalues, ⟨colors, hcolors⟩⟩ := h
  rcases hrun : evaluateValues (configure choices.configs Table.empty d.configs).globals d.values with ⟨globals, r⟩
  rw [hrun] at hvalues
  cases hvalues
  simp only [build, hpattern, hconfigs, hrun, hcolors]
  exact ⟨_, rfl⟩

section

variable {d : Document} {choices : Choices} {name : String} {i : Nat} {call : Call}

/-- A use of an action that fails makes compiling fail with its report. -/
theorem compiled_of_ownResult_error (hpackaged : (d.pkgVersion.getD "").isEmpty = false) (hreaches : ReachesParts d choices)
    (hcall : call ∈ (watchAll ⟨d, (build d choices name (identifier (i + 1))).globals⟩).2.calls) {report : Error}
    (h : ownResult ⟨d, (build d choices name (identifier (i + 1))).globals⟩ call = .error report) :
    ((compile .fresh choices name d).run i).1.text = .error report := by
  have hcounts := counts_of_mem_watchAll (nodup_keys_globals d choices name _) hcall
  obtain ⟨root, htree⟩ := hreaches.tree name (identifier (i + 1))
  rw [compile_run]
  simp only [hpackaged, Compilation.fresh, Bool.false_eq_true, if_false]
  rw [htree, hcounts.fails report h]
  rfl

/-- What a use of an action gives by itself is part of the project. -/
theorem ownResult_of_tree {id : String} (hcall : call ∈ (watchAll ⟨d, (build d choices name id).globals⟩).2.calls)
    {project : Expansion} (htree : (build d choices name id).tree = .ok project) :
    ∃ a, ownResult ⟨d, (build d choices name id).globals⟩ call = .ok a ∧ project.Holds a := by
  have hcounts := counts_of_mem_watchAll (nodup_keys_globals d choices name id) hcall
  obtain ⟨-, -, -, content, -, -, -, -, hcontent, rfl⟩ := build_eq_ok htree
  cases hown : ownResult ⟨d, (build d choices name id).globals⟩ call with
  | error report => cases hcontent.symm.trans (hcounts.fails report hown)
  | ok a => exact ⟨a, rfl, (Expansion.holds_wrap _ content).trans (hcounts.holds a content hown hcontent)⟩

/-- A project that cannot be written is missing something. -/
theorem compiled_of_not_writable (hpackaged : (d.pkgVersion.getD "").isEmpty = false) {project : Expansion}
    (htree : (build d choices name (identifier (i + 1))).tree = .ok project) (h : project.writable ≠ true) :
    ((compile .fresh choices name d).run i).1.text = .error .absent := by
  rw [compile_run]
  simp only [hpackaged, Compilation.fresh, Bool.false_eq_true, if_false]
  rw [htree]
  show write project = _
  rw [write, if_neg h]

end

theorem Uses.of_ownResult_ok (h : Uses c call e action params) {a : Expansion} (ha : Project.ownResult c call = .ok a) :
    checkColor c.document params = .ok () ∧ expandActionTexts params (action.elements.getD []) = .ok a := by
  rw [h.ownResult] at ha
  obtain ⟨_, hcolor, ha⟩ := bind_eq_ok.1 ha
  cases helements : action.elements with
  | none =>
    rw [helements] at ha
    cases ha
  | some texts =>
    rw [helements] at ha
    exact ⟨hcolor, ha⟩

theorem rawText_of_number (h : coerce s ≠ .str s) : rawText (coerce s) = ("", !(coerce s).truth) := by
  have hnot := coerce_ne_str h
  cases hv : coerce s with
  | str t => exact absurd hv (hnot t)
  | _ => rfl

/-- **Arguments that are meant as texts.**  Take any packaged pattern, choices with which compiling gets as far as the charts
and components, and a use of an action there whose arguments are accepted.  What it passes without formulas for a colour,
a chart or attributes is taken as read.

A colour that says no number is accepted exactly if the pattern defines it, and otherwise compiling reports that it is not
defined; one that says a number makes compiling fail with a value of the wrong kind, whatever is defined.  A chart that says
no number is the chart of every element that is emitted; one that says a number is written as nothing, and if it is not
zero a project with such an element cannot be written.  Attributes that say no number are joined with the own attributes of
each element, each once; if they say a number then no element is emitted, and the first that is kept makes compiling fail.
Whatever is emitted stands in the project. -/
theorem action_texts_as_read {d : Document} (hpackaged : (d.pkgVersion.getD "").isEmpty = false) {choices : Choices}
    (hreaches : ReachesParts d choices) (name : String) (i : Nat) {call : Call} {e : Element} {action : Action}
    {params : Table Value} (hcall : call ∈ (watchAll ⟨d, (build d choices name (identifier (i + 1))).globals⟩).2.calls)
    (huse : Uses ⟨d, (build d choices name (identifier (i + 1))).globals⟩ call e action params) :
    let tree := (build d choices name (identifier (i + 1))).tree
    let compiled := ((compile .fresh choices name d).run i).1.text
    let texts := action.elements.getD []
    (∀ s, e.attr? "color" = some s → Literal s →
      (coerce s = .str s → (checkColor d params = .ok () ↔ ∃ k ∈ d.colors, k.name = s) ∧
        ((¬∃ k ∈ d.colors, k.name = s) → compiled = .error (.undefinedColor s) ∧
          (Error.undefinedColor s).message = "color \"" ++ s ++ "\" is not defined")) ∧
      (coerce s ≠ .str s → compiled = .error .wrongKind)) ∧
    (∀ s, e.attr? "chart" = some s → Literal s →
      (coerce s = .str s → (∀ own x, Emits params texts own x → x.attr? "chart" = some s) ∧
        ∀ a, expandActionTexts params texts = .ok a → a.writable = true) ∧
      (coerce s ≠ .str s → (∀ own x, Emits params texts own x → x.attr? "chart" = some "") ∧
        ∀ a project, expandActionTexts params texts = .ok a → a.nodes ≠ [] → (coerce s).truth = true →
          tree = .ok project → compiled = .error .absent)) ∧
    (∀ s, e.attr? "attrs" = some s → Literal s →
      (coerce s = .str s → (∀ own, ∃ x, addAttrs params own = .ok x) ∧
        ∀ own x, Emits params texts own x → ∃ t, x.attr? "attrs" = some t ∧ (Text.cut t ",").Nodup ∧
          ∀ p, p ∈ Text.cut t "," ↔ p ∈ Text.cut s "," ∨ ∃ o, own.attr? "attrs" = some o ∧ p ∈ Text.cut o ",") ∧
      (coerce s ≠ .str s → (∀ own x, ¬Emits params texts own x) ∧
        (checkColor d params = .ok () → Keeps params texts → compiled = .error .absent))) ∧
    ∀ project, tree = .ok project → ∃ a, expandActionTexts params texts = .ok a ∧ ∀ n ∈ a.nodes,
      ∃ own x : Element, n = x.toNode ∧ Emits params texts own x ∧ x ∈ descendants x.name project.nodes := by
  intro tree compiled texts
  have hlawful := (counts_of_mem_watchAll (nodup_keys_globals d choices name _) hcall).node
  have hparam : ∀ {k s}, k ∈ textParameters → e.attr? k = some s → Literal s → params.get? k = some (coerce s) :=
    fun hk hs hliteral => huse.get?_params hlawful hk hs hliteral
  have hcolorFails : ∀ {report}, checkColor d params = .error report → compiled = .error report := by
    intro report h
    refine compiled_of_ownResult_error hpackaged hreaches hcall ?_
    rw [huse.ownResult, h]
    rfl
  refine ⟨fun s hs hliteral => ⟨fun htext => ?_, fun hnumber => ?_⟩, fun s hs hliteral => ⟨fun htext => ?_, fun hnumber => ?_⟩,
    fun s hs hliteral => ⟨fun htext => ?_, fun hnumber => ?_⟩, fun project hproject => ?_⟩
  · have hcolor := checkColor_of_text (d := d) (htext ▸ hparam (by decide) hs hliteral)
    refine ⟨?_, fun hnone => ⟨hcolorFails (hcolor.trans (if_neg hnone)), rfl⟩⟩
    rw [hcolor]
    split
    · next hdefined => exact ⟨fun _ => hdefined, fun _ => rfl⟩
    · next hnone => exact ⟨nofun, fun hdefined => absurd hdefined hnone⟩
  · exact hcolorFails (checkColor_of_number (hparam (by decide) hs hliteral) hnumber)
  · have hchart := htext ▸ hparam (k := "chart") (by decide) hs hliteral
    exact ⟨fun own x hx => hx.chart hchart, fun a ha => (writable_expandActionTexts hchart ha).2 (.inr rfl)⟩
  · have hchart := hparam (k := "chart") (by decide) hs hliteral
    have hraw := rawText_of_number hnumber
    refine ⟨fun own x hx => ?_, fun a project ha hne htrue hproject => ?_⟩
    · rw [hx.chart hchart, hraw]
    · refine compiled_of_not_writable hpackaged hproject fun hwritable => ?_
      -- a project that can be written holds only what can be written
      obtain ⟨a', hown, hholds⟩ := ownResult_of_tree hcall hproject
      cases ha.symm.trans (huse.of_ownResult_ok hown).2
      rcases (writable_expandActionTexts hchart ha).1 (hholds.writable hwritable) with hnil | hzero
      · exact hne hnil
      · rw [hraw, htrue] at hzero
        cases hzero
  · have hattrs := htext ▸ hparam (k := "attrs") (by decide) hs hliteral
    refine ⟨fun own => ?_, fun own x hx => hx.attrs hattrs⟩
    simp only [addAttrs, hattrs]
    exact ⟨_, rfl⟩
  · have hfails := addAttrs_of_number (hparam (k := "attrs") (by decide) hs hliteral) hnumber
    refine ⟨fun own x hx => ?_, fun hcolor hkeeps => ?_⟩
    · obtain ⟨y, hy, -⟩ := hx.added
      cases (hfails own).symm.trans hy
    · refine compiled_of_ownResult_error hpackaged hreaches hcall ?_
      have htexts := hkeeps.fails hfails
      rw [huse.ownResult, hcolor]
      show (match action.elements with
        | some texts => expandActionTexts params texts
        | none => .error .wrongKind) = _
      cases helements : action.elements with
      | none =>
        simp only [texts, helements, Option.getD_none] at htexts
        cases htexts
      | some texts' =>
        simp only [texts, helements, Option.getD_some] at htexts
        exact htexts
  · obtain ⟨a, hown, hholds⟩ := ownResult_of_tree hcall hproject
    have ha := (huse.of_ownResult_ok hown).2
    refine ⟨a, ha, fun n hn => ?_⟩
    obtain ⟨own, x, rfl, hx⟩ := exists_emits ha n hn
    exact ⟨own, x, rfl, hx, hholds.elements x.name (mem_descendants_of_mem hn)⟩

/-- A packaged pattern whose component uses an action with a colour, a chart that is a number, and attributes. -/
def numberedChart : Document :=
  { Document.empty with
    pkgVersion := some "p"
    colors := [⟨"red", "#ff0000", ""⟩]
    actions := [⟨"a", true, Table.empty, some ["<action attrs=\"y\"/>"]⟩]
    components := [⟨"k", none,
      some ["<opaf:action name=\"a\" color=\"red\" chart=\"7\" attrs=\"z,y\" xmlns:opaf=\"u\"/>"], none⟩] }

/-- What the expansion of the pattern looks up. -/
def numberedContext : Context := ⟨numberedChart, (build numberedChart ⟨.empty, .empty⟩ "k" (identifier (0 + 1))).globals⟩

theorem numberedChart_reachesParts : ReachesParts numberedChart ⟨.empty, .empty⟩ where
  pattern := ⟨_, rfl⟩
  configs := ⟨[], rfl⟩
  values := rfl
  colors := ⟨_, rfl⟩

/-- The action emits an element with both attributes, and without a chart; so the project cannot be written. -/
theorem numberedChart_cannot_be_written : ∃ project own x, ∃ t : String,
    (build numberedChart ⟨.empty, .empty⟩ "k" (identifier (0 + 1))).tree = .ok project ∧
      x ∈ descendants x.name project.nodes ∧ x.attr? "chart" = some "" ∧ x.attr? "attrs" = some t ∧
      (∀ p, p ∈ Text.cut t "," ↔ p ∈ Text.cut "z,y" "," ∨ ∃ o, Element.attr? own "attrs" = some o ∧ p ∈ Text.cut o ",") ∧
      ((compile .fresh ⟨.empty, .empty⟩ "k" numberedChart).run 0).1.text = .error .absent := by
  have hcheck : ((build numberedChart ⟨.empty, .empty⟩ "k" (identifier (0 + 1))).tree.toOption.isSome &&
      (watchAll numberedContext).2.calls.any fun call => (call.use? numberedContext).any fun u =>
        u.1.attr? "chart" == some "7" && u.1.attr? "attrs" == some "z,y" &&
          (expandActionTexts u.2.2 (u.2.1.elements.getD [])).toOption.any fun a => !a.nodes.isEmpty) = true := by
    decide +kernel
  obtain ⟨hproject, hany⟩ := Bool.and_eq_true_iff.1 hcheck
  obtain ⟨project, hproject⟩ := Option.isSome_iff_exists.1 hproject
  have htree := toOption_eq_some.1 hproject
  obtain ⟨call, hcall, huse⟩ := List.any_eq_true.1 hany
  rw [numberedContext] at hcall huse
  obtain ⟨⟨e, action, params⟩, huse, hpassed⟩ := (Option.any_eq_true ..).1 huse
  simp only [Bool.and_eq_true, beq_iff_eq] at hpassed
  obtain ⟨⟨hchart, hattrs⟩, hsome⟩ := hpassed
  obtain ⟨a, ha, hne⟩ := (Option.any_eq_true ..).1 hsome
  have hnumber : coerce "7" = .int 7 := by rw [coerce, show Number.readInt? "7" = some 7 by decide +kernel]
  have htext : coerce "z,y" = .str "z,y" := by
    rw [coerce, show Number.readInt? "z,y" = none by decide +kernel, show Number.readBinary64? "z,y" = none by decide +kernel]
  obtain ⟨-, hcharts, hunion, hemitted⟩ := action_texts_as_read (d := numberedChart) (by decide +kernel)
    numberedChart_reachesParts "k" 0 hcall (Call.uses huse)
  obtain ⟨a', ha', hnodes⟩ := hemitted project htree
  cases ha'.symm.trans (toOption_eq_some.1 ha)
  have hnonempty : a.nodes ≠ [] := by simpa using hne
  obtain ⟨n, hn⟩ := List.exists_mem_of_ne_nil _ hnonempty
  obtain ⟨own, x, -, hx, hstands⟩ := hnodes n hn
  obtain ⟨hempty, hunwritten⟩ := (hcharts "7" hchart (by decide +kernel)).2 (by simp [hnumber])
  obtain ⟨t, ht, -, hparts⟩ := ((hunion "z,y" hattrs (by decide +kernel)).1 htext).2 own x hx
  have htrue : (coerce "7").truth = true := by rw [hnumber]; rfl
  exact ⟨project, own, x, t, htree, hstands, hempty own x hx, ht, hparts,
    hunwritten a project (toOption_eq_some.1 ha) hnonempty htrue htree⟩

end Stitchwork.Project
