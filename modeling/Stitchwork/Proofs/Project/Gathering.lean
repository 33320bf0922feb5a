/- # Stitchwork.Proofs.Project.Gathering — what charts and actions gather.

A chart takes the rows among the elements right below it, and an action takes the elements with the name `action` at any
depth below it.  Neither is quite what stands there.  A chart accepts actions and repeats beside its rows and drops
them.  An element of an action that stands inside another is taken twice, by itself and inside the other, and once more
when the definition is packaged and read again, so that a use of the action becomes more than before.
-/
import Mathlib.Data.List.Perm.Basic
import Stitchwork.Proofs.Markup.Plain
import Stitchwork.Proofs.Pattern.Checking
import Stitchwork.Proofs.Pattern.RoundTrip
import Stitchwork.Proofs.Pattern.Simple
import Stitchwork.Proofs.Project.Vocabulary

namespace Stitchwork.Pattern

open Stitchwork.Markup

variable {e : Element}

/-! ## What a chart keeps -/

/-- The text that is stored of a row. -/
def rowText (e : Element) : String := (declare (e.bared noProse)).write

theorem elements_filter (p : Node → Bool) (ns : List Node) :
    (ns.filter p).filterMap Node.element? = (ns.filterMap Node.element?).filter fun e => p e.toNode := by
  induction ns with
  | nil => rfl
  | cons n ns ih =>
    rcases outline_cases n with ⟨e, rfl⟩ | hn
    · rw [elements_cons, List.filter_cons, List.filter_cons, ← ih]
      split
      · exact elements_cons e _
      · rfl
    · rw [elements_cons_of_not hn, List.filter_cons, ← ih]
      split
      · exact elements_cons_of_not hn _
      · rfl

/-- The stored rows are the texts of the rows among the elements of the chart. -/
theorem store_rows (ns : List Node) :
    store (((elementsOnly noProse ns).map Chart.declareRow).filter Chart.isRow) =
      ((ns.filterMap Node.element?).filter fun e => Chart.isRow e.toNode).map rowText := by
  rw [filter_isRow_declareRow, store_declare, elements_filter, elements_elementsOnly, List.filter_map, List.map_map]
  rfl

/-- Reading a chart is checking its name and the names of its elements, and taking its rows. -/
theorem Chart.exists_ofElement {c : Chart} : (∃ left, Chart.ofElement e = .ok (c, left)) ↔
    Text.hasChar (e.attr "name") ':' = false ∧ (∀ x ∈ reached noProse e.children, Admitted chartElements x.name) ∧
      c = ⟨e.attr "name", (e.elements.filter fun x => Chart.isRow x.toNode).map rowText, e.attr? "condition"⟩ := by
  simp only [Chart.ofElement_eq_ok, prune_eq_ok]
  constructor
  · rintro ⟨left, hcolon, kept, ⟨hall, rfl⟩, hp⟩
    rw [store_rows] at hp
    exact ⟨hcolon, hall, congrArg Prod.fst hp⟩
  · rintro ⟨hcolon, hall, rfl⟩
    refine ⟨{ e with children := (elementsOnly noProse e.children).map declareRow }, hcolon, _, ⟨hall, rfl⟩, ?_⟩
    rw [store_rows]
    rfl

/-- **What a chart accepts and what it keeps.**  It accepts every arrangement of actions, repeats and rows, at any depth,
and keeps the rows that stand right below it, in their order.  So all that it accepts is kept only if nothing but rows
stands right below it, and otherwise the chart is the one that it would be without the rest. -/
theorem chart_keeps_rows_only (e : Element) :
    ((∃ c left, Chart.ofElement e = .ok (c, left)) ↔ Text.hasChar (e.attr "name") ':' = false ∧
      ∀ x ∈ reached noProse e.children, Admitted chartElements x.name) ∧
    ∀ c left, Chart.ofElement e = .ok (c, left) →
      c.rows = (e.elements.filter fun x => localName x.name == "row").map rowText ∧
      (c.rows = e.elements.map rowText ↔ ∀ x ∈ e.elements, localName x.name = "row") ∧
      ∃ left', Chart.ofElement { e with children := e.children.filter Chart.isRow } = .ok (c, left') := by
  refine ⟨?_, fun c left hc => ?_⟩
  · simp only [Chart.exists_ofElement, exists_and_left, exists_eq, and_true]
  · obtain ⟨hcolon, hall, hrows⟩ := Chart.exists_ofElement.1 ⟨left, hc⟩
    have htaken : c.rows = (e.elements.filter fun x => localName x.name == "row").map rowText := congrArg Chart.rows hrows
    refine ⟨htaken, ?_, Chart.exists_ofElement.2 ⟨hcolon, ?_, ?_⟩⟩
    · rw [htaken]
      constructor
      · -- texts of different elements may be the same, but there would be fewer of them
        intro hsame
        have hlength := congrArg List.length hsame
        rw [List.length_map, List.length_map, List.length_filter_eq_length_iff] at hlength
        exact fun x hx => beq_iff_eq.1 (hlength x hx)
      · intro hrow
        rw [List.filter_eq_self.2 fun x hx => beq_iff_eq.2 (hrow x hx)]
    · obtain ⟨kept, hkept⟩ := prune_filter Chart.isRow (prune_eq_ok.2 ⟨hall, rfl⟩)
      exact (prune_eq_ok.1 hkept).1
    · have hsame : ({ e with children := e.children.filter Chart.isRow } : Element).elements =
          e.elements.filter fun x => Chart.isRow x.toNode := elements_filter Chart.isRow e.children
      rw [hrows, hsame, List.filter_filter]
      simp only [Bool.and_self]
      rfl

/-- A chart with a repeat, and a row in the repeat. -/
def repeatedRow : Element :=
  ⟨Kind.chart.tag, ⟨[("name", "c")]⟩, [.element "opaf:repeat" ⟨[("count", "2")]⟩
    [.element "opaf:row" ⟨[("type", "flat")]⟩ []]]⟩

/-- The row of such a chart is accepted, and lost. -/
theorem repeatedRow_keeps_nothing : ∃ c left, Chart.ofElement repeatedRow = .ok (c, left) ∧ c.rows = [] ∧
    c.rows ≠ repeatedRow.elements.map rowText := by
  obtain ⟨haccepts, hkeeps⟩ := chart_keeps_rows_only repeatedRow
  obtain ⟨c, left, hc⟩ := haccepts.2 (by decide +kernel)
  obtain ⟨hrows, hall, -⟩ := hkeeps c left hc
  refine ⟨c, left, hc, ?_, hall.not.2 (by decide +kernel)⟩
  rw [hrows]
  decide +kernel

/-! ## What an action takes -/

/-- The elements that an action takes. -/
def gathered (e : Element) : List Element := descendants "action" e.children

/-- The elements among them that stand inside others, once for each that they stand in. -/
def nested (e : Element) : List Element := (gathered e).flatMap fun c => descendants "action" c.children

/-- The elements that an action takes after it has been packaged: each is followed by those inside it. -/
def regathered (e : Element) : List Element := (gathered e).flatMap fun c => c :: descendants "action" c.children

theorem gathered_of_children {h : Element} (hchildren : h.children = (gathered e).map Element.toNode) :
    gathered h = regathered e := by
  rw [gathered, hchildren, descendants_map_toNode, regathered]
  refine List.flatMap_congr fun c hc => ?_
  rw [selfAndDescendants_toNode, if_pos (name_of_mem_descendants _ hc), List.singleton_append]

/-- All that is taken is taken again, and what is nested once more. -/
theorem regathered_perm (e : Element) : (regathered e).Perm (gathered e ++ nested e) := by
  have hperm := List.map_append_flatMap_perm (gathered e) id fun c => descendants "action" c.children
  rw [List.map_id] at hperm
  exact hperm.symm

theorem mem_gathered_of_mem_regathered {c : Element} (hc : c ∈ regathered e) : c ∈ gathered e := by
  rcases List.mem_append.1 ((regathered_perm e).mem_iff.1 hc) with hc | hc
  · exact hc
  · obtain ⟨d, hd, hc⟩ := List.mem_flatMap.1 hc
    exact selfAndDescendants_subset_of_mem _ hd (descendants_children_subset d _ hc)

/-- The texts stay the same exactly if nothing is nested. -/
theorem texts_regathered_eq_iff (e : Element) :
    (regathered e).map Element.write = (gathered e).map Element.write ↔ nested e = [] := by
  constructor
  · intro hsame
    have hlength := congrArg List.length hsame
    rw [List.length_map, List.length_map, (regathered_perm e).length_eq, List.length_append] at hlength
    exact List.length_eq_zero_iff.1 (by omega)
  · intro hnone
    have hself : ∀ c ∈ gathered e, c :: descendants "action" c.children = [c] := by
      intro c hc
      rw [List.flatMap_eq_nil_iff.1 hnone c hc]
    rw [regathered, List.flatMap_congr hself, List.flatMap_singleton']

/-- The elements of an action in a document that has been read come back from their texts, if they are spelled simply. -/
theorem restore_write_of_mem_gathered {s : String} {root : Element} (hroot : Markup.read s = .ok root)
    (he : e ∈ selfAndDescendants Kind.action.tag root.toNode) (hsimple : ∀ c ∈ gathered e, isSimple c.toNode) :
    ∀ c ∈ gathered e, restore c.write = .ok c := by
  intro c hc
  have htags {P : List (String × String) → Prop} (hP : EnsuredByTags P) : EachTag P c.toNode :=
    eachTag_of_mem_descendants _ (eachTag_of_mem_selfAndDescendants _ (eachTag_read hP hroot) he).2 hc
  have hok : c.Ok := ok_of_mem_descendants _ (ok_of_mem_selfAndDescendants _ (read_ok hroot) he).children hc
  have hlawful : Lawful c.toNode := (lawful_iff_eachTag _).2 (htags lawful_readTag)
  exact mapError_eq_ok.2 (read_write_of_isSimple hok hlawful (htags ordered_readTag) (hsimple c hc))

/-- The element that an action becomes holds the elements that have been taken, one beside the other. -/
theorem Action.toElement_of_restore_write {text : String}
    (htext : Returns readActionParams (Action.ofElement e).params text)
    (hrestore : ∀ c ∈ gathered e, restore c.write = .ok c) : ∃ h, (Action.ofElement e).toElement = .ok h ∧
      h.name = Kind.action.tag ∧ h.children = (gathered e).map Element.toNode := by
  have hrestored : restoreAll ((gathered e).map Element.write) = .ok (gathered e) := by
    rw [restoreAll, mapM_eq_ok, List.forall₂_map_left_iff, List.forall₂_same]
    exact hrestore
  rw [Action.toElement, htext.writes]
  show ∃ h, (restoreAll ((gathered e).map Element.write) >>= _) = _ ∧ _
  rw [hrestored]
  exact ⟨_, rfl, rfl, List.nil_append _⟩

end Stitchwork.Pattern

namespace Stitchwork.Project

open Stitchwork.Formula Stitchwork.Markup Stitchwork.Pattern

variable {params : Table Value} {es : List Element}

/-! ## What a use of an action becomes -/

/-- Is the element of an action kept, with these values of the parameters? -/
def isEmitted (params : Table Value) (e : Element) : Bool := (partHolds params e).toOption.getD false

theorem length_expandActionElement {e : Element} {a : Expansion} (h : expandActionElement params e = .ok a) :
    a.nodes.length = if isEmitted params e then 1 else 0 := by
  have hone : ∀ x, (addChart params x).nodes.length = 1 := by
    intro x
    rcases nodes_addChart params x with hnodes | ⟨_, hnodes⟩
    · rw [hnodes, List.length_singleton]
    · rw [hnodes, List.length_singleton]
  rw [expandActionElement_eq] at h
  obtain ⟨kept, hkept, h⟩ := bind_eq_ok.1 h
  have hemitted : isEmitted params e = kept := by
    rw [isEmitted, hkept]
    rfl
  rw [hemitted]
  cases kept with
  | false =>
    cases h
    rfl
  | true =>
    obtain ⟨attrs, -, h⟩ := bind_eq_ok.1 h
    obtain ⟨x, -, h⟩ := bind_eq_ok.1 h
    cases h
    exact hone x

/-- Stored elements that come back are expanded one by one. -/
theorem expandActionTexts_write (hrestore : ∀ e ∈ es, restore e.write = .ok e) :
    expandActionTexts params (es.map Element.write) = expandEach (expandActionElement params) es := by
  induction es with
  | nil => rfl
  | cons e es ih =>
    rw [List.forall_mem_cons] at hrestore
    rw [List.map_cons, expandActionTexts, hrestore.1, ih hrestore.2]
    rfl

theorem length_expandEach {a : Expansion} (h : expandEach (expandActionElement params) es = .ok a) :
    a.nodes.length = es.countP (isEmitted params) := by
  induction es generalizing a with
  | nil =>
    cases h
    rfl
  | cons e es ih =>
    obtain ⟨b, hb, h⟩ := bind_eq_ok.1 h
    obtain ⟨rest, hrest, h⟩ := bind_eq_ok.1 h
    cases h
    rw [Expansion.append, List.length_append, ih hrest, length_expandActionElement hb, List.countP_cons, Nat.add_comm]

theorem exists_expandEach (h : ∀ e ∈ es, ∃ b, expandActionElement params e = .ok b) :
    ∃ a, expandEach (expandActionElement params) es = .ok a := by
  induction es with
  | nil => exact ⟨_, rfl⟩
  | cons e es ih =>
    obtain ⟨⟨b, hb⟩, hothers⟩ := List.forall_mem_cons.1 h
    obtain ⟨rest, hrest⟩ := ih hothers
    exact ⟨b.append rest, bind_eq_ok.2 ⟨b, hb, bind_eq_ok.2 ⟨rest, hrest, rfl⟩⟩⟩

/-- Stored elements that come back are all expanded, and those without a false condition are emitted. -/
theorem expandActionTexts_eq_ok {a : Expansion} (hrestore : ∀ e ∈ es, restore e.write = .ok e)
    (h : expandActionTexts params (es.map Element.write) = .ok a) :
    (∀ e ∈ es, ∃ b, expandActionElement params e = .ok b) ∧ a.nodes.length = es.countP (isEmitted params) := by
  rw [expandActionTexts_write hrestore] at h
  exact ⟨forall_of_expandEach h, length_expandEach h⟩

theorem exists_expandActionTexts (hrestore : ∀ e ∈ es, restore e.write = .ok e)
    (h : ∀ e ∈ es, ∃ b, expandActionElement params e = .ok b) :
    ∃ a, expandActionTexts params (es.map Element.write) = .ok a := by
  rw [expandActionTexts_write hrestore]
  exact exists_expandEach h

theorem expandAction_eq_ok {c : Context} {scope : Scope} {use : Element} {action : Action} {texts : List String}
    (haction : c.document.action (use.attr "name") = .ok action) (htexts : action.elements = some texts)
    {x : Expansion} : expandAction c scope use = .ok x ↔ ∃ params,
      bindArguments scope action.params (argumentsOf use) = .ok params ∧
      checkParams .action (use.attr "name") params = .ok () ∧ checkColor c.document params = .ok () ∧
      expandActionTexts params texts = .ok x := by
  rw [expandAction]
  simp only [haction]
  show (bindArguments scope action.params (argumentsOf use) >>= _) = _ ↔ _
  rw [bind_eq_ok]
  refine exists_congr fun params => and_congr_right fun _ => ?_
  simp only [bind_eq_ok, htexts]
  constructor
  · rintro ⟨_, hparams, _, hcolor, hx⟩
    exact ⟨hparams, hcolor, hx⟩
  · rintro ⟨hparams, hcolor, hx⟩
    exact ⟨(), hparams, (), hcolor, hx⟩

/-- **Packaging an action.**  Take any definition of an action in a document, whose elements are spelled simply and whose
parameters are not just one without a name and a value.  The element that it becomes is read as an action with the same
name, the same mark and the same parameters, which takes the elements of before, each followed by those inside it.  So
its texts are those of before exactly if no element stands inside another.  A use of it that can be expanded still can,
and becomes one element more for each time that an element stands inside another and is kept. -/
theorem packaged_action_takes_nested_again {s : String} {root e : Element} (hroot : Markup.read s = .ok root)
    (he : e ∈ selfAndDescendants Kind.action.tag root.toNode) (hsimple : ∀ c ∈ gathered e, isSimple c.toNode)
    (hparams : (Action.ofElement e).params.entries ≠ [("", .nothing)]) :
    ∃ h, (Action.ofElement e).toElement = .ok h ∧ (Subject.element h).expect .action = .ok h ∧
      Action.ofElement h = { Action.ofElement e with elements := some ((regathered e).map Element.write) } ∧
      ((Action.ofElement h).elements = (Action.ofElement e).elements ↔ nested e = []) ∧
      ∀ (c c' : Context) (scope : Scope) (use : Element) (x : Expansion),
        c.document.action (use.attr "name") = .ok (.ofElement e) →
        c'.document.action (use.attr "name") = .ok (.ofElement h) →
        c'.document.colorTable = c.document.colorTable → expandAction c scope use = .ok x →
        ∃ params y, bindArguments scope (Action.ofElement e).params (argumentsOf use) = .ok params ∧
          expandAction c' scope use = .ok y ∧
          y.nodes.length = x.nodes.length + (nested e).countP (isEmitted params) := by
  have hrestore := restore_write_of_mem_gathered hroot he hsimple
  have hrestore' : ∀ c ∈ regathered e, restore c.write = .ok c :=
    fun c hc => hrestore c (mem_gathered_of_mem_regathered hc)
  obtain ⟨text, htext⟩ := exists_returns_action hparams
  obtain ⟨h, hh, hname, hchildren⟩ := Action.toElement_of_restore_write htext hrestore
  have hagain : Action.ofElement h = { Action.ofElement e with elements := some ((regathered e).map Element.write) } := by
    rw [Action.ofElement_of_toElement htext hh, ← gathered_of_children hchildren]
    rfl
  refine ⟨h, hh, if_pos (beq_iff_eq.2 hname), hagain, ?_, fun c c' scope use x hc hc' hcolors hx => ?_⟩
  · rw [hagain]
    exact Option.some_inj.trans (texts_regathered_eq_iff e)
  · -- the packaged action has no elements that were not there before, so whatever could be expanded still can
    obtain ⟨params, hbound, hgiven, hcolor, hx⟩ := (expandAction_eq_ok hc rfl).1 hx
    obtain ⟨hall, hlength⟩ := expandActionTexts_eq_ok hrestore hx
    obtain ⟨y, hy⟩ := exists_expandActionTexts hrestore' fun c hc => hall c (mem_gathered_of_mem_regathered hc)
    rw [hagain] at hc'
    have hcolor' : checkColor c'.document params = .ok () := by
      rw [checkColor, hcolors]
      exact hcolor
    refine ⟨params, y, hbound, (expandAction_eq_ok hc' rfl).2 ⟨params, hbound, hgiven, hcolor', hy⟩, ?_⟩
    rw [(expandActionTexts_eq_ok hrestore' hy).2, hlength, (regathered_perm e).countP_eq, List.countP_append]

/-- The definition of an action in which one element stands inside another. -/
def actionInAction : String :=
  "<opaf:define_action xmlns:opaf=\"u\" name=\"a\"><action><action/></action></opaf:define_action>"

/-- A pattern with one action, and without global values. -/
def contextOf (a : Action) : Context := ⟨{ Document.empty with actions := [a] }, Table.empty⟩

/-- A use of the action, without arguments. -/
def useOfAction : Element := element "opaf:action" [("name", "a")]

theorem action_contextOf {a : Action} (h : a.name = "a") :
    (contextOf a).document.action (useOfAction.attr "name") = .ok a := by
  have hfound : [a].find? (·.name == "a") = some a := List.find?_cons_of_pos (beq_iff_eq.2 h)
  show findNamed .action Action.name [a] "a" = .ok a
  rw [findNamed, hfound]

/-- A use of this action becomes two elements at first, and three after the action has been packaged. -/
theorem actionInAction_grows : ∃ root e h x y, Markup.read actionInAction = .ok root ∧
    e ∈ selfAndDescendants Kind.action.tag root.toNode ∧ (Action.ofElement e).toElement = .ok h ∧
    (Action.ofElement h).elements ≠ (Action.ofElement e).elements ∧
    expandAction (contextOf (.ofElement e)) Table.empty useOfAction = .ok x ∧ x.nodes.length = 2 ∧
    expandAction (contextOf (.ofElement h)) Table.empty useOfAction = .ok y ∧ y.nodes.length = 3 := by
  have hchecked : (readPlain actionInAction).toOption.any fun root =>
      (selfAndDescendants Kind.action.tag root.toNode).any fun e =>
        (gathered e).all (isSimple ·.toNode) && (Action.ofElement e).params.isEmpty &&
        (Action.ofElement e).name == "a" && (nested e).countP (isEmitted Table.empty) == 1 &&
        (expandAction (contextOf (.ofElement e)) Table.empty useOfAction).toOption.any (·.nodes.length == 2) := by
    decide +kernel
  rw [readPlain_eq_read] at hchecked
  cases hroot : Markup.read actionInAction with
  | error f =>
    rw [hroot] at hchecked
    cases hchecked
  | ok root =>
    rw [hroot] at hchecked
    obtain ⟨e, he, hchecked⟩ := List.any_eq_true.1 hchecked
    simp only [Bool.and_eq_true, List.all_eq_true, beq_iff_eq] at hchecked
    obtain ⟨⟨⟨⟨hsimple, hempty⟩, hname⟩, hnested⟩, hx⟩ := hchecked
    have hparams : (Action.ofElement e).params = Table.empty := congrArg Table.mk (List.isEmpty_iff.1 hempty)
    obtain ⟨h, hh, -, hagain, hsame, hgrows⟩ :=
      packaged_action_takes_nested_again hroot he hsimple (by simp [hparams, Table.empty])
    cases hx' : expandAction (contextOf (.ofElement e)) Table.empty useOfAction with
    | error f =>
      rw [hx'] at hx
      cases hx
    | ok x =>
      rw [hx'] at hx
      have hname' : (Action.ofElement h).name = "a" := by rw [hagain, hname]
      obtain ⟨params, y, hbound, hy, hlength⟩ :=
        hgrows _ _ _ _ x (action_contextOf hname) (action_contextOf hname') rfl hx'
      rw [hparams] at hbound
      obtain rfl : Table.empty = params := Except.ok.inj hbound
      have hlength' : x.nodes.length = 2 := beq_iff_eq.1 hx
      rw [hlength', hnested] at hlength
      refine ⟨root, e, h, x, y, rfl, he, hh, hsame.not.2 fun hnone => ?_, hx', hlength', hy, hlength⟩
      rw [hnone] at hnested
      cases hnested

end Stitchwork.Project
