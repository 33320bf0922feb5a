/- # Stitchwork.Proofs.Pattern.RoundTrip — from a document to its package and back.

The proof has two halves.  The first is about single definitions: the element that a portable definition becomes is
read as the definition itself, and nothing has to be drawn for it.  The second is about the package: its elements stand
side by side under the root, so reading them kind by kind finds each definition once, in the order of the document.
-/
import Stitchwork.Proofs.Pattern.Portable

namespace Stitchwork.Pattern

open Stitchwork.Markup

variable {d d' : Document} {x : Definition} {xs : List Definition}

/-! ## Fields that are read again -/

theorem valueIn?_attrIfGiven {o : Option String} (ho : o ≠ some "") (j k : String) :
    Table.valueIn? j (attrIfGiven k o) = if k = j then o else none := by
  cases o with
  | none => simp [attrIfGiven, Table.valueIn?]
  | some s =>
    have hs : s.isEmpty = false := by
      rw [Bool.eq_false_iff]
      intro hempty
      exact ho (congrArg some (by simpa using hempty))
    rw [attrIfGiven, hs]
    rfl

theorem valueIn?_option (o : Option String) (j k : String) :
    Table.valueIn? j (o.map (k, ·)).toList = if k = j then o else none := by
  cases o with
  | none => simp [Table.valueIn?]
  | some s => rfl

theorem valueIn?_when (b : Bool) (j k v : String) :
    Table.valueIn? j (if b then [(k, v)] else []) = if k = j then (if b then some v else none) else none := by
  cases b <;> simp [Table.valueIn?]

theorem saysTrue_boolText (b : Bool) : saysTrue (boolText b) = b := by
  cases b <;> decide +kernel

/-- Allowed values that have been cut out of a text are cut out of what is written of them again. -/
theorem cut_write_allowed (s : String) :
    (Text.cut (Text.join "," ((Text.cut s ",").map Text.trim)) ",").map Text.trim = (Text.cut s ",").map Text.trim := by
  have hcomma : ∀ p ∈ (Text.cut s ",").map Text.trim, ',' ∉ p.toList := by
    rw [List.forall_mem_map]
    intro p hp hmem
    exact Text.not_mem_of_mem_cut rfl hp (Text.mem_of_mem_trim hmem)
  have hne : (Text.cut s ",").map Text.trim ≠ [] := by
    rw [ne_eq, List.map_eq_nil_iff]
    exact Text.cut_ne_nil rfl s
  rw [Text.cut_join rfl hne hcomma, List.map_map]
  exact List.map_congr_left fun p _ => Text.trim_trim p

/-! ## Definitions that are read again -/

/-- The definition with the data of an image as bytes. -/
def Definition.asBytes : Definition → Definition
  | .image i => .image ⟨i.name, .bytes i.data.toBytes⟩
  | x => x

theorem elements_map_toNode (cs : List Element) : (cs.map Element.toNode).filterMap Node.element? = cs := by
  rw [List.filterMap_map]
  exact List.filterMap_some

section

variable {h : Element}

theorem attr?_of_fields (hx : x.IsRead) (hh : x.toElement.1 = .ok h) {fields : List (String × String)}
    (hfields : x.fields = .ok fields) (k : String) : h.attr? k = Table.valueIn? k fields := by
  rw [entries_of_toElement hx hh, Except.ok.injEq] at hfields
  rw [← hfields]
  rfl

theorem attr_of_attr? {k : String} {o : Option String} (hk : h.attr? k = o) : h.attr k = o.getD "" :=
  congrArg (Option.getD · "") hk

/-- What was stored with the declaration is stored with it again. -/
theorem store_declare_map_toNode (cs : List Element) :
    store ((cs.map Element.toNode).map declareNode) = cs.map fun c => (declare c).write := by
  rw [store_declare, elements_map_toNode]

theorem prune_children {allowed : List String} {cs : List Element} (hcs : ∀ c ∈ cs, Pruned noProse c.toNode)
    (h : ∃ kept, prune allowed (cs.map Element.toNode) = .ok kept) :
    prune allowed (cs.map Element.toNode) = .ok (cs.map Element.toNode) := by
  obtain ⟨kept, hkept⟩ := h
  rw [hkept, eq_of_prune _ (allPruned_iff.2 (List.forall_mem_map.2 hcs)) hkept]

/-- The element that an action becomes is read as the action, but for the elements, which are looked for below it. -/
theorem Action.ofElement_of_toElement {a : Action} {text : String} (htext : Returns readActionParams a.params text)
    (hh : a.toElement = .ok h) :
    Action.ofElement h = { a with elements := some ((descendants "action" h.children).map Element.write) } := by
  have hread : ∀ fields ns, h = (element Kind.action.tag fields).append ns →
      fields = [("name", a.name), ("custom", boolText a.custom)] ++
        (if a.params.isEmpty then [] else [("params", text)]) →
      h.attr "name" = a.name ∧ h.attr "custom" = boolText a.custom ∧
        h.attr "params" = if a.params.isEmpty then "" else text := by
    rintro _ ns rfl rfl
    cases a.params.isEmpty with
    | true => exact ⟨rfl, rfl, rfl⟩
    | false => exact ⟨rfl, rfl, rfl⟩
  obtain ⟨_, hwritten, hh⟩ := bind_eq_ok.1 hh
  obtain rfl := Except.ok.inj (htext.writes.symm.trans hwritten)
  cases helements : a.elements with
  | none =>
    rw [helements] at hh
    cases hh
  | some texts =>
    rw [helements] at hh
    obtain ⟨es, -, hh⟩ := bind_eq_ok.1 hh
    obtain ⟨hname, hcustom, hparams⟩ := hread _ _ (Except.ok.inj hh).symm rfl
    rw [Action.ofElement, hname, hcustom, saysTrue_boolText, hparams, htext.reads]

theorem Action.ofElement_toElement {a : Action} (hx : (Definition.action a).IsRead) (hp : (Definition.action a).Portable)
    (hh : a.toElement = .ok h) : Action.ofElement h = a := by
  obtain ⟨cs, hchildren, hstored, hcarried⟩ := exists_children_of_portable hx hp hh
  obtain ⟨e, -, -, ha⟩ := id hx
  obtain ⟨text, htext⟩ : ∃ text, Returns readActionParams a.params text := by
    have hodd : a.params.entries ≠ [("", .nothing)] := hp.discernible
    rw [ha] at hodd ⊢
    exact exists_returns_action hodd
  have hactions : descendants "action" h.children = cs := by
    have hself : ∀ c ∈ cs, selfAndDescendants "action" c.toNode = [c] := by
      intro c hc
      rw [selfAndDescendants_toNode, if_pos (beq_iff_eq.1 (hcarried c hc).named), (hcarried c hc).single rfl]
      rfl
    rw [hchildren, descendants_map_toNode, List.flatMap_congr hself]
    exact List.flatMap_singleton' cs
  have helements : some (cs.map Element.write) = a.elements := by
    have hsome : a.elements = some (a.elements.getD []) := by
      rw [ha]
      rfl
    rw [hsome]
    exact congrArg some hstored
  rw [Action.ofElement_of_toElement htext hh, hactions, helements]

theorem Block.ofElement_toElement {b : Block} (hx : (Definition.block b).IsRead) (hp : (Definition.block b).Portable)
    (hh : b.toElement = .ok h) (hkept : ∃ kept, prune [] h.children = .ok kept) :
    ∃ after, Block.ofElement h = .ok (b, after) := by
  obtain ⟨cs, hchildren, hstored, hcarried⟩ := exists_children_of_portable hx hp hh
  obtain ⟨text, htext⟩ : ∃ text, Returns readBlockParams b.params text := by
    obtain ⟨e, e', -, hread⟩ := id hx
    obtain ⟨kept, -, heq⟩ := Block.ofElement_eq_ok.1 hread
    cases heq
    exact exists_returns_block (e.attr "params")
  have hattr := attr?_of_fields hx hh (by rw [Definition.fields, htext.writes]; rfl)
  have hname : h.attr "name" = b.name := attr_of_attr? (hattr "name")
  have hparams : h.attr "params" = if b.params.isEmpty then "" else text := by
    rw [attr_of_attr? (hattr "params")]
    split <;> rfl
  have helements : (cs.map fun c => (declare c).write) = b.elements := hstored
  rw [hchildren] at hkept
  refine ⟨{ h with children := (cs.map Element.toNode).map declareNode },
    Block.ofElement_eq_ok.2 ⟨cs.map Element.toNode, ?_, ?_⟩⟩
  · rw [hchildren, prune_children (fun c hc => (hcarried c hc).pruned) hkept]
  · rw [hname, hparams, htext.reads, store_declare_map_toNode, helements]

theorem Chart.ofElement_toElement {c : Chart} (hx : (Definition.chart c).IsRead) (hp : (Definition.chart c).Portable)
    (hh : c.toElement = .ok h) (hcolon : Text.hasChar (h.attr "name") ':' = false)
    (hkept : ∃ kept, prune chartElements h.children = .ok kept) : ∃ after, Chart.ofElement h = .ok (c, after) := by
  obtain ⟨cs, hchildren, hstored, hcarried⟩ := exists_children_of_portable hx hp hh
  have hattr := attr?_of_fields hx hh rfl
  have hname : h.attr "name" = c.name := attr_of_attr? (hattr "name")
  have hcondition : h.attr? "condition" = c.condition := (hattr "condition").trans (valueIn?_option _ _ _)
  have hrows : (cs.map Element.toNode).filter Chart.isRow = cs.map Element.toNode := by
    rw [List.filter_eq_self, List.forall_mem_map]
    intro r hr
    exact (hcarried r hr).named
  have helements : (cs.map fun c => (declare c).write) = c.rows := hstored
  rw [hchildren] at hkept
  refine ⟨{ h with children := (cs.map Element.toNode).map Chart.declareRow },
    Chart.ofElement_eq_ok.2 ⟨hcolon, cs.map Element.toNode, ?_, ?_⟩⟩
  · rw [hchildren, prune_children (fun c hc => (hcarried c hc).pruned) hkept]
  · rw [hname, hcondition, filter_isRow_declareRow, hrows, store_declare_map_toNode, helements]

theorem gives_uniqueIdOf {id : String} (hid : h.attr? "unique_id" = some id) : Gives (uniqueIdOf h) id := by
  rw [uniqueIdOf, hid]
  exact gives_pure id

theorem Component.gives_ofElement {c : Component} (hx : (Definition.component c).IsRead)
    (hp : (Definition.component c).Portable) (hh : c.toElement = .ok h)
    (hkept : ∃ kept, prune [] h.children = .ok kept) : ∃ after, Gives (Component.ofElement h) (c, after) := by
  obtain ⟨cs, hchildren, hstored, hcarried⟩ := exists_children_of_portable hx hp hh
  have hattr := attr?_of_fields hx hh rfl
  obtain ⟨e, id, kept, -, -, -, hc⟩ := id hx
  have hname : h.attr "name" = c.name := attr_of_attr? (hattr "name")
  have hid : h.attr? "unique_id" = some id := by
    rw [hattr, hc]
    rfl
  have hcondition : h.attr? "condition" = c.condition := (hattr "condition").trans (valueIn?_option _ _ _)
  have helements : (cs.map fun c => (declare c).write) = c.elements.getD [] := hstored
  rw [hchildren] at hkept
  refine ⟨{ h with children := (cs.map Element.toNode).map declareNode },
    gives_bind (gives_uniqueIdOf hid) (gives_bind (gives_liftExcept (a := cs.map Element.toNode) ?_) ?_)⟩
  · rw [hchildren, prune_children (fun c hc => (hcarried c hc).pruned) hkept]
  · have hsame : (⟨h.attr "name", some id, some (store ((cs.map Element.toNode).map declareNode)),
        h.attr? "condition"⟩ : Component) = c := by
      rw [hname, hcondition, store_declare_map_toNode, helements, hc]
      rfl
    dsimp only
    rw [hsame]
    exact gives_pure _

theorem Metadata.ofElement_toElement {m : Metadata} (hx : (Definition.metadata m).IsRead)
    (hp : (Definition.metadata m).Portable) (hh : m.toElement = .ok h)
    (hkept : ∃ kept, pruneMetadata h.children = .ok kept) : ∃ after, Metadata.ofElement h = .ok (m, after) := by
  obtain ⟨cs, hchildren, hstored, hcarried⟩ := exists_children_of_portable hx hp hh
  obtain ⟨kept, hkept⟩ := hkept
  have hsame : kept = cs.map Element.toNode := by
    rw [hchildren] at hkept
    exact eq_of_pruneMetadata _ (allPruned_iff.2 (List.forall_mem_map.2 fun c hc => (hcarried c hc).pruned)) hkept
  have helements : store kept = m.elements := by
    rw [hsame, store, elements_map_toNode]
    exact hstored
  exact ⟨{ h with children := kept }, Metadata.ofElement_eq_ok.2 ⟨kept, hkept, by rw [helements]⟩⟩

theorem Config.allowed_ofElement (e : Element) : (Config.ofElement e).allowed =
    ((e.attr? "allowed_values").map fun s => ⟨(Text.cut s ",").map Text.trim, true⟩).getD .unrestricted := by
  rw [Config.ofElement]
  cases e.attr? "allowed_values" with
  | none => rfl
  | some s => rfl

theorem Config.ofElement_toElement {c : Config} (hx : (Definition.config c).IsRead) (hp : (Definition.config c).Portable) :
    Config.ofElement c.toElement.1 = c := by
  have hattr := attr?_of_fields hx (show (Definition.config c).toElement.1 = .ok c.toElement.1 from rfl) rfl
  simp only [Table.valueIn?_append, valueIn?_attrIfGiven hp.discernible.1, valueIn?_attrIfGiven hp.discernible.2,
    valueIn?_when] at hattr
  have hname : c.toElement.1.attr "name" = c.name := attr_of_attr? (hattr "name")
  have hvalue : c.toElement.1.attr "value" = c.value := attr_of_attr? (hattr "value")
  have hrequired : c.toElement.1.attr "required" = boolText c.required := attr_of_attr? (hattr "required")
  have htitle : c.toElement.1.attr? "title" = c.title := by
    rw [hattr]
    simp [Table.valueIn?]
  have hdescription : c.toElement.1.attr? "description" = c.description := by
    rw [hattr]
    simp [Table.valueIn?]
  have hallowed : (Config.ofElement c.toElement.1).allowed = c.allowed := by
    have hwritten : c.toElement.1.attr? "allowed_values" = if c.allowed.given then some c.allowed.write.1 else none := by
      rw [hattr]
      simp [Table.valueIn?]
    obtain ⟨e, -, rfl⟩ := id hx
    rw [Config.allowed_ofElement, hwritten, Config.allowed_ofElement]
    cases e.attr? "allowed_values" with
    | none => rfl
    | some s => exact congrArg (Allowed.mk · true) (cut_write_allowed s)
  show (⟨c.toElement.1.attr "name", c.toElement.1.attr "value", saysTrue (c.toElement.1.attr "required"),
    (Config.ofElement c.toElement.1).allowed, c.toElement.1.attr? "title", c.toElement.1.attr? "description"⟩ : Config) = c
  rw [hname, hvalue, hrequired, saysTrue_boolText, hallowed, htitle, hdescription]

theorem NamedValue.gives_ofElement {v : NamedValue} (hx : (Definition.value v).IsRead)
    (hp : (Definition.value v).Portable) : Gives (NamedValue.ofElement v.toElement) v := by
  have hattr := attr?_of_fields hx (show (Definition.value v).toElement.1 = .ok v.toElement from rfl) rfl
  have hcondition : v.toElement.attr? "condition" = v.condition :=
    (hattr "condition").trans (valueIn?_attrIfGiven hp.discernible _ _)
  obtain ⟨e, id, -, -, hv⟩ := id hx
  have hid : v.toElement.attr? "unique_id" = some id := by
    rw [hattr, hv]
    rfl
  have hname : v.toElement.attr "name" = v.name := attr_of_attr? (hattr "name")
  have hvalue : v.toElement.attr "value" = v.value := attr_of_attr? (hattr "value")
  have hsame : (⟨v.toElement.attr "name", v.toElement.attr "value", some id, v.toElement.attr? "condition"⟩ : NamedValue) = v := by
    rw [hname, hvalue, hcondition, hv]
  refine gives_bind (gives_uniqueIdOf hid) ?_
  rw [hsame]
  exact gives_pure v

theorem Color.ofElement_toElement {c : Color} (hx : (Definition.color c).IsRead) (hp : (Definition.color c).Portable) :
    Color.ofElement c.toElement = .ok c := by
  have hvalue : tidy c.value = c.value := tidy_of_oneLine (hp.texts _ (by simp [Definition.texts]))
  obtain ⟨e, -, hread⟩ := hx
  obtain ⟨v, hv, rfl⟩ := Color.ofElement_eq_ok.1 hread
  obtain ⟨w, hw, hsame⟩ := normalColor_tidy hv
  rw [hsame hvalue] at hw
  refine Color.ofElement_eq_ok.2 ⟨v, ?_, rfl⟩
  rw [← hw]
  exact congrArg (fun s => normalColor (Text.lower (Text.trim s))) hvalue.symm

theorem Image.ofElement_toElement (sources : Sources) (dir : String) (i : Image) :
    Image.ofElement sources dir i.toElement = .ok ⟨i.name, .bytes i.data.toBytes⟩ := by
  have hdata := decodeData_tidy i.data
  rw [tidy_of_oneLine (oneLine_data i.data)] at hdata
  rw [Image.ofElement_of_data rfl rfl]
  show (decodeData i.data.text).map _ = _
  rw [hdata]
  rfl

theorem name_mem_texts (hk : x.kind ≠ .metadata) : x.name ∈ x.texts := by
  cases x with
  | metadata m => exact absurd rfl hk
  | _ => simp [Definition.texts, Definition.name]

/-- **A portable definition comes back** from the element that it became, and nothing is drawn. -/
theorem gives_ofElement_of_portable (sources : Sources) (dir : String) (hx : x.IsRead) (hp : x.Portable)
    (hh : x.toElement.1 = .ok h) : ∃ after, Gives (Definition.ofElement sources dir x.kind h) (x.asBytes, after) := by
  have hreadable : Readable sources dir x.kind h := by
    have htidied : Readable sources dir x.kind h.tidied :=
      readable_tidied hx hh fun hk => tidy_of_oneLine (hp.texts _ (name_mem_texts hk))
    rwa [tidied_of_portable hx hp hh] at htidied
  cases x with
  | action a =>
    refine ⟨h, ?_⟩
    show Gives (pure (Definition.action (.ofElement h), h)) _
    rw [Action.ofElement_toElement hx hp hh]
    exact gives_pure _
  | block b =>
    obtain ⟨after, hb⟩ := Block.ofElement_toElement hx hp hh hreadable
    exact ⟨after, gives_bind (gives_liftExcept hb) (gives_pure _)⟩
  | chart c =>
    obtain ⟨after, hc⟩ := Chart.ofElement_toElement hx hp hh hreadable.1 hreadable.2
    exact ⟨after, gives_bind (gives_liftExcept hc) (gives_pure _)⟩
  | color c =>
    cases hh
    exact ⟨_, gives_bind (gives_liftExcept (Color.ofElement_toElement hx hp)) (gives_pure _)⟩
  | component c =>
    obtain ⟨after, hc⟩ := Component.gives_ofElement hx hp hh hreadable
    exact ⟨after, gives_bind hc (gives_pure _)⟩
  | config c =>
    cases hh
    refine ⟨c.toElement.1, ?_⟩
    show Gives (pure (Definition.config (.ofElement c.toElement.1), c.toElement.1)) _
    rw [Config.ofElement_toElement hx hp]
    exact gives_pure _
  | image i =>
    cases hh
    exact ⟨_, gives_bind (gives_liftExcept (Image.ofElement_toElement sources dir i)) (gives_pure _)⟩
  | metadata m =>
    obtain ⟨after, hm⟩ := Metadata.ofElement_toElement hx hp hh hreadable
    exact ⟨after, gives_bind (gives_liftExcept hm) (gives_pure _)⟩
  | value v =>
    cases hh
    exact ⟨_, gives_bind (NamedValue.gives_ofElement hx hp) (gives_pure _)⟩

/-- Below the element that a portable definition becomes there are no definitions and no includes. -/
theorem descendants_of_portable (hx : x.IsRead) (hp : x.Portable) (hh : x.toElement.1 = .ok h) {tag : String}
    (htag : x.kind.carries tag = false) : descendants tag h.children = [] := by
  obtain ⟨cs, hchildren, -, hcarried⟩ := exists_children_of_portable hx hp hh
  rw [hchildren, descendants_map_toNode, List.flatMap_eq_nil_iff]
  intro c hc
  exact selfAndDescendants_of_isPortable htag _ (hcarried c hc).portable

end

/-! ## Elements side by side -/

theorem placesAmong_of_descendants {tag : String} {e : Element} (h : descendants tag e.children = []) :
    placesAmong tag 0 e.children = [] := by
  have hplaces := map_elementAt?_places tag e
  rw [h, List.map_nil, List.map_eq_nil_iff] at hplaces
  exact hplaces

/-- The place of an element is found before the places of those behind it; there is none below it. -/
theorem placesAmong_cons {tag : String} {e : Element} (h : descendants tag e.children = []) (i : Nat) (ns : List Node) :
    placesAmong tag i (e.toNode :: ns) = (if e.name = tag then [[i]] else []) ++ placesAmong tag (i + 1) ns := by
  rw [placesAmong, Element.toNode, placesFrom, placesAmong_of_descendants h]
  by_cases hname : e.name = tag <;> simp [hname, Node.isElement, Node.element?]

theorem replaceElement_map_toNode (new old : Element) (front rest : List Element) :
    replaceElement new.toNode front.length ((front ++ old :: rest).map Element.toNode) =
      (front ++ new :: rest).map Element.toNode := by
  induction front with
  | nil => rfl
  | cons e front ih =>
    rw [List.cons_append, List.map_cons, List.length_cons, replaceElement]
    show e.toNode :: replaceElement new.toNode front.length _ = _
    rw [ih]
    rfl

/-- The root with other elements below it. -/
def withElements (root : Element) (cs : List Element) : Element := { root with children := cs.map Element.toNode }

theorem elementAt?_withElements (root e : Element) (front rest : List Element) :
    elementAt? [front.length] (withElements root (front ++ e :: rest)) = some e := by
  show (((front ++ e :: rest).map Element.toNode).filterMap Node.element?)[front.length]?.bind _ = _
  rw [elements_map_toNode]
  simp [elementAt?]

theorem replaceAt_withElements (root new old : Element) (front rest : List Element) :
    replaceAt new [front.length] (withElements root (front ++ old :: rest)) = withElements root (front ++ new :: rest) := by
  have hold : (withElements root (front ++ old :: rest)).elements[front.length]? = some old := by
    show (((front ++ old :: rest).map Element.toNode).filterMap Node.element?)[front.length]? = _
    rw [elements_map_toNode]
    simp
  rw [replaceAt, hold]
  show Element.mk _ _ (replaceElement new.toNode _ _) = _
  rw [withElements, replaceElement_map_toNode]
  rfl

/-- An element of a package, the definition that it is read as, and the element that is left. -/
structure Head where
  before : Element
  definition : Definition
  after : Element

namespace Head

/-- The element is read as the definition, nothing is drawn, and no definition stands below it. -/
structure Reads (sources : Sources) (dir : String) (r : Head) : Prop where
  gives : Gives (Definition.ofElement sources dir r.definition.kind r.before) (r.definition, r.after)
  name : r.before.name = r.definition.kind.tag
  alone : ∀ k : Kind, descendants k.tag r.before.children = []

/-- The element as it is when the definitions of some kinds have been read. -/
def current (done : List Kind) (r : Head) : Element := if r.definition.kind ∈ done then r.after else r.before

section

variable {sources : Sources} {dir : String}

theorem Reads.current {r : Head} (h : r.Reads sources dir) (done : List Kind) :
    (r.current done).name = r.definition.kind.tag ∧ ∀ k : Kind, descendants k.tag (r.current done).children = [] := by
  rw [Head.current]
  split
  · -- Reading changes attributes only, so the names of elements are those of before.
    have houtline := (ensures_ofElement sources dir r.definition.kind r.before 0 _ 0 (h.gives 0)).2.2.1
    injection houtline with hname _ hchildren
    refine ⟨hname.trans h.name, fun k => ?_⟩
    have hcongr := descendants_congr hchildren k.tag
    rw [h.alone k, List.map_nil, List.map_eq_nil_iff] at hcongr
    exact hcongr
  · exact ⟨h.name, h.alone⟩

variable {k : Kind} {done : List Kind}

theorem gives_readAt {r : Head} (hr : r.Reads sources dir) (hadd : d.add r.definition = .ok d') (root : Element)
    (front rest : List Element) :
    Gives (readAt sources dir r.definition.kind ⟨d, withElements root (front ++ r.before :: rest)⟩ [front.length])
      ⟨d', withElements root (front ++ r.after :: rest)⟩ := by
  rw [readAt, elementAt?_withElements]
  refine gives_bind hr.gives (gives_bind (gives_liftExcept hadd) ?_)
  rw [replaceAt_withElements]
  exact gives_pure _

/-- One kind: reading goes from left to right and changes the elements that it has passed. -/
theorem gives_readPlaces {rs : List Head} (hrs : ∀ r ∈ rs, r.Reads sources dir) (hk : k ∉ done)
    (hadd : ((rs.map Head.definition).filter (·.kind = k)).foldlM Document.add d = .ok d') (root : Element)
    (front : List Element) :
    Gives ((placesAmong k.tag front.length ((rs.map (Head.current done)).map Element.toNode)).foldlM
        (readAt sources dir k) ⟨d, withElements root (front ++ rs.map (Head.current done))⟩)
      ⟨d', withElements root (front ++ rs.map (Head.current (k :: done)))⟩ := by
  induction rs generalizing d front with
  | nil =>
    cases hadd
    exact gives_pure _
  | cons r rs ih =>
    rw [List.forall_mem_cons] at hrs
    obtain ⟨hname, halone⟩ := hrs.1.current done
    rw [List.map_cons, List.map_cons, placesAmong_cons (halone k), hname]
    by_cases hkind : r.definition.kind = k
    · subst hkind
      rw [List.map_cons, List.filter_cons_of_pos (by simp), List.foldlM_cons] at hadd
      obtain ⟨d₁, hfirst, hrest⟩ := bind_eq_ok.1 hadd
      have hbefore : r.current done = r.before := if_neg hk
      have hafter : r.current (r.definition.kind :: done) = r.after := if_pos (by simp)
      rw [if_pos rfl, List.singleton_append, List.foldlM_cons, hbefore, List.map_cons, hafter]
      refine gives_bind (gives_readAt hrs.1 hfirst root front _) ?_
      have hlater := ih hrs.2 hrest (front ++ [r.after])
      rw [List.length_append, List.append_assoc, List.append_assoc] at hlater
      exact hlater
    · rw [List.map_cons, List.filter_cons_of_neg (by simpa using hkind)] at hadd
      have hsame : r.current (k :: done) = r.current done := by simp [Head.current, hkind]
      rw [if_neg fun htag => hkind (tag_injective htag), List.nil_append, List.map_cons, hsame]
      have hlater := ih hrs.2 hadd (front ++ [r.current done])
      rw [List.length_append, List.append_assoc, List.append_assoc] at hlater
      exact hlater

/-- All kinds, one after the other. -/
theorem gives_readAllKinds {rs : List Head} (hrs : ∀ r ∈ rs, r.Reads sources dir) {kinds : List Kind}
    (hkinds : (kinds ++ done).Nodup)
    (hadd : (kinds.flatMap fun k => (rs.map Head.definition).filter (·.kind = k)).foldlM Document.add d = .ok d')
    (root : Element) :
    ∃ root', Gives (kinds.foldlM (readKind sources dir) ⟨d, withElements root (rs.map (Head.current done))⟩)
      ⟨d', root'⟩ := by
  induction kinds generalizing d done with
  | nil =>
    cases hadd
    exact ⟨_, gives_pure _⟩
  | cons k kinds ih =>
    rw [List.cons_append, List.nodup_cons] at hkinds
    rw [List.flatMap_cons, List.foldlM_append] at hadd
    obtain ⟨d₁, hfirst, hrest⟩ := bind_eq_ok.1 hadd
    have hnodup : (kinds ++ k :: done).Nodup := List.nodup_middle.2 (List.nodup_cons.2 hkinds)
    obtain ⟨root', hlater⟩ := ih hnodup hrest
    refine ⟨root', ?_⟩
    rw [List.foldlM_cons]
    refine gives_bind ?_ hlater
    exact gives_readPlaces hrs (fun hmem => hkinds.1 (by simp [hmem])) hfirst root []

end

end Head

/-! ## Adding definitions -/

/-- Adding a definition changes nothing but the definitions. -/
theorem Document.bare_add (h : d.add x = .ok d') : d'.bare = d.bare := by
  cases x with
  | metadata m =>
    rw [add_metadata] at h
    cases h
    rfl
  | component c => cases h; rfl
  | config c => cases h; rfl
  | value v => cases h; rfl
  | _ =>
    obtain ⟨ys, -, hd⟩ := bind_eq_ok.1 h
    cases hd
    rfl

/-- What a document is after definitions of one kind have been added. -/
structure Document.Extended (d d' : Document) (k : Kind) (xs : List Definition) : Prop where
  listed : d'.listed k = xs
  others : ∀ j, j ≠ k → d'.listed j = d.listed j
  bare : d'.bare = d.bare

/-- Definitions of a kind other than metadata go behind those that are there. -/
theorem Document.exists_addAll {k : Kind} (hk : k ≠ .metadata) (hxs : ∀ x ∈ xs, x.kind = k)
    (hunique : k.isUnique → (d.names k ++ xs.map Definition.name).Nodup) :
    ∃ d', xs.foldlM add d = .ok d' ∧ Extended d d' k (d.listed k ++ xs) := by
  induction xs generalizing d with
  | nil => exact ⟨d, rfl, by rw [List.append_nil], fun _ _ => rfl, rfl⟩
  | cons x xs ih =>
    rw [List.forall_mem_cons] at hxs
    obtain ⟨hx, hxs⟩ := hxs
    subst hx
    obtain ⟨d₁, hfirst⟩ : ∃ d₁, d.add x = .ok d₁ := by
      apply add_of_not_mem
      intro hu hmem
      exact (List.nodup_append.1 (hunique hu)).2.2 _ hmem _ (by simp) rfl
    have hlisted := listed_add hfirst hk
    have hnames : d₁.names x.kind = d.names x.kind ++ [x.name] := by
      rw [names_add hfirst hk, if_pos rfl]
    obtain ⟨d', hrest, hextended⟩ := ih hxs fun hu => by
      rw [hnames, List.append_assoc]
      exact hunique hu
    refine ⟨d', ?_, ?_, fun j hj => ?_, hextended.bare.trans (bare_add hfirst)⟩
    · rw [List.foldlM_cons, hfirst]
      exact hrest
    · rw [hextended.listed, hlisted, if_pos rfl, List.append_assoc]
      rfl
    · rw [hextended.others j hj, hlisted, if_neg hj, List.append_nil]

/-- Definitions of a kind that is not there yet. -/
theorem Document.exists_addKind {k : Kind} (hxs : ∀ x ∈ xs, x.kind = k) (hnone : d.listed k = [])
    (hunique : k.isUnique → (xs.map Definition.name).Nodup) (hsingle : k = .metadata → xs.length ≤ 1) :
    ∃ d', xs.foldlM add d = .ok d' ∧ Extended d d' k xs := by
  by_cases hk : k = .metadata
  · subst hk
    rcases xs with _ | ⟨x, _ | ⟨y, ys⟩⟩
    · exact ⟨d, rfl, hnone, fun _ _ => rfl, rfl⟩
    · have hmetadata : d.metadata = none := by
        cases hd : d.metadata with
        | none => rfl
        | some old => simp [listed, hd] at hnone
      have hx : x.kind = .metadata := hxs x (by simp)
      cases x with
      | metadata m =>
        refine ⟨{ d with metadata := some m }, ?_, rfl, fun j hj => listed_withMetadata d _ hj, rfl⟩
        rw [List.foldlM_cons, add, hmetadata]
        rfl
      | _ => cases hx
    · exact absurd (hsingle rfl) (by simp)
  · obtain ⟨d', hadd, hextended⟩ := exists_addAll hk hxs (d := d) (by rwa [names, hnone])
    rw [hnone, List.nil_append] at hextended
    exact ⟨d', hadd, hextended⟩

/-- Definitions of several kinds that are not there yet. -/
theorem Document.exists_addKinds {xs : Kind → List Definition} (hxs : ∀ k, ∀ x ∈ xs k, x.kind = k)
    (hunique : ∀ k, k.isUnique → ((xs k).map Definition.name).Nodup) (hsingle : (xs .metadata).length ≤ 1)
    {kinds : List Kind} (hkinds : kinds.Nodup) (hnone : ∀ k ∈ kinds, d.listed k = []) :
    ∃ d', (kinds.flatMap xs).foldlM add d = .ok d' ∧ d'.bare = d.bare ∧
      ∀ k, d'.listed k = if k ∈ kinds then xs k else d.listed k := by
  induction kinds generalizing d with
  | nil => exact ⟨d, rfl, rfl, by simp⟩
  | cons k kinds ih =>
    rw [List.nodup_cons] at hkinds
    rw [List.forall_mem_cons] at hnone
    obtain ⟨d₁, hfirst, hextended⟩ := exists_addKind (hxs k) hnone.1 (hunique k) (by rintro rfl; exact hsingle)
    obtain ⟨d', hrest, hbare, hlisted⟩ := ih hkinds.2 fun j hj => by
      rw [hextended.others j (ne_of_mem_of_not_mem hj hkinds.1)]
      exact hnone.2 j hj
    refine ⟨d', ?_, hbare.trans hextended.bare, fun j => ?_⟩
    · rw [List.flatMap_cons, List.foldlM_append, hfirst]
      exact hrest
    · rw [hlisted j]
      by_cases hj : j = k
      · subst hj
        rw [if_neg hkinds.1, hextended.listed, if_pos (by simp)]
      · rw [hextended.others j hj]
        simp [hj]

/-! ## Packages -/

/-- Nothing in the document gets lost on the way through a package and back. -/
structure Document.Portable (d : Document) : Prop where
  name : OneLine d.name
  uniqueId : ∀ id ∈ d.uniqueId, OneLine id
  version : ∀ v ∈ d.version, Version.dotAbove ∉ v.text.toList
  definitions : d.All Definition.Portable

theorem Document.portable_iff (d : Document) : d.Portable ↔ OneLine d.name ∧ (∀ id ∈ d.uniqueId, OneLine id) ∧
    (∀ v ∈ d.version, Version.dotAbove ∉ v.text.toList) ∧ ∀ k ∈ Kind.all, ∀ x ∈ d.listed k, x.Portable := by
  constructor
  · exact fun h => ⟨h.name, h.uniqueId, h.version, fun k _ => h.definitions k⟩
  · exact fun ⟨hname, hid, hversion, hdefinitions⟩ => ⟨hname, hid, hversion, fun k => hdefinitions k k.mem_all⟩

instance (d : Document) : Decidable d.Portable := decidable_of_iff' _ d.portable_iff

theorem carries_tag (j k : Kind) : j.carries k.tag = false := by
  have hall : ∀ j ∈ Kind.all, ∀ k ∈ Kind.all, j.carries k.tag = false := by decide +kernel
  exact hall j j.mem_all k k.mem_all

theorem carries_includeTag (j : Kind) : j.carries includeTag = false := by
  have hall : ∀ j ∈ Kind.all, j.carries includeTag = false := by decide +kernel
  exact hall j j.mem_all

theorem kind_asBytes (x : Definition) : x.asBytes.kind = x.kind := by
  cases x <;> rfl

theorem name_asBytes (x : Definition) : x.asBytes.name = x.name := by
  cases x <;> rfl

theorem exists_mapM_eq_ok {α β ε : Type} {f : α → Except ε β} {xs : List α} (h : ∀ x ∈ xs, ∃ y, f x = .ok y) :
    ∃ ys, xs.mapM f = .ok ys := (exists_forall₂ h).imp fun _ hys => mapM_eq_ok.2 hys

/-- A document whose definitions can be written can be packaged. -/
theorem exists_packageTree (h : ∀ k, ∀ x ∈ d.listed k, ∃ head, x.toElement.1 = .ok head) :
    ∃ tree, d.packageTree.1 = .ok tree := by
  obtain ⟨metadata, hmetadata⟩ : ∃ hs, d.metadata.toList.mapM Metadata.toElement = .ok hs :=
    exists_mapM_eq_ok fun m hm => h .metadata (.metadata m) (List.mem_map_of_mem hm)
  obtain ⟨actions, hactions⟩ : ∃ hs, d.actions.mapM Action.toElement = .ok hs :=
    exists_mapM_eq_ok fun a ha => h .action (.action a) (List.mem_map_of_mem ha)
  obtain ⟨charts, hcharts⟩ : ∃ hs, d.charts.mapM Chart.toElement = .ok hs :=
    exists_mapM_eq_ok fun c hc => h .chart (.chart c) (List.mem_map_of_mem hc)
  obtain ⟨blocks, hblocks⟩ : ∃ hs, d.blocks.mapM Block.toElement = .ok hs :=
    exists_mapM_eq_ok fun b hb => h .block (.block b) (List.mem_map_of_mem hb)
  obtain ⟨components, hcomponents⟩ : ∃ hs, d.components.mapM Component.toElement = .ok hs :=
    exists_mapM_eq_ok fun c hc => h .component (.component c) (List.mem_map_of_mem hc)
  have hleading : ∃ leading, d.leadingElements = .ok leading :=
    ⟨_, bind_eq_ok.2 ⟨metadata, hmetadata, bind_eq_ok.2 ⟨actions, hactions, rfl⟩⟩⟩
  have htrailing : ∃ trailing, d.trailingElements = .ok trailing :=
    ⟨_, bind_eq_ok.2 ⟨charts, hcharts, bind_eq_ok.2 ⟨blocks, hblocks, bind_eq_ok.2 ⟨components, hcomponents, rfl⟩⟩⟩⟩
  obtain ⟨leading, hleading⟩ := hleading
  obtain ⟨trailing, htrailing⟩ := htrailing
  rw [Document.packageTree, hleading]
  dsimp only
  rw [htrailing]
  exact ⟨_, rfl⟩

theorem filter_listed (d : Document) (j k : Kind) :
    (d.listed j).filter (·.kind = k) = if j = k then d.listed k else [] := by
  by_cases h : j = k
  · subst h
    rw [if_pos rfl, List.filter_eq_self]
    intro x hx
    simpa using kind_of_mem_listed hx
  · rw [if_neg h, List.filter_eq_nil_iff]
    intro x hx
    simpa [kind_of_mem_listed hx] using h

/-- A package has the definitions of each kind in the order of the document. -/
theorem filter_packaged (d : Document) (k : Kind) :
    (d.packaged.map Definition.asBytes).filter (·.kind = k) = (d.listed k).map Definition.asBytes := by
  have hfilter : d.packaged.filter (·.kind = k) = d.listed k := by
    rw [Document.packaged, List.filter_flatMap]
    simp only [filter_listed]
    cases k <;> simp [packageOrder]
  rw [List.filter_map, ← hfilter]
  simp only [Function.comp_def, kind_asBytes]

/-- The elements of a package are heads of the definitions. -/
theorem exists_heads (sources : Sources) (dir : String) {heads : List Element} (h : Becomes xs heads)
    (hxs : ∀ x ∈ xs, x.IsRead ∧ x.Portable) : ∃ rs : List Head, rs.map Head.before = heads ∧
      rs.map Head.definition = xs.map Definition.asBytes ∧ ∀ r ∈ rs, r.Reads sources dir := by
  induction h with
  | nil => exact ⟨[], rfl, rfl, nofun⟩
  | @cons x head xs heads hh _ ih =>
    rw [List.forall_mem_cons] at hxs
    obtain ⟨rs, hbefore, hdefinition, hreads⟩ := ih hxs.2
    obtain ⟨after, hgives⟩ := gives_ofElement_of_portable sources dir hxs.1.1 hxs.1.2 hh
    refine ⟨⟨head, x.asBytes, after⟩ :: rs, by rw [List.map_cons, hbefore], by rw [List.map_cons, List.map_cons, hdefinition],
      List.forall_mem_cons.2 ⟨⟨?_, ?_, fun k => ?_⟩, hreads⟩⟩
    · rw [kind_asBytes]
      exact hgives
    · rw [kind_asBytes]
      exact name_of_toElement hh
    · exact descendants_of_portable hxs.1.1 hxs.1.2 hh (carries_tag _ k)

section

variable {d : Document} (hd : d.IsRead) (hp : d.All Definition.Portable) {heads : List Element}
  (hheads : Becomes d.packaged heads)

include hd hp

theorem portable_of_mem_packaged (hx : x ∈ d.packaged) : x.IsRead ∧ x.Portable := by
  obtain ⟨k, -, hmem⟩ := List.mem_flatMap.1 hx
  exact ⟨hd.definitions k x hmem, hp k x hmem⟩

include hheads

/-- **The definitions of a package are those of the document**, whatever the root says. -/
theorem gives_readKinds_package (sources : Sources) (dir : String) (e head : Document)
    (hhead : ∀ k, head.listed k = []) : ∃ d',
      Gives (readKinds sources dir (includedKinds ++ [.component]) head (reopenedRoot e heads)) d' ∧
        d'.bare = head.bare ∧ ∀ k, d'.listed k = (d.listed k).map Definition.asBytes := by
  obtain ⟨rs, hbefore, hdefinition, hreads⟩ :=
    exists_heads sources dir hheads fun x hx => portable_of_mem_packaged hd hp hx
  have hkind : ∀ k, ∀ x ∈ (d.listed k).map Definition.asBytes, x.kind = k := by
    intro k x hx
    obtain ⟨y, hy, rfl⟩ := List.mem_map.1 hx
    exact (kind_asBytes y).trans (kind_of_mem_listed hy)
  have hunique : ∀ k, k.isUnique → (((d.listed k).map Definition.asBytes).map Definition.name).Nodup := by
    intro k hk
    rw [List.map_map, List.map_congr_left fun x _ => show (Definition.name ∘ Definition.asBytes) x = x.name from name_asBytes x]
    exact hd.unique k hk
  have hsingle : ((d.listed .metadata).map Definition.asBytes).length ≤ 1 := by
    cases hm : d.metadata <;> simp [Document.listed, hm]
  have hkinds : (includedKinds ++ [Kind.component]).Nodup := by decide
  obtain ⟨d', hadd, hbare, hlisted⟩ :=
    Document.exists_addKinds hkind hunique hsingle hkinds fun k _ => hhead k
  -- no kind has been read yet, so every element of the package stands there as it was written
  have hroot : reopenedRoot e heads = withElements (reopenedRoot e heads) (rs.map (Head.current [])) := by
    have hcurrent : rs.map (Head.current []) = heads := by
      rw [← hbefore]
      exact List.map_congr_left fun r _ => if_neg List.not_mem_nil
    have htidied : ∀ h ∈ heads, h.tidied.toNode = h.toNode := by
      intro h hh
      obtain ⟨x, hx, hxh⟩ := exists_of_mem_right hheads hh
      rw [tidied_of_portable (portable_of_mem_packaged hd hp hx).1 (portable_of_mem_packaged hd hp hx).2 hxh]
    rw [hcurrent, withElements, ← List.map_congr_left htidied]
    rfl
  have hkinds' : (includedKinds ++ [Kind.component] ++ []).Nodup := by rwa [List.append_nil]
  -- reading goes kind by kind through the package, and so meets each kind in the order of the document
  rw [← funext (filter_packaged d), ← hdefinition] at hadd
  obtain ⟨root', hgives⟩ := Head.gives_readAllKinds hreads hkinds' hadd (reopenedRoot e heads)
  refine ⟨d', ?_, hbare, ?_⟩
  · rw [hroot]
    exact gives_bind hgives (gives_pure _)
  · have hall : ∀ k ∈ Kind.all, k ∈ includedKinds ++ [.component] := by decide
    intro k
    rw [hlisted k, if_pos (hall k k.mem_all)]

end

/-- What is left of a document that has been packaged has its name, its identifier and its version. -/
theorem head_packageTree (d : Document) : d.packageTree.2.name = d.name ∧ d.packageTree.2.uniqueId = d.uniqueId ∧
    d.packageTree.2.version = d.version := by
  rw [Document.packageTree]
  split
  · exact ⟨rfl, rfl, rfl⟩
  · dsimp only
    split <;> exact ⟨rfl, rfl, rfl⟩

/-- A document that has been packaged has an identifier. -/
theorem uniqueId_stamp (d : Document) (m : Nat) : ∃ id, (stamp d m).uniqueId = some id ∧
    (id = identifier (m + 1) ∨ some id = d.uniqueId) := by
  by_cases hid : (d.uniqueId.getD "").isEmpty
  · refine ⟨identifier (m + 1), ?_, .inl rfl⟩
    rw [stamp, Document.withUniqueId, if_pos hid]
    rfl
  · cases hgiven : d.uniqueId with
    | none =>
      rw [hgiven] at hid
      exact absurd rfl hid
    | some id =>
      refine ⟨id, ?_, .inr rfl⟩
      rw [stamp, Document.withUniqueId, if_neg hid]
      exact hgiven

/-- A document has come back from a package: it has the name, the identifier and the version that the other has after it
was packaged, and the definitions that the other had before, kind by kind and in order. -/
structure ComesBack (d left d' : Document) : Prop where
  name : d'.name = left.name
  uniqueId : d'.uniqueId = left.uniqueId
  version : d'.version = left.version
  definitions : ∀ k, d'.listed k = (d.listed k).map Definition.asBytes

theorem reopenedHead_of_portable (hd : d.IsRead) (hp : d.Portable) (m : Nat) :
    (reopenedHead (stamp d m)).name = (stamp d m).name ∧ (reopenedHead (stamp d m)).uniqueId = (stamp d m).uniqueId := by
  obtain ⟨id, hid, hcases⟩ := uniqueId_stamp d m
  have hname : (stamp d m).name = d.name := by
    obtain ⟨_, -, heq⟩ := stamp_eq d m
    rw [heq]
  have hline : OneLine id := by
    rcases hcases with rfl | hgiven
    · exact oneLine_of_le fun c hc => (toNat_of_mem_identifier hc).1.le
    · exact hp.uniqueId id hgiven.symm
  constructor
  · show Text.trim (tidy (stamp d m).name) = _
    obtain ⟨s, -, hs⟩ := hd.name
    rw [hname, tidy_of_oneLine hp.name, hs, Text.trim_trim]
  · show some (tidy ((stamp d m).uniqueId.getD "")) = _
    rw [hid]
    exact congrArg some (tidy_of_oneLine hline)

/-- A pattern with a titled config, an action with a parameter, and a component that uses the action. -/
def titled : String :=
  "<pattern xmlns:opaf=\"u\" name=\"n\"><opaf:define_config name=\"c\" value=\"1\" title=\"T\"/>" ++
  "<opaf:define_action name=\"k\" params=\"n=1\"><a t=\"$\x7bn\x7d\"/></opaf:define_action>" ++
  "<opaf:component name=\"a\"><opaf:action name=\"k\"/></opaf:component></pattern>"

/-- A pattern with a config whose title is empty. -/
def untitled : String :=
  "<pattern xmlns:opaf=\"u\" name=\"n\"><opaf:define_config name=\"c\" value=\"1\" title=\"\"/></pattern>"

end Stitchwork.Pattern
