/- # Stitchwork.Proofs.Pattern.Heads — the elements that definitions become.

A definition is packaged as one element: its fields become attributes, and what it stores is restored below
it.  For a definition that has been read, the element can be written and read again.  Its attributes come
back tidy, and what stands below it comes back as it is.
-/
import Stitchwork.Proofs.Markup.Settled
import Stitchwork.Proofs.Pattern.Provenance

namespace Stitchwork.Pattern

open Stitchwork.Markup

variable {m e : Element} {s : String} {ns : List Node} {es : List Element}

/-! ## Bare trees -/

/-- Keeps no attribute. -/
def noAttr : String → Bool := fun _ => false

theorem filter_noAttr (es : List (String × String)) : es.filter (fun a => noAttr a.1) = [] :=
  List.filter_eq_nil_iff.2 fun _ _ => Bool.false_ne_true

/-- Rereading keeps the names of elements. -/
theorem outlineNodes_settleNodes (ns : List Node) :
    outlineNodes noAttr (settleNodes (unifyNodes ns)) = outlineNodes noAttr ns := by
  cases ns with
  | nil => rfl
  | cons n ns =>
    rw [unifyNodes, settleNodes, outlineNodes, outlineNodes, outlineNodes_settleNodes ns]
    cases n with
    | element name attrs children =>
      rw [unifyNode, settleNode, outlineNode, outlineNode, outlineNodes_settleNodes children, filter_noAttr, filter_noAttr]
    | _ => rfl

/-- Rereading keeps nodes pruned. -/
theorem allPruned_settleNodes {prose : String → Bool} (ns : List Node) (h : AllPruned prose ns) :
    AllPruned prose (settleNodes (unifyNodes ns)) := by
  cases ns with
  | nil => trivial
  | cons n ns =>
    refine ⟨?_, allPruned_settleNodes ns h.2⟩
    cases n with
    | element name attrs children => exact h.1.imp_right (allPruned_settleNodes children)
    | _ => cases h.1

theorem pruned_of_rereadNode {prose : String → Bool} (n : Node) {m : Node} {bound : Bindings} (hn : Pruned prose n)
    (h : rereadNode bound (unifyNode n) = .ok m) : Pruned prose m := by
  rw [eq_settleNode h]
  exact (allPruned_settleNodes [n] ⟨hn, trivial⟩).1

theorem rereadNode_of_read_write (he : e.Ok) (h : Markup.read e.write = .ok m) :
    rereadNode [("xml", xmlNamespace)] (unifyNode e.toNode) = .ok m.toNode := by
  rw [← toNode_unified, rereadNode_toNode, ← read_write he, h]
  rfl

theorem outlineNode_of_read_write (he : e.Ok) (h : Markup.read e.write = .ok m) :
    outlineNode noAttr m.toNode = outlineNode noAttr e.toNode := by
  have hsame := outlineNodes_settleNodes [e.toNode]
  rw [unifyNodes, settleNodes, ← eq_settleNode (rereadNode_of_read_write he h)] at hsame
  simpa [outlineNodes, unifyNodes, settleNodes] using hsame

/-! ## Stored elements -/

/-- What is bound inside the root of a package. -/
def packageBound : Bindings := [("opaf", patternNamespace), ("xml", xmlNamespace)]

theorem extends_packageBound : Extends [("xml", xmlNamespace)] packageBound := by
  intro p u h
  rw [List.lookup_cons] at h
  cases hp : p == "xml" with
  | false =>
    rw [hp] at h
    cases h
  | true =>
    rw [hp] at h
    rw [beq_iff_eq.1 hp, ← h]
    rfl

/-- What was stored as it is, is restored to an element that can stand in a package. -/
theorem settled_restored (he : e.Ok) (h : Markup.read e.write = .ok m) :
    m.Settled packageBound := (settled_of_read_write he h).mono extends_packageBound

theorem attr?_declare (e : Element) : (declare e).attr? declaration = some patternNamespace := by
  have hset : ∀ e : Element, (e.setAttr declaration patternNamespace).attr? declaration =
      some patternNamespace := fun e => by
    rw [Element.attr?, Element.setAttr, Table.get?_insert, if_pos rfl]
  rw [declare]
  split
  · exact hset _
  · exact hset _

/-- What was stored with its declaration can stand in a package without it. -/
theorem settled_restored_declare (he : e.Ok) (h : Markup.read (declare e).write = .ok m) :
    (m.eraseAttr declaration).Settled packageBound := by
  have hattr : m.attr? declaration = some patternNamespace := by
    rw [attr?_of_read_write (ok_declare he) h, attr?_declare]
    decide +kernel
  exact (settled_of_read_write (ok_declare he) h).erase (p := "opaf") (by decide +kernel) (by decide)
    (by decide) hattr

theorem mapM_eq_ok {ε α β : Type} {f : α → Except ε β} {xs : List α} {ys : List β} :
    xs.mapM f = .ok ys ↔ List.Forall₂ (fun x y => f x = .ok y) xs ys := by
  induction xs generalizing ys with
  | nil =>
    rw [List.mapM_nil]
    constructor
    · rintro ⟨⟩
      exact .nil
    · rintro ⟨⟩
      rfl
  | cons x xs ih =>
    rw [List.mapM_cons]
    simp only [bind_eq_ok]
    constructor
    · rintro ⟨y, hy, ys', hys, heq⟩
      cases heq
      exact .cons hy (ih.1 hys)
    · rintro (_ | ⟨hy, hys⟩)
      exact ⟨_, hy, _, ih.2 hys, rfl⟩

theorem exists_of_mem_right {α β : Type} {R : α → β → Prop} {xs : List α} {ys : List β}
    (h : List.Forall₂ R xs ys) {y : β} (hy : y ∈ ys) : ∃ x ∈ xs, R x y := by
  induction h with
  | nil => cases hy
  | cons hxy _ ih =>
    rcases List.mem_cons.1 hy with rfl | hy
    · exact ⟨_, by simp, hxy⟩
    · obtain ⟨x, hx, hxy⟩ := ih hy
      exact ⟨x, by simp [hx], hxy⟩

theorem exists_forall₂ {α β : Type} {R : α → β → Prop} {xs : List α} (h : ∀ x ∈ xs, ∃ y, R x y) :
    ∃ ys, List.Forall₂ R xs ys := by
  induction xs with
  | nil => exact ⟨[], .nil⟩
  | cons x xs ih =>
    rw [List.forall_mem_cons] at h
    obtain ⟨y, hy⟩ := h.1
    obtain ⟨ys, hys⟩ := ih h.2
    exact ⟨y :: ys, .cons hy hys⟩

/-- What is related to the elements of a list one by one gives back the list. -/
theorem map_eq_of_forall₂ {α β : Type} {R : α → β → Prop} {f : β → α} {xs : List α} {ys : List β}
    (h : List.Forall₂ R xs ys) (hf : ∀ x ∈ xs, ∀ y, R x y → f y = x) : ys.map f = xs := by
  induction h with
  | nil => rfl
  | cons hxy _ ih =>
    rw [List.forall_mem_cons] at hf
    rw [List.map_cons, hf.1 _ hxy, ih hf.2]

theorem restoreAll_eq_ok {ss : List String} :
    restoreAll ss = .ok es ↔ List.Forall₂ (fun s e => Markup.read s = .ok e) ss es := by
  rw [restoreAll, mapM_eq_ok]
  simp only [restore, mapError_eq_ok]

/-- What becomes of stored elements: `f` says how they were stored, and `g` what is done when they have been
restored. -/
structure Restores (f g : Element → Element) : Prop where
  settled : ∀ {e m : Element}, e.Ok → Markup.read (f e).write = .ok m → (g m).Settled packageBound
  outline : ∀ {e m : Element}, e.Ok → Markup.read (f e).write = .ok m →
    outlineNode noAttr (g m).toNode = outlineNode noAttr e.toNode
  pruned : ∀ {e m : Element} {prose : String → Bool}, e.Ok → Markup.read (f e).write = .ok m →
    Pruned prose e.toNode → Pruned prose (g m).toNode

theorem restores_id : Restores id id :=
  ⟨fun he h => settled_restored he h, fun he h => outlineNode_of_read_write he h,
    fun he h hpruned => pruned_of_rereadNode _ hpruned (rereadNode_of_read_write he h)⟩

theorem restores_declare : Restores declare (·.eraseAttr declaration) := by
  refine ⟨fun he h => settled_restored_declare he h, fun {e m} he h => ?_, fun {e m prose} he h hpruned => ?_⟩
  · rw [outlineNode_toNode, outline_eraseAttr rfl, ← outlineNode_toNode,
      outlineNode_of_read_write (ok_declare he) h, outlineNode_toNode,
      @outline_declare noAttr fun _ _ => rfl, outlineNode_toNode]
  · -- Only attributes are changed, and they do not matter here.
    have hdeclare : Pruned prose (declare e).toNode := by
      rw [declare]
      split <;> exact hpruned
    have hread : Pruned prose m.toNode := pruned_of_rereadNode _ hdeclare (rereadNode_of_read_write (ok_declare he) h)
    exact hread

theorem Restores.name {f g : Element → Element} (hfg : Restores f g) (he : e.Ok) (h : Markup.read (f e).write = .ok m) :
    (g m).name = e.name := by
  have houtline := hfg.outline he h
  rw [outlineNode_toNode, outlineNode_toNode, List.singleton_inj] at houtline
  injection houtline

theorem Restores.all {f g : Element → Element} (hfg : Restores f g) {ms : List Element} (hes : ∀ e ∈ es, e.Ok)
    (h : restoreAll (es.map fun e => (f e).write) = .ok ms) :
    (∀ m ∈ ms, (g m).Settled packageBound) ∧
      outlineNodes noAttr (ms.map fun m => (g m).toNode) = outlineNodes noAttr (es.map Element.toNode) := by
  rw [restoreAll_eq_ok, List.forall₂_map_left_iff] at h
  induction h with
  | nil => exact ⟨by simp, rfl⟩
  | @cons e m es ms hm _ ih =>
    rw [List.forall_mem_cons] at hes
    obtain ⟨hsettled, houtline⟩ := ih hes.2
    refine ⟨List.forall_mem_cons.2 ⟨hfg.settled hes.1 hm, hsettled⟩, ?_⟩
    rw [List.map_cons, List.map_cons, outlineNodes, outlineNodes, houtline, hfg.outline hes.1 hm]

/-! ## What definitions store -/

/-- The texts that a definition stores. -/
def Definition.stored : Definition → List String
  | .action a => a.elements.getD []
  | .block b => b.elements
  | .chart c => c.rows
  | .component c => c.elements.getD []
  | .metadata m => m.elements
  | _ => []

/-- A restored element as it stands in a package. -/
def Definition.restored : Definition → Element → Element
  | .block _, e => e.eraseAttr declaration
  | .chart _, e => e.eraseAttr declaration
  | .component _, e => e.eraseAttr declaration
  | _, e => e

/-- The attributes of the element that a definition becomes. -/
def Definition.fields : Definition → Except Error (List (String × String))
  | .action a => (writeParams a.params).map fun params =>
      [("name", a.name), ("custom", boolText a.custom)] ++
        if a.params.isEmpty then [] else [("params", params)]
  | .block b => (writeParams b.params).map fun params =>
      ("name", b.name) :: if b.params.isEmpty then [] else [("params", params)]
  | .chart c => .ok (("name", c.name) :: (c.condition.map ("condition", ·)).toList)
  | .color c => .ok [("name", c.name), ("value", c.value), ("description", c.description)]
  | .component c => .ok ([("name", c.name), ("unique_id", c.uniqueId.getD "")] ++
      (c.condition.map ("condition", ·)).toList)
  | .config c => .ok ([("name", c.name), ("value", c.value), ("required", boolText c.required)] ++
      (if c.allowed.given then [("allowed_values", c.allowed.write.1)] else []) ++
      attrIfGiven "title" c.title ++ attrIfGiven "description" c.description)
  | .image i => .ok [("name", i.name), ("data", i.data.text)]
  | .metadata _ => .ok []
  | .value v => .ok ([("unique_id", v.uniqueId.getD ""), ("name", v.name), ("value", v.value)] ++
      attrIfGiven "condition" v.condition)

theorem restorePlain_eq_ok {ss : List String} (h : restorePlain ss = .ok ns) :
    ∃ ms, restoreAll ss = .ok ms ∧ ns = ms.map fun m => (m.eraseAttr declaration).toNode := by
  obtain ⟨ms, hms, h⟩ := bind_eq_ok.1 h
  cases h
  exact ⟨ms, hms, rfl⟩

/-- The element that a definition becomes: its fields, and what it stores restored below it. -/
theorem toElement_eq_ok {x : Definition} {h : Element} (hh : x.toElement.1 = .ok h) :
    ∃ fields ms, x.fields = .ok fields ∧ restoreAll x.stored = .ok ms ∧
      h = ⟨x.kind.tag, Table.ofList fields, ms.map fun m => (x.restored m).toNode⟩ := by
  cases x with
  | action a =>
    obtain ⟨params, hparams, hh⟩ := bind_eq_ok.1 hh
    split at hh
    · cases hh
    · next texts htexts =>
      obtain ⟨es, hes, hh⟩ := bind_eq_ok.1 hh
      cases hh
      refine ⟨_, es, by rw [Definition.fields, hparams]; rfl, ?_, rfl⟩
      rw [Definition.stored, htexts]
      exact hes
  | block b =>
    obtain ⟨params, hparams, hh⟩ := bind_eq_ok.1 hh
    obtain ⟨ns, hns, hh⟩ := bind_eq_ok.1 hh
    obtain ⟨ms, hms, rfl⟩ := restorePlain_eq_ok hns
    cases hh
    exact ⟨_, ms, by rw [Definition.fields, hparams]; rfl, hms, rfl⟩
  | chart c =>
    obtain ⟨ns, hns, hh⟩ := bind_eq_ok.1 hh
    obtain ⟨ms, hms, rfl⟩ := restorePlain_eq_ok hns
    cases hh
    exact ⟨_, ms, rfl, hms, rfl⟩
  | component c =>
    change c.toElement = .ok h at hh
    rw [Component.toElement] at hh
    split at hh
    · cases hh
    · next texts htexts =>
      obtain ⟨ns, hns, hh⟩ := bind_eq_ok.1 hh
      obtain ⟨ms, hms, rfl⟩ := restorePlain_eq_ok hns
      cases hh
      refine ⟨_, ms, rfl, ?_, rfl⟩
      rw [Definition.stored, htexts]
      exact hms
  | metadata m =>
    obtain ⟨es, hes, hh⟩ := bind_eq_ok.1 hh
    cases hh
    exact ⟨_, es, rfl, hes, rfl⟩
  | color c => cases hh; exact ⟨_, [], rfl, rfl, rfl⟩
  | config c => cases hh; exact ⟨_, [], rfl, rfl, rfl⟩
  | image i => cases hh; exact ⟨_, [], rfl, rfl, rfl⟩
  | value v => cases hh; exact ⟨_, [], rfl, rfl, rfl⟩

/-! ## Where stored texts come from -/

/-- The elements among nodes that have all been kept can be written. -/
theorem ok_of_mem_elements (h : ∀ n ∈ ns, NodeOk n ∧ n.isText = false) : ∀ e ∈ ns.filterMap Node.element?, e.Ok :=
  fun _ he => (h _ (mem_elements.1 he)).1

theorem store_declare (ns : List Node) :
    store (ns.map declareNode) = (ns.filterMap Node.element?).map fun e => (declare e).write := by
  induction ns with
  | nil => rfl
  | cons n ns ih =>
    rcases outline_cases n with ⟨e, rfl⟩ | hn
    · rw [List.map_cons, elements_cons, List.map_cons, ← ih, store, store]
      rfl
    · have hsame : declareNode n = n := by
        have hnone : n.element? = none := by simpa [Node.isElement] using hn
        rw [declareNode, hnone]
      rw [List.map_cons, hsame, store, elements_cons_of_not hn, elements_cons_of_not hn, ← ih, store]

theorem isRow_declareNode (n : Node) : Chart.isRow (declareNode n) = Chart.isRow n := by
  rcases outline_cases n with ⟨e, rfl⟩ | hn
  · change Chart.isRow (declare e).toNode = Chart.isRow e.toNode
    rw [declare]
    split <;> rfl
  · have hnone : n.element? = none := by simpa [Node.isElement] using hn
    rw [declareNode, hnone]

theorem filter_isRow_declareRow (ns : List Node) :
    (ns.map Chart.declareRow).filter Chart.isRow = (ns.filter Chart.isRow).map declareNode := by
  have hrow : ∀ n, Chart.isRow (Chart.declareRow n) = Chart.isRow n := by
    intro n
    rw [Chart.declareRow]
    split
    · exact isRow_declareNode n
    · rfl
  have hfilter : ns.filter (Chart.isRow ∘ Chart.declareRow) = ns.filter Chart.isRow :=
    List.filter_congr fun n _ => hrow n
  rw [List.filter_map, hfilter]
  refine List.map_congr_left fun n hn => ?_
  rw [Chart.declareRow, if_pos (List.mem_filter.1 hn).2]

theorem prune_filter {allowed : List String} (p : Node → Bool) {kept : List Node} (h : prune allowed ns = .ok kept) :
    ∃ kept', prune allowed (ns.filter p) = .ok kept' := by
  induction ns generalizing kept with
  | nil => exact ⟨[], rfl⟩
  | cons n ns ih =>
    rw [prune] at h
    obtain ⟨first, hfirst, h⟩ := bind_eq_ok.1 h
    obtain ⟨rest, hrest, -⟩ := bind_eq_ok.1 h
    obtain ⟨rest', hrest'⟩ := ih hrest
    rw [List.filter_cons]
    split
    · exact ⟨first ++ rest', by rw [prune, hfirst, hrest']; rfl⟩
    · exact ⟨rest', hrest'⟩

/-- Does an element in a definition of the kind hold prose?  Actions keep everything as it is. -/
def Kind.holdsProse : Kind → String → Bool
  | .action, _ => true
  | .metadata, name => isProse name
  | _, _ => false

/-- Does a definition of the kind store elements with the name? -/
def Kind.storesName : Kind → String → Bool
  | .action, name => name == "action"
  | .chart, name => localName name == "row"
  | _, _ => true

/-- The elements that a definition stores: they can be written, the metadata in them can be read, they hold prose
only where they may, they have the right names, and they are allowed where they stand. -/
structure Definition.Stores (x : Definition) (f : Element → Element) (es : List Element) : Prop where
  stored : x.stored = es.map fun e => (f e).write
  restores : Restores f x.restored
  ok : ∀ e ∈ es, e.Ok
  metadata : MetadataOk (es.map Element.toNode)
  pruned : ∀ e ∈ es, Pruned x.kind.holdsProse e.toNode
  named : ∀ e ∈ es, x.kind.storesName e.name
  allowed : match x.kind with
    | .block => ∃ kept, prune [] (es.map Element.toNode) = .ok kept
    | .chart => ∃ kept, prune chartElements (es.map Element.toNode) = .ok kept
    | .component => ∃ kept, prune [] (es.map Element.toNode) = .ok kept
    | .metadata => ∃ kept, pruneMetadata (es.map Element.toNode) = .ok kept
    | _ => True

theorem metadataOk_of_prune {allowed : List String} {kept : List Node} (h : prune allowed ns = .ok kept) :
    MetadataOk ns := by
  have hunknown : ¬IsPatternName Kind.metadata.tag := by decide +kernel
  rw [MetadataOk, descendants_of_prune (fun hadmitted => hunknown hadmitted.known) h]
  rintro m ⟨⟩

theorem mem_descendants_map {tag : String} (h : m ∈ descendants tag (es.map Element.toNode)) :
    ∃ e ∈ es, m ∈ selfAndDescendants tag e.toNode := by
  induction es with
  | nil => cases h
  | cons e es ih =>
    rw [List.map_cons, descendants, List.mem_append] at h
    rcases h with h | h
    · exact ⟨e, by simp, h⟩
    · obtain ⟨e', he', hm⟩ := ih h
      exact ⟨e', by simp [he'], hm⟩

/-- Every definition that has been read stores elements. -/
theorem Definition.IsRead.stores {x : Definition} (hx : x.IsRead) : ∃ f es, x.Stores f es := by
  have helements : ∀ {allowed : List String} {ns : List Node}, (∃ kept, prune allowed ns = .ok kept) →
      ∃ kept, prune allowed ((ns.filterMap Node.element?).map Element.toNode) = .ok kept :=
    (prune_congr (outlineNodes_elements noAttr _)).2
  have hnil : MetadataOk [] := by
    rintro m ⟨⟩
  cases x with
  | action a =>
    obtain ⟨e, he, hmeta, rfl⟩ := hx
    refine ⟨id, descendants "action" e.children, rfl, restores_id,
      fun _ => ok_of_mem_descendants _ he.children, fun m hm => ?_, fun _ _ => .inl rfl,
      fun a ha => beq_iff_eq.2 (name_of_mem_descendants _ ha), trivial⟩
    obtain ⟨a, ha, hm⟩ := mem_descendants_map hm
    exact hmeta m (selfAndDescendants_subset_of_mem e.children ha hm)
  | block b =>
    obtain ⟨e, e', he, hread⟩ := hx
    obtain ⟨kept, hkept, heq⟩ := Block.ofElement_eq_ok.1 hread
    cases heq
    have hprune := helements ((prune_congr (outlineNodes_of_prune noAttr _ hkept)).2 ⟨kept, hkept⟩)
    exact ⟨declare, kept.filterMap Node.element?, store_declare kept, restores_declare,
      ok_of_mem_elements (nodeOk_of_prune _ he.children hkept), metadataOk_of_prune hprune.choose_spec,
      fun _ hmem => pruned_of_prune _ hkept _ (mem_elements.1 hmem), fun _ _ => rfl, hprune⟩
  | component c =>
    obtain ⟨e, id, kept, he, -, hkept, rfl⟩ := hx
    have hprune := helements ((prune_congr (outlineNodes_of_prune noAttr _ hkept)).2 ⟨kept, hkept⟩)
    exact ⟨declare, kept.filterMap Node.element?, store_declare kept, restores_declare,
      ok_of_mem_elements (nodeOk_of_prune _ he.children hkept), metadataOk_of_prune hprune.choose_spec,
      fun _ hmem => pruned_of_prune _ hkept _ (mem_elements.1 hmem), fun _ _ => rfl, hprune⟩
  | chart c =>
    obtain ⟨e, e', he, hread⟩ := hx
    obtain ⟨-, kept, hkept, heq⟩ := Chart.ofElement_eq_ok.1 hread
    cases heq
    -- all that stands in the chart has been accepted, and so the rows are accepted by themselves
    obtain ⟨kept', hkept'⟩ := (prune_congr (outlineNodes_of_prune noAttr _ hkept)).2 ⟨kept, hkept⟩
    have hprune := helements (prune_filter Chart.isRow hkept')
    have hmem : ∀ r ∈ (kept.filter Chart.isRow).filterMap Node.element?, r.toNode ∈ kept ∧ Chart.isRow r.toNode :=
      fun r hr => List.mem_filter.1 (mem_elements.1 hr)
    refine ⟨declare, (kept.filter Chart.isRow).filterMap Node.element?, ?_, restores_declare,
      ok_of_mem_elements fun n hn => nodeOk_of_prune _ he.children hkept n (List.mem_filter.1 hn).1,
      metadataOk_of_prune hprune.choose_spec, fun r hr => pruned_of_prune _ hkept _ (hmem r hr).1,
      fun r hr => (hmem r hr).2, hprune⟩
    change store ((kept.map Chart.declareRow).filter Chart.isRow) = _
    rw [filter_isRow_declareRow, store_declare]
  | metadata m =>
    obtain ⟨ns, hns, hok, hmeta, hprune⟩ := hx
    refine ⟨id, ns.filterMap Node.element?, hns, restores_id, ok_of_mem_elements hok,
      (metadataOk_congr (outlineNodes_elements noAttr ns)).2 hmeta,
      fun _ hmem => pruned_of_pruneMetadata _ hprune _ (mem_elements.1 hmem), fun _ _ => rfl, ?_⟩
    exact (pruneMetadata_congr (outlineNodes_elements noAttr ns)).2 ⟨ns, hprune⟩
  | _ => exact ⟨id, [], rfl, restores_id, nofun, hnil, nofun, nofun, trivial⟩

/-! ## Fields -/

theorem clean_boolText (b : Bool) : Clean (boolText b) := by
  cases b <;> decide

theorem isMarkupChar_of_isNumberChar {c : Char} (h : Number.isNumberChar c) : isMarkupChar c := by
  simp only [Number.isNumberChar, Bool.or_eq_true, beq_iff_eq] at h
  rcases h with (((((((h | rfl) | rfl) | rfl) | rfl) | rfl) | rfl) | rfl) | rfl
  · exact isMarkupChar_of_isPlainDigit h
  all_goals decide

/-- The value of a parameter is written in characters that a document can hold. -/
def ParamOk (p : String × Formula.Value) : Prop :=
  Clean p.1 ∧ (p.2 = .nothing ∨ ∀ s, p.2.text? = some s → Clean s)

theorem clean_coerce (hs : Clean s) {t : String} (h : (Formula.coerce s).text? = some t) : Clean t := by
  rw [Formula.coerce] at h
  split at h
  · next n _ =>
    change Number.intText? n = some t at h
    rw [Number.intText?] at h
    split at h
    · cases h
      exact fun c hc => isMarkupChar_of_isNumberChar (Number.isNumberChar_of_mem_intText hc)
    · cases h
  · split at h
    · next x _ =>
      change some x.text = some t at h
      cases h
      exact fun c hc => isMarkupChar_of_isNumberChar (Number.isNumberChar_of_mem_text hc)
    · cases h
      exact hs

theorem paramOk_readParam {unset : Formula.Value} (hunset : unset = .nothing ∨ unset = .str "")
    {piece : String} (hpiece : Clean piece) : ParamOk (readParam unset piece) := by
  rw [readParam]
  split
  · next name value rest hcut =>
    have hmem : ∀ p ∈ Text.cut piece "=", Clean p := fun p => clean_of_mem_cut rfl hpiece
    rw [hcut] at hmem
    refine ⟨hmem name (by simp), .inr fun s hs => ?_⟩
    dsimp only at hs
    exact clean_coerce (hmem value (by simp)) hs
  · refine ⟨hpiece, ?_⟩
    rcases hunset with rfl | rfl
    · exact .inl rfl
    · refine .inr fun s hs => ?_
      cases hs
      exact clean_empty

theorem paramOk_readActionParams (hs : Clean s) : ∀ p ∈ (readActionParams s).entries, ParamOk p := by
  intro p hp
  rw [readActionParams] at hp
  split at hp
  · cases hp
  · obtain ⟨piece, hpiece, rfl⟩ := List.mem_map.1 (Table.mem_ofList hp)
    exact paramOk_readParam (.inl rfl) (clean_of_mem_cut rfl hs hpiece)

theorem paramOk_readBlockParams (hs : Clean s) : ∀ p ∈ (readBlockParams s).entries, ParamOk p := by
  intro p hp
  obtain ⟨piece, hpiece, rfl⟩ := List.mem_map.1 (Table.mem_ofList hp)
  exact paramOk_readParam (.inr rfl) (clean_of_mem_cut rfl hs (List.mem_of_mem_filter hpiece))

theorem clean_writeParam {p : String × Formula.Value} (hp : ParamOk p) (h : writeParam p = .ok s) : Clean s := by
  rw [writeParam] at h
  split at h
  · cases h
    exact hp.1
  · next hne =>
    split at h
    · next t ht =>
      cases h
      have hvalue := hp.2.resolve_left hne t ht
      exact clean_append (clean_append hp.1 (by decide)) hvalue
    · cases h

theorem clean_writeParams {t : Table Formula.Value} (ht : ∀ p ∈ t.entries, ParamOk p) (h : writeParams t = .ok s) :
    Clean s := by
  obtain ⟨ps, hps, h⟩ := bind_eq_ok.1 h
  cases h
  refine clean_join (by decide) fun p hp => ?_
  obtain ⟨q, hq, hwritten⟩ := exists_of_mem_right (mapM_eq_ok.1 hps) hp
  exact clean_writeParam (ht q hq) hwritten

end Stitchwork.Pattern
