/- # Stitchwork.Proofs.Pattern.Provenance — where the definitions of a document come from.

Every definition of a document that has been read comes from an element of one of its files.  What the
document holds is made of what stands there: its texts hold characters only that a document can hold, what
it stores can be written and read again, and names that must be unique are.
-/
import Stitchwork.Proofs.Markup.WellFormed
import Stitchwork.Proofs.Number.Digits
import Stitchwork.Proofs.Pattern.Census

namespace Stitchwork.Markup

variable {e : Element}

/-! ## Clean texts -/

/-- The text holds characters only that a document can hold. -/
def Clean (s : String) : Prop := ∀ c ∈ s.toList, isMarkupChar c

instance (s : String) : Decidable (Clean s) := List.decidableBAll (isMarkupChar · = true) s.toList

theorem clean_empty : Clean "" := fun _ hc => nomatch hc

theorem clean_append {s t : String} (hs : Clean s) (ht : Clean t) : Clean (s ++ t) := by
  intro c hc
  rw [String.toList_append, List.mem_append] at hc
  exact hc.elim (hs c) (ht c)

theorem clean_trim {s : String} (h : Clean s) : Clean (Text.trim s) :=
  fun c hc => h c (Text.mem_of_mem_trim hc)

theorem clean_join {sep : String} (hsep : Clean sep) {ps : List String} (h : ∀ p ∈ ps, Clean p) :
    Clean (Text.join sep ps) := by
  intro c hc
  rcases Text.mem_join hc with hc | ⟨p, hp, hc⟩
  · exact hsep c hc
  · exact h p hp c hc

theorem clean_of_mem_cut {sep : String} {x : Char} (hsep : sep.toList = [x]) {s p : String} (h : Clean s)
    (hp : p ∈ Text.cut s sep) : Clean p :=
  fun c hc => h c (Text.mem_of_mem_cut hsep hp hc)

theorem isMarkupChar_of_isPlainDigit {c : Char} (h : Text.isPlainDigit c) : isMarkupChar c := by
  have hcode := Number.isPlainDigit_iff.1 h
  exact isMarkupChar_of_toNat (by omega)

theorem toNat_of_mem_identifier {n : Nat} {c : Char} (hc : c ∈ (identifier n).toList) :
    0x20 < c.toNat ∧ c.toNat < 0x80 := by
  have hcheck : ("00000000-0000-4000-8000-".toList.all fun c => 0x20 < c.toNat && c.toNat < 0x80) = true := by
    decide +kernel
  have hstart : ∀ c ∈ "00000000-0000-4000-8000-".toList, 0x20 < c.toNat ∧ c.toNat < 0x80 := by
    simpa only [List.all_eq_true, Bool.and_eq_true, decide_eq_true_eq] using hcheck
  unfold identifier at hc
  rw [String.toList_ofList] at hc
  simp only [List.mem_append, or_assoc] at hc
  rcases hc with hc | hc | hc
  · exact hstart c hc
  · rw [List.eq_of_mem_replicate hc]
    decide
  · have hcode := Number.isPlainDigit_iff.1 (Number.isPlainDigit_of_mem_toDigits hc)
    omega

theorem clean_identifier (n : Nat) : Clean (identifier n) := by
  intro c hc
  have hcode := toNat_of_mem_identifier hc
  exact isMarkupChar_of_toNat (by omega)

/-! ## Elements that can be written -/

/-- Is the text a name with at most one colon inside? -/
def isQName (s : String) : Bool :=
  match takeQualifiedName s.toList with
  | .ok (name, []) => name == s.toList
  | _ => false

theorem isQName_sound {s : String} (h : isQName s) : IsQName s.toList := by
  rw [isQName] at h
  split at h
  · next name htake =>
    rw [← beq_iff_eq.1 h]
    exact takeQualifiedName_eq_ok htake
  · cases h

theorem Element.Ok.attr?_clean (he : e.Ok) {k v : String} (h : e.attr? k = some v) : Clean v := by
  have hattrs : ∀ a ∈ e.attrs.entries, AttrOk a := he.2.1
  exact (hattrs (k, v) (Table.mem_of_valueIn? h)).value

theorem Element.Ok.attr_clean (he : e.Ok) (k : String) : Clean (e.attr k) := by
  rw [Element.attr]
  cases hv : e.attrs.get? k with
  | none => exact clean_empty
  | some v => exact he.attr?_clean hv

theorem Element.Ok.children (he : e.Ok) : NodesOk e.children := he.2.2

theorem nodeOk_of_mem {ns : List Node} (h : NodesOk ns) {n : Node} (hn : n ∈ ns) : NodeOk n :=
  (nodesOk_iff.1 h).1 n hn

/-- Nodes that are no texts can stand in any order. -/
theorem nodesOk_of_forall {ns : List Node} (h : ∀ n ∈ ns, NodeOk n ∧ n.isText = false) : NodesOk ns := by
  induction ns with
  | nil => trivial
  | cons n ns ih =>
    rw [List.forall_mem_cons] at h
    refine ⟨h.1.1, fun htext => ?_, ih h.2⟩
    rw [h.1.2] at htext
    cases htext

/-- An element with children that are no texts. -/
theorem Element.Ok.withChildren (he : e.Ok) {ns : List Node} (h : ∀ n ∈ ns, NodeOk n ∧ n.isText = false) :
    ({ e with children := ns } : Element).Ok :=
  ⟨he.1, he.2.1, nodesOk_of_forall h⟩

end Stitchwork.Markup

namespace Stitchwork.Pattern

open Stitchwork.Markup

variable {e root : Element} {d : Document}

theorem isText_of_isElement {n : Node} (h : n.isElement) : n.isText = false := by
  cases n with
  | element name attrs children => rfl
  | _ => cases h

theorem nodesOk_replaceElement (c : Element) (hc : c.Ok) (i : Nat) (ns : List Node) (h : NodesOk ns) :
    NodesOk (replaceElement c.toNode i ns) := by
  induction ns generalizing i with
  | nil => exact h
  | cons n ns ih =>
    obtain ⟨hn, hapart, hns⟩ := h
    unfold replaceElement
    split
    · next helement =>
      cases i with
      | zero => exact ⟨hc, by rintro ⟨⟩, hns⟩
      | succ i =>
        refine ⟨hn, fun htext => ?_, ih i hns⟩
        rw [isText_of_isElement helement] at htext
        cases htext
    · refine ⟨hn, fun htext => ?_, ih i hns⟩
      -- The first node behind a text is no text, and stays none when it is replaced.
      cases ns with
      | nil => rfl
      | cons m ns =>
        unfold replaceElement
        split
        · split
          · rfl
          · exact hapart htext
        · exact hapart htext

theorem hereditary_ok : Hereditary Element.Ok where
  child he hc := nodeOk_of_mem he.children (mem_elements.1 hc)
  replace i he hc := ⟨he.1, he.2.1, nodesOk_replaceElement _ hc i _ he.children⟩

/-! ## What checking and declaring keep -/

/-- What is kept of nodes that can be written can be written in any order. -/
theorem nodeOk_elementsOnly (closed : String → Bool) (ns : List Node) (hns : NodesOk ns) :
    ∀ n ∈ elementsOnly closed ns, NodeOk n ∧ n.isText = false := by
  cases ns with
  | nil => exact nofun
  | cons n ns =>
    have hrest := nodeOk_elementsOnly closed ns hns.2.2
    cases n with
    | element name attrs children =>
      have hn : NodeOk (.element name attrs children) := hns.1
      have hchildren := nodesOk_of_forall (nodeOk_elementsOnly closed children hn.2.2)
      refine List.forall_mem_cons.2 ⟨⟨?_, rfl⟩, hrest⟩
      split
      · exact hn
      · exact ⟨hn.1, hn.2.1, hchildren⟩
    | _ => exact hrest

theorem nodeOk_of_prune {allowed : List String} (ns : List Node) {kept : List Node} (hns : NodesOk ns)
    (h : prune allowed ns = .ok kept) : ∀ n ∈ kept, NodeOk n ∧ n.isText = false := by
  rw [← (prune_eq_ok.1 h).2]
  exact nodeOk_elementsOnly _ ns hns

theorem nodeOk_of_pruneMetadata (ns : List Node) {kept : List Node} (hns : NodesOk ns)
    (h : pruneMetadata ns = .ok kept) : ∀ n ∈ kept, NodeOk n ∧ n.isText = false := by
  rw [← (pruneMetadata_eq_ok.1 h).2]
  exact nodeOk_elementsOnly _ ns hns

theorem attrOk_declaration : AttrOk (declaration, patternNamespace) :=
  ⟨isQName_sound (by decide +kernel), List.all_eq_true.1 (by decide +kernel)⟩

theorem attrOk_insertEntry {a : String × String} (ha : AttrOk a) {es : List (String × String)}
    (hes : ∀ b ∈ es, AttrOk b) : ∀ b ∈ Table.insertEntry a.1 a.2 es, AttrOk b := by
  induction es with
  | nil => simpa [Table.insertEntry] using ha
  | cons e es ih =>
    rw [List.forall_mem_cons] at hes
    rw [Table.insertEntry]
    split
    · exact List.forall_mem_cons.2 ⟨ha, hes.2⟩
    · exact List.forall_mem_cons.2 ⟨hes.1, ih hes.2⟩

theorem ok_declare (he : e.Ok) : (declare e).Ok := by
  have hattrs : ∀ a ∈ e.attrs.entries, AttrOk a := he.2.1
  rw [declare]
  split
  · exact ⟨he.1, attrOk_insertEntry attrOk_declaration hattrs, he.2.2⟩
  · refine ⟨he.1, attrOk_insertEntry attrOk_declaration fun a ha => ?_, he.2.2⟩
    exact hattrs a (List.mem_of_mem_filter ha)

theorem nodeOk_declareNode {n : Node} (h : NodeOk n ∧ n.isText = false) :
    NodeOk (declareNode n) ∧ (declareNode n).isText = false := by
  rcases outline_cases n with ⟨e, rfl⟩ | hn
  · exact ⟨ok_declare h.1, rfl⟩
  · have hnone : n.element? = none := by simpa [Node.isElement] using hn
    rw [declareNode, hnone]
    exact h

theorem nodeOk_map_declare {f : Node → Node} (hf : ∀ n, f n = declareNode n ∨ f n = n) {ns : List Node}
    (h : ∀ n ∈ ns, NodeOk n ∧ n.isText = false) :
    ∀ n ∈ ns.map f, NodeOk n ∧ n.isText = false := by
  intro n hn
  obtain ⟨m, hm, rfl⟩ := List.mem_map.1 hn
  rcases hf m with heq | heq
  · rw [heq]
    exact nodeOk_declareNode (h m hm)
  · rw [heq]
    exact h m hm

/-! ## Elements below -/

theorem ok_of_mem_descendants {name : String} (ns : List Node) (hns : NodesOk ns) (h : e ∈ descendants name ns) :
    e.Ok :=
  of_mem_descendants (fun {_ _} (he : Element.Ok _) hc => nodeOk_of_mem he.children hc)
    (fun _ hc => nodeOk_of_mem hns hc) h

theorem ok_of_mem_selfAndDescendants {name : String} (n : Node) (hn : NodeOk n) (h : e ∈ selfAndDescendants name n) :
    e.Ok := by
  rw [← descendants_singleton] at h
  exact ok_of_mem_descendants [n] ⟨hn, fun _ => rfl, trivial⟩ h

/-- The metadata among nodes and below them can be read. -/
def MetadataOk (ns : List Node) : Prop :=
  ∀ m ∈ descendants Kind.metadata.tag ns, ∃ kept, pruneMetadata m.children = .ok kept

theorem metadataOk_append {ms ns : List Node} :
    MetadataOk (ms ++ ns) ↔ MetadataOk ms ∧ MetadataOk ns := by
  rw [MetadataOk, descendants_append, List.forall_mem_append]
  exact Iff.rfl

theorem metadataOk_outlineNodes (keep : String → Bool) (ns : List Node) :
    MetadataOk (outlineNodes keep ns) ↔ MetadataOk ns := by
  have hprune : ∀ m : Element, (∃ kept, pruneMetadata (outline keep m).children = .ok kept) ↔
      ∃ kept, pruneMetadata m.children = .ok kept := by
    intro m
    rw [outline, pruneMetadata_outlineNodes]
    cases pruneMetadata m.children <;> simp [Except.map]
  rw [MetadataOk, descendants_outlineNodes, List.forall_mem_map]
  simp only [hprune]
  exact Iff.rfl

theorem metadataOk_congr {keep : String → Bool} {ms ns : List Node}
    (h : outlineNodes keep ms = outlineNodes keep ns) : MetadataOk ms ↔ MetadataOk ns := by
  rw [← metadataOk_outlineNodes keep ms, h, metadataOk_outlineNodes]

/-- The element stands, in outline, at some place in the tree. -/
def Within (root e : Element) : Prop :=
  ∃ place, elementAt? place (outline isKept root) = some (outline isKept e)

theorem descendants_elementAt? {place : List Nat} (h : elementAt? place root = some e) (tag : String) :
    descendants tag e.children ⊆ descendants tag root.children := by
  induction place generalizing root with
  | nil =>
    cases h
    exact fun _ hm => hm
  | cons i place ih =>
    obtain ⟨c, hc, hrest⟩ := Option.bind_eq_some_iff.1 h
    refine List.Subset.trans (ih hrest) (List.Subset.trans (descendants_children_subset c tag) ?_)
    exact selfAndDescendants_subset (mem_elements.1 (List.mem_of_getElem? hc)) tag

theorem Within.metadataOk (h : Within root e) (hroot : MetadataOk root.children) : MetadataOk e.children := by
  obtain ⟨place, hplace⟩ := h
  rw [← metadataOk_outlineNodes isKept] at hroot ⊢
  exact fun m hm => hroot m (descendants_elementAt? hplace _ hm)

/-! ## Definitions that have been read -/

/-- The definition is what reading an element of a file gives. -/
def Definition.IsRead : Definition → Prop
  | .action a => ∃ e : Element, e.Ok ∧ MetadataOk e.children ∧ a = .ofElement e
  | .block b => ∃ e e' : Element, e.Ok ∧ Block.ofElement e = .ok (b, e')
  | .chart c => ∃ e e' : Element, e.Ok ∧ Chart.ofElement e = .ok (c, e')
  | .color c => ∃ e : Element, e.Ok ∧ Color.ofElement e = .ok c
  | .component c => ∃ (e : Element) (id : String) (kept : List Node), e.Ok ∧ Clean id ∧
      prune [] e.children = .ok kept ∧
      c = ⟨e.attr "name", some id, some (store (kept.map declareNode)), e.attr? "condition"⟩
  | .config c => ∃ e : Element, e.Ok ∧ c = .ofElement e
  | .image i => Clean i.name
  | .metadata m => ∃ ns : List Node, m.elements = store ns ∧ (∀ n ∈ ns, NodeOk n ∧ n.isText = false) ∧
      MetadataOk ns ∧ pruneMetadata ns = .ok ns
  | .value v => ∃ (e : Element) (id : String), e.Ok ∧ Clean id ∧
      v = ⟨e.attr "name", e.attr "value", some id, e.attr? "condition"⟩

theorem store_append (ms ns : List Node) : store (ms ++ ns) = store ms ++ store ns := by
  rw [store, store, store, List.filterMap_append, List.map_append]

theorem isRead_metadata_append {a b : Metadata} (ha : (Definition.metadata a).IsRead)
    (hb : (Definition.metadata b).IsRead) :
    (Definition.metadata ⟨a.elements ++ b.elements⟩).IsRead := by
  obtain ⟨ms, hms, hokm, hmetam, hprunem⟩ := ha
  obtain ⟨ns, hns, hokn, hmetan, hprunen⟩ := hb
  refine ⟨ms ++ ns, ?_, List.forall_mem_append.2 ⟨hokm, hokn⟩, metadataOk_append.2 ⟨hmetam, hmetan⟩,
    pruneMetadata_append hprunem hprunen⟩
  rw [hms, hns, store_append]

theorem ensures_uniqueIdOf (he : e.Ok) : Ensures (uniqueIdOf e) Clean := by
  rw [uniqueIdOf]
  split
  · next id hid => exact ensures_pure (he.attr?_clean hid)
  · exact ensures_freshIdentifier clean_identifier

/-- Reading an element gives a definition that comes from it, and leaves an element that can be written. -/
theorem ensures_ofElement_isRead (sources : Sources) (dir : String) (kind : Kind) (he : e.Ok)
    (hmeta : MetadataOk e.children) :
    Ensures (Definition.ofElement sources dir kind e) fun p => p.2.Ok ∧ p.1.IsRead := by
  -- blocks, charts and components leave their element with what is kept of its content, declared or as it is
  have hdeclared : ∀ {allowed kept} {f : Node → Node}, prune allowed e.children = .ok kept →
      (∀ n, f n = declareNode n ∨ f n = n) → ({ e with children := kept.map f } : Element).Ok :=
    fun hkept hf => he.withChildren (nodeOk_map_declare hf (nodeOk_of_prune _ he.children hkept))
  cases kind with
  | action => exact ensures_pure ⟨he, e, he, hmeta, rfl⟩
  | config => exact ensures_pure ⟨he, e, he, rfl⟩
  | value =>
    refine ensures_bind (P := fun v => ∃ id, Clean id ∧ v = ⟨e.attr "name", e.attr "value", some id, e.attr? "condition"⟩)
      (ensures_bind (ensures_uniqueIdOf he) fun id hid => ensures_pure ⟨id, hid, rfl⟩) ?_
    rintro _ ⟨id, hid, rfl⟩
    exact ensures_pure ⟨he, e, id, he, hid, rfl⟩
  | color =>
    refine ensures_bind (ensures_liftExcept fun c hc => hc) fun c hc => ?_
    exact ensures_pure ⟨he, e, he, hc⟩
  | image =>
    refine ensures_bind (ensures_liftExcept fun i hi => Image.name_of_ofElement hi) fun i hi => ?_
    refine ensures_pure ⟨he, ?_⟩
    rw [Definition.IsRead, hi]
    exact he.attr_clean "name"
  | block =>
    refine ensures_bind (ensures_liftExcept fun p hp => hp) fun p hp => ?_
    obtain ⟨kept, hkept, rfl⟩ := Block.ofElement_eq_ok.1 hp
    exact ensures_pure ⟨hdeclared hkept fun _ => .inl rfl, e, _, he, hp⟩
  | chart =>
    refine ensures_bind (ensures_liftExcept fun p hp => hp) fun p hp => ?_
    obtain ⟨-, kept, hkept, rfl⟩ := Chart.ofElement_eq_ok.1 hp
    refine ensures_pure ⟨hdeclared hkept fun n => ?_, e, _, he, hp⟩
    rw [Chart.declareRow]
    split
    · exact .inl rfl
    · exact .inr rfl
  | component =>
    refine ensures_bind (P := fun p => ∃ id kept, Clean id ∧ prune [] e.children = .ok kept ∧
      p = (⟨e.attr "name", some id, some (store (kept.map declareNode)), e.attr? "condition"⟩,
        { e with children := kept.map declareNode })) ?_ ?_
    · refine ensures_bind (ensures_uniqueIdOf he) fun id hid => ?_
      refine ensures_bind (ensures_liftExcept fun kept hkept => hkept) fun kept hkept => ?_
      exact ensures_pure ⟨id, kept, hid, hkept, rfl⟩
    · rintro _ ⟨id, kept, hid, hkept, rfl⟩
      exact ensures_pure ⟨hdeclared hkept fun _ => .inl rfl, e, id, kept, he, hid, hkept, rfl⟩
  | metadata =>
    refine ensures_bind (ensures_liftExcept fun p => Metadata.ofElement_eq_ok.1) ?_
    rintro _ ⟨kept, hkept, rfl⟩
    have hok := nodeOk_of_pruneMetadata _ he.children hkept
    have houtline := outlineNodes_of_pruneMetadata isKept _ hkept
    exact ensures_pure ⟨he.withChildren hok, kept, rfl, hok, (metadataOk_congr houtline).2 hmeta,
      pruneMetadata_kept hkept⟩

/-! ## Documents that have been read -/

/-- What a document that has been read is made of. -/
structure Document.IsRead (d : Document) : Prop where
  namespaceUri : d.namespaceUri = some patternNamespace
  name : ∃ s, Clean s ∧ d.name = Text.trim s
  uniqueId : ∀ id ∈ d.uniqueId, Clean id
  version : ∀ v ∈ d.version, ∃ s, readVersion s = .ok v
  definitions : d.All Definition.IsRead
  unique : ∀ k, k.isUnique → (d.names k).Nodup

/-- Adding a definition changes nothing that the root of a pattern says. -/
theorem Document.add_head {d' : Document} {x : Definition} (h : d.add x = .ok d') :
    d'.name = d.name ∧ d'.uniqueId = d.uniqueId ∧ d'.version = d.version ∧
      d'.namespaceUri = d.namespaceUri := by
  cases x with
  | metadata m =>
    rw [add_metadata] at h
    cases h
    exact ⟨rfl, rfl, rfl, rfl⟩
  | component c => cases h; exact ⟨rfl, rfl, rfl, rfl⟩
  | config c => cases h; exact ⟨rfl, rfl, rfl, rfl⟩
  | value v => cases h; exact ⟨rfl, rfl, rfl, rfl⟩
  | _ =>
    obtain ⟨ys, -, hd⟩ := bind_eq_ok.1 h
    cases hd
    exact ⟨rfl, rfl, rfl, rfl⟩

theorem not_mem_of_addUnique {α : Type} {kind : Kind} {nameOf : α → String} (inj : α → Definition)
    (hname : ∀ a, (inj a).name = nameOf a) {xs ys : List α} {x : α}
    (h : addUnique kind nameOf xs x = .ok ys) : nameOf x ∉ (xs.map inj).map Definition.name := by
  rw [List.map_map, List.mem_map]
  rintro ⟨y, hy, heq⟩
  refine (addUnique_eq_ok h).2 y hy ?_
  rw [← heq, Function.comp_apply, hname]

/-- A definition whose name is taken cannot be added. -/
theorem Document.not_mem_of_add {d' : Document} {x : Definition} (h : d.add x = .ok d') (hx : x.kind.isUnique) :
    x.name ∉ d.names x.kind := by
  cases x with
  | metadata m => cases hx
  | component c => cases hx
  | config c => cases hx
  | value v => cases hx
  | action a =>
    obtain ⟨ys, hys, -⟩ := bind_eq_ok.1 h
    exact not_mem_of_addUnique .action (fun _ => rfl) hys
  | block b =>
    obtain ⟨ys, hys, -⟩ := bind_eq_ok.1 h
    exact not_mem_of_addUnique .block (fun _ => rfl) hys
  | chart c =>
    obtain ⟨ys, hys, -⟩ := bind_eq_ok.1 h
    exact not_mem_of_addUnique .chart (fun _ => rfl) hys
  | color c =>
    obtain ⟨ys, hys, -⟩ := bind_eq_ok.1 h
    exact not_mem_of_addUnique .color (fun _ => rfl) hys
  | image i =>
    obtain ⟨ys, hys, -⟩ := bind_eq_ok.1 h
    exact not_mem_of_addUnique .image (fun _ => rfl) hys

theorem Document.IsRead.add {d' : Document} {x : Definition} (hd : d.IsRead) (hx : x.IsRead) (h : d.add x = .ok d') :
    d'.IsRead := by
  obtain ⟨hname, huid, hversion, huri⟩ := add_head h
  refine ⟨huri ▸ hd.namespaceUri, hname ▸ hd.name, huid ▸ hd.uniqueId, hversion ▸ hd.version,
    hd.definitions.add hx (fun _ _ => isRead_metadata_append) h, fun k hk => ?_⟩
  rw [names_add h (by rintro rfl; cases hk)]
  split
  · next heq =>
    subst heq
    refine List.nodup_append.2 ⟨hd.unique _ hk, by simp, ?_⟩
    simpa using fun n hn => ne_of_mem_of_not_mem hn (not_mem_of_add h hk)
  · rw [List.append_nil]
    exact hd.unique k hk

theorem isRead_readRoot (hroot : root.Ok) (h : readRoot root = .ok d) : d.IsRead := by
  have hempty := not_mem_listed_of_readRoot h
  obtain ⟨version, hversion, h⟩ := bind_eq_ok.1 h
  obtain ⟨specVersion, -, h⟩ := bind_eq_ok.1 h
  cases h
  refine ⟨rfl, ⟨root.attr "name", hroot.attr_clean _, rfl⟩, fun id hid => hroot.attr?_clean hid, fun v hv => ?_,
    fun k x hx => absurd hx (hempty k x), fun k _ => ?_⟩
  · change version = some v at hv
    subst hv
    cases hattr : root.attr? "version" with
    | none =>
      rw [hattr] at hversion
      cases hversion
    | some s =>
      rw [hattr] at hversion
      obtain ⟨w, hw, heq⟩ := bind_eq_ok.1 hversion
      cases heq
      exact ⟨s, hw⟩
  · rw [Document.names, List.eq_nil_iff_forall_not_mem.2 (hempty k)]
    exact List.nodup_nil

section

variable {T : Element → Prop} {I : Document → Prop} {sources : Sources} {dir : String}

/-- The elements that definitions are read from stand in the tree, whatever has been changed before. -/
theorem ensures_readKinds_within (hT : Hereditary T)
    (hdef : ∀ kind e, T e → Within root e → Ensures (Definition.ofElement sources dir kind e) fun p =>
      T p.2 ∧ ∀ d d', I d → d.add p.1 = .ok d' → I d')
    (kinds : List Kind) (hd : I d) (hroot : T root) : Ensures (readKinds sources dir kinds d root) I := by
  let J : Reading → Prop := fun r => I r.document ∧ T r.root ∧ outline isKept r.root = outline isKept root
  have hplace : ∀ kind r, J r → ∀ place, Ensures (readAt sources dir kind r place) J := by
    rintro kind r ⟨hdocument, htree, houtline⟩ place
    rw [readAt]
    split
    · exact ensures_pure ⟨hdocument, htree, houtline⟩
    · next e he =>
      have hwithin : Within root e := ⟨place, by rw [← houtline, elementAt?_outline, he]; rfl⟩
      refine ensures_bind ((hdef kind e (hT.elementAt htree he) hwithin).and
        (ensures_ofElement sources dir kind e)) fun p hp => ?_
      refine ensures_bind (ensures_liftExcept (hp.1.2 r.document · hdocument)) fun d hd => ?_
      exact ensures_pure ⟨hd, hT.replaceAt hp.1.1 place htree,
        (outline_replaceAt he hp.2.2.2.1).trans houtline⟩
  have hkind : ∀ r : Reading, ∀ k ∈ kinds, J r → Ensures (readKind sources dir r k) J :=
    fun r k _ hr => ensures_foldlM _ (fun r place _ hr => hplace k r hr place) hr
  refine ensures_bind (ensures_foldlM kinds hkind (b := ⟨d, root⟩) ⟨hd, hroot, rfl⟩) fun r hr => ?_
  exact ensures_pure hr.1

theorem ensures_readKinds_isRead {kinds : List Kind} (hkinds : kinds.Nodup) (hmetadata : .metadata ∈ kinds)
    (hd : d.IsRead) (hroot : root.Ok) : Ensures (readKinds sources dir kinds d root) Document.IsRead := by
  by_cases hmeta : MetadataOk root.children
  · refine ensures_readKinds_within hereditary_ok (fun kind e he hwithin => ?_) kinds hd hroot
    refine (ensures_ofElement_isRead sources dir kind he (hwithin.metadataOk hmeta)).mono fun p hp => ?_
    exact ⟨hp.1, fun d d' hd hadd => hd.add hp.2 hadd⟩
  · -- Then reading fails, since metadata is among the kinds.
    refine (ensures_readKinds_names hkinds d root).mono fun d' hd' => absurd ?_ hmeta
    exact (metadataOk_outlineNodes isKept root.children).1 (hd'.2 .metadata hmetadata)

/-- Every document that is read is made of what stands in its files. -/
theorem ensures_readPattern_isRead (sources : Sources) (main : String) :
    Ensures (readPattern sources main) Document.IsRead := by
  refine ensures_readPattern (fun s root d hs hroot => isRead_readRoot (read_ok hs) hroot)
    (fun s root dir d hs hd => ?_) (fun s root dir d hs hd => ?_) main
  · exact ensures_readKinds_isRead (by decide) (by decide) hd (read_ok hs)
  · exact ensures_readKinds_isRead (by decide) (by decide) hd (read_ok hs)

end

end Stitchwork.Pattern
