/- # Stitchwork.Proofs.Pattern.SelfContained — stored texts that can be read on their own.

Checking, declaring and taking elements out of their place keep them lawful.  So what a definition stores is the text of
a lawful element, and it can be restored if and only if this element is self-contained: nothing but a fault of
namespaces can be in the way.
-/
import Stitchwork.Proofs.Markup.SelfContained
import Stitchwork.Proofs.Pattern.Portable

namespace Stitchwork.Pattern

open Stitchwork.Markup

/-! ## Lawful parts -/

theorem lawful_elementsOnly (closed : String → Bool) (ns : List Node) (hns : AllLawful ns) :
    AllLawful (elementsOnly closed ns) := by
  cases ns with
  | nil => trivial
  | cons n ns =>
    have hrest := lawful_elementsOnly closed ns hns.2
    cases n with
    | element name attrs children =>
      have hn : Lawful (.element name attrs children) := hns.1
      have hchildren := lawful_elementsOnly closed children hn.2
      refine ⟨?_, hrest⟩
      split
      · exact hn
      · exact ⟨hn.1, hchildren⟩
    | _ => exact hrest

theorem lawful_of_prune {allowed : List String} (ns : List Node) {kept : List Node} (hns : AllLawful ns)
    (h : prune allowed ns = .ok kept) : ∀ n ∈ kept, Lawful n := by
  rw [← (prune_eq_ok.1 h).2]
  exact allLawful_iff.1 (lawful_elementsOnly _ ns hns)

theorem lawful_of_pruneMetadata (ns : List Node) {kept : List Node} (hns : AllLawful ns)
    (h : pruneMetadata ns = .ok kept) : ∀ n ∈ kept, Lawful n := by
  rw [← (pruneMetadata_eq_ok.1 h).2]
  exact allLawful_iff.1 (lawful_elementsOnly _ ns hns)

theorem lawful_of_mem_descendants {name : String} {ns : List Node} (hns : AllLawful ns) {e : Element}
    (h : e ∈ descendants name ns) : Lawful e.toNode :=
  (lawful_iff_eachTag _).2 (eachTag_of_mem_descendants ns ((allLawful_iff_eachTags ns).1 hns) h)

/-- The declaration of patterns may be made wherever its name is free or has been used for it. -/
theorem lawfulAttrs_insert_declaration {t : Table String} (h : LawfulAttrs t.entries) :
    LawfulAttrs (t.insert declaration patternNamespace).entries := by
  refine ⟨Table.nodup_keys_insert _ _ h.nodup, fun a ha p hp => ?_⟩
  rcases Table.mem_insertEntry ha with rfl | ha
  · have hdeclared : declaredPrefix? declaration = some "opaf" := by decide +kernel
    rw [hdeclared] at hp
    cases hp
    decide +kernel
  · exact h.declares a ha p hp

theorem lawful_declare {e : Element} (he : Lawful e.toNode) : Lawful (declare e).toNode := by
  rw [declare]
  split
  · exact ⟨lawfulAttrs_insert_declaration he.1, he.2⟩
  -- a rival of the same local name is thrown out first; what is left of a lawful list is lawful
  · refine ⟨lawfulAttrs_insert_declaration ⟨?_, fun a ha => he.1.declares a (List.mem_of_mem_filter ha)⟩, he.2⟩
    exact (List.Sublist.map _ List.filter_sublist).nodup he.1.nodup

theorem lawful_declareNode {n : Node} (hn : Lawful n) : Lawful (declareNode n) := by
  rcases outline_cases n with ⟨e, rfl⟩ | hother
  · exact lawful_declare hn
  · have hnone : n.element? = none := by simpa [Node.isElement] using hother
    rw [declareNode, hnone]
    exact hn

/-! ## What definitions store -/

/-- The element can be written, and is lawful. -/
def Sound (e : Element) : Prop := e.Ok ∧ Lawful e.toNode

theorem mem_replaceElement {new m : Node} {i : Nat} {ns : List Node} (h : m ∈ replaceElement new i ns) :
    m = new ∨ m ∈ ns := by
  induction ns generalizing i with
  | nil => cases h
  | cons n ns ih =>
    have hrest : ∀ {j : Nat}, m ∈ n :: replaceElement new j ns → m = new ∨ m ∈ n :: ns := by
      intro j hm
      rcases List.mem_cons.1 hm with rfl | hm
      · exact .inr (by simp)
      · exact (ih hm).imp_right (List.mem_cons_of_mem _)
    unfold replaceElement at h
    split at h
    · split at h
      · exact (List.mem_cons.1 h).imp_right (List.mem_cons_of_mem _)
      · exact hrest h
    · exact hrest h

theorem hereditary_sound : Hereditary Sound where
  child he hc := ⟨hereditary_ok.child he.1 hc, allLawful_iff.1 he.2.2 _ (mem_elements.1 hc)⟩
  replace i he hc := by
    refine ⟨hereditary_ok.replace i he.1 hc.1, he.2.1, allLawful_iff.2 fun n hn => ?_⟩
    rcases mem_replaceElement hn with rfl | hn
    · exact hc.2
    · exact allLawful_iff.1 he.2.2 n hn

/-- What the definition stores are texts of sound elements, with the declaration where the kind asks for it. -/
def Definition.StoresSound (x : Definition) : Prop := ∀ s ∈ x.stored, ∃ e, Sound e ∧ s = (x.declared e).write

theorem storesSound_of_declared {x : Definition} (es : List Element)
    (hstored : x.stored = es.map fun e => (x.declared e).write) (hes : ∀ e ∈ es, Sound e) : x.StoresSound := by
  intro s hs
  rw [hstored] at hs
  obtain ⟨e, he, rfl⟩ := List.mem_map.1 hs
  exact ⟨e, hes e he, rfl⟩

theorem storesSound_of_stored_eq_nil {x : Definition} (h : x.stored = []) : x.StoresSound := by
  intro s hs
  rw [h] at hs
  cases hs

/-- Nodes that have been kept are sound where they are elements. -/
theorem sound_of_mem_elements {ns : List Node} (hok : ∀ n ∈ ns, NodeOk n ∧ n.isText = false)
    (hlawful : ∀ n ∈ ns, Lawful n) : ∀ e ∈ ns.filterMap Node.element?, Sound e :=
  fun e he => ⟨ok_of_mem_elements hok e he, hlawful _ (mem_elements.1 he)⟩

/-- Reading an element gives a definition that stores sound elements, and leaves a sound element. -/
theorem ensures_ofElement_sound (sources : Sources) (dir : String) (kind : Kind) {e : Element} (he : Sound e) :
    Ensures (Definition.ofElement sources dir kind e) fun p => Sound p.2 ∧ p.1.StoresSound := by
  -- what is left behind: blocks and components declare all that they keep, charts only their rows
  have hdeclared : ∀ {allowed kept} {f : Node → Node}, prune allowed e.children = .ok kept →
      (∀ n, f n = declareNode n ∨ f n = n) → Sound { e with children := kept.map f } := by
    intro allowed kept f hkept hf
    refine ⟨he.1.withChildren (nodeOk_map_declare hf (nodeOk_of_prune _ he.1.children hkept)), he.2.1, ?_⟩
    refine allLawful_iff.2 fun n hn => ?_
    obtain ⟨m, hm, rfl⟩ := List.mem_map.1 hn
    have hlawful := lawful_of_prune _ he.2.2 hkept m hm
    rcases hf m with heq | heq
    · rw [heq]
      exact lawful_declareNode hlawful
    · rw [heq]
      exact hlawful
  have hsound : ∀ {allowed kept}, prune allowed e.children = .ok kept → ∀ c ∈ kept.filterMap Node.element?, Sound c :=
    fun hkept => sound_of_mem_elements (nodeOk_of_prune _ he.1.children hkept) (lawful_of_prune _ he.2.2 hkept)
  cases kind with
  | action =>
    refine ensures_pure ⟨he, storesSound_of_declared (descendants "action" e.children) rfl fun a ha => ?_⟩
    exact ⟨ok_of_mem_descendants _ he.1.children ha, lawful_of_mem_descendants he.2.2 ha⟩
  | config => exact ensures_pure ⟨he, storesSound_of_stored_eq_nil rfl⟩
  | value =>
    exact ensures_bind (NamedValue.ensures_ofElement e) fun _ _ => ensures_pure ⟨he, storesSound_of_stored_eq_nil rfl⟩
  | color =>
    exact ensures_bind (ensures_liftExcept fun c hc => hc) fun _ _ =>
      ensures_pure ⟨he, storesSound_of_stored_eq_nil rfl⟩
  | image =>
    exact ensures_bind (ensures_liftExcept fun i hi => hi) fun _ _ =>
      ensures_pure ⟨he, storesSound_of_stored_eq_nil rfl⟩
  | block =>
    refine ensures_bind (ensures_liftExcept fun p => Block.ofElement_eq_ok.1) ?_
    rintro _ ⟨kept, hkept, rfl⟩
    exact ensures_pure ⟨hdeclared hkept fun _ => .inl rfl, storesSound_of_declared _ (store_declare kept) (hsound hkept)⟩
  | chart =>
    refine ensures_bind (ensures_liftExcept fun p => Chart.ofElement_eq_ok.1) ?_
    rintro _ ⟨-, kept, hkept, rfl⟩
    refine ensures_pure ⟨hdeclared hkept fun n => ?_, ?_⟩
    · rw [Chart.declareRow]
      split
      · exact .inl rfl
      · exact .inr rfl
    · refine storesSound_of_declared ((kept.filter Chart.isRow).filterMap Node.element?) ?_ fun c hc => ?_
      · change store ((kept.map Chart.declareRow).filter Chart.isRow) = _
        rw [filter_isRow_declareRow, store_declare]
        rfl
      · exact hsound hkept c (mem_elements.2 (List.mem_filter.1 (mem_elements.1 hc)).1)
  | component =>
    refine ensures_bind (Component.ensures_ofElement e) ?_
    rintro _ ⟨id, kept, hkept, rfl⟩
    exact ensures_pure ⟨hdeclared hkept fun _ => .inl rfl, storesSound_of_declared _ (store_declare kept) (hsound hkept)⟩
  | metadata =>
    refine ensures_bind (ensures_liftExcept fun p => Metadata.ofElement_eq_ok.1) ?_
    rintro _ ⟨kept, hkept, rfl⟩
    have hok := nodeOk_of_pruneMetadata _ he.1.children hkept
    have hlawful := lawful_of_pruneMetadata _ he.2.2 hkept
    exact ensures_pure ⟨⟨he.1.withChildren hok, he.2.1, allLawful_iff.2 hlawful⟩,
      storesSound_of_declared (kept.filterMap Node.element?) rfl (sound_of_mem_elements hok hlawful)⟩

/-- Every definition of a document that is read stores sound elements. -/
theorem ensures_readPattern_sound (sources : Sources) (main : String) :
    Ensures (readPattern sources main) (Document.All Definition.StoresSound) := by
  refine ensures_readPattern_all hereditary_sound (fun s e hs => ⟨read_ok hs, lawful_read hs⟩) (fun a b ha hb => ?_)
    (fun dir kind e he => ensures_ofElement_sound sources dir kind he) main
  exact fun s hs => (List.mem_append.1 hs).elim (ha s) (hb s)

/-! ## Restoring -/

theorem Sound.declared {e : Element} (he : Sound e) (x : Definition) : Sound (x.declared e) := by
  cases x with
  | block b => exact ⟨ok_declare he.1, lawful_declare he.2⟩
  | chart c => exact ⟨ok_declare he.1, lawful_declare he.2⟩
  | component c => exact ⟨ok_declare he.1, lawful_declare he.2⟩
  | _ => exact he

/-- A sound element that has been stored can be restored if it is self-contained, and otherwise there is a fault of
namespaces. -/
theorem Sound.restore {e : Element} (he : Sound e) : (e.SelfContained ↔ ∃ m, restore e.write = .ok m) ∧
    ∀ report, Pattern.restore e.write = .error report → ∃ f : Fault, f.ofNamespaces ∧ report = .markup f := by
  have hdecided := decidedBy_read_write he.1 he.2
  rw [Pattern.restore]
  by_cases h : e.SelfContained
  · obtain ⟨m, hm⟩ := hdecided.1 h
    rw [hm]
    refine ⟨iff_of_true h ⟨m, rfl⟩, ?_⟩
    rintro _ ⟨⟩
  · obtain ⟨f, hf, herror⟩ := hdecided.2 h
    rw [herror]
    constructor
    · refine iff_of_false h ?_
      rintro ⟨m, ⟨⟩⟩
    · rintro _ ⟨⟩
      exact ⟨f, hf, rfl⟩

end Stitchwork.Pattern
