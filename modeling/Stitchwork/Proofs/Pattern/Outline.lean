/- # Stitchwork.Proofs.Pattern.Outline — what reading definitions leaves alone.

Reading a definition removes nodes that are not elements and declares the prefix of patterns; the outline of
a tree is what is left of it without either.  Reading keeps the outline, and whether a definition can be
read, and under which name, shows in its outline.  So which definitions a tree gives can be said by its
outline alone, although the tree changes while it is read.
-/
import Stitchwork.Proofs.Pattern.Pruning
import Stitchwork.Proofs.Pattern.Reading
import Stitchwork.Proofs.Table

namespace Stitchwork.Pattern

open Stitchwork.Markup

/-! ## Outlines -/

/-- Does reading leave attributes with the name alone? -/
def isKept (k : String) : Bool := k != declaration && k != localName declaration

variable {keep : String → Bool}

mutual

/-- The outline of a node, with the attributes to keep: nothing, unless it is an element. -/
def outlineNode (keep : String → Bool) : Node → List Node
  | .element name attrs children => [.element name ⟨attrs.entries.filter (keep ·.1)⟩ (outlineNodes keep children)]
  | _ => []

/-- The outlines of nodes. -/
def outlineNodes (keep : String → Bool) : List Node → List Node
  | [] => []
  | n :: ns => outlineNode keep n ++ outlineNodes keep ns

end

/-- The outline of an element, with the attributes to keep. -/
def outline (keep : String → Bool) (e : Element) : Element :=
  ⟨e.name, ⟨e.attrs.entries.filter (keep ·.1)⟩, outlineNodes keep e.children⟩

theorem outlineNode_toNode (e : Element) : outlineNode keep e.toNode = [(outline keep e).toNode] := rfl

theorem outlineNodes_append (ms ns : List Node) :
    outlineNodes keep (ms ++ ns) = outlineNodes keep ms ++ outlineNodes keep ns := by
  induction ms with
  | nil => rfl
  | cons m ms ih => rw [List.cons_append, outlineNodes, outlineNodes, ih, List.append_assoc]

theorem outlineNode_of_not_isElement {n : Node} (h : n.isElement = false) : outlineNode keep n = [] := by
  cases n with
  | element name attrs children => cases h
  | _ => rfl

/-- A node is an element or not in the outline at all. -/
theorem outline_cases (n : Node) : (∃ e : Element, n = e.toNode) ∨ n.isElement = false := by
  cases n with
  | element name attrs children => exact .inl ⟨⟨name, attrs, children⟩, rfl⟩
  | _ => exact .inr rfl

theorem elements_cons (e : Element) (ns : List Node) :
    (e.toNode :: ns).filterMap Node.element? = e :: ns.filterMap Node.element? := by
  simp

theorem elements_cons_of_not {n : Node} (h : n.isElement = false) (ns : List Node) :
    (n :: ns).filterMap Node.element? = ns.filterMap Node.element? :=
  List.filterMap_cons_none (Option.not_isSome_iff_eq_none.1 (by simpa [Node.isElement] using h))

theorem elements_outlineNodes (ns : List Node) :
    (outlineNodes keep ns).filterMap Node.element? = (ns.filterMap Node.element?).map (outline keep) := by
  induction ns with
  | nil => rfl
  | cons n ns ih =>
    rcases outline_cases n with ⟨e, rfl⟩ | hn
    · rw [outlineNodes, outlineNode_toNode, List.singleton_append, elements_cons, ih, elements_cons,
        List.map_cons]
    · rw [outlineNodes, outlineNode_of_not_isElement hn, List.nil_append, ih, elements_cons_of_not hn]

theorem elements_outline (e : Element) : (outline keep e).elements = e.elements.map (outline keep) :=
  elements_outlineNodes e.children

theorem attr?_outline (e : Element) {k : String} (hk : keep k) :
    (outline keep e).attr? k = e.attr? k := by
  change Table.valueIn? k (e.attrs.entries.filter (keep ·.1)) = Table.valueIn? k e.attrs.entries
  induction e.attrs.entries with
  | nil => rfl
  | cons a es ih =>
    obtain ⟨i, v⟩ := a
    by_cases hi : i = k
    · subst hi
      rw [List.filter_cons, if_pos hk, Table.valueIn?, if_pos rfl, Table.valueIn?, if_pos rfl]
    · rw [Table.valueIn?, if_neg hi, ← ih, List.filter_cons]
      split
      · rw [Table.valueIn?, if_neg hi]
      · rfl

/-! ## Places -/

theorem placesAmong_outlineNodes (name : String) (i : Nat) (ns : List Node) :
    placesAmong name i (outlineNodes keep ns) = placesAmong name i ns := by
  cases ns with
  | nil => rfl
  | cons n ns =>
    cases n with
    | element tag attrs children =>
      have hbelow := placesAmong_outlineNodes name 0 children
      have hrest := placesAmong_outlineNodes name (i + 1) ns
      rw [outlineNodes, outlineNode, List.singleton_append, placesAmong, placesAmong, placesFrom, placesFrom, hbelow]
      exact congrArg (_ ++ ·) hrest
    | _ => exact placesAmong_outlineNodes name i ns

theorem places_outline (name : String) (e : Element) : places name (outline keep e) = places name e :=
  placesAmong_outlineNodes name 0 e.children

theorem elementAt?_outline (place : List Nat) (e : Element) :
    elementAt? place (outline keep e) = (elementAt? place e).map (outline keep) := by
  induction place generalizing e with
  | nil => rfl
  | cons i place ih =>
    rw [elementAt?, elementAt?, elements_outline, List.getElem?_map]
    cases e.elements[i]? with
    | none => rfl
    | some c => exact ih c

theorem outlineNodes_replaceElement {ns : List Node} {i : Nat} {c new : Element}
    (hc : (ns.filterMap Node.element?)[i]? = some c) (hnew : outline keep new = outline keep c) :
    outlineNodes keep (replaceElement new.toNode i ns) = outlineNodes keep ns := by
  induction ns generalizing i with
  | nil => rfl
  | cons n ns ih =>
    rcases outline_cases n with ⟨e, rfl⟩ | hn
    · rw [elements_cons] at hc
      cases i with
      | zero =>
        cases hc
        change outlineNodes keep (new.toNode :: ns) = _
        rw [outlineNodes, outlineNodes, outlineNode_toNode, outlineNode_toNode, hnew]
      | succ i =>
        change outlineNodes keep (e.toNode :: replaceElement new.toNode i ns) = _
        rw [outlineNodes, outlineNodes, ih hc]
    · rw [elements_cons_of_not hn] at hc
      have hkeep : replaceElement new.toNode i (n :: ns) = n :: replaceElement new.toNode i ns := by
        simp [replaceElement, hn]
      rw [hkeep, outlineNodes, outlineNodes, ih hc]

/-- Replacing an element by one with its outline keeps the outline. -/
theorem outline_replaceAt {place : List Nat} {root old new : Element}
    (hold : elementAt? place root = some old) (hnew : outline keep new = outline keep old) :
    outline keep (replaceAt new place root) = outline keep root := by
  induction place generalizing root with
  | nil =>
    cases hold
    exact hnew
  | cons i place ih =>
    obtain ⟨c, hc, hrest⟩ := Option.bind_eq_some_iff.1 hold
    rw [replaceAt, hc]
    change Element.mk _ _ (outlineNodes keep (replaceElement (replaceAt new place c).toNode i root.children)) = _
    rw [outlineNodes_replaceElement hc (ih hrest)]
    rfl

/-- A node that is no element counts for nothing. -/
theorem map_elementAt?_skip {name : String} {e : Element} {before ns : List Node} {n : Node}
    (hn : n.isElement = false)
    (h : (placesAmong name ((before ++ [n]).filterMap Node.element?).length ns).map (elementAt? · e) =
      (descendants name ns).map some) :
    (placesAmong name (before.filterMap Node.element?).length (n :: ns)).map (elementAt? · e) =
      (descendants name (n :: ns)).map some := by
  rw [List.filterMap_append, elements_cons_of_not hn, List.filterMap_nil, List.append_nil] at h
  cases n with
  | element tag attrs children => cases hn
  | _ => exact h

/-- From an element on, places lead to it and to its descendants, if they do so inside it. -/
theorem map_elementAt?_placesFrom {name : String} {e c : Element} {i : Nat} (he : e.elements[i]? = some c)
    (hbelow : (placesAmong name 0 c.children).map (elementAt? · c) = (descendants name c.children).map some) :
    (placesFrom name i c.toNode).map (elementAt? · e) = (selfAndDescendants name c.toNode).map some := by
  have hstep : ∀ place, elementAt? (i :: place) e = elementAt? place c := by
    intro place
    rw [elementAt?, he]
    rfl
  have hself : elementAt? [i] e = some c := hstep []
  have hrest : (placesAmong name 0 c.children).map ((elementAt? · e) ∘ (i :: ·)) =
      (descendants name c.children).map some := by
    rw [← hbelow]
    exact List.map_congr_left fun place _ => hstep place
  rw [Element.toNode, placesFrom, List.map_append, List.map_map, selfAndDescendants, hrest]
  split
  · rw [List.map_singleton, hself]
    rfl
  · rfl

/-- The places among the nodes behind others lead to the descendants of the nodes. -/
theorem map_elementAt?_placesAmong (name : String) (e : Element) (before ns : List Node)
    (he : e.children = before ++ ns) :
    (placesAmong name (before.filterMap Node.element?).length ns).map (elementAt? · e) =
      (descendants name ns).map some := by
  cases ns with
  | nil => rfl
  | cons n ns =>
    have hrest := map_elementAt?_placesAmong name e (before ++ [n]) ns (he.trans (List.append_cons ..))
    cases n with
    | element tag attrs children =>
      have hat : e.elements[(before.filterMap Node.element?).length]? = some ⟨tag, attrs, children⟩ := by
        rw [Element.elements, he, List.filterMap_append]
        simp [Node.element?]
      have hbelow := map_elementAt?_placesAmong name ⟨tag, attrs, children⟩ [] children rfl
      have hhead := map_elementAt?_placesFrom hat hbelow
      have hlength : ((before ++ [Node.element tag attrs children]).filterMap Node.element?).length =
          (before.filterMap Node.element?).length + 1 := by
        simp [Node.element?]
      rw [hlength] at hrest
      rw [placesAmong, descendants, List.map_append, List.map_append]
      exact congr (congrArg HAppend.hAppend hhead) hrest
    | text s => exact map_elementAt?_skip rfl hrest
    | cdata s => exact map_elementAt?_skip rfl hrest
    | comment s => exact map_elementAt?_skip rfl hrest
    | instruction target data => exact map_elementAt?_skip rfl hrest

/-- The places of a name lead to the elements with the name. -/
theorem map_elementAt?_places (name : String) (e : Element) :
    (places name e).map (elementAt? · e) = (descendants name e.children).map some :=
  map_elementAt?_placesAmong name e [] e.children rfl

/-- The elements of the outline are the outlines of the elements. -/
theorem reached_outlineNodes (closed : String → Bool) (ns : List Node) :
    reached closed (outlineNodes keep ns) = (reached closed ns).map (outline keep) := by
  cases ns with
  | nil => rfl
  | cons n ns =>
    have hrest := reached_outlineNodes closed ns
    cases n with
    | element name attrs children =>
      have hbelow := reached_outlineNodes closed children
      rw [outlineNodes, outlineNode, List.singleton_append, reached, reached, List.map_append, hrest, reachedFrom,
        reachedFrom, hbelow, List.map_cons]
      split
      · rfl
      · rfl
    | _ => exact hrest

theorem descendants_outlineNodes (name : String) (ns : List Node) :
    descendants name (outlineNodes keep ns) = (descendants name ns).map (outline keep) := by
  rw [descendants_eq_filter, reached_outlineNodes, List.filter_map, descendants_eq_filter]
  rfl

/-! ## Checking keeps the outline -/

/-- What is no element does not show in the outline. -/
theorem outlineNodes_elementsOnly (closed : String → Bool) (ns : List Node) :
    outlineNodes keep (elementsOnly closed ns) = outlineNodes keep ns := by
  cases ns with
  | nil => rfl
  | cons n ns =>
    rw [elementsOnly, outlineNodes_append, outlineNodes, outlineNodes_elementsOnly closed ns]
    cases n with
    | element name attrs children =>
      have hbelow := outlineNodes_elementsOnly closed children
      rw [elementsOnlyOf, outlineNodes, outlineNode, outlineNode]
      split
      · rfl
      · rw [hbelow]; rfl
    | _ => rfl

/-- There is nothing to remove from an outline. -/
theorem elementsOnly_outlineNodes (closed : String → Bool) (ns : List Node) :
    elementsOnly closed (outlineNodes keep ns) = outlineNodes keep ns := by
  cases ns with
  | nil => rfl
  | cons n ns =>
    rw [outlineNodes, elementsOnly_append, elementsOnly_outlineNodes closed ns]
    cases n with
    | element name attrs children =>
      have hbelow := elementsOnly_outlineNodes closed children
      rw [outlineNode, elementsOnly, elementsOnlyOf, elementsOnly, List.append_nil]
      split
      · rfl
      · rw [hbelow]
    | _ => rfl

/-- The outline says what is reported, and what is left of it is the outline of what is left. -/
theorem unlessReported_outlineNodes (offence : String → Option Error) (closed : String → Bool) (ns : List Node) :
    unlessReported (firstOffence offence (reached closed (outlineNodes keep ns)))
        (elementsOnly closed (outlineNodes keep ns)) =
      (unlessReported (firstOffence offence (reached closed ns)) (elementsOnly closed ns)).map (outlineNodes keep) := by
  rw [reached_outlineNodes, firstOffence_map (outline keep) fun _ => rfl, elementsOnly_outlineNodes]
  cases firstOffence offence (reached closed ns) with
  | some report => rfl
  | none => exact congrArg Except.ok (outlineNodes_elementsOnly closed ns).symm

/-- Checking nodes is checking their outlines. -/
theorem prune_outlineNodes (allowed : List String) (ns : List Node) :
    prune allowed (outlineNodes keep ns) = (prune allowed ns).map (outlineNodes keep) := by
  rw [prune_eq, prune_eq, unlessReported_outlineNodes]

/-- Checking nodes of metadata is checking their outlines. -/
theorem pruneMetadata_outlineNodes (ns : List Node) :
    pruneMetadata (outlineNodes keep ns) = (pruneMetadata ns).map (outlineNodes keep) := by
  rw [pruneMetadata_eq, pruneMetadata_eq, unlessReported_outlineNodes]

theorem outlineNodes_of_prune (keep : String → Bool) {allowed : List String} (ns : List Node) {kept : List Node}
    (h : prune allowed ns = .ok kept) : outlineNodes keep kept = outlineNodes keep ns := by
  rw [← (prune_eq_ok.1 h).2, outlineNodes_elementsOnly]

theorem outlineNodes_of_pruneMetadata (keep : String → Bool) (ns : List Node) {kept : List Node}
    (h : pruneMetadata ns = .ok kept) : outlineNodes keep kept = outlineNodes keep ns := by
  rw [← (pruneMetadata_eq_ok.1 h).2, outlineNodes_elementsOnly]

/-! ## Declaring keeps the outline -/

theorem filter_insertEntry {k : String} (hk : keep k = false) (v : String)
    (es : List (String × String)) :
    (Table.insertEntry k v es).filter (keep ·.1) = es.filter (keep ·.1) := by
  induction es with
  | nil => simp [Table.insertEntry, hk]
  | cons a es ih =>
    obtain ⟨i, w⟩ := a
    rw [Table.insertEntry]
    split
    · next hi =>
      subst hi
      simp [hk]
    · rw [List.filter_cons, List.filter_cons, ih]

theorem filter_erase {k : String} (hk : keep k = false) (t : Table String) :
    (t.erase k).entries.filter (keep ·.1) = t.entries.filter (keep ·.1) := by
  rw [Table.erase, List.filter_filter]
  refine List.filter_congr fun a _ => ?_
  cases hkept : keep a.1 with
  | false => rfl
  | true =>
    have hne : a.1 ≠ k := by
      rintro rfl
      rw [hk] at hkept
      cases hkept
    simpa using hne

theorem outline_eraseAttr {k : String} (hk : keep k = false) (e : Element) :
    outline keep (e.eraseAttr k) = outline keep e := by
  rw [Element.eraseAttr, outline, outline, filter_erase hk]

theorem outline_setAttr {k : String} (hk : keep k = false) (v : String) (e : Element) :
    outline keep (e.setAttr k v) = outline keep e := by
  rw [Element.setAttr, outline, outline, Table.insert, filter_insertEntry hk]

theorem outline_declare (hkeep : ∀ k, isKept k = false → keep k = false) (e : Element) :
    outline keep (declare e) = outline keep e := by
  have hdeclaration := hkeep declaration (by decide)
  have hlocal := hkeep (localName declaration) (by decide)
  rw [declare]
  split
  · exact outline_setAttr hdeclaration _ e
  · rw [outline_setAttr hdeclaration, outline_eraseAttr hlocal]

theorem outlineNode_declareNode (hkeep : ∀ k, isKept k = false → keep k = false) (n : Node) :
    outlineNode keep (declareNode n) = outlineNode keep n := by
  rcases outline_cases n with ⟨e, rfl⟩ | hn
  · change outlineNode keep (declare e).toNode = _
    rw [outlineNode_toNode, outline_declare hkeep, outlineNode_toNode]
  · cases n with
    | element name attrs children => cases hn
    | _ => rfl

theorem outlineNodes_map {f : Node → Node} (hf : ∀ n, outlineNode keep (f n) = outlineNode keep n) (ns : List Node) :
    outlineNodes keep (ns.map f) = outlineNodes keep ns := by
  induction ns with
  | nil => rfl
  | cons n ns ih => rw [List.map_cons, outlineNodes, outlineNodes, hf, ih]

/-! ## What shows in the outline -/

theorem prune_congr {allowed : List String} {ms ns : List Node}
    (h : outlineNodes keep ms = outlineNodes keep ns) :
    (∃ kept, prune allowed ms = .ok kept) ↔ ∃ kept, prune allowed ns = .ok kept := by
  have houtline : ∀ ns, (∃ kept, prune allowed (outlineNodes keep ns) = .ok kept) ↔
      ∃ kept, prune allowed ns = .ok kept := by
    intro ns
    rw [prune_outlineNodes]
    cases prune allowed ns <;> simp [Except.map]
  rw [← houtline ms, h, houtline]

theorem pruneMetadata_congr {ms ns : List Node} (h : outlineNodes keep ms = outlineNodes keep ns) :
    (∃ kept, pruneMetadata ms = .ok kept) ↔ ∃ kept, pruneMetadata ns = .ok kept := by
  have houtline : ∀ ns, (∃ kept, pruneMetadata (outlineNodes keep ns) = .ok kept) ↔
      ∃ kept, pruneMetadata ns = .ok kept := by
    intro ns
    rw [pruneMetadata_outlineNodes]
    cases pruneMetadata ns <;> simp [Except.map]
  rw [← houtline ms, h, houtline]

theorem descendants_congr {ms ns : List Node} (h : outlineNodes keep ms = outlineNodes keep ns) (tag : String) :
    (descendants tag ms).map (outline keep) = (descendants tag ns).map (outline keep) := by
  rw [← descendants_outlineNodes, h, descendants_outlineNodes]

/-- Only elements show in the outline. -/
theorem outlineNodes_elements (keep : String → Bool) (ns : List Node) :
    outlineNodes keep ((ns.filterMap Node.element?).map Element.toNode) = outlineNodes keep ns := by
  induction ns with
  | nil => rfl
  | cons n ns ih =>
    rcases outline_cases n with ⟨e, rfl⟩ | hn
    · rw [elements_cons, List.map_cons, outlineNodes, outlineNodes, ih]
    · rw [elements_cons_of_not hn, ih, outlineNodes, outlineNode_of_not_isElement hn, List.nil_append]

end Stitchwork.Pattern
