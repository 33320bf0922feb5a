/- # Stitchwork.Proofs.Markup.Below — the elements of a tree in document order.

Every walk through a tree that looks at elements only meets them in document order.  Looking for a name gives those
that have it, and a property that elements share with the elements inside them is had by all that are met.
-/
import Stitchwork.Markup.Node

namespace Stitchwork.Markup

theorem mem_elements {ns : List Node} {c : Element} : c ∈ ns.filterMap Node.element? ↔ c.toNode ∈ ns := by
  rw [List.mem_filterMap]
  constructor
  · rintro ⟨n, hn, hc⟩
    cases n with
    | element name attrs children =>
      cases hc
      exact hn
    | _ => cases hc
  · exact fun h => ⟨c.toNode, h, rfl⟩

/-! ## Elements in document order -/

section

variable (closed : String → Bool)

mutual

/-- The elements among nodes and below them, in document order; what is below an element with a closed name is passed
over. -/
def reached : List Node → List Element
  | [] => []
  | n :: ns => reachedFrom n ++ reached ns

/-- The node, if it is an element, and the elements below it. -/
def reachedFrom : Node → List Element
  | .element name attrs children =>
    ⟨name, attrs, children⟩ :: if closed name then [] else reached children
  | _ => []

end

mutual

/-- The elements among nodes, with all that is not an element removed at every depth; an element with a closed name
stays as it is. -/
def elementsOnly : List Node → List Node
  | [] => []
  | n :: ns => elementsOnlyOf n ++ elementsOnly ns

/-- The node, if it is an element, with nothing but elements below it. -/
def elementsOnlyOf : Node → List Node
  | .element name attrs children =>
    [.element name attrs (if closed name then children else elementsOnly children)]
  | _ => []

end

/-- The element with nothing but elements below it, unless its name is closed. -/
def Element.bared (e : Element) : Element :=
  { e with children := if closed e.name then e.children else elementsOnly closed e.children }

/-- What an element is apart from its content. -/
def Element.head (e : Element) : String × Table String := (e.name, e.attrs)

variable {closed}

theorem elementsOnly_append (ms ns : List Node) :
    elementsOnly closed (ms ++ ns) = elementsOnly closed ms ++ elementsOnly closed ns := by
  induction ms with
  | nil => rfl
  | cons m ms ih => rw [List.cons_append, elementsOnly, elementsOnly, ih, List.append_assoc]

theorem reached_append (ms ns : List Node) :
    reached closed (ms ++ ns) = reached closed ms ++ reached closed ns := by
  induction ms with
  | nil => rfl
  | cons m ms ih => rw [List.cons_append, reached, reached, ih, List.append_assoc]

theorem reached_elementsOnly (ns : List Node) :
    reached closed (elementsOnly closed ns) = (reached closed ns).map (Element.bared closed) := by
  cases ns with
  | nil => rfl
  | cons n ns =>
    rw [elementsOnly, reached_append, reached_elementsOnly ns, reached, List.map_append]
    cases n with
    | element name attrs children =>
      have hchildren := reached_elementsOnly children
      rw [elementsOnlyOf, reached, reachedFrom, reachedFrom, reached, List.append_nil, List.map_cons]
      split
      · next hclosed => rw [List.map_nil, Element.bared, if_pos hclosed]
      · next hclosed => rw [hchildren, Element.bared, if_neg hclosed]
    | _ => rfl

/-- Removing a second time changes nothing. -/
theorem elementsOnly_elementsOnly (ns : List Node) :
    elementsOnly closed (elementsOnly closed ns) = elementsOnly closed ns := by
  cases ns with
  | nil => rfl
  | cons n ns =>
    rw [elementsOnly, elementsOnly_append, elementsOnly_elementsOnly ns]
    cases n with
    | element name attrs children =>
      have hchildren := elementsOnly_elementsOnly children
      rw [elementsOnlyOf, elementsOnly, elementsOnlyOf, elementsOnly, List.append_nil]
      split
      · rfl
      · rw [hchildren]
    | _ => rfl

/-- The elements that are left are the elements that were there, each with nothing but elements below it. -/
theorem elements_elementsOnly (ns : List Node) :
    (elementsOnly closed ns).filterMap Node.element? = (ns.filterMap Node.element?).map (Element.bared closed) := by
  induction ns with
  | nil => rfl
  | cons n ns ih =>
    rw [elementsOnly, List.filterMap_append, ih]
    cases n with
    | element name attrs children => rfl
    | _ => rfl

/-- What elements share with the elements inside them holds of all that are reached. -/
theorem of_mem_reached {P : Element → Prop} (hP : ∀ {e c : Element}, P e → c.toNode ∈ e.children → P c)
    (ns : List Node) (hns : ∀ c : Element, c.toNode ∈ ns → P c) : ∀ e ∈ reached closed ns, P e := by
  cases ns with
  | nil => exact nofun
  | cons n ns =>
    have hrest := of_mem_reached hP ns fun c hc => hns c (List.mem_cons_of_mem _ hc)
    cases n with
    | element name attrs children =>
      have hself := hns ⟨name, attrs, children⟩ List.mem_cons_self
      have hbelow := of_mem_reached hP children fun c hc => hP hself hc
      rw [reached, reachedFrom]
      refine List.forall_mem_append.2 ⟨List.forall_mem_cons.2 ⟨hself, ?_⟩, hrest⟩
      split
      · exact nofun
      · exact hbelow
    | _ => exact hrest

end

/-! ## Looking for a name -/

/-- Looking for a name is going through all elements and taking those that have it. -/
theorem descendants_eq_filter (name : String) (ns : List Node) :
    descendants name ns = (reached (fun _ => false) ns).filter (·.name == name) := by
  cases ns with
  | nil => rfl
  | cons n ns =>
    rw [descendants, reached, List.filter_append, descendants_eq_filter name ns]
    cases n with
    | element tag attrs children =>
      have hchildren := descendants_eq_filter name children
      rw [selfAndDescendants, reachedFrom, List.filter_cons, hchildren]
      rfl
    | _ => rfl

theorem descendants_append (tag : String) (ms ns : List Node) :
    descendants tag (ms ++ ns) = descendants tag ms ++ descendants tag ns := by
  rw [descendants_eq_filter, reached_append, List.filter_append, ← descendants_eq_filter, ← descendants_eq_filter]

theorem descendants_singleton (tag : String) (n : Node) : descendants tag [n] = selfAndDescendants tag n :=
  List.append_nil _

theorem name_of_mem_descendants {name : String} (ns : List Node) {e : Element} (h : e ∈ descendants name ns) :
    e.name = name := by
  rw [descendants_eq_filter] at h
  exact beq_iff_eq.1 (List.mem_filter.1 h).2

/-- What elements share with the elements inside them holds of all that are found. -/
theorem of_mem_descendants {P : Element → Prop} (hP : ∀ {e c : Element}, P e → c.toNode ∈ e.children → P c)
    {ns : List Node} (hns : ∀ c : Element, c.toNode ∈ ns → P c) {name : String} {e : Element}
    (h : e ∈ descendants name ns) : P e := by
  rw [descendants_eq_filter] at h
  exact of_mem_reached hP ns hns e (List.mem_filter.1 h).1

theorem selfAndDescendants_subset {ns : List Node} {n : Node} (hn : n ∈ ns) (tag : String) :
    selfAndDescendants tag n ⊆ descendants tag ns := by
  obtain ⟨before, after, rfl⟩ := List.append_of_mem hn
  rw [descendants_append, descendants]
  exact List.subset_append_of_subset_right _ (List.subset_append_left _ _)

theorem descendants_children_subset (e : Element) (tag : String) :
    descendants tag e.children ⊆ selfAndDescendants tag e.toNode := by
  rw [Element.toNode, selfAndDescendants]
  split
  · exact List.subset_cons_self _ _
  · exact fun _ h => h

/-- What stands in an element below nodes stands below the nodes. -/
theorem selfAndDescendants_subset_of_mem {name tag : String} (ns : List Node) {e : Element}
    (h : e ∈ descendants name ns) : selfAndDescendants tag e.toNode ⊆ descendants tag ns := by
  refine of_mem_descendants (fun {e c} he hc => ?_) (fun c hc => selfAndDescendants_subset hc tag) h
  exact fun x hx => he (descendants_children_subset e tag (selfAndDescendants_subset hc tag hx))

end Stitchwork.Markup
