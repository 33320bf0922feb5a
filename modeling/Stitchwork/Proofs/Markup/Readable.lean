/- # Stitchwork.Proofs.Markup.Readable — which trees can be written as documents.

A tree whose names are names can be written as a document and read again exactly if its attributes hold only characters
that a document can hold, each tag has an attribute once and makes only declarations that may be made, and the tree is
self-contained.  What is read then has the same elements at the same places, with attributes of the same names.

Of the attributes of a tag, only declarations and names with prefixes matter to this: a tag whose attributes stay the same
in that respect stays lawful and contained.
-/
import Stitchwork.Proofs.Markup.Characters
import Stitchwork.Proofs.Markup.SelfContained

namespace Stitchwork.Markup

open Stitchwork.Text

variable {attrs : List (String × String)} {bound inner : Bindings} {ns : List Node} {name : String}
  {a : String × String}

/-! ## All tags of a tree -/

section

variable (P : String → Table String → Prop)

mutual

/-- The name and the attributes of every element of the tree have a property. -/
def Throughout : Node → Prop
  | .element name attrs children => P name attrs ∧ ThroughoutAll children
  | _ => True

/-- The name and the attributes of every element of the trees have a property. -/
def ThroughoutAll : List Node → Prop
  | [] => True
  | n :: ns => Throughout n ∧ ThroughoutAll ns

end

mutual

/-- A property that can be decided of a tag can be decided of all tags of a tree. -/
def decideThroughout [∀ name attrs, Decidable (P name attrs)] : (n : Node) → Decidable (Throughout P n)
  | .element name attrs children =>
    have := decideThroughoutAll children
    inferInstanceAs (Decidable (P name attrs ∧ ThroughoutAll P children))
  | .text _ => isTrue trivial
  | .cdata _ => isTrue trivial
  | .comment _ => isTrue trivial
  | .instruction _ _ => isTrue trivial

def decideThroughoutAll [∀ name attrs, Decidable (P name attrs)] : (ns : List Node) → Decidable (ThroughoutAll P ns)
  | [] => isTrue trivial
  | n :: ns =>
    have := decideThroughout n
    have := decideThroughoutAll ns
    inferInstanceAs (Decidable (Throughout P n ∧ ThroughoutAll P ns))

end

instance [∀ name attrs, Decidable (P name attrs)] (n : Node) : Decidable (Throughout P n) := decideThroughout P n

variable {P}

theorem throughoutAll_iff : ThroughoutAll P ns ↔ ∀ n ∈ ns, Throughout P n := by
  induction ns with
  | nil => exact iff_of_true trivial nofun
  | cons n ns ih => rw [ThroughoutAll, ih, List.forall_mem_cons]

theorem throughoutAll_of_reached (ns : List Node) (h : ∀ x ∈ reached (fun _ => false) ns, P x.name x.attrs) :
    ThroughoutAll P ns := by
  cases ns with
  | nil => trivial
  | cons n ns =>
    rw [reached, List.forall_mem_append] at h
    refine ⟨?_, throughoutAll_of_reached ns h.2⟩
    cases n with
    | element name attrs children =>
      have hself := List.forall_mem_cons.1 h.1
      exact ⟨hself.1, throughoutAll_of_reached children hself.2⟩
    | _ => trivial

variable {Q R : String → Table String → Prop}

mutual

/-- What follows from two properties of a tag follows throughout a tree. -/
theorem Throughout.both {n : Node} (hp : Throughout P n) (hq : Throughout Q n)
    (h : ∀ name attrs, P name attrs → Q name attrs → R name attrs) : Throughout R n := by
  cases n with
  | element name attrs children => exact ⟨h name attrs hp.1 hq.1, ThroughoutAll.both hp.2 hq.2 h⟩
  | _ => trivial

theorem ThroughoutAll.both {ns : List Node} (hp : ThroughoutAll P ns) (hq : ThroughoutAll Q ns)
    (h : ∀ name attrs, P name attrs → Q name attrs → R name attrs) : ThroughoutAll R ns := by
  cases ns with
  | nil => trivial
  | cons n ns => exact ⟨Throughout.both hp.1 hq.1 h, ThroughoutAll.both hp.2 hq.2 h⟩

end

end

/-! ## Trees with names -/

mutual

/-- The node can be written so that it is read again, as far as the values of attributes do not matter. -/
def NodeNamed : Node → Prop
  | .element name attrs children => IsQName name.toList ∧ (∀ k ∈ attrs.keys, IsQName k.toList) ∧ NodesNamed children
  | n => NodeOk n

/-- The nodes can be written one behind the other, as far as the values of attributes do not matter. -/
def NodesNamed : List Node → Prop
  | [] => True
  | n :: ns => NodeNamed n ∧ (n.isText → textFirst ns = false) ∧ NodesNamed ns

end

/-- The values of attributes hold only characters that a document can hold. -/
def CleanValues (attrs : Table String) : Prop := ∀ a ∈ attrs.entries, AllMarkup a.2.toList

theorem attrOk_iff {attrs : Table String} :
    (∀ a ∈ attrs.entries, AttrOk a) ↔ (∀ k ∈ attrs.keys, IsQName k.toList) ∧ CleanValues attrs := by
  rw [Table.keys, List.forall_mem_map]
  exact ⟨fun h => ⟨fun a ha => (h a ha).name, fun a ha => (h a ha).value⟩, fun h a ha => ⟨h.1 a ha, h.2 a ha⟩⟩

mutual

/-- A node can be written if it can be as far as values do not matter, and if they do not matter. -/
theorem nodeOk_iff (n : Node) : NodeOk n ↔ NodeNamed n ∧ Throughout (fun _ => CleanValues) n := by
  cases n with
  | element name attrs children =>
    rw [NodeOk, NodeNamed, Throughout, attrOk_iff, nodesOk_iff_named children]
    tauto
  | _ => exact (and_iff_left trivial).symm

theorem nodesOk_iff_named (ns : List Node) : NodesOk ns ↔ NodesNamed ns ∧ ThroughoutAll (fun _ => CleanValues) ns := by
  cases ns with
  | nil => exact (and_iff_left trivial).symm
  | cons n ns =>
    rw [NodesOk, NodesNamed, ThroughoutAll, nodeOk_iff n, nodesOk_iff_named ns]
    tauto

end

/-! ## The characters of what is written -/

theorem allMarkup_of_escape {s : List Char} (h : AllMarkup (escape s)) : AllMarkup s := by
  intro c hc
  by_cases hplain : escapeChar c = [c]
  · exact h c (List.mem_flatMap.2 ⟨c, hc, hplain ▸ List.mem_singleton_self c⟩)
  -- the characters that are not written as they are can stand in a document
  · unfold escapeChar at hplain
    split at hplain
    · next heq => exact beq_iff_eq.1 heq ▸ by decide
    split at hplain
    · next heq => exact beq_iff_eq.1 heq ▸ by decide
    split at hplain
    · next heq => exact isMarkupChar_of_quote (by rw [heq]; rfl)
    split at hplain
    · next heq => exact beq_iff_eq.1 heq ▸ by decide
    · exact absurd rfl hplain

theorem cleanValues_of_writeHead {attrs : Table String} (h : AllMarkup (writeHead name attrs)) : CleanValues attrs := by
  intro a ha
  rw [writeHead, allMarkup_cons, allMarkup_append] at h
  refine allMarkup_of_escape fun c hc => h.2.2 c (List.mem_flatMap.2 ⟨a, ha, ?_⟩)
  simp [writeAttr, hc]

mutual

/-- Every value of an attribute is written, so a text that can be read holds no other characters in values. -/
theorem cleanValues_of_writeNode (n : Node) (h : AllMarkup (writeNode n)) : Throughout (fun _ => CleanValues) n := by
  cases n with
  | element name attrs children =>
    cases children with
    | nil =>
      rw [writeNode_element_nil, allMarkup_append] at h
      exact ⟨cleanValues_of_writeHead h.1, trivial⟩
    | cons n ns =>
      rw [writeNode_element_cons, allMarkup_append, allMarkup_cons, allMarkup_append] at h
      exact ⟨cleanValues_of_writeHead h.1, cleanValues_of_writeNodes (n :: ns) h.2.2.1⟩
  | _ => trivial

theorem cleanValues_of_writeNodes (ns : List Node) (h : AllMarkup (writeNodes ns)) :
    ThroughoutAll (fun _ => CleanValues) ns := by
  cases ns with
  | nil => trivial
  | cons n ns =>
    rw [writeNodes_cons, allMarkup_append] at h
    exact ⟨cleanValues_of_writeNode n h.1, cleanValues_of_writeNodes ns h.2⟩

end

/-! ## What is read is lawful before it is written -/

/-- A declaration that can be made when it has been written could be made before. -/
theorem bindPrefix_of_tidy {p v : String} (h : bindPrefix bound p (tidy v) = .ok inner) :
    bindPrefix [] p v = .ok [(p, v)] := by
  have hspace : NoSpace v := by
    by_contra hspace
    have hchar := hasChar_tidy hspace
    unfold bindPrefix at h
    grind
  rw [tidy_of_noSpace hspace] at h
  exact bindPrefix_anywhere [] h

theorem declares_of_bindAll (h : bindAll bound (attrs.map tidyAttr) = .ok inner) :
    ∀ a ∈ attrs, ∀ p, declaredPrefix? a.1 = some p → bindPrefix [] p a.2 = .ok [(p, a.2)] := by
  induction attrs generalizing bound with
  | nil => exact List.forall_mem_nil _
  | cons a attrs ih =>
    obtain ⟨name, v⟩ := a
    rw [List.map_cons, tidyAttr, bindAll] at h
    rw [List.forall_mem_cons]
    cases hp : declaredPrefix? name with
    | none =>
      rw [hp] at h
      refine ⟨fun p hp => ?_, ih h⟩
      cases hp
    | some p =>
      rw [hp] at h
      obtain ⟨middle, hmiddle, h⟩ := bind_eq_ok.1 h
      refine ⟨?_, ih h⟩
      rintro q ⟨⟩
      exact bindPrefix_of_tidy hmiddle

theorem ReadsTag.lawful (h : ReadsTag bound name (attrs.map unifyAttr) inner) : LawfulAttrs attrs := by
  have hnames := h.nodup
  have hbinds := h.binds
  rw [map_tidyAttr] at hbinds
  rw [List.map_map] at hnames
  exact ⟨hnames, declares_of_bindAll hbinds⟩

/-- The second tree has the elements of the first at the same places, with attributes of the same names. -/
inductive SameShape : Node → Node → Prop
  | element {name : String} {attrs attrs' : Table String} {ns ns' : List Node} (hkeys : attrs'.keys.Perm attrs.keys)
      (hchildren : List.Forall₂ SameShape ns ns') : SameShape (.element name attrs ns) (.element name attrs' ns')
  | other {n n' : Node} (hn : n.isElement = false) (hn' : n'.isElement = false) : SameShape n n'

mutual

/-- A tree that can be read when it has been written is lawful, and keeps its shape. -/
theorem spec_of_rereadNode (n : Node) {m : Node} {bound : Bindings} (h : rereadNode bound (unifyNode n) = .ok m) :
    Lawful n ∧ SameShape n m := by
  cases n with
  | element name attrs children =>
    rw [unifyNode, rereadNode_element] at h
    obtain ⟨inner, ms, hreads, hms, rfl⟩ := h
    obtain ⟨hlawful, hshape⟩ := spec_of_rereadNodes children hms
    refine ⟨⟨hreads.lawful, hlawful⟩, .element ?_ hshape⟩
    have hkeys := (sortAttrs_perm ((attrs.entries.map unifyAttr).map flatAttr)).map (·.1)
    rw [map_tidyAttr, names_tidyAttr, ← map_tidyAttr] at hkeys
    exact hkeys
  | _ =>
    cases h
    exact ⟨trivial, .other rfl rfl⟩

theorem spec_of_rereadNodes (ns : List Node) {ms : List Node} {bound : Bindings}
    (h : rereadNodes bound (unifyNodes ns) = .ok ms) : AllLawful ns ∧ List.Forall₂ SameShape ns ms := by
  cases ns with
  | nil =>
    cases h
    exact ⟨trivial, .nil⟩
  | cons n ns =>
    rw [unifyNodes, rereadNodes_cons] at h
    obtain ⟨m, hm, h⟩ := bind_eq_ok.1 h
    obtain ⟨ms, hms, h⟩ := bind_eq_ok.1 h
    cases h
    obtain ⟨hlawful, hshape⟩ := spec_of_rereadNode n hm
    obtain ⟨hall, hshapes⟩ := spec_of_rereadNodes ns hms
    exact ⟨⟨hlawful, hall⟩, .cons hshape hshapes⟩

end

/-- A tree that can be read when it has been written is lawful and self-contained. -/
theorem contained_of_rereadNode {n m : Node} (h : rereadNode bound (unifyNode n) = .ok m) :
    Lawful n ∧ SelfContained bound n := by
  have hlawful := (spec_of_rereadNode n h).1
  refine ⟨hlawful, ?_⟩
  by_contra hcontained
  obtain ⟨f, -, herror⟩ := (decidedBy_rereadNode n hlawful bound).2 hcontained
  rw [h] at herror
  cases herror

/-- So is an element that has been written and read. -/
theorem contained_of_read_write {e m : Element} (he : e.Ok) (h : read e.write = .ok m) :
    Lawful m.toNode ∧ m.SelfContained := by
  have hsettled := settled_of_read_write he h
  refine contained_of_rereadNode (m := m.toNode) ?_
  rw [hsettled.unified]
  exact hsettled.reread _ (extends_refl _)

theorem allSelfContained_iff : AllSelfContained bound ns ↔ ∀ n ∈ ns, SelfContained bound n := by
  induction ns with
  | nil => exact iff_of_true trivial nofun
  | cons n ns ih => rw [AllSelfContained, ih, List.forall_mem_cons]

/-! ## What attributes are to namespaces -/

/-- What an attribute is to the namespaces of its tag: a declaration counts with its value, a name with a prefix counts
without, and any other attribute does not count. -/
def namespacePart (a : String × String) : Option (String × String) :=
  if isDeclared a then some a else (prefixOf a.1).map fun _ => (a.1, "")

/-- What attributes are to the namespaces of their tag. -/
def namespaceParts (attrs : List (String × String)) : List (String × String) := attrs.filterMap namespacePart

theorem namespaceParts_cons (a : String × String) (attrs : List (String × String)) :
    namespaceParts (a :: attrs) = (namespacePart a).toList ++ namespaceParts attrs := by
  rw [namespaceParts, List.filterMap_cons]
  cases namespacePart a with
  | none => rfl
  | some b => rfl

theorem namespacePart_of_declared (h : isDeclared a = true) : namespacePart a = some a :=
  if_pos h

theorem namespacePart_of_not_declared (h : isDeclared a = false) :
    namespacePart a = (prefixOf a.1).map fun _ => (a.1, "") :=
  if_neg (by simp [h])

/-- Whatever is made of declarations and of names with prefixes is made of what attributes are to namespaces. -/
theorem filterMap_namespaceParts {α : Type} {f : String × String → Option α}
    (hplain : ∀ a, isDeclared a = false → prefixOf a.1 = none → f a = none)
    (hname : ∀ a, isDeclared a = false → f (a.1, "") = f a) (attrs : List (String × String)) :
    (namespaceParts attrs).filterMap f = attrs.filterMap f := by
  rw [namespaceParts, List.filterMap_filterMap]
  refine List.filterMap_congr fun a _ => ?_
  cases hdeclared : isDeclared a with
  | true => rw [namespacePart_of_declared hdeclared, Option.bind_some]
  | false =>
    rw [namespacePart_of_not_declared hdeclared]
    cases hp : prefixOf a.1 with
    | none => exact (hplain a hdeclared hp).symm
    | some p => exact hname a hdeclared

theorem declaredIn_namespaceParts (attrs : List (String × String)) :
    declaredIn (namespaceParts attrs) = declaredIn attrs := by
  have hnone : ∀ a : String × String, isDeclared a = false → (declaredPrefix? a.1).map (·, a.2) = none := by
    intro a ha
    rw [isDeclared, Option.isSome_eq_false_iff, Option.isNone_iff_eq_none] at ha
    rw [ha]
    rfl
  refine filterMap_namespaceParts (fun a ha _ => hnone a ha) (fun a ha => ?_) attrs
  rw [hnone a ha]
  exact hnone (a.1, "") ha

/-- The expanded names of attributes, as one pass over them. -/
theorem expandedNames_eq (inner : Bindings) (attrs : List (String × String)) :
    ((attrs.filter (!isDeclared ·)).map (·.1)).filterMap (expandedName inner) =
      attrs.filterMap fun a => if isDeclared a then none else expandedName inner a.1 := by
  rw [List.filterMap_map, List.filterMap_filter]
  refine List.filterMap_congr fun a _ => ?_
  cases isDeclared a with
  | true => rfl
  | false => rfl

theorem expandedNames_namespaceParts (inner : Bindings) (attrs : List (String × String)) :
    (((namespaceParts attrs).filter (!isDeclared ·)).map (·.1)).filterMap (expandedName inner) =
      ((attrs.filter (!isDeclared ·)).map (·.1)).filterMap (expandedName inner) := by
  rw [expandedNames_eq, expandedNames_eq]
  refine filterMap_namespaceParts (fun a ha hp => ?_) (fun a ha => ?_) attrs
  · rw [if_neg (by simp [ha]), expandedName, hp]
    rfl
  · have hname : isDeclared (a.1, "") = false := ha
    rw [hname, ha]

/-- Declared attributes are parts, and declared parts are attributes. -/
theorem mem_namespaceParts_of_declared (ha : isDeclared a = true) : a ∈ namespaceParts attrs ↔ a ∈ attrs := by
  rw [namespaceParts, List.mem_filterMap]
  constructor
  · rintro ⟨b, hb, hpart⟩
    cases hdeclared : isDeclared b with
    | true =>
      rw [namespacePart_of_declared hdeclared] at hpart
      cases hpart
      exact hb
    | false =>
      rw [namespacePart_of_not_declared hdeclared] at hpart
      obtain ⟨_, -, rfl⟩ := Option.map_eq_some_iff.1 hpart
      exact absurd ha (Bool.eq_false_iff.1 hdeclared)
  · exact fun h => ⟨a, h, namespacePart_of_declared ha⟩

/-- Attributes with prefixes that are no declarations are parts under their names. -/
theorem forall_prefixBound_namespaceParts :
    (∀ a ∈ namespaceParts attrs, isDeclared a = false → PrefixBound inner a.1) ↔
      ∀ a ∈ attrs, isDeclared a = false → PrefixBound inner a.1 := by
  constructor
  · intro h a ha hdeclared p hp
    refine h (a.1, "") (List.mem_filterMap.2 ⟨a, ha, ?_⟩) hdeclared p hp
    rw [namespacePart_of_not_declared hdeclared, hp]
    rfl
  · intro h a ha hdeclared
    obtain ⟨b, hb, hpart⟩ := List.mem_filterMap.1 ha
    cases hb' : isDeclared b with
    | true =>
      rw [namespacePart_of_declared hb'] at hpart
      cases hpart
      exact h _ hb hdeclared
    | false =>
      rw [namespacePart_of_not_declared hb'] at hpart
      obtain ⟨_, -, rfl⟩ := Option.map_eq_some_iff.1 hpart
      exact h b hb hb'

/-- **Only parts count.**  A tag is contained if it is with the parts of its attributes. -/
theorem tagContained_namespaceParts :
    TagContained inner name (namespaceParts attrs) ↔ TagContained inner name attrs := by
  have hspace : (∀ a ∈ namespaceParts attrs, isDeclared a → NoSpace a.2) ↔ ∀ a ∈ attrs, isDeclared a → NoSpace a.2 :=
    forall_congr' fun a => ⟨fun h hmem hd => h ((mem_namespaceParts_of_declared hd).2 hmem) hd,
      fun h hmem hd => h ((mem_namespaceParts_of_declared hd).1 hmem) hd⟩
  have hdistinct := expandedNames_namespaceParts inner attrs
  constructor
  · intro h
    exact ⟨hspace.1 h.namespaces, h.tag, forall_prefixBound_namespaceParts.1 h.attributes, hdistinct ▸ h.distinct⟩
  · intro h
    exact ⟨hspace.2 h.namespaces, h.tag, forall_prefixBound_namespaceParts.2 h.attributes, hdistinct.symm ▸ h.distinct⟩

section

variable {name : String} {attrs attrs' : Table String}

/-- Lawful attributes stay lawful if they stay the same to namespaces and have distinct names. -/
theorem LawfulAttrs.congr (h : LawfulAttrs attrs.entries)
    (hparts : namespaceParts attrs'.entries = namespaceParts attrs.entries) (hnodup : attrs'.keys.Nodup) :
    LawfulAttrs attrs'.entries := by
  refine ⟨hnodup, fun a ha p hp => h.declares a ?_ p hp⟩
  have hdeclared : isDeclared a = true := by rw [isDeclared, hp]; rfl
  rwa [← mem_namespaceParts_of_declared hdeclared, ← hparts, mem_namespaceParts_of_declared hdeclared]

/-- A tree stays self-contained if the attributes of its root stay the same to namespaces. -/
theorem selfContained_congr (hparts : namespaceParts attrs'.entries = namespaceParts attrs.entries) :
    SelfContained bound (.element name attrs' ns) ↔ SelfContained bound (.element name attrs ns) := by
  have hinner : boundInside bound attrs'.entries = boundInside bound attrs.entries := by
    rw [boundInside, ← declaredIn_namespaceParts, hparts, declaredIn_namespaceParts, boundInside]
  rw [SelfContained, SelfContained, hinner, ← tagContained_namespaceParts, hparts, tagContained_namespaceParts]

/-- A name without a prefix, with attributes that are nothing to namespaces, can be added around self-contained trees. -/
theorem contained_of_parts_nil (hname : prefixOf name = none) (hnodup : attrs.keys.Nodup)
    (hparts : namespaceParts attrs.entries = []) (hns : ∀ n ∈ ns, Lawful n ∧ SelfContained bound n) :
    Lawful (.element name attrs ns) ∧ SelfContained bound (.element name attrs ns) := by
  have hempty : namespaceParts attrs.entries = namespaceParts (Table.empty : Table String).entries := hparts
  have hlawful : LawfulAttrs (Table.empty : Table String).entries := ⟨List.nodup_nil, nofun⟩
  refine ⟨⟨hlawful.congr hempty hnodup, allLawful_iff.2 fun n hn => (hns n hn).1⟩, (selfContained_congr hempty).2 ?_⟩
  refine ⟨⟨nofun, fun p hp => ?_, nofun, List.nodup_nil⟩, allSelfContained_iff.2 fun n hn => (hns n hn).2⟩
  rw [hname] at hp
  cases hp

end

/-! ## Prefixes that nothing declares -/

/-- The attributes do not declare the prefix. -/
def Undeclared (p _name : String) (attrs : Table String) : Prop := ∀ a ∈ attrs.entries, declaredPrefix? a.1 ≠ some p

/-- Only declarations among the attributes have the prefix. -/
def Unused (p _name : String) (attrs : Table String) : Prop :=
  ∀ a ∈ attrs.entries, prefixOf a.1 = some p → isDeclared a

instance (p name : String) (attrs : Table String) : Decidable (Undeclared p name attrs) :=
  inferInstanceAs (Decidable (∀ a ∈ attrs.entries, _))

instance (p name : String) (attrs : Table String) : Decidable (Unused p name attrs) :=
  inferInstanceAs (Decidable (∀ a ∈ attrs.entries, _))

theorem lookup_boundInside {p : String} (hp : bound.lookup p = none) {attrs : Table String}
    (h : Undeclared p name attrs) : (boundInside bound attrs.entries).lookup p = none := by
  rw [boundInside, List.lookup_append, hp, Option.or_none, List.lookup_eq_none_iff]
  intro b hb
  obtain ⟨a, ha, hpart⟩ := List.mem_filterMap.1 (List.mem_reverse.1 hb)
  obtain ⟨q, hq, rfl⟩ := Option.map_eq_some_iff.1 hpart
  have hne : p ≠ q := by
    rintro rfl
    exact h a ha hq
  simpa using hne

mutual

/-- A prefix that nothing declares is used by no attribute of a self-contained tree. -/
theorem unused_of_selfContained {p : String} {bound : Bindings} (hp : bound.lookup p = none) (n : Node)
    (h : SelfContained bound n) (hnone : Throughout (Undeclared p) n) : Throughout (Unused p) n := by
  cases n with
  | element name attrs children =>
    have hinner := lookup_boundInside hp hnone.1
    refine ⟨fun a ha hused => ?_, unused_of_allSelfContained hinner children h.2 hnone.2⟩
    by_contra hdeclared
    have hbound := h.1.attributes a ha (by simpa using hdeclared) p hused
    rw [hinner] at hbound
    cases hbound
  | _ => trivial

theorem unused_of_allSelfContained {p : String} {bound : Bindings} (hp : bound.lookup p = none) (ns : List Node)
    (h : AllSelfContained bound ns) (hnone : ThroughoutAll (Undeclared p) ns) : ThroughoutAll (Unused p) ns := by
  cases ns with
  | nil => trivial
  | cons n ns => exact ⟨unused_of_selfContained hp n h.1 hnone.1, unused_of_allSelfContained hp ns h.2 hnone.2⟩

end

/-! ## Documents -/

/-- What a tree with names must be so that it can be read when it has been written. -/
structure Element.Readable (e : Element) : Prop where
  values : Throughout (fun _ => CleanValues) e.toNode
  lawful : Lawful e.toNode
  contained : e.SelfContained

/-- **Trees as documents.**  A tree with names that has been written can be read exactly if it is readable, and what is
read has its shape. -/
theorem read_writeDocument_iff {e : Element} (he : NodeNamed e.toNode) :
    (∃ r, read (writeDocument e) = .ok r ∧ SameShape e.toNode r.toNode) ↔ e.Readable := by
  constructor
  · rintro ⟨r, hr, -⟩
    have hmarkup := allMarkup_of_read hr
    rw [toList_writeDocument, allMarkup_append] at hmarkup
    have hvalues := cleanValues_of_writeNode _ hmarkup.2
    have hok : e.Ok := (nodeOk_iff _).2 ⟨he, hvalues⟩
    -- reading the text is rereading the tree, which fails unless the tree is lawful and self-contained
    rw [read_writeDocument hok] at hr
    have hreread : rereadNode [("xml", xmlNamespace)] (unifyNode e.toNode) = .ok r.toNode := by
      rw [← toNode_unified, rereadNode_toNode, hr]
      rfl
    obtain ⟨hlawful, hcontained⟩ := contained_of_rereadNode hreread
    exact ⟨hvalues, hlawful, hcontained⟩
  · rintro ⟨hvalues, hlawful, hcontained⟩
    have hok : e.Ok := (nodeOk_iff _).2 ⟨he, hvalues⟩
    obtain ⟨m, hm⟩ := (decidedBy_rereadNode _ hlawful [("xml", xmlNamespace)]).1 hcontained
    have hshape := (spec_of_rereadNode _ hm).2
    rw [← toNode_unified, rereadNode_toNode] at hm
    obtain ⟨r, hr, rfl⟩ := map_eq_ok.1 hm
    exact ⟨r, by rw [read_writeDocument hok, hr], hshape⟩

end Stitchwork.Markup
