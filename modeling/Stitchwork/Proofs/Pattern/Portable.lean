/- # Stitchwork.Proofs.Pattern.Portable — definitions that come back from a package.

A definition is portable if nothing in it gets lost on the way through a package and back: its texts stand on one
line, and what it stores is spelled with names and attributes that mean the same everywhere.  A portable definition can
be packaged, and the element that it becomes is read as the definition itself.
-/
import Stitchwork.Proofs.Pattern.Params
import Stitchwork.Proofs.Pattern.Reopening
import Stitchwork.Proofs.Pattern.Stored

namespace Stitchwork.Markup

/-! ## Portable elements -/

/-- The text has no tab and no line end. -/
def OneLine (s : String) : Prop := ∀ c ∈ s.toList, c ≠ '\t' ∧ c ≠ '\n' ∧ c ≠ '\r'

instance (s : String) : Decidable (OneLine s) :=
  List.decidableBAll (fun c => c ≠ '\t' ∧ c ≠ '\n' ∧ c ≠ '\r') s.toList

instance (a : String × String) : Decidable (PlainAttr a) := inferInstanceAs (Decidable (_ ∧ _))

theorem tidy_of_oneLine {s : String} (h : OneLine s) : tidy s = s := by
  apply tidy_eq_self_iff.2
  intro c hc hspace
  simp only [isSpace, Bool.or_eq_true, beq_iff_eq] at hspace
  have hchar := h c hc
  tauto

theorem oneLine_of_le {s : String} (h : ∀ c ∈ s.toList, 0x20 ≤ c.toNat) : OneLine s := by
  intro c hc
  have hcode := h c hc
  refine ⟨?_, ?_, ?_⟩ <;> rintro rfl <;> exact absurd hcode (by decide)

/-- Attributes that mean the same everywhere: each comes once, has no prefix and declares none, and its value stands
on one line. -/
structure PortableAttrs (attrs : List (String × String)) : Prop where
  nodup : (attrs.map (·.1)).Nodup
  each : ∀ a ∈ attrs, PlainAttr a ∧ OneLine a.2

theorem portableAttrs_iff {attrs : List (String × String)} :
    PortableAttrs attrs ↔ (attrs.map (·.1)).Nodup ∧ ∀ a ∈ attrs, PlainAttr a ∧ OneLine a.2 :=
  ⟨fun h => ⟨h.nodup, h.each⟩, fun h => ⟨h.1, h.2⟩⟩

instance (attrs : List (String × String)) : Decidable (PortableAttrs attrs) := decidable_of_iff' _ portableAttrs_iff

namespace PortableAttrs

variable {attrs : List (String × String)} (h : PortableAttrs attrs)

include h

theorem plain : ∀ a ∈ attrs, PlainAttr a := fun a ha => (h.each a ha).1

theorem map_unifyAttr : attrs.map unifyAttr = attrs := by
  have hattr : ∀ a ∈ attrs, unifyAttr a = a := by
    intro a ha
    rw [unifyAttr, unify_of_not_mem fun hc => ((h.each a ha).2 _ hc).2.2 rfl]
  rw [List.map_congr_left hattr, List.map_id']

theorem map_tidyAttr : attrs.map tidyAttr = attrs := by
  have hattr : ∀ a ∈ attrs, tidyAttr a = a := by
    intro a ha
    rw [tidyAttr, tidy_of_oneLine (h.each a ha).2]
  rw [List.map_congr_left hattr, List.map_id']

theorem map_flatAttr : attrs.map flatAttr = attrs := by
  have htidy := h.map_tidyAttr
  rwa [← Markup.map_tidyAttr, h.map_unifyAttr] at htidy

theorem filter (p : String × String → Bool) : PortableAttrs (attrs.filter p) :=
  ⟨(List.filter_sublist.map _).nodup h.nodup, fun a ha => h.each a (List.mem_of_mem_filter ha)⟩

end PortableAttrs

mutual

/-- Is the node spelled with elements that have the right names, with portable attributes, and with texts in which no
line end gets lost? -/
def isPortable (tag : String → Bool) : Node → Bool
  | .element name attrs children => tag name && decide (PortableAttrs attrs.entries) && arePortable tag children
  | .text s => !s.toList.contains '\r'
  | _ => true

/-- Are all of the nodes portable? -/
def arePortable (tag : String → Bool) : List Node → Bool
  | [] => true
  | n :: ns => isPortable tag n && arePortable tag ns

end

section

variable {tag : String → Bool}

theorem isPortable_element {name : String} {attrs : Table String} {children : List Node} :
    isPortable tag (.element name attrs children) ↔
      tag name ∧ PortableAttrs attrs.entries ∧ arePortable tag children := by
  rw [isPortable, Bool.and_eq_true, Bool.and_eq_true, decide_eq_true_iff, and_assoc]

theorem arePortable_cons {n : Node} {ns : List Node} :
    arePortable tag (n :: ns) ↔ isPortable tag n ∧ arePortable tag ns := by
  rw [arePortable, Bool.and_eq_true]

theorem isPortable_of_mem {n : Node} {ns : List Node} (h : arePortable tag ns) (hn : n ∈ ns) : isPortable tag n := by
  induction ns with
  | nil => cases hn
  | cons m ns ih =>
    rw [arePortable_cons] at h
    rcases List.mem_cons.1 hn with rfl | hn
    · exact h.1
    · exact ih h.2 hn

/-- Portable nodes are reread as they are where the prefixes of their names are bound. -/
theorem reread_of_arePortable {bound : Bindings}
    (hbound : ∀ name p, tag name → prefixOf name = some p → (bound.lookup p).isSome) (ns : List Node)
    (h : arePortable tag ns) : unifyNodes ns = ns ∧ rereadNodes bound ns = .ok ns := by
  cases ns with
  | nil => exact ⟨rfl, rfl⟩
  | cons n ns =>
    obtain ⟨hn, hns⟩ := arePortable_cons.1 h
    have hnode : unifyNode n = n ∧ rereadNode bound n = .ok n := by
      cases n with
      | element name attrs children =>
        obtain ⟨htag, hattrs, hchildren⟩ := isPortable_element.1 hn
        obtain ⟨hunify, hreread⟩ := reread_of_arePortable hbound children hchildren
        refine ⟨?_, rereadNode_eq_self.2 ⟨bound, ?_, hreread, ?_⟩⟩
        · rw [unifyNode, hattrs.map_unifyAttr, hunify]
        · exact readsTag_of_plain hattrs.nodup hattrs.plain fun p hp => hbound name p htag hp
        · rw [hattrs.map_flatAttr, sortAttrs_of_plain hattrs.plain]
      | text s =>
        have hreturn : '\r' ∉ s.toList := by simpa [isPortable] using hn
        exact ⟨by rw [unifyNode, unify_of_not_mem hreturn], rfl⟩
      | _ => exact ⟨rfl, rfl⟩
    obtain ⟨hunify, hreread⟩ := reread_of_arePortable hbound ns hns
    refine ⟨by rw [unifyNodes, hnode.1, hunify], ?_⟩
    rw [rereadNodes_cons, hnode.2, hreread]
    rfl

theorem reread_of_isPortable {bound : Bindings}
    (hbound : ∀ name p, tag name → prefixOf name = some p → (bound.lookup p).isSome) (n : Node) (h : isPortable tag n) :
    unifyNode n = n ∧ rereadNode bound n = .ok n := by
  obtain ⟨hunify, hreread⟩ := reread_of_arePortable hbound [n] (arePortable_cons.2 ⟨h, rfl⟩)
  exact ⟨(List.cons.inj hunify).1, rereadNodes_singleton.1 hreread⟩

/-- A portable element without prefixes is read as it was written. -/
theorem read_write_of_isPortable {e : Element} (he : e.Ok) (htag : ∀ name, tag name → prefixOf name = none)
    (h : isPortable tag e.toNode) : read e.write = .ok e := by
  have hbound : ∀ name p, tag name → prefixOf name = some p →
      (List.lookup p [("xml", xmlNamespace)]).isSome := by
    intro name p hname hp
    rw [htag name hname] at hp
    cases hp
  obtain ⟨hunify, hreread⟩ := reread_of_isPortable hbound e.toNode h
  have hnode := rereadNode_toNode [("xml", xmlNamespace)] e.unified
  rw [toNode_unified, hunify, hreread] at hnode
  obtain ⟨m, hm, heq⟩ := map_eq_ok.1 hnode.symm
  rw [read_write he, hm]
  obtain ⟨name, attrs, children⟩ := m
  obtain ⟨name', attrs', children'⟩ := e
  cases heq
  rfl

/-- A portable node holds no elements but those with the right names. -/
theorem selfAndDescendants_of_isPortable {t : String} (ht : tag t = false) (n : Node) (h : isPortable tag n) :
    selfAndDescendants t n = [] := by
  rw [← descendants_singleton]
  refine List.eq_nil_iff_forall_not_mem.2 fun e he => ?_
  have htag : isPortable tag e.toNode :=
    of_mem_descendants (fun {e _} (he : isPortable tag e.toNode) hc => isPortable_of_mem (isPortable_element.1 he).2.2 hc)
      (fun _ hc => by rwa [List.mem_singleton.1 hc]) he
  rw [← name_of_mem_descendants _ he, (isPortable_element.1 htag).1] at ht
  cases ht

end

end Stitchwork.Markup

namespace Stitchwork.Pattern

open Stitchwork.Markup

/-! ## Stored elements -/

/-- The attributes of an element that it keeps when it gets the declaration. -/
def ownAttrs (e : Element) : List (String × String) := e.attrs.entries.filter (·.1 != localName declaration)

section

variable {tag : String → Bool} {e : Element}

theorem declaration_not_mem {attrs : List (String × String)} (h : ∀ a ∈ attrs, PlainAttr a) :
    declaration ∉ attrs.map (·.1) := by
  intro hmem
  obtain ⟨a, ha, heq⟩ := List.mem_map.1 hmem
  have hplain := (h a ha).1
  rw [heq] at hplain
  exact absurd hplain (by decide +kernel)

/-- Without the declaration, the other attributes are left. -/
theorem filter_declaration {attrs : List (String × String)} (h : ∀ a ∈ attrs, PlainAttr a) :
    ((declaration, patternNamespace) :: attrs).filter (·.1 != declaration) = attrs := by
  rw [List.filter_cons_of_neg (by simp), List.filter_eq_self]
  intro a ha
  rw [bne_iff_ne]
  intro heq
  exact declaration_not_mem h (heq ▸ List.mem_map_of_mem ha)

/-- The declaration goes behind attributes that are portable. -/
theorem declare_of_portable (h : PortableAttrs e.attrs.entries) :
    declare e = ⟨e.name, ⟨ownAttrs e ++ [(declaration, patternNamespace)]⟩, e.children⟩ := by
  have hnone : e.hasAttr declaration = false := by
    show (Table.valueIn? declaration e.attrs.entries).isSome = false
    rw [Table.valueIn?_eq_none_iff.2 (declaration_not_mem h.plain)]
    rfl
  have hown : declaration ∉ (e.attrs.erase (localName declaration)).keys :=
    declaration_not_mem (h.filter (·.1 != localName declaration)).plain
  rw [declare, hnone]
  show Element.mk e.name ((e.attrs.erase (localName declaration)).insert declaration patternNamespace) e.children = _
  congr 1
  exact congrArg Table.mk (Table.entries_insert_of_not_mem patternNamespace hown)

/-- An element with the declaration behind portable attributes is read with the declaration in front. -/
theorem read_declare_of_isPortable (he : e.Ok)
    (hbound : ∀ name p, tag name → prefixOf name = some p → (packageBound.lookup p).isSome)
    (h : isPortable tag e.toNode) : Markup.read (declare e).write =
      .ok ⟨e.name, ⟨(declaration, patternNamespace) :: ownAttrs e⟩, e.children⟩ := by
  obtain ⟨htag, hattrs, hchildren⟩ := isPortable_element.1 h
  obtain ⟨hunify, hreread⟩ := reread_of_arePortable hbound e.children hchildren
  have hown : PortableAttrs (ownAttrs e) := hattrs.filter _
  have hdeclare := declare_of_portable hattrs
  have hdeclared : (ownAttrs e ++ [(declaration, patternNamespace)]).filter isDeclared =
      [(declaration, patternNamespace)] := by
    rw [List.filter_append, List.filter_eq_nil_iff.2 fun a ha => by simp [isDeclared_of_plain (hown.plain a ha)]]
    decide +kernel
  have hplain : (ownAttrs e ++ [(declaration, patternNamespace)]).filter (!isDeclared ·) = ownAttrs e := by
    rw [List.filter_append, List.filter_eq_self.2 fun a ha => by simp [isDeclared_of_plain (hown.plain a ha)],
      show [(declaration, patternNamespace)].filter (!isDeclared ·) = [] by decide +kernel, List.append_nil]
  have hunified : (declare e).attrs.entries.map unifyAttr = ownAttrs e ++ [(declaration, patternNamespace)] := by
    rw [hdeclare, List.map_append, hown.map_unifyAttr,
      show [(declaration, patternNamespace)].map unifyAttr = [(declaration, patternNamespace)] by decide +kernel]
  have hflat : (ownAttrs e ++ [(declaration, patternNamespace)]).map flatAttr =
      ownAttrs e ++ [(declaration, patternNamespace)] := by
    rw [List.map_append, hown.map_flatAttr,
      show [(declaration, patternNamespace)].map flatAttr = [(declaration, patternNamespace)] by decide +kernel]
  refine (read_write_eq_ok (ok_declare he)).2 ⟨packageBound, e.children, ?_, ?_, ?_⟩
  · rw [hunified, hdeclare]
    refine ⟨?_, ?_, ?_, fun p hp => hbound e.name p htag hp⟩
    · rw [List.map_append, List.nodup_append]
      refine ⟨hown.nodup, List.nodup_singleton _, ?_⟩
      rintro k hk _ hd rfl
      obtain rfl : k = declaration := List.mem_singleton.1 hd
      exact declaration_not_mem hown.plain hk
    · rw [hflat, ← bindAll_filter_isDeclared, hdeclared]
      decide +kernel
    · rw [hflat, hplain]
      exact checkPrefixes_of_plain hown.plain
  · rw [hdeclare, hunify]
    exact hreread
  · rw [← map_tidyAttr, hunified, hflat, sortAttrs, hdeclared, hplain, hdeclare]
    rfl

end

/-- An element as a definition stores it. -/
def Definition.declared : Definition → Element → Element
  | .block _, e => declare e
  | .chart _, e => declare e
  | .component _, e => declare e
  | _, e => e

/-- The names of the elements that knitting is described with. -/
def stitchTags : List String :=
  ["opaf:action", "opaf:block", "opaf:image", "opaf:instruction", "opaf:repeat", "opaf:row", "opaf:text"]

/-- The names that elements stored in a portable definition of the kind have: in blocks, charts and components those
that knitting is described with, elsewhere names without a prefix. -/
def Kind.carries : Kind → String → Bool
  | .block, name => stitchTags.contains name
  | .chart, name => stitchTags.contains name
  | .component, name => stitchTags.contains name
  | _, name => (prefixOf name).isNone

/-- The text is that of a portable element, and if the definition is an action, of one without another action in it. -/
def Definition.PortableText (x : Definition) (s : String) : Prop :=
  ∃ e : Element, e.Ok ∧ s = (x.declared e).write ∧ isPortable x.kind.carries e.toNode ∧
    (x.kind = .action → descendants "action" e.children = [])

theorem bound_stitchTags (name p : String) (hname : stitchTags.contains name) (hp : prefixOf name = some p) :
    (packageBound.lookup p).isSome := by
  have hall : ∀ name ∈ stitchTags, prefixOf name = some "opaf" := by decide +kernel
  rw [hall name (List.contains_iff_mem.1 hname), Option.some.injEq] at hp
  subst hp
  rfl

/-- What a portable element that was stored with its declaration is read as. -/
theorem exists_restored_of_isPortable {e : Element} (he : e.Ok) (h : isPortable stitchTags.contains e.toNode) : ∃ m,
    Markup.read (declare e).write = .ok m ∧ (declare (m.eraseAttr declaration)).write = (declare e).write ∧
      isPortable stitchTags.contains (m.eraseAttr declaration).toNode := by
  obtain ⟨htag, hattrs, hchildren⟩ := isPortable_element.1 h
  have hown : PortableAttrs (ownAttrs e) := hattrs.filter _
  have herase := filter_declaration hown.plain
  refine ⟨_, read_declare_of_isPortable he bound_stitchTags h, ?_, ?_⟩
  · show (declare ⟨e.name, ⟨_⟩, e.children⟩).write = _
    rw [herase, declare_of_portable hown, declare_of_portable hattrs]
    show Element.write ⟨e.name, ⟨(ownAttrs e).filter _ ++ _⟩, e.children⟩ = _
    rw [ownAttrs, List.filter_filter]
    simp
  · show isPortable _ (.element e.name ⟨_⟩ e.children)
    rw [herase]
    exact isPortable_element.2 ⟨htag, hown, hchildren⟩

/-- What a portable text is read as: an element that is stored with the same text again. -/
theorem Definition.PortableText.restores {x : Definition} {s : String} (h : x.PortableText s) : ∃ m,
    Markup.read s = .ok m ∧ (x.declared (x.restored m)).write = s ∧ isPortable x.kind.carries (x.restored m).toNode ∧
      (x.kind = .action → descendants "action" (x.restored m).children = []) := by
  obtain ⟨e, he, rfl, hportable, haction⟩ := h
  cases x with
  | block b =>
    obtain ⟨m, hm, hwrite, hp⟩ := exists_restored_of_isPortable he hportable
    exact ⟨m, hm, hwrite, hp, nofun⟩
  | chart c =>
    obtain ⟨m, hm, hwrite, hp⟩ := exists_restored_of_isPortable he hportable
    exact ⟨m, hm, hwrite, hp, nofun⟩
  | component c =>
    obtain ⟨m, hm, hwrite, hp⟩ := exists_restored_of_isPortable he hportable
    exact ⟨m, hm, hwrite, hp, nofun⟩
  | _ =>
    have hread : Markup.read e.write = .ok e :=
      read_write_of_isPortable he (fun name hname => Option.isNone_iff_eq_none.1 hname) hportable
    exact ⟨e, hread, rfl, hportable, haction⟩

/-- A text is portable exactly if it is read as an element that is portable and is stored with the same text again. -/
theorem Definition.portableText_iff {x : Definition} {s : String} : x.PortableText s ↔ ∃ m, Markup.read s = .ok m ∧
    (x.declared (x.restored m)).write = s ∧ isPortable x.kind.carries (x.restored m).toNode ∧
      (x.kind = .action → descendants "action" (x.restored m).children = []) := by
  constructor
  · exact PortableText.restores
  · rintro ⟨m, hm, hwrite, hportable, hsingle⟩
    have hok : m.Ok := read_ok hm
    have hrestored : (x.restored m).Ok := by
      have herase : (m.eraseAttr declaration).Ok :=
        ⟨hok.1, fun a ha => hok.2.1 a (List.mem_of_mem_filter ha), hok.2.2⟩
      cases x with
      | block b => exact herase
      | chart c => exact herase
      | component c => exact herase
      | _ => exact hok
    exact ⟨x.restored m, hrestored, hwrite.symm, hportable, hsingle⟩

instance (x : Definition) (s : String) : Decidable (x.PortableText s) :=
  match h : Markup.read s with
  | .ok m => decidable_of_iff ((x.declared (x.restored m)).write = s ∧
      isPortable x.kind.carries (x.restored m).toNode ∧
      (x.kind = .action → descendants "action" (x.restored m).children = [])) (by simp [Definition.portableText_iff, h])
  | .error f => isFalse (by simp [Definition.portableText_iff, h])

/-! ## Portable definitions -/

/-- The texts in the fields of a definition. -/
def Definition.texts : Definition → List String
  | .action a => a.name :: paramTexts a.params
  | .block b => b.name :: paramTexts b.params
  | .chart c => c.name :: c.condition.toList
  | .color c => [c.name, c.value, c.description]
  | .component c => c.name :: (c.uniqueId.toList ++ c.condition.toList)
  | .config c => c.name :: c.value :: (c.allowed.values ++ c.title.toList ++ c.description.toList)
  | .image i => [i.name]
  | .metadata _ => []
  | .value v => v.name :: v.value :: (v.uniqueId.toList ++ v.condition.toList)

/-- Nothing in the definition is written as if it were not there: no single parameter without a name and a value, and no
empty title, description or condition where these are left out. -/
def Definition.Discernible : Definition → Prop
  | .action a => a.params.entries ≠ [("", .nothing)]
  | .config c => c.title ≠ some "" ∧ c.description ≠ some ""
  | .value v => v.condition ≠ some ""
  | _ => True

/-- Nothing in the definition gets lost on the way through a package and back. -/
structure Definition.Portable (x : Definition) : Prop where
  texts : ∀ s ∈ x.texts, OneLine s
  stored : ∀ s ∈ x.stored, x.PortableText s
  discernible : x.Discernible

/-- Parameters that are no more than one without a name and a value. -/
theorem entries_eq_nameless_iff (t : Table Formula.Value) : t.entries = [("", .nothing)] ↔
    (t.entries.map fun p => (p.1, match p.2 with | .nothing => true | _ => false)) = [("", true)] := by
  constructor
  · intro h
    rw [h]
    rfl
  · intro h
    obtain ⟨⟨k, v⟩, hentries, heq⟩ := List.map_eq_singleton_iff.1 h
    rw [hentries]
    cases v <;> simp_all

instance (x : Definition) : Decidable x.Discernible :=
  match x with
  | .action a => decidable_of_iff _ (not_congr (entries_eq_nameless_iff a.params)).symm
  | .config _ => instDecidableAnd
  | .value _ => instDecidableNot
  | .block _ => isTrue trivial
  | .chart _ => isTrue trivial
  | .color _ => isTrue trivial
  | .component _ => isTrue trivial
  | .image _ => isTrue trivial
  | .metadata _ => isTrue trivial

theorem Definition.portable_iff (x : Definition) : x.Portable ↔
    (∀ s ∈ x.texts, OneLine s) ∧ (∀ s ∈ x.stored, x.PortableText s) ∧ x.Discernible :=
  ⟨fun h => ⟨h.texts, h.stored, h.discernible⟩, fun h => ⟨h.1, h.2.1, h.2.2⟩⟩

instance (x : Definition) : Decidable x.Portable := decidable_of_iff' _ x.portable_iff

theorem oneLine_boolText (b : Bool) : OneLine (boolText b) := by
  cases b <;> decide

theorem oneLine_data (data : ImageData) : OneLine data.text :=
  oneLine_of_le fun _ hc => (Text.Base64.mem_encode hc).1.le

theorem oneLine_params {read : String → Table Formula.Value} {t : Table Formula.Value} {text : String}
    (h : Returns read t text) (ht : ∀ s ∈ paramTexts t, OneLine s) : OneLine text := by
  intro c hc
  rcases h.chars c hc with rfl | rfl | hnumber | ⟨s, hs, hmem⟩
  · decide
  · decide
  · refine ⟨?_, ?_, ?_⟩ <;> rintro rfl <;> exact absurd hnumber (by decide)
  · exact ht s hs c hmem

theorem oneLine_allowed {values : List String} (h : ∀ s ∈ values, OneLine s) : OneLine (Text.join "," values) := by
  intro c hc
  rcases Text.mem_join hc with hc | ⟨s, hs, hmem⟩
  · rw [List.mem_singleton.1 hc]
    decide
  · exact h s hs c hmem

theorem mem_of_mem_attrIfGiven {k : String} {o : Option String} {a : String × String} (h : a ∈ attrIfGiven k o) :
    a.2 ∈ o.toList := by
  cases o with
  | none => cases h
  | some s =>
    rw [attrIfGiven] at h
    split at h
    · cases h
    · rw [List.mem_singleton.1 h]
      simp

theorem mem_of_mem_option {k : String} {o : Option String} {a : String × String} (h : a ∈ (o.map (k, ·)).toList) :
    a.2 ∈ o.toList := by
  cases o with
  | none => cases h
  | some s =>
    rw [List.mem_singleton.1 h]
    simp

section

variable {x : Definition} (hx : x.IsRead) (hp : x.Portable)

include hx hp

/-- The fields of a portable definition can be written, each on one line. -/
theorem exists_fields_of_portable : ∃ fields, x.fields = .ok fields ∧ ∀ a ∈ fields, OneLine a.2 := by
  have htexts := hp.texts
  cases x with
  | action a =>
    obtain ⟨e, -, -, rfl⟩ := hx
    -- of all fields only parameters could fail to be written, and these have been read
    obtain ⟨text, htext⟩ := exists_returns_action hp.discernible
    refine ⟨_, by rw [Definition.fields, Action.ofElement, htext.writes]; rfl, ?_⟩
    rw [Definition.texts, List.forall_mem_cons] at htexts
    have hparams := oneLine_params htext htexts.2
    have hcustom := oneLine_boolText (Action.ofElement e).custom
    intro a ha
    simp only [List.mem_append, List.mem_cons, List.mem_ite_nil_left, List.not_mem_nil, or_false] at ha
    rcases ha with (rfl | rfl) | ⟨-, rfl⟩
    · exact htexts.1
    · exact hcustom
    · exact hparams
  | block b =>
    obtain ⟨e, e', he, hread⟩ := hx
    obtain ⟨kept, -, heq⟩ := Block.ofElement_eq_ok.1 hread
    cases heq
    obtain ⟨text, htext⟩ := exists_returns_block (e.attr "params")
    refine ⟨_, by rw [Definition.fields, htext.writes]; rfl, ?_⟩
    rw [Definition.texts, List.forall_mem_cons] at htexts
    have hparams := oneLine_params htext htexts.2
    intro a ha
    simp only [List.mem_cons, List.mem_ite_nil_left, List.not_mem_nil, or_false] at ha
    rcases ha with rfl | ⟨-, rfl⟩
    · exact htexts.1
    · exact hparams
  | chart c =>
    rw [Definition.texts, List.forall_mem_cons] at htexts
    refine ⟨_, rfl, List.forall_mem_cons.2 ⟨htexts.1, fun a ha => htexts.2 _ (mem_of_mem_option ha)⟩⟩
  | color c =>
    simp only [Definition.texts, List.forall_mem_cons] at htexts
    exact ⟨_, rfl, by simpa using htexts⟩
  | component c =>
    simp only [Definition.texts, List.forall_mem_cons, List.forall_mem_append] at htexts
    obtain ⟨e, id, kept, -, -, -, rfl⟩ := hx
    refine ⟨_, rfl, List.forall_mem_append.2 ⟨?_, fun a ha => htexts.2.2 _ (mem_of_mem_option ha)⟩⟩
    simpa using ⟨htexts.1, htexts.2.1 id (by simp)⟩
  | config c =>
    simp only [Definition.texts, List.forall_mem_cons, List.forall_mem_append] at htexts
    obtain ⟨hname, hvalue, ⟨hallowed, htitle⟩, hdescription⟩ := htexts
    refine ⟨_, rfl, ?_⟩
    simp only [List.forall_mem_append]
    refine ⟨⟨⟨?_, ?_⟩, fun a ha => htitle _ (mem_of_mem_attrIfGiven ha)⟩,
      fun a ha => hdescription _ (mem_of_mem_attrIfGiven ha)⟩
    · simpa using ⟨hname, hvalue, oneLine_boolText c.required⟩
    · split
      · exact List.forall_mem_singleton.2 (oneLine_allowed hallowed)
      · exact List.forall_mem_nil _
  | image i =>
    exact ⟨_, rfl, by simpa using ⟨htexts i.name (by simp [Definition.texts]), oneLine_data i.data⟩⟩
  | metadata m => exact ⟨_, rfl, List.forall_mem_nil _⟩
  | value v =>
    simp only [Definition.texts, List.forall_mem_cons, List.forall_mem_append] at htexts
    obtain ⟨e, id, -, -, rfl⟩ := hx
    refine ⟨_, rfl, List.forall_mem_append.2 ⟨?_, fun a ha => htexts.2.2.2 _ (mem_of_mem_attrIfGiven ha)⟩⟩
    simpa using ⟨htexts.2.2.1 id (by simp), htexts.1, htexts.2.1⟩

/-- A portable definition can be packaged. -/
theorem exists_toElement_of_portable : ∃ h, x.toElement.1 = .ok h := by
  obtain ⟨fields, hfields, -⟩ := exists_fields_of_portable hx hp
  obtain ⟨ms, hms⟩ := exists_forall₂ fun s hs => (hp.stored s hs).restores.imp fun m hm => hm.1
  have hrestore : restoreAll x.stored = .ok ms := restoreAll_eq_ok.2 hms
  cases x with
  | action a =>
    obtain ⟨e, -, -, rfl⟩ := hx
    obtain ⟨params, hparams, -⟩ := map_eq_ok.1 hfields
    exact ⟨_, bind_eq_ok.2 ⟨params, hparams, bind_eq_ok.2 ⟨ms, hrestore, rfl⟩⟩⟩
  | block b =>
    obtain ⟨params, hparams, -⟩ := map_eq_ok.1 hfields
    exact ⟨_, bind_eq_ok.2 ⟨params, hparams, bind_eq_ok.2 ⟨_, bind_eq_ok.2 ⟨ms, hrestore, rfl⟩, rfl⟩⟩⟩
  | chart c => exact ⟨_, bind_eq_ok.2 ⟨_, bind_eq_ok.2 ⟨ms, hrestore, rfl⟩, rfl⟩⟩
  | component c =>
    obtain ⟨e, id, kept, -, -, -, rfl⟩ := hx
    exact ⟨_, bind_eq_ok.2 ⟨_, bind_eq_ok.2 ⟨ms, hrestore, rfl⟩, rfl⟩⟩
  | metadata m => exact ⟨_, bind_eq_ok.2 ⟨ms, hrestore, rfl⟩⟩
  | _ => exact ⟨_, rfl⟩

/-- The attributes of the element that a portable definition becomes are tidy. -/
theorem tidied_of_portable {h : Element} (hh : x.toElement.1 = .ok h) : h.tidied = h := by
  obtain ⟨fields, hfields, hline⟩ := exists_fields_of_portable hx hp
  rw [entries_of_toElement hx hh, Except.ok.injEq] at hfields
  have hattr : ∀ a ∈ h.attrs.entries, tidyAttr a = a := by
    rw [hfields]
    intro a ha
    rw [tidyAttr, tidy_of_oneLine (hline a ha)]
  obtain ⟨name, ⟨entries⟩, children⟩ := h
  rw [Element.tidied, List.map_congr_left hattr, List.map_id']

/-- An element below the one that a portable definition becomes. -/
structure Definition.Carried (x : Definition) (c : Element) : Prop where
  pruned : Pruned x.kind.holdsProse c.toNode
  named : x.kind.storesName c.name
  portable : isPortable x.kind.carries c.toNode
  single : x.kind = .action → descendants "action" c.children = []

/-- What stands below the element that a portable definition becomes is stored with the same texts again. -/
theorem exists_children_of_portable {h : Element} (hh : x.toElement.1 = .ok h) : ∃ cs : List Element,
    h.children = cs.map Element.toNode ∧ (cs.map fun c => (x.declared c).write) = x.stored ∧ ∀ c ∈ cs, x.Carried c := by
  obtain ⟨fields, ms, -, hms, rfl⟩ := toElement_eq_ok hh
  have hread := restoreAll_eq_ok.1 hms
  have hspec : ∀ s ∈ x.stored, ∀ m, Markup.read s = .ok m →
      (x.declared (x.restored m)).write = s ∧ x.Carried (x.restored m) := by
    intro s hs m hm
    obtain ⟨m', hm', hwrite, hportable, hsingle⟩ := (hp.stored s hs).restores
    obtain rfl : m' = m := Except.ok.inj (hm'.symm.trans hm)
    obtain ⟨hpruned, hnamed⟩ := hx.of_restore hs (mapError_eq_ok.2 hm)
    exact ⟨hwrite, hpruned, hnamed, hportable, hsingle⟩
  refine ⟨ms.map x.restored, by rw [List.map_map]; rfl, ?_, ?_⟩
  · rw [List.map_map]
    exact map_eq_of_forall₂ hread fun s hs m hm => (hspec s hs m hm).1
  · rw [List.forall_mem_map]
    intro m hm
    obtain ⟨s, hs, hsm⟩ := exists_of_mem_right hread hm
    exact (hspec s hs m hsm).2

end

end Stitchwork.Pattern
