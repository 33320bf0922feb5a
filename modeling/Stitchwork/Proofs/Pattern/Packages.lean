/- # Stitchwork.Proofs.Pattern.Packages — what a package is read as.

A package is the root of a pattern with one element for each definition.  The text of a package that was made from
a document that has been read is a text that can be read: the attributes of the root and of the definitions come
back tidy, and what stands below the definitions comes back as it is.
-/
import Stitchwork.Pattern.Package
import Stitchwork.Proofs.Pattern.Fields
import Stitchwork.Proofs.Pattern.VersionBounds

namespace Stitchwork.Markup

variable {attrs : List (String × String)} {bound : Bindings}

/-! ## Plain attributes -/

/-- The attribute declares no prefix and has none. -/
def PlainAttr (a : String × String) : Prop := declaredPrefix? a.1 = none ∧ prefixOf a.1 = none

theorem bindAll_of_plain (h : ∀ a ∈ attrs, PlainAttr a) : bindAll bound attrs = .ok bound := by
  induction attrs with
  | nil => rfl
  | cons a attrs ih =>
    rw [List.forall_mem_cons] at h
    rw [bindAll, h.1.1]
    exact ih h.2

theorem checkPrefixes_of_plain {seen : List (String × String)} (h : ∀ a ∈ attrs, PlainAttr a) :
    checkPrefixes bound seen (attrs.map (·.1)) = .ok () := by
  induction attrs with
  | nil => rfl
  | cons a attrs ih =>
    rw [List.forall_mem_cons] at h
    have hsplit : splitName a.1 = (none, (splitName a.1).2) := Prod.ext h.1.2 rfl
    rw [List.map_cons, checkPrefixes, hsplit]
    exact ih h.2

theorem isDeclared_of_plain {a : String × String} (h : PlainAttr a) : isDeclared a = false := by
  rw [isDeclared, h.1]
  rfl

theorem sortAttrs_of_plain (h : ∀ a ∈ attrs, PlainAttr a) : sortAttrs attrs = attrs := by
  have hnone : attrs.filter isDeclared = [] := by
    rw [List.filter_eq_nil_iff]
    intro a ha
    simp [isDeclared_of_plain (h a ha)]
  have hall : attrs.filter (!isDeclared ·) = attrs := by
    rw [List.filter_eq_self]
    intro a ha
    simp [isDeclared_of_plain (h a ha)]
  rw [sortAttrs, hnone, hall, List.nil_append]

theorem forall_plain_map {f : String × String → String × String} (hf : ∀ a, (f a).1 = a.1)
    (h : ∀ a ∈ attrs, PlainAttr a) : ∀ a ∈ attrs.map f, PlainAttr a := by
  rw [List.forall_mem_map]
  intro a ha
  unfold PlainAttr
  rw [hf a]
  exact h a ha

theorem sortAttrs_cons_of_plain {a : String × String} (ha : isDeclared a) (h : ∀ a ∈ attrs, PlainAttr a) :
    sortAttrs (a :: attrs) = a :: attrs := by
  have hsort := sortAttrs_of_plain h
  rw [sortAttrs] at hsort ⊢
  rw [List.filter_cons_of_pos ha, List.filter_cons_of_neg (by simp [ha]), List.cons_append, hsort]

/-- A tag with plain attributes can be read where its prefix is bound, and binds nothing. -/
theorem readsTag_of_plain {name : String} (hnodup : (attrs.map (·.1)).Nodup) (hattrs : ∀ a ∈ attrs, PlainAttr a)
    (hname : ∀ p, prefixOf name = some p → (bound.lookup p).isSome) : ReadsTag bound name attrs bound := by
  have hflat := forall_plain_map (f := flatAttr) (fun _ => rfl) hattrs
  refine ⟨hnodup, bindAll_of_plain hflat, ?_, hname⟩
  exact checkPrefixes_of_plain fun a ha => hflat a (List.mem_of_mem_filter ha)

/-! ## Trees that come back -/

/-- The element with tidy attributes. -/
def Element.tidied (e : Element) : Element := ⟨e.name, ⟨e.attrs.entries.map tidyAttr⟩, e.children⟩

/-- Settled elements below another one come back as they are. -/
theorem rereadNodes_of_settled {bound' : Bindings} (hbound : Extends bound bound') {es : List Element}
    (h : ∀ e ∈ es, e.Settled bound) :
    unifyNodes (es.map Element.toNode) = es.map Element.toNode ∧
      rereadNodes bound' (es.map Element.toNode) = .ok (es.map Element.toNode) := by
  induction es with
  | nil => exact ⟨rfl, rfl⟩
  | cons e es ih =>
    rw [List.forall_mem_cons] at h
    obtain ⟨hunify, hreread⟩ := ih h.2
    constructor
    · rw [List.map_cons, unifyNodes, h.1.unified, hunify]
    · rw [List.map_cons, rereadNodes_cons, h.1.reread bound' hbound, hreread]
      rfl

end Stitchwork.Markup

namespace Stitchwork.Pattern

open Stitchwork.Markup

variable {d : Document}

/-! ## Definitions -/

theorem plain_of_mem_fieldNames {a : String × String} (h : a.1 ∈ fieldNames) : PlainAttr a := by
  have hall : ∀ k ∈ fieldNames, declaredPrefix? k = none ∧ prefixOf k = none := by decide +kernel
  exact hall a.1 h

theorem attrOk_of_mem_fieldNames {a : String × String} (h : a.1 ∈ fieldNames) (hclean : Clean a.2) : AttrOk a := by
  have hall : ∀ k ∈ fieldNames, isQName k := by decide +kernel
  exact ⟨isQName_sound (hall a.1 h), hclean⟩

theorem Kind.mem_all (k : Kind) : k ∈ Kind.all := by
  cases k <;> decide

theorem isQName_tag (k : Kind) : IsQName k.tag.toList := by
  have hall : ∀ k ∈ Kind.all, isQName k.tag := by decide +kernel
  exact isQName_sound (hall k k.mem_all)

theorem prefixOf_tag (k : Kind) : prefixOf k.tag = some "opaf" := by
  have hall : ∀ k ∈ Kind.all, prefixOf k.tag = some "opaf" := by decide +kernel
  exact hall k k.mem_all

/-- The element that a definition becomes, in a package: it can be written, and comes back with tidy attributes. -/
structure IsHead (h : Element) : Prop where
  ok : h.Ok
  reread : ∀ bound, Extends packageBound bound → rereadNode bound (unifyNode h.toNode) = .ok h.tidied.toNode

theorem isHead_of_toElement {x : Definition} (hx : x.IsRead) {h : Element} (hh : x.toElement.1 = .ok h) : IsHead h := by
  obtain ⟨fields, ms, hfields, hms, rfl⟩ := toElement_eq_ok hh
  obtain ⟨f, es, hstores⟩ := hx.stores
  rw [hstores.stored] at hms
  obtain ⟨hsettled, -⟩ := hstores.restores.all hstores.ok hms
  have hok := fieldsOk_of_isRead hx hfields
  have hchildren : (ms.map fun m => (x.restored m).toNode) = (ms.map x.restored).map Element.toNode := by
    rw [List.map_map]
    rfl
  rw [hchildren]
  have hsettled' : ∀ e ∈ ms.map x.restored, e.Settled packageBound := List.forall_mem_map.2 hsettled
  have hplain : ∀ a ∈ fields, PlainAttr a := fun a ha => plain_of_mem_fieldNames (hok.each a ha).1
  refine ⟨⟨isQName_tag x.kind, ?_, ?_⟩, fun bound hbound => ?_⟩
  · rw [Table.entries_ofList_of_nodup hok.nodup]
    exact fun a ha => attrOk_of_mem_fieldNames (hok.each a ha).1 (hok.each a ha).2
  · refine nodesOk_of_forall (List.forall_mem_map.2 fun e he => ⟨(hsettled' e he).ok, rfl⟩)
  · obtain ⟨hunify, hreread⟩ := rereadNodes_of_settled hbound hsettled'
    rw [Element.toNode, unifyNode, hunify, Table.entries_ofList_of_nodup hok.nodup, rereadNode_element]
    have hunified := forall_plain_map (f := unifyAttr) (fun _ => rfl) hplain
    refine ⟨bound, _, readsTag_of_plain ?_ hunified fun p hp => ?_, hreread, ?_⟩
    · rw [List.map_map]
      exact hok.nodup
    · rw [prefixOf_tag x.kind] at hp
      cases hp
      rw [hbound "opaf" patternNamespace (by decide +kernel)]
      rfl
    · have htidy : ∀ a ∈ fields.map tidyAttr, PlainAttr a := forall_plain_map (f := tidyAttr) (fun _ => by rw [tidyAttr]) hplain
      show Node.element x.kind.tag ⟨(Table.ofList fields).entries.map tidyAttr⟩ _ = _
      rw [map_tidyAttr, sortAttrs_of_plain htidy, Table.entries_ofList_of_nodup hok.nodup]
      rfl

/-! ## The definitions of a package -/

/-- The kinds of definitions in the order in which a package has them. -/
def packageOrder : List Kind :=
  [.metadata, .color, .action, .config, .value, .chart, .block, .component, .image]

/-- The definitions of a document in the order in which a package has them. -/
def Document.packaged (d : Document) : List Definition := packageOrder.flatMap d.listed

/-- Elements that definitions become. -/
abbrev Becomes : List Definition → List Element → Prop := List.Forall₂ fun x h => x.toElement.1 = .ok h

theorem becomes_of_mapM {α : Type} {inj : α → Definition} {f : α → Except Error Element}
    (hf : ∀ a, (inj a).toElement.1 = f a) {xs : List α} {hs : List Element} (h : xs.mapM f = .ok hs) :
    Becomes (xs.map inj) hs := by
  rw [Becomes, List.forall₂_map_left_iff]
  exact (mapM_eq_ok.1 h).imp fun a b hab => (hf a).trans hab

theorem becomes_of_map {α : Type} {inj : α → Definition} {f : α → Element} (hf : ∀ a, (inj a).toElement.1 = .ok (f a))
    (xs : List α) : Becomes (xs.map inj) (xs.map f) := by
  rw [Becomes, List.forall₂_map_left_iff, List.forall₂_map_right_iff, List.forall₂_same]
  exact fun a _ => hf a

/-- The tree of a package: the root with the elements that the definitions become. -/
theorem packageTree_eq_ok {tree : Element} (h : d.packageTree.1 = .ok tree) :
    ∃ heads, Becomes d.packaged heads ∧ tree = d.packageRoot.append (heads.map Element.toNode) := by
  rw [Document.packageTree] at h
  split at h
  · cases h
  · next leading hleading =>
    split at h
    · cases h
    · next trailing htrailing =>
      cases h
      obtain ⟨metadata, hmetadata, hleading⟩ := bind_eq_ok.1 hleading
      obtain ⟨actions, hactions, hleading⟩ := bind_eq_ok.1 hleading
      obtain ⟨charts, hcharts, htrailing⟩ := bind_eq_ok.1 htrailing
      obtain ⟨blocks, hblocks, htrailing⟩ := bind_eq_ok.1 htrailing
      obtain ⟨components, hcomponents, htrailing⟩ := bind_eq_ok.1 htrailing
      cases hleading
      cases htrailing
      refine ⟨_, ?_, rfl⟩
      simp only [Document.packaged, packageOrder, List.flatMap_cons, List.flatMap_nil, List.append_nil,
        List.append_assoc, List.map_map]
      exact List.rel_append (becomes_of_mapM (fun _ => rfl) hmetadata)
        (List.rel_append (becomes_of_map (fun _ => rfl) d.colors)
        (List.rel_append (becomes_of_mapM (fun _ => rfl) hactions)
        (List.rel_append (becomes_of_map (fun _ => rfl) d.configs)
        (List.rel_append (becomes_of_map (fun _ => rfl) d.values)
        (List.rel_append (becomes_of_mapM (fun _ => rfl) hcharts)
        (List.rel_append (becomes_of_mapM (fun _ => rfl) hblocks)
        (List.rel_append (becomes_of_mapM (fun _ => rfl) hcomponents)
        (becomes_of_map (fun _ => rfl) d.images))))))))

/-! ## The root of a package -/

/-- The attributes of the root of a package behind the declaration. -/
def Document.rootFields (d : Document) : List (String × String) :=
  [("spec_version", formatVersion), ("pkg_version", packagerVersion), ("name", d.name),
   ("unique_id", d.uniqueId.getD ""), ("version", (d.version.map Version.text).getD "")]

theorem Document.IsRead.entries_packageRoot (hd : d.IsRead) :
    d.packageRoot.attrs.entries = (declaration, patternNamespace) :: d.rootFields := by
  have huri : d.namespaceUri.getD "" = patternNamespace := by
    rw [hd.namespaceUri]
    rfl
  rw [packageRoot, huri]
  exact Table.entries_ofList_of_nodup (by simp)

theorem clean_versionText {s : String} {v : Version} (h : readVersion s = .ok v) : Clean v.text := by
  intro c hc
  have hcode := toNat_of_mem_text h hc
  exact isMarkupChar_of_toNat (by omega)

theorem Document.IsRead.rootFields_ok (hd : d.IsRead) : ∀ a ∈ d.rootFields, PlainAttr a ∧ AttrOk a := by
  have hname : Clean d.name := by
    obtain ⟨s, hs, heq⟩ := hd.name
    rw [heq]
    exact clean_trim hs
  have huid : Clean (d.uniqueId.getD "") := by
    cases hid : d.uniqueId with
    | none => exact clean_empty
    | some id => exact hd.uniqueId id hid
  have hversion : Clean ((d.version.map Version.text).getD "") := by
    cases hv : d.version with
    | none => exact clean_empty
    | some v =>
      obtain ⟨s, hs⟩ := hd.version v hv
      exact clean_versionText hs
  have hplain : ∀ k ∈ ["spec_version", "pkg_version", "name", "unique_id", "version"],
      (declaredPrefix? k = none ∧ prefixOf k = none) ∧ isQName k := by decide +kernel
  have hclean : ∀ a ∈ d.rootFields, Clean a.2 := by
    simp only [rootFields, List.forall_mem_cons]
    exact ⟨by decide, by decide, hname, huid, hversion, nofun⟩
  intro a ha
  obtain ⟨hattr, hqname⟩ := hplain a.1 (List.mem_map_of_mem ha)
  exact ⟨hattr, isQName_sound hqname, hclean a ha⟩

theorem tidyAttr_declaration : tidyAttr (declaration, patternNamespace) = (declaration, patternNamespace) := by
  decide +kernel

/-- Inside the root of a package the prefix of patterns is bound. -/
theorem Document.IsRead.readsTag_packageRoot (hd : d.IsRead) :
    ReadsTag [("xml", xmlNamespace)] "pattern" (d.packageRoot.attrs.entries.map unifyAttr) packageBound := by
  have hplain : ∀ a ∈ d.rootFields.map tidyAttr, PlainAttr a :=
    forall_plain_map (f := tidyAttr) (fun _ => by rw [tidyAttr]) fun a ha => (hd.rootFields_ok a ha).1
  rw [hd.entries_packageRoot]
  refine ⟨?_, ?_, ?_, ?_⟩
  · simp [unifyAttr, rootFields, declaration]
  · rw [map_tidyAttr, List.map_cons, tidyAttr_declaration, bindAll]
    have hbind : bindPrefix [("xml", xmlNamespace)] "opaf" patternNamespace = .ok packageBound := by decide +kernel
    rw [show declaredPrefix? declaration = some "opaf" by decide +kernel]
    dsimp only
    rw [hbind]
    exact bindAll_of_plain hplain
  · rw [map_tidyAttr, List.map_cons, tidyAttr_declaration, List.filter_cons_of_neg (by decide +kernel)]
    exact checkPrefixes_of_plain fun a ha => hplain a (List.mem_of_mem_filter ha)
  · rw [show prefixOf "pattern" = none by decide +kernel]
    intro p hp
    cases hp

theorem rereadNodes_of_isHead {heads : List Element} (h : ∀ x ∈ heads, IsHead x) :
    rereadNodes packageBound (unifyNodes (heads.map Element.toNode)) =
      .ok (heads.map fun h => h.tidied.toNode) := by
  induction heads with
  | nil => rfl
  | cons head heads ih =>
    rw [List.forall_mem_cons] at h
    rw [List.map_cons, unifyNodes, rereadNodes_cons, h.1.reread _ (extends_refl _), ih h.2]
    rfl

/-- **What a package is read as.** -/
theorem read_package (hd : d.IsRead) {tree : Element} (h : d.packageTree.1 = .ok tree) :
    ∃ heads, Becomes d.packaged heads ∧ Markup.read (writeDocument tree) =
      .ok ⟨"pattern", ⟨(declaration, patternNamespace) :: d.rootFields.map tidyAttr⟩,
        heads.map fun h => h.tidied.toNode⟩ := by
  obtain ⟨heads, hheads, rfl⟩ := packageTree_eq_ok h
  refine ⟨heads, hheads, ?_⟩
  have hishead : ∀ h ∈ heads, IsHead h := by
    intro h hh
    obtain ⟨x, hx, heq⟩ := exists_of_mem_right hheads hh
    obtain ⟨k, -, hmem⟩ := List.mem_flatMap.1 hx
    exact isHead_of_toElement (hd.definitions k x hmem) heq
  have hplain : ∀ a ∈ d.rootFields.map tidyAttr, PlainAttr a :=
    forall_plain_map (f := tidyAttr) (fun _ => by rw [tidyAttr]) fun a ha => (hd.rootFields_ok a ha).1
  have hok : (d.packageRoot.append (heads.map Element.toNode)).Ok := by
    refine ⟨isQName_sound (show isQName "pattern" by decide +kernel), ?_, ?_⟩
    · show ∀ a ∈ d.packageRoot.attrs.entries, AttrOk a
      rw [hd.entries_packageRoot, List.forall_mem_cons]
      exact ⟨attrOk_declaration, fun a ha => (hd.rootFields_ok a ha).2⟩
    · exact nodesOk_of_forall (List.forall_mem_map.2 fun h hh => ⟨(hishead h hh).ok, rfl⟩)
  rw [read_writeDocument hok, ← read_write hok]
  refine (read_write_eq_ok hok).2 ⟨packageBound, _, hd.readsTag_packageRoot, rereadNodes_of_isHead hishead, ?_⟩
  show _ = Element.mk "pattern" ⟨sortAttrs (d.packageRoot.attrs.entries.map tidyAttr)⟩ _
  rw [hd.entries_packageRoot, List.map_cons, tidyAttr_declaration, sortAttrs_cons_of_plain (by decide +kernel) hplain]

/-! ## Packaging -/

/-- The document that is packaged: it has an identifier and a version. -/
def stamp (d : Document) (n : Nat) : Document := (d.withUniqueId.run n).1.withVersion

theorem package_run (d : Document) (n : Nat) :
    (package false d).run n =
      (((stamp d n).packageTree.1.map writeDocument, (stamp d n).packageTree.2),
        (d.withUniqueId.run n).2) := rfl

/-- What packaging gives is the text of a tree. -/
theorem package_eq_ok {left : Document} {n n' : Nat} {text : String}
    (h : (package false d).run n = ((.ok text, left), n')) :
    ∃ tree, (stamp d n).packageTree.1 = .ok tree ∧ text = writeDocument tree := by
  rw [package_run, Prod.mk.injEq, Prod.mk.injEq] at h
  obtain ⟨tree, htree, heq⟩ := map_eq_ok.1 h.1.1
  exact ⟨tree, htree, heq.symm⟩

theorem stamp_eq (d : Document) (n : Nat) : ∃ id, (id = d.uniqueId ∨ id = some (identifier (n + 1))) ∧
    stamp d n = { d with uniqueId := id, version := d.version <|> some Version.first } := by
  by_cases hid : (d.uniqueId.getD "").isEmpty
  · refine ⟨some (identifier (n + 1)), .inr rfl, ?_⟩
    rw [stamp, Document.withUniqueId, if_pos hid]
    rfl
  · refine ⟨d.uniqueId, .inl rfl, ?_⟩
    rw [stamp, Document.withUniqueId, if_neg hid]
    rfl

theorem listed_stamp (d : Document) (n : Nat) (k : Kind) : (stamp d n).listed k = d.listed k := by
  obtain ⟨id, -, heq⟩ := stamp_eq d n
  rw [heq]
  cases k <;> rfl

theorem readVersion_first : readVersion "1.0" = .ok Version.first := by decide +kernel

theorem Document.IsRead.stamp (hd : d.IsRead) (n : Nat) : (stamp d n).IsRead := by
  obtain ⟨id, hid, heq⟩ := stamp_eq d n
  have hlisted := listed_stamp d n
  rw [heq] at hlisted ⊢
  refine ⟨hd.namespaceUri, hd.name, ?_, ?_, fun k => ?_, fun k hk => ?_⟩
  · rcases hid with rfl | rfl
    · exact hd.uniqueId
    · rintro _ ⟨⟩
      exact clean_identifier (n + 1)
  · show ∀ v ∈ (d.version <|> some Version.first), _
    cases hv : d.version with
    | none =>
      rintro _ ⟨⟩
      exact ⟨_, readVersion_first⟩
    | some v =>
      rintro _ ⟨⟩
      exact hd.version v hv
  · rw [hlisted]
    exact hd.definitions k
  · rw [names, hlisted]
    exact hd.unique k hk

end Stitchwork.Pattern
