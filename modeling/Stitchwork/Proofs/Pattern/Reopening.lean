/- # Stitchwork.Proofs.Pattern.Reopening — packages that are read again.

A package holds each definition once at the top.  Definitions are found at any depth, however, and what a document
stores may hold definitions, too, and includes: these are read a second time with the package.  Names come back
tidy, and a version comes back unless there is a combining dot in its spelling.  So a package is read again, with
the same definitions, exactly if nothing of this is in the way.
-/
import Stitchwork.Proofs.Pattern.Includes
import Stitchwork.Proofs.Pattern.Packages

namespace Stitchwork.Pattern

open Stitchwork.Markup

variable {x : Definition} {h : Element} {head : Document} {sources : Sources}

/-! ## The elements of a package -/

theorem descendants_map_toNode (tag : String) (es : List Element) :
    descendants tag (es.map Element.toNode) = es.flatMap fun e => selfAndDescendants tag e.toNode := by
  induction es with
  | nil => rfl
  | cons e es ih => rw [List.map_cons, descendants, ih, List.flatMap_cons]

/-- An element with the tag is found before what is below it. -/
theorem selfAndDescendants_toNode (tag : String) (e : Element) :
    selfAndDescendants tag e.toNode = (if e.name = tag then [e] else []) ++ descendants tag e.children := by
  rw [Element.toNode, selfAndDescendants]
  by_cases h : e.name = tag
  · rw [if_pos (by simpa using h), if_pos h]
    rfl
  · rw [if_neg (by simpa using h), if_neg h]
    rfl

theorem attr?_tidied (e : Element) (k : String) : e.tidied.attr? k = (e.attr? k).map tidy :=
  Table.valueIn?_map tidy k e.attrs.entries

theorem attr_tidied_of_attr? {e : Element} {k v : String} (h : e.attr? k = some v) : e.tidied.attr k = tidy v := by
  show (e.tidied.attr? k).getD "" = _
  rw [attr?_tidied, h]
  rfl

theorem name_of_toElement (hh : x.toElement.1 = .ok h) : h.name = x.kind.tag := by
  obtain ⟨fields, ms, -, -, rfl⟩ := toElement_eq_ok hh
  rfl

/-- The attributes of the element that a definition becomes are its fields. -/
theorem entries_of_toElement (hx : x.IsRead) (hh : x.toElement.1 = .ok h) : x.fields = .ok h.attrs.entries := by
  obtain ⟨fields, ms, hfields, -, rfl⟩ := toElement_eq_ok hh
  rw [hfields, Table.entries_ofList_of_nodup (fieldsOk_of_isRead hx hfields).nodup]

theorem attr?_name_of_toElement (hx : x.IsRead) (hk : x.kind ≠ .metadata) (hh : x.toElement.1 = .ok h) :
    h.attr? "name" = some x.name := by
  have hentries := entries_of_toElement hx hh
  show Table.valueIn? "name" h.attrs.entries = _
  cases x with
  | metadata m => exact absurd rfl hk
  | action a =>
    obtain ⟨params, -, heq⟩ := map_eq_ok.1 hentries
    rw [← heq]
    rfl
  | block b =>
    obtain ⟨params, -, heq⟩ := map_eq_ok.1 hentries
    rw [← heq]
    rfl
  | _ =>
    rw [← Except.ok.inj hentries]
    rfl

theorem tag_injective {j k : Kind} (h : j.tag = k.tag) : j = k := by
  have hall : ∀ j ∈ Kind.all, ∀ k ∈ Kind.all, j.tag = k.tag → j = k := by decide +kernel
  exact hall j j.mem_all k k.mem_all h

/-! ## What is hidden in stored texts -/

/-- The text is that of an element that has the tag or holds an element with the tag. -/
def Hides (tag s : String) : Prop := ∃ e, restore s = .ok e ∧ selfAndDescendants tag e.toNode ≠ []

instance (tag s : String) : Decidable (Hides tag s) :=
  match h : restore s with
  | .ok e => decidable_of_iff (selfAndDescendants tag e.toNode ≠ []) (by simp [Hides, h])
  | .error f => isFalse (by simp [Hides, h])

theorem selfAndDescendants_restored (x : Definition) (tag : String) (e : Element) :
    selfAndDescendants tag (x.restored e).toNode = [] ↔ selfAndDescendants tag e.toNode = [] := by
  have hsame : (x.restored e).name = e.name ∧ (x.restored e).children = e.children := by
    cases x <;> exact ⟨rfl, rfl⟩
  rw [selfAndDescendants_toNode, selfAndDescendants_toNode, hsame.1, hsame.2]
  split <;> simp

theorem forall_not_hides_iff {ss : List String} {ms : List Element}
    (h : List.Forall₂ (fun s e => Markup.read s = .ok e) ss ms) (tag : String) :
    (∀ s ∈ ss, ¬Hides tag s) ↔ ∀ m ∈ ms, selfAndDescendants tag m.toNode = [] := by
  induction h with
  | nil => simp
  | @cons s m ss ms hm _ ih =>
    have hhides : ¬Hides tag s ↔ selfAndDescendants tag m.toNode = [] := by
      have hrestore : restore s = .ok m := mapError_eq_ok.2 hm
      simp [Hides, hrestore]
    rw [List.forall_mem_cons, List.forall_mem_cons, ih, hhides]

/-- Below the element that a definition becomes stands what its texts hide. -/
theorem descendants_eq_nil_iff (hh : x.toElement.1 = .ok h) (tag : String) :
    descendants tag h.children = [] ↔ ∀ s ∈ x.stored, ¬Hides tag s := by
  obtain ⟨fields, ms, -, hms, rfl⟩ := toElement_eq_ok hh
  have hmap : (ms.map fun m => (x.restored m).toNode) = (ms.map x.restored).map Element.toNode := by
    rw [List.map_map]
    rfl
  show descendants tag (ms.map fun m => (x.restored m).toNode) = [] ↔ _
  rw [hmap, descendants_map_toNode, List.flatMap_eq_nil_iff, List.forall_mem_map,
    forall_not_hides_iff (restoreAll_eq_ok.1 hms)]
  simp only [selfAndDescendants_restored]

/-! ## Names -/

theorem kind_of_mem_listed {d : Document} {k : Kind} (h : x ∈ d.listed k) : x.kind = k := by
  cases k <;> (obtain ⟨a, -, rfl⟩ := List.mem_map.1 h; rfl)

/-- The name of a definition if it is of the kind. -/
def nameAs (k : Kind) (nameOf : Definition → String) (x : Definition) : List String :=
  if x.kind = k then [nameOf x] else []

theorem length_nameAs (k : Kind) (nameOf : Definition → String) (x : Definition) :
    (nameAs k nameOf x).length = if x.kind = k then 1 else 0 := by
  unfold nameAs
  split <;> simp

theorem flatMap_listed (d : Document) (j k : Kind) (nameOf : Definition → String) :
    (d.listed j).flatMap (nameAs k nameOf) = if j = k then (d.listed k).map nameOf else [] := by
  by_cases h : j = k
  · subst h
    rw [if_pos rfl, List.map_eq_flatMap]
    exact List.flatMap_congr fun x hx => if_pos (kind_of_mem_listed hx)
  · rw [if_neg h, List.flatMap_eq_nil_iff]
    intro x hx
    exact if_neg fun hkind => h ((kind_of_mem_listed hx).symm.trans hkind)

theorem flatMap_packaged (d : Document) (k : Kind) (nameOf : Definition → String) :
    d.packaged.flatMap (nameAs k nameOf) = (d.listed k).map nameOf := by
  rw [Document.packaged, List.flatMap_assoc]
  simp only [flatMap_listed]
  cases k <;> simp [packageOrder]

section

variable {xs : List Definition} {heads : List Element} {k : Kind}

/-- The names that reading a package finds: of each definition its own tidy name, and those below it. -/
def foundNames (k : Kind) (heads : List Element) : List String :=
  (descendants k.tag (heads.map fun h => h.tidied.toNode)).map (·.attr "name")

theorem foundNames_cons (hx : x.IsRead) (hk : k ≠ .metadata) (hh : x.toElement.1 = .ok h) : foundNames k (h :: heads) =
      nameAs k (fun x => tidy x.name) x ++ ((descendants k.tag h.children).map (·.attr "name") ++ foundNames k heads) := by
  have hself : ((if h.tidied.name = k.tag then [h.tidied] else []).map (·.attr "name")) =
      nameAs k (fun x => tidy x.name) x := by
    show ((if h.name = k.tag then [h.tidied] else []).map (·.attr "name")) = _
    rw [name_of_toElement hh, nameAs]
    by_cases hkind : x.kind = k
    · have hname := attr?_name_of_toElement hx (hkind ▸ hk) hh
      rw [if_pos (congrArg Kind.tag hkind), if_pos hkind, List.map_singleton, attr_tidied_of_attr? hname]
    · rw [if_neg fun htag => hkind (tag_injective htag), if_neg hkind, List.map_nil]
  rw [foundNames, foundNames, List.map_cons, descendants, selfAndDescendants_toNode, List.map_append, List.map_append,
    hself, List.append_assoc]
  rfl

theorem length_le_length_foundNames (h : Becomes xs heads) (hxs : ∀ x ∈ xs, x.IsRead) (hk : k ≠ .metadata) :
    (xs.flatMap (nameAs k Definition.name)).length ≤ (foundNames k heads).length := by
  induction h with
  | nil => exact Nat.zero_le _
  | cons hh _ ih =>
    rw [List.forall_mem_cons] at hxs
    have hrest := ih hxs.2
    rw [foundNames_cons hxs.1 hk hh, List.flatMap_cons, List.length_append, List.length_append, List.length_append,
      length_nameAs, length_nameAs]
    omega

/-- Reading a package finds the names of the definitions exactly if no definition is hidden and the names are
tidy. -/
theorem foundNames_eq_iff (h : Becomes xs heads) (hxs : ∀ x ∈ xs, x.IsRead) (hk : k ≠ .metadata) :
    foundNames k heads = xs.flatMap (nameAs k Definition.name) ↔
      (∀ h ∈ heads, descendants k.tag h.children = []) ∧ ∀ x ∈ xs, x.kind = k → tidy x.name = x.name := by
  induction h with
  | nil => exact ⟨fun _ => ⟨nofun, nofun⟩, fun _ => rfl⟩
  | @cons x h xs heads hh hrest ih =>
    rw [List.forall_mem_cons] at hxs
    have hlength := length_le_length_foundNames hrest hxs.2 hk
    rw [foundNames_cons hxs.1 hk hh, List.flatMap_cons, List.forall_mem_cons, List.forall_mem_cons]
    constructor
    · intro heq
      -- Nothing can be hidden below the first definition, since the others find enough names by themselves.
      have hparts : nameAs k (fun x => tidy x.name) x = nameAs k Definition.name x ∧
          (descendants k.tag h.children).map (·.attr "name") ++ foundNames k heads =
            xs.flatMap (nameAs k Definition.name) := by
        refine List.append_inj heq ?_
        rw [length_nameAs, length_nameAs]
      have hnone : descendants k.tag h.children = [] := by
        have htotal := congrArg List.length hparts.2
        rw [List.length_append, List.length_map] at htotal
        exact List.length_eq_zero_iff.1 (by omega)
      rw [hnone, List.map_nil, List.nil_append] at hparts
      obtain ⟨hheads, hnames⟩ := (ih hxs.2).1 hparts.2
      refine ⟨⟨hnone, hheads⟩, fun hkind => ?_, hnames⟩
      have hfirst := hparts.1
      rw [nameAs, nameAs, if_pos hkind, if_pos hkind, List.cons.injEq] at hfirst
      exact hfirst.1
    · rintro ⟨⟨hnone, hheads⟩, hname, hnames⟩
      have hfirst : nameAs k (fun x => tidy x.name) x = nameAs k Definition.name x := by
        rw [nameAs, nameAs]
        split
        · next hkind => rw [hname hkind]
        · rfl
      rw [hnone, List.map_nil, List.nil_append, hfirst, (ih hxs.2).2 ⟨hheads, hnames⟩]

end

/-! ## Definitions that are read again -/

/-- What stands below the element that a definition becomes is, but for attributes, what was stored. -/
theorem outlineNodes_of_toElement {f : Element → Element} {es : List Element} (hstores : x.Stores f es)
    (hh : x.toElement.1 = .ok h) : outlineNodes noAttr h.children = outlineNodes noAttr (es.map Element.toNode) := by
  obtain ⟨fields, ms, -, hms, rfl⟩ := toElement_eq_ok hh
  rw [hstores.stored] at hms
  exact (hstores.restores.all hstores.ok hms).2

theorem metadataOk_of_toElement (hx : x.IsRead) (hh : x.toElement.1 = .ok h) : MetadataOk h.children := by
  obtain ⟨f, es, hstores⟩ := hx.stores
  exact (metadataOk_congr (outlineNodes_of_toElement hstores hh)).2 hstores.metadata

/-- Without a file and a size, the data of an image is that of the element. -/
theorem Image.ofElement_of_data {dir : String} {e : Element} (hsize : e.attr? "size" = none)
    (huri : e.attr? "uri" = none) :
    Image.ofElement sources dir e = (decodeData (e.attr "data")).map fun bs => ⟨e.attr "name", .bytes bs⟩ := by
  have hdefault : sizeOf e = .ok defaultSize := by rw [sizeOf, hsize]
  simp only [ofElement, hdefault, huri]
  cases decodeData (e.attr "data") with
  | error f => rfl
  | ok bs => rfl

/-- A definition with a tidy name can be read from the element that it became. -/
theorem readable_tidied {dir : String} (hx : x.IsRead) (hh : x.toElement.1 = .ok h)
    (hname : x.kind ≠ .metadata → tidy x.name = x.name) : Readable sources dir x.kind h.tidied := by
  obtain ⟨f, es, hstores⟩ := hx.stores
  have houtline := outlineNodes_of_toElement hstores hh
  have hallowed := hstores.allowed
  cases x with
  | action a => trivial
  | config c => trivial
  | value v => trivial
  | block b => exact (prune_congr houtline).2 hallowed
  | component c => exact (prune_congr houtline).2 hallowed
  | metadata m => exact (pruneMetadata_congr houtline).2 hallowed
  | chart c =>
    refine ⟨?_, (prune_congr houtline).2 hallowed⟩
    have hattr := attr?_name_of_toElement hx nofun hh
    rw [attr_tidied_of_attr? hattr, hname nofun]
    obtain ⟨e, e', -, hread⟩ := hx
    obtain ⟨hcolon, kept, -, heq⟩ := Chart.ofElement_eq_ok.1 hread
    cases heq
    exact hcolon
  | color c =>
    obtain ⟨e, he, hread⟩ := hx
    obtain ⟨v, hv, rfl⟩ := Color.ofElement_eq_ok.1 hread
    cases hh
    obtain ⟨w, hw, -⟩ := normalColor_tidy hv
    refine ⟨w, ?_⟩
    rw [attr_tidied_of_attr? (v := v) rfl]
    exact hw
  | image i =>
    cases hh
    have hdata : (Image.toElement i).tidied.attr "data" = tidy i.data.text := attr_tidied_of_attr? rfl
    refine ⟨⟨(Image.toElement i).tidied.attr "name", .bytes i.data.toBytes⟩, ?_⟩
    rw [Image.ofElement_of_data rfl rfl, hdata, decodeData_tidy]
    rfl

theorem pruneMetadata_of_toElement (hx : x.IsRead) (hk : x.kind = .metadata) (hh : x.toElement.1 = .ok h) :
    ∃ kept, pruneMetadata h.children = .ok kept := by
  obtain ⟨f, es, hstores⟩ := hx.stores
  have hallowed := hstores.allowed
  rw [hk] at hallowed
  exact (pruneMetadata_congr (outlineNodes_of_toElement hstores hh)).2 hallowed

/-- The metadata of a package, at any depth, can be read. -/
theorem metadataOk_package {xs : List Definition} {heads : List Element} (h : Becomes xs heads)
    (hxs : ∀ x ∈ xs, x.IsRead) : MetadataOk (heads.map fun h => h.tidied.toNode) := by
  induction h with
  | nil => exact nofun
  | @cons x h xs heads hh _ ih =>
    rw [List.forall_mem_cons] at hxs
    intro m hm
    rw [List.map_cons, descendants, selfAndDescendants_toNode, List.append_assoc, List.mem_append, List.mem_append] at hm
    rcases hm with hm | hm | hm
    · split at hm
      · next htag =>
        rw [List.mem_singleton.1 hm]
        show ∃ kept, pruneMetadata h.children = .ok kept
        exact pruneMetadata_of_toElement hxs.1 (tag_injective ((name_of_toElement hh).symm.trans htag)) hh
      · cases hm
    · exact metadataOk_of_toElement hxs.1 hh m hm
    · exact ih hxs.2 m hm

/-! ## The root -/

/-- The root that a package has when it is read. -/
def reopenedRoot (d : Document) (heads : List Element) : Element :=
  ⟨"pattern", ⟨(declaration, patternNamespace) :: d.rootFields.map tidyAttr⟩, heads.map fun h => h.tidied.toNode⟩

theorem checkRoot_reopenedRoot (d : Document) (heads : List Element) : checkRoot (reopenedRoot d heads) = .ok () := rfl

theorem attr?_reopenedRoot (d : Document) (heads : List Element) {k : String} (hk : k ≠ declaration) :
    (reopenedRoot d heads).attr? k = (Table.valueIn? k d.rootFields).map tidy := by
  show Table.valueIn? k ((declaration, patternNamespace) :: d.rootFields.map tidyAttr) = _
  rw [Table.valueIn?, if_neg hk.symm]
  exact Table.valueIn?_map tidy k d.rootFields

theorem not_mem_of_readVersion {s : String} {v : Version} (h : readVersion s = .ok v) : Version.dotAbove ∉ s.toList :=
  (Version.parse?_inv (readVersion_eq_ok h).1).1

theorem mapM_some_eq_ok {α β ε : Type} {f : α → Except ε β} {a : α} {r : Option β} :
    (some a).mapM f = .ok r ↔ ∃ b, f a = .ok b ∧ r = some b := by
  show (f a >>= fun b => .ok (some b)) = .ok r ↔ _
  rw [bind_eq_ok]
  simp only [Except.ok.injEq, eq_comm]

/-- The version of the format, read. -/
def formatNumber : Version := ⟨0, [1, 6], none, none, none, []⟩

theorem readVersion_formatVersion : readVersion (tidy formatVersion) = .ok formatNumber := by decide +kernel

/-- What the root of a package says, when it is read. -/
def reopenedHead (d : Document) : Document :=
  { Document.empty.setName (tidy d.name) with
    version := d.version
    specVersion := some formatNumber
    pkgVersion := some (tidy packagerVersion)
    uniqueId := some (tidy (d.uniqueId.getD ""))
    namespaceUri := some patternNamespace }

section

variable {d : Document} {v : Version} (hd : d.IsRead) (hv : d.version = some v)

include hd hv

theorem attr?_version_reopenedRoot (heads : List Element) :
    (reopenedRoot d heads).attr? "version" = some v.text := by
  obtain ⟨s, hs⟩ := hd.version v hv
  have htidy : tidy v.text = v.text := tidy_of_le fun c hc => (toNat_of_mem_text hs hc).1
  rw [attr?_reopenedRoot d heads (by decide)]
  simp [Document.rootFields, Table.valueIn?, hv, htidy]

theorem readRoot_reopenedRoot (hdot : Version.dotAbove ∉ v.text.toList) (heads : List Element) :
    readRoot (reopenedRoot d heads) = .ok (reopenedHead d) := by
  obtain ⟨s, hs⟩ := hd.version v hv
  have hattr : ∀ {k w}, k ≠ declaration → Table.valueIn? k d.rootFields = some w →
      (reopenedRoot d heads).attr? k = some (tidy w) := by
    intro k w hk hw
    rw [attr?_reopenedRoot d heads hk, hw]
    rfl
  have hversion : ((reopenedRoot d heads).attr? "version").mapM readVersion = .ok d.version := by
    rw [attr?_version_reopenedRoot hd hv heads, hv, mapM_some_eq_ok]
    exact ⟨v, (readVersion_text hs).2 hdot, rfl⟩
  have hspec : ((reopenedRoot d heads).attr? "spec_version").mapM readVersion = .ok (some formatNumber) := by
    rw [hattr (by decide) (show _ = some formatVersion from rfl), mapM_some_eq_ok]
    exact ⟨_, readVersion_formatVersion, rfl⟩
  have hname : (reopenedRoot d heads).attr "name" = tidy d.name := by
    show ((reopenedRoot d heads).attr? "name").getD "" = _
    rw [hattr (by decide) (show _ = some d.name from rfl)]
    rfl
  have hpackager : (reopenedRoot d heads).attr? "pkg_version" = some (tidy packagerVersion) := hattr (by decide) rfl
  have hid : (reopenedRoot d heads).attr? "unique_id" = some (tidy (d.uniqueId.getD "")) := hattr (by decide) rfl
  rw [readRoot, hversion, hspec, hname, hpackager, hid]
  rfl

/-- A combining dot in the version cannot be read. -/
theorem not_mem_of_readRoot {heads : List Element} (h : readRoot (reopenedRoot d heads) = .ok head) :
    Version.dotAbove ∉ v.text.toList := by
  obtain ⟨version, hread, -⟩ := bind_eq_ok.1 h
  rw [attr?_version_reopenedRoot hd hv heads] at hread
  obtain ⟨w, hw, -⟩ := mapM_some_eq_ok.1 hread
  exact not_mem_of_readVersion hw

end

/-! ## Reading a package -/

/-- The texts that a document stores, in the order in which a package has them. -/
def Document.stored (d : Document) : List String := d.packaged.flatMap Definition.stored

/-- Nothing in the document is in the way when its package is read: no stored text hides an include or a
definition, names are tidy, and the version can be read. -/
structure Document.Reopens (d : Document) : Prop where
  included : ∀ s ∈ d.stored, ¬Hides includeTag s
  defined : ∀ k : Kind, k ≠ .metadata → ∀ s ∈ d.stored, ¬Hides k.tag s
  names : ∀ k : Kind, k ≠ .metadata → ∀ name ∈ d.names k, tidy name = name
  version : ∀ v ∈ d.version, Version.dotAbove ∉ v.text.toList

theorem Document.reopens_iff (d : Document) : d.Reopens ↔
    (∀ s ∈ d.stored, ¬Hides includeTag s) ∧
    (∀ k ∈ Kind.all, k ≠ .metadata → ∀ s ∈ d.stored, ¬Hides k.tag s) ∧
    (∀ k ∈ Kind.all, k ≠ .metadata → ∀ name ∈ d.names k, tidy name = name) ∧
    ∀ v ∈ d.version, Version.dotAbove ∉ v.text.toList := by
  constructor
  · exact fun h => ⟨h.included, fun k _ => h.defined k, fun k _ => h.names k, h.version⟩
  · exact fun ⟨hincluded, hdefined, hnames, hversion⟩ =>
      ⟨hincluded, fun k => hdefined k k.mem_all, fun k => hnames k k.mem_all, hversion⟩

instance (d : Document) : Decidable d.Reopens := decidable_of_iff' _ d.reopens_iff

section

variable {xs : List Definition} {heads : List Element}

theorem forall_descendants_iff (h : Becomes xs heads) (tag : String) :
    (∀ h ∈ heads, descendants tag h.children = []) ↔ ∀ s ∈ xs.flatMap Definition.stored, ¬Hides tag s := by
  induction h with
  | nil => simp
  | cons hh _ ih =>
    rw [List.flatMap_cons, List.forall_mem_append, List.forall_mem_cons, ih, descendants_eq_nil_iff hh]

/-- A package includes only what its texts hide. -/
theorem includesIn_reopenedRoot (h : Becomes xs heads) (d : Document) :
    includesIn (reopenedRoot d heads) = [] ↔ ∀ s ∈ xs.flatMap Definition.stored, ¬Hides includeTag s := by
  have htags : ∀ k : Kind, k ∈ Kind.all → k.tag ≠ includeTag := by decide +kernel
  have hmap : (heads.map fun h => h.tidied.toNode) = (heads.map Element.tidied).map Element.toNode := by
    rw [List.map_map]
    rfl
  rw [← forall_descendants_iff h]
  show descendants includeTag (heads.map fun h => h.tidied.toNode) = [] ↔ _
  rw [hmap, descendants_map_toNode, List.flatMap_eq_nil_iff, List.forall_mem_map]
  refine forall_congr' fun e => forall_congr' fun he => ?_
  obtain ⟨x, -, hx⟩ := exists_of_mem_right h he
  have hname : e.tidied.name ≠ includeTag := (name_of_toElement hx).trans_ne (htags x.kind x.kind.mem_all)
  rw [selfAndDescendants_toNode, if_neg hname]
  exact Iff.rfl

theorem map_name_definers (d : Document) (k : Kind) :
    (definers (reopenedRoot d heads) k).map (·.attr "name") = foundNames k heads := by
  rw [definers, outline, descendants_outlineNodes, List.map_map]
  exact List.map_congr_left fun e _ => attr_outline e (by decide)

/-- The elements that define things of a kind in a package are those that the definitions of the kind became, unless
a definition is hidden. -/
theorem mem_definers {d : Document} {k : Kind} (hnone : ∀ h ∈ heads, descendants k.tag h.children = []) {o : Element}
    (ho : o ∈ definers (reopenedRoot d heads) k) : ∃ h ∈ heads, h.name = k.tag ∧ o = outline isKept h.tidied := by
  have hmap : (heads.map fun h => h.tidied.toNode) = (heads.map Element.tidied).map Element.toNode := by
    rw [List.map_map]
    rfl
  rw [definers, outline, descendants_outlineNodes] at ho
  obtain ⟨e, he, rfl⟩ := List.mem_map.1 ho
  change e ∈ descendants k.tag (heads.map fun h => h.tidied.toNode) at he
  rw [hmap, descendants_map_toNode, List.mem_flatMap] at he
  obtain ⟨t, ht, he⟩ := he
  obtain ⟨h, hh, rfl⟩ := List.mem_map.1 ht
  have hchildren : descendants k.tag h.tidied.children = [] := hnone h hh
  rw [selfAndDescendants_toNode, hchildren, List.append_nil] at he
  split at he
  · next hname =>
    rw [List.mem_singleton.1 he]
    exact ⟨h, hh, hname, rfl⟩
  · cases he

end

section

variable {sources : Sources} {main : String} {place : List String} {root : Element}

/-- Where the root includes nothing, only its own definitions are read. -/
theorem readPattern_of_alone (hplace : Files.normal? sources.files.home main = some place)
    (hmain : readMain sources.files place = .ok root) (hcheck : checkRoot root = .ok ())
    (hhead : readRoot root = .ok head) (hnone : includesIn root = []) :
    readPattern sources main = readKinds sources (dirOf place) (includedKinds ++ [.component]) head root := by
  have hincludes : readIncludes sources (sources.files.entries.length + 1) (dirOf place) head root = pure head := by
    rw [readIncludes_succ, hnone]
    rfl
  rw [readPattern, hplace]
  show (liftExcept (readMain sources.files place) >>= _) = _
  rw [hmain]
  show (liftExcept (checkRoot root) >>= fun _ => liftExcept (readRoot root) >>= _) = _
  rw [hcheck, hhead]
  show (readIncludes sources (sources.files.entries.length + 1) (dirOf place) head root >>= _) = _
  rw [hincludes, pure_bind]
  rfl

/-- The steps of reading a pattern. -/
theorem readPattern_eq_ok {n n' : Nat} {d : Document} (h : (readPattern sources main).run.run n = (.ok d, n'))
    (hplace : Files.normal? sources.files.home main = some place) :
    ∃ root head d₀ m, readMain sources.files place = .ok root ∧ readRoot root = .ok head ∧
      (readIncludes sources (sources.files.entries.length + 1) (dirOf place) head root).run.run n = (.ok d₀, m) ∧
      (readKinds sources (dirOf place) (includedKinds ++ [.component]) d₀ root).run.run m = (.ok d, n') := by
  rw [readPattern, hplace] at h
  obtain ⟨root, m₁, hroot, hrest₁⟩ := run_bind_eq_ok h
  obtain ⟨_, m₂, hcheck, hrest₂⟩ := run_bind_eq_ok hrest₁
  obtain ⟨head, m₃, hhead, hrest₃⟩ := run_bind_eq_ok hrest₂
  obtain ⟨d₀, m, hincludes, hkinds⟩ := run_bind_eq_ok hrest₃
  obtain ⟨hroot, hm₁⟩ := run_liftExcept_eq_ok hroot
  obtain ⟨-, hm₂⟩ := run_liftExcept_eq_ok hcheck
  obtain ⟨hhead, hm₃⟩ := run_liftExcept_eq_ok hhead
  rw [hm₃, hm₂, hm₁] at hincludes
  exact ⟨root, head, d₀, m, hroot, hhead, hincludes, hkinds⟩

end

theorem normal?_oneFile (text : String) : Files.normal? (oneFile "p" text).files.home "p" = some ["p"] := by
  show Files.normal? [] "p" = some ["p"]
  decide +kernel

/-- The only file there is cannot include anything: it could only include itself. -/
theorem ensures_readIncludes_oneFile {text : String} {root : Element} (hroot : Markup.read text = .ok root)
    (hne : includesIn root ≠ []) (fuel : Nat) (dir : String) (d : Document) :
    Ensures (readIncludes (oneFile "p" text) fuel dir d root) fun _ => False := by
  have hself : rootAt? (oneFile "p" text).files ["p"] = some root := by
    show (Markup.read text).toOption = _
    rw [hroot]
    rfl
  induction fuel generalizing dir d with
  | zero => exact ensures_throw _
  | succ fuel ih =>
    rw [readIncludes_succ]
    obtain ⟨e, es, hes⟩ := List.exists_cons_of_ne_nil hne
    rw [hes, List.foldlM_cons]
    rcases readInclude_cases (oneFile "p" text) dir e with ⟨report, -, hreport⟩ | ⟨place, root', hplace, hroot', hread⟩
    · rw [hreport]
      exact ensures_bind (P := fun _ => False) (ensures_throw report) fun _ h => h.elim
    · have hplace' : place = ["p"] := List.mem_singleton.1 (Files.Tree.mem_of_uri? hplace)
      rw [hplace', hself, Option.some.injEq] at hroot'
      rw [hread, ← hroot', bind_assoc]
      exact ensures_bind (ih (dirOf place) d) fun _ h => h.elim

/-! ## Packages that are read again -/

section

variable {d : Document} {m : Nat} {heads : List Element}

/-- The version of a document that is packaged. -/
theorem version_stamp (d : Document) (m : Nat) : ∃ v, (stamp d m).version = some v ∧
    (Version.dotAbove ∉ v.text.toList ↔ ∀ v ∈ d.version, Version.dotAbove ∉ v.text.toList) := by
  obtain ⟨id, -, heq⟩ := stamp_eq d m
  rw [heq]
  cases hv : d.version with
  | none =>
    refine ⟨Version.first, rfl, fun _ => nofun, fun _ => ?_⟩
    decide +kernel
  | some v => exact ⟨v, rfl, by simp⟩

theorem packaged_stamp (d : Document) (m : Nat) : (stamp d m).packaged = d.packaged :=
  List.flatMap_congr fun k _ => listed_stamp d m k

theorem isRead_of_mem_packaged (hd : d.IsRead) (hx : x ∈ d.packaged) : x.IsRead := by
  obtain ⟨k, -, hmem⟩ := List.mem_flatMap.1 hx
  exact hd.definitions k x hmem

/-- The names that reading a package finds are those of the document exactly if none is hidden or untidy. -/
theorem foundNames_eq_names_iff (hd : d.IsRead) (h : Becomes d.packaged heads) {k : Kind} (hk : k ≠ .metadata) :
    foundNames k heads = d.names k ↔
      (∀ s ∈ d.stored, ¬Hides k.tag s) ∧ ∀ name ∈ d.names k, tidy name = name := by
  have hnames : d.names k = d.packaged.flatMap (nameAs k Definition.name) := (flatMap_packaged d k Definition.name).symm
  have htidy : (∀ name ∈ d.names k, tidy name = name) ↔ ∀ x ∈ d.packaged, x.kind = k → tidy x.name = x.name := by
    rw [hnames]
    simp only [nameAs, List.mem_flatMap, List.mem_ite_nil_right, List.mem_singleton]
    constructor
    · exact fun hall x hx hkind => hall _ ⟨x, hx, hkind, rfl⟩
    · rintro hall _ ⟨x, hx, hkind, rfl⟩
      exact hall x hx hkind
  rw [htidy, Document.stored, ← forall_descendants_iff h, hnames]
  exact foundNames_eq_iff h (fun x hx => isRead_of_mem_packaged hd hx) hk

/-- If nothing is in the way, the definitions of a package can be read. -/
theorem succeeds_readKinds_package {dir : String} {e : Document} (hd : d.IsRead) (h : Becomes d.packaged heads)
    (hopen : d.Reopens) (hhead : ∀ k, head.names k = []) :
    Succeeds (readKinds sources dir (includedKinds ++ [.component]) head (reopenedRoot e heads)) := by
  apply succeeds_readKinds (by decide)
  · intro k _ o ho
    by_cases hk : k = .metadata
    · subst hk
      rw [definers, outline, descendants_outlineNodes] at ho
      obtain ⟨t, ht, rfl⟩ := List.mem_map.1 ho
      exact readable_outline.2 (metadataOk_package h (fun x hx => isRead_of_mem_packaged hd hx) t ht)
    · obtain ⟨a, ha, hname, rfl⟩ := mem_definers ((forall_descendants_iff h k.tag).2 (hopen.defined k hk)) ho
      obtain ⟨x, hx, hxa⟩ := exists_of_mem_right h ha
      obtain rfl : x.kind = k := tag_injective ((name_of_toElement hxa).symm.trans hname)
      refine readable_outline.2 (readable_tidied (isRead_of_mem_packaged hd hx) hxa fun _ => ?_)
      obtain ⟨j, -, hmem⟩ := List.mem_flatMap.1 hx
      refine hopen.names x.kind hk x.name (List.mem_map_of_mem ?_)
      rwa [kind_of_mem_listed hmem]
  · intro k _ hunique
    have hk : k ≠ .metadata := by
      rintro rfl
      cases hunique
    have hfound := (foundNames_eq_names_iff hd h hk).2 ⟨hopen.defined k hk, hopen.names k hk⟩
    rw [map_name_definers, hhead, List.nil_append, hfound]
    exact hd.unique k hunique

end

/-- Two documents have definitions with the same names, kind by kind and in order. -/
def SameNames (d d' : Document) : Prop := ∀ k, k ≠ Kind.metadata → d'.names k = d.names k

/-- A text can be read as a pattern with the names of a document, wherever the file is that holds it. -/
def ReadsAs (text : String) (d : Document) : Prop :=
  ∀ sources main place content, Files.normal? sources.files.home main = some place →
    sources.files.read place = .ok content → content.toText = text →
    ∀ n, ∃ d' n', (readPattern sources main).run.run n = (.ok d', n') ∧ SameNames d d'

theorem readMain_of_read {files : Files.Tree} {place : List String} {content : Files.Content} {root : Element}
    (hread : files.read place = .ok content) (hroot : Markup.read content.toText = .ok root) :
    readMain files place = .ok root := by
  refine bind_eq_ok.2 ⟨content, ?_, ?_⟩
  · rw [hread]
    rfl
  · rw [hroot]
    rfl

theorem names_of_readRoot {root : Element} (h : readRoot root = .ok head) (k : Kind) : head.names k = [] := by
  have hlisted : head.listed k = [] := List.eq_nil_iff_forall_not_mem.2 fun x => not_mem_listed_of_readRoot h k x
  rw [Document.names, hlisted]
  rfl

section

variable {d : Document} {m : Nat} {heads : List Element} (hd : d.IsRead) (hheads : Becomes d.packaged heads)

include hd hheads

theorem readsAs_of_reopens {text : String} (htext : Markup.read text = .ok (reopenedRoot (stamp d m) heads))
    (hopen : d.Reopens) : ReadsAs text d := by
  intro sources main place content hplace hread hcontent n
  subst hcontent
  obtain ⟨v, hv, hdot⟩ := version_stamp d m
  have hhead := readRoot_reopenedRoot (hd.stamp m) hv (hdot.2 hopen.version) heads
  have hnames := names_of_readRoot hhead
  rw [readPattern_of_alone hplace (readMain_of_read hread htext) (checkRoot_reopenedRoot _ _) hhead
    ((includesIn_reopenedRoot hheads _).2 hopen.included)]
  obtain ⟨d', n', hrun⟩ := succeeds_readKinds_package hd hheads hopen hnames n
  refine ⟨d', n', hrun, fun k hk => ?_⟩
  have hkinds : ∀ k : Kind, k ∈ Kind.all → k ≠ .metadata → k ∈ includedKinds ++ [.component] := by decide +kernel
  have hfound := (ensures_readKinds_names (by decide) _ _ n d' n' hrun).1 k hk
  rw [hnames, List.nil_append, if_pos (hkinds k k.mem_all hk), map_name_definers] at hfound
  rw [hfound]
  exact (foundNames_eq_names_iff hd hheads hk).2 ⟨hopen.defined k hk, hopen.names k hk⟩

/-- It is enough to read the package where there is no other file. -/
theorem reopens_of_oneFile {text : String} (htext : Markup.read text = .ok (reopenedRoot (stamp d m) heads)) {n n' : Nat}
    {d' : Document} (hrun : (readPattern (oneFile "p" text) "p").run.run n = (.ok d', n')) (hsame : SameNames d d') :
    d.Reopens := by
  obtain ⟨root, head, d₀, n₀, hroot, hhead, hincludes, hkinds⟩ := readPattern_eq_ok hrun (normal?_oneFile text)
  have hread : (oneFile "p" text).files.read ["p"] = .ok (.text text) := rfl
  rw [readMain_of_read hread htext, Except.ok.injEq] at hroot
  subst hroot
  have hnone : includesIn (reopenedRoot (stamp d m) heads) = [] := by
    by_contra hne
    exact ensures_readIncludes_oneFile htext hne _ _ _ _ _ _ hincludes
  have hd₀ : d₀ = head := by
    rw [readIncludes_succ, hnone] at hincludes
    cases hincludes
    rfl
  have hfound : ∀ k : Kind, k ≠ .metadata → foundNames k heads = d.names k := by
    intro k hk
    have hall : ∀ k : Kind, k ∈ Kind.all → k ≠ .metadata → k ∈ includedKinds ++ [.component] := by decide +kernel
    have hnames := (ensures_readKinds_names (by decide) _ _ n₀ d' n' hkinds).1 k hk
    rw [hd₀, names_of_readRoot hhead, List.nil_append, if_pos (hall k k.mem_all hk), map_name_definers] at hnames
    rw [← hnames]
    exact hsame k hk
  obtain ⟨v, hv, hdot⟩ := version_stamp d m
  exact
    { included := (includesIn_reopenedRoot hheads _).1 hnone
      defined := fun k hk => ((foundNames_eq_names_iff hd hheads hk).1 (hfound k hk)).1
      names := fun k hk => ((foundNames_eq_names_iff hd hheads hk).1 (hfound k hk)).2
      version := hdot.1 (not_mem_of_readRoot (hd.stamp m) hv hhead) }

end

/-- A pattern with a component that has a colour beside it, or in it. -/
def colorPattern (inside : Bool) : String :=
  let color := "<opaf:define_color name=\"c\" value=\"red\"/>"
  let component := "<opaf:component name=\"a\">" ++ (if inside then color else "") ++ "</opaf:component>"
  "<pattern xmlns:opaf=\"u\" name=\"n\">" ++ component ++ (if inside then "" else color) ++ "</pattern>"

/-- The pattern is read and packaged, and has one colour; what its package is read as. -/
def ColorReopens (inside reopens : Bool) : Prop := ∃ d n' text left m',
  (readPattern (oneFile "p" (colorPattern inside)) "p").run.run 0 = (.ok d, n') ∧
  (package false d).run n' = ((.ok text, left), m') ∧ d.names .color = ["c"] ∧ (ReadsAs text d ↔ reopens)

end Stitchwork.Pattern
