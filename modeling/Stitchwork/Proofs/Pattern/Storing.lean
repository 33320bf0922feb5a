/- # Stitchwork.Proofs.Pattern.Storing — elements that come back from what is stored of them.

A definition stores an element as text, with the declaration of the prefix on it, and takes the declaration off when it
reads the text again.  A tree of elements whose names have the prefix of patterns or none, with attributes that have no
prefix and stand on one line, comes back as it was at every depth, with one exception: on the element itself, an
attribute with the name of the prefix gives way to the declaration and gets lost.
-/
import Stitchwork.Proofs.Pattern.Portable

namespace Stitchwork.Markup

/-! ## Names with and without a prefix -/

theorem isName_iff {name : List Char} :
    IsName name ↔ name.head?.any isNameStart = true ∧ name.all isNamePart = true := by
  rw [List.all_eq_true]
  constructor
  · rintro ⟨⟨c, s, rfl, hc⟩, hparts⟩
    exact ⟨hc, hparts⟩
  · rintro ⟨hstart, hparts⟩
    cases name with
    | nil => cases hstart
    | cons c s => exact ⟨⟨c, s, rfl, hstart⟩, hparts⟩

instance (name : List Char) : Decidable (IsName name) := decidable_of_iff' _ isName_iff

theorem prefixOf_of_isName {name : String} (h : IsName name.toList) : prefixOf name = none := by
  have hcolon : ':' ∉ name.toList := fun hmem => by cases (h.parts _ hmem).symm.trans isNamePart_colon
  rw [prefixOf, splitName, Text.cut_of_not_mem (show ":".toList = [':'] from rfl) hcolon]

theorem prefixOf_append {p l : String} (hp : IsName p.toList) (hl : IsName l.toList) :
    prefixOf (p ++ ":" ++ l) = some p := by
  have hcolon : ∀ s : String, IsName s.toList → ':' ∉ s.toList := fun s hs hmem => by
    cases (hs.parts _ hmem).symm.trans isNamePart_colon
  rw [prefixOf, splitName, Text.cut_append (show ":".toList = [':'] from rfl) (hcolon p hp),
    Text.cut_of_not_mem (show ":".toList = [':'] from rfl) (hcolon l hl)]

end Stitchwork.Markup

namespace Stitchwork.Pattern

open Stitchwork.Markup

/-- The name has the prefix of patterns or none. -/
def IsStorableName (name : String) : Prop :=
  IsName name.toList ∨ ∃ l : String, IsName l.toList ∧ name = patternPrefix ++ ":" ++ l

theorem isName_patternPrefix : IsName patternPrefix.toList := by decide +kernel

namespace IsStorableName

variable {name : String} (h : IsStorableName name)

include h

theorem isQName : IsQName name.toList := by
  rcases h with h | ⟨l, hl, rfl⟩
  · exact .plain h
  · rw [String.toList_append, String.toList_append, List.append_assoc]
    exact .prefixed isName_patternPrefix hl

theorem prefixOf_eq : prefixOf name = none ∨ prefixOf name = some patternPrefix := by
  rcases h with h | ⟨l, hl, rfl⟩
  · exact .inl (prefixOf_of_isName h)
  · exact .inr (prefixOf_append isName_patternPrefix hl)

end IsStorableName

/-! ## Trees that can be stored -/

/-- An attribute without a prefix that declares nothing, with a value on one line. -/
structure StorableAttr (a : String × String) : Prop where
  name : IsName a.1.toList
  declaresNothing : a.1 ≠ "xmlns"
  chars : ∀ c ∈ a.2.toList, isMarkupChar c
  oneLine : OneLine a.2

theorem StorableAttr.attrOk {a : String × String} (h : StorableAttr a) : AttrOk a := ⟨.plain h.name, h.chars⟩

theorem StorableAttr.plain {a : String × String} (h : StorableAttr a) : PlainAttr a := by
  have hprefix := prefixOf_of_isName h.name
  refine ⟨?_, hprefix⟩
  rw [declaredPrefix?, if_neg (by simpa using h.declaresNothing)]
  split
  · next p hsplit =>
    rw [prefixOf, hsplit] at hprefix
    cases hprefix
  · rfl

mutual

/-- The node is an element with a name that has the prefix of patterns or none and with attributes of different names that
can be stored, and so is everything below it. -/
def Storable : Node → Prop
  | .element name attrs children => IsStorableName name ∧ (attrs.entries.map (·.1)).Nodup ∧
      (∀ a ∈ attrs.entries, StorableAttr a) ∧ AllStorable children
  | _ => False

/-- All of the nodes can be stored. -/
def AllStorable : List Node → Prop
  | [] => True
  | n :: ns => Storable n ∧ AllStorable ns

end

/-- Has the name the prefix of patterns or none? -/
def patternTag (name : String) : Bool := (prefixOf name).all (· == patternPrefix)

mutual

/-- What can be stored can be written, and means the same everywhere. -/
theorem portable_of_storable (n : Node) (h : Storable n) : NodeOk n ∧ n.isText = false ∧ isPortable patternTag n := by
  cases n with
  | element name attrs children =>
    obtain ⟨hname, hnodup, hattrs, hchildren⟩ := h
    obtain ⟨hok, hportable⟩ := arePortable_of_allStorable children hchildren
    refine ⟨⟨hname.isQName, fun a ha => (hattrs a ha).attrOk, hok⟩, rfl, isPortable_element.2 ⟨?_, ?_, hportable⟩⟩
    · rw [patternTag]
      rcases hname.prefixOf_eq with hnone | hpattern
      · rw [hnone]
        rfl
      · rw [hpattern]
        rfl
    · exact ⟨hnodup, fun a ha => ⟨(hattrs a ha).plain, (hattrs a ha).oneLine⟩⟩
  | _ => cases h

theorem arePortable_of_allStorable (ns : List Node) (h : AllStorable ns) :
    NodesOk ns ∧ arePortable patternTag ns := by
  cases ns with
  | nil => exact ⟨trivial, rfl⟩
  | cons n ns =>
    obtain ⟨hok, htext, hportable⟩ := portable_of_storable n h.1
    obtain ⟨hoks, hportables⟩ := arePortable_of_allStorable ns h.2
    refine ⟨⟨hok, fun hcontra => ?_, hoks⟩, arePortable_cons.2 ⟨hportable, hportables⟩⟩
    rw [htext] at hcontra
    cases hcontra

end

/-- The prefix of patterns is bound where the declaration stands. -/
theorem bound_patternTag (name p : String) (hname : patternTag name) (hp : prefixOf name = some p) :
    (packageBound.lookup p).isSome := by
  rw [patternTag, hp] at hname
  obtain rfl : p = patternPrefix := beq_iff_eq.1 hname
  rfl

/-! ## Storing and restoring -/

/-- An element is left alone by taking an attribute off if and only if it does not have it. -/
theorem eraseAttr_eq_self_iff {e : Element} {k : String} : e.eraseAttr k = e ↔ e.hasAttr k = false := by
  obtain ⟨name, ⟨entries⟩, children⟩ := e
  have hhas : Element.hasAttr ⟨name, ⟨entries⟩, children⟩ k = false ↔ k ∉ entries.map (·.1) := by
    show (Table.valueIn? k entries).isSome = false ↔ _
    rw [Option.isSome_eq_false_iff, Option.isNone_iff_eq_none, Table.valueIn?_eq_none_iff]
  rw [hhas]
  constructor
  · intro h hmem
    obtain ⟨a, ha, rfl⟩ := List.mem_map.1 hmem
    have hentries : entries.filter (·.1 != a.1) = entries := congrArg (fun e => e.attrs.entries) h
    exact bne_iff_ne.1 (List.filter_eq_self.1 hentries a ha) rfl
  · intro h
    have hentries : entries.filter (·.1 != k) = entries :=
      List.filter_eq_self.2 fun a ha => bne_iff_ne.2 fun heq => h (heq ▸ List.mem_map_of_mem ha)
    show Element.mk name ⟨entries.filter (·.1 != k)⟩ children = _
    rw [hentries]

/-- **An element comes back from what is stored of it,** at every depth, if and only if it has no attribute with the name
of the prefix itself; such an attribute of the element, and nothing else, gets lost. -/
theorem stored_element_comes_back_iff {e : Element} (h : Storable e.toNode) :
    ∃ m, restore (declare e).write = .ok m ∧ m.eraseAttr declaration = e.eraseAttr patternPrefix ∧
      (m.eraseAttr declaration = e ↔ e.hasAttr patternPrefix = false) := by
  obtain ⟨hok, -, hportable⟩ := portable_of_storable e.toNode h
  have hread := read_declare_of_isPortable hok bound_patternTag hportable
  have hown : PortableAttrs (ownAttrs e) := (isPortable_element.1 hportable).2.1.filter _
  have herase : Element.eraseAttr ⟨e.name, ⟨(declaration, patternNamespace) :: ownAttrs e⟩, e.children⟩ declaration =
      e.eraseAttr patternPrefix := by
    show Element.mk e.name ⟨((declaration, patternNamespace) :: ownAttrs e).filter (·.1 != declaration)⟩ e.children = _
    rw [filter_declaration hown.plain]
    rfl
  refine ⟨_, mapError_eq_ok.2 hread, herase, ?_⟩
  rw [herase]
  exact eraseAttr_eq_self_iff

/-- A row with an attribute that is named like the prefix, and with an action in it that has one too. -/
def namesakeRow : Element :=
  ⟨"opaf:row", ⟨[("opaf", "x"), ("type", "a<b")]⟩, [.element "opaf:action" ⟨[("opaf", "x")]⟩ []]⟩

/-- The row loses the attribute, and the action in it keeps its own. -/
theorem namesakeRow_loses_attribute : ∃ m, restore (declare namesakeRow).write = .ok m ∧
    m.eraseAttr declaration =
      ⟨"opaf:row", ⟨[("type", "a<b")]⟩, [.element "opaf:action" ⟨[("opaf", "x")]⟩ []]⟩ ∧
    m.eraseAttr declaration ≠ namesakeRow := by
  have hnamesake : StorableAttr ("opaf", "x") := ⟨by decide +kernel, by decide, List.all_eq_true.1 rfl, by decide⟩
  have htype : StorableAttr ("type", "a<b") := ⟨by decide +kernel, by decide, List.all_eq_true.1 rfl, by decide⟩
  have haction : Storable (.element "opaf:action" ⟨[("opaf", "x")]⟩ []) :=
    ⟨.inr ⟨"action", by decide +kernel, rfl⟩, by decide, List.forall_mem_singleton.2 hnamesake, trivial⟩
  have hrow : Storable namesakeRow.toNode :=
    ⟨.inr ⟨"row", by decide +kernel, rfl⟩, by decide,
      List.forall_mem_cons.2 ⟨hnamesake, List.forall_mem_singleton.2 htype⟩, haction, trivial⟩
  obtain ⟨m, hm, hleft, hiff⟩ := stored_element_comes_back_iff hrow
  exact ⟨m, hm, hleft, fun h => by cases hiff.1 h⟩

end Stitchwork.Pattern
