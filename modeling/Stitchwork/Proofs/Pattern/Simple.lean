/- # Stitchwork.Proofs.Pattern.Simple — elements that come back from their texts.

An element can be taken out of a document, written, and read again.  It comes back as it was if it is spelled simply: no
name in it has a prefix, its attributes stand on one line, and no text in it has a carriage return.  Namespaces may be
declared in it, but only without a prefix.  That attributes come back in their order is due to the reader, which puts
declarations in front.
-/
import Stitchwork.Proofs.Pattern.SelfContained

namespace Stitchwork.Markup

/-! ## Tags that have been read -/

/-- The attributes have the declarations in front. -/
def OrderedAttrs (attrs : List (String × String)) : Prop := sortAttrs attrs = attrs

theorem isDeclared_of_readAttrs {bound : Bindings} {seen : List String} {attrs : List (String × List Chunk)}
    {r : ReadAttrs} (h : readAttrs bound seen attrs = .ok r) :
    (∀ a ∈ r.declared, isDeclared a) ∧ ∀ a ∈ r.plain, isDeclared a = false := by
  induction attrs generalizing bound seen r with
  | nil =>
    cases h
    exact ⟨List.forall_mem_nil _, List.forall_mem_nil _⟩
  | cons a attrs ih =>
    obtain ⟨name, value⟩ := a
    rw [readAttrs] at h
    split at h
    · cases h
    obtain ⟨cs, -, h⟩ := bind_eq_ok.1 h
    dsimp only at h
    split at h
    · next p hp =>
      obtain ⟨middle, -, h⟩ := bind_eq_ok.1 h
      obtain ⟨r', hr', h⟩ := bind_eq_ok.1 h
      cases h
      exact ⟨List.forall_mem_cons.2 ⟨Option.isSome_of_eq_some hp, (ih hr').1⟩, (ih hr').2⟩
    · next hp =>
      obtain ⟨r', hr', h⟩ := bind_eq_ok.1 h
      cases h
      exact ⟨(ih hr').1, List.forall_mem_cons.2 ⟨by rw [isDeclared, hp]; rfl, (ih hr').2⟩⟩

theorem ordered_readTag : EnsuredByTags OrderedAttrs := by
  intro bound inner name attrs table h
  obtain ⟨r, hr, h⟩ := bind_eq_ok.1 h
  obtain ⟨_, -, h⟩ := bind_eq_ok.1 h
  obtain ⟨hdeclared, hplain⟩ := isDeclared_of_readAttrs hr
  have hordered : OrderedAttrs (r.declared ++ r.plain) := by
    rw [OrderedAttrs, sortAttrs, List.filter_append, List.filter_append, List.filter_eq_self.2 hdeclared,
      List.filter_eq_nil_iff.2 fun a ha => by simp [hplain a ha],
      List.filter_eq_nil_iff.2 fun a ha => by simp [hdeclared a ha],
      List.filter_eq_self.2 fun a ha => by simp [hplain a ha], List.append_nil, List.nil_append]
  split at h
  · split at h
    · cases h
    · cases h
      exact hordered
  · cases h
    exact hordered

/-! ## Nodes that are spelled simply -/

mutual

/-- Is the node spelled with names that have no prefix, attributes that stand on one line, and texts in which no line
end gets lost? -/
def isSimple : Node → Bool
  | .element name attrs children =>
    (prefixOf name).isNone && attrs.entries.all (fun a => (prefixOf a.1).isNone && decide (OneLine a.2)) &&
      areSimple children
  | .text s => !s.toList.contains '\r'
  | _ => true

/-- Are all of the nodes spelled simply? -/
def areSimple : List Node → Bool
  | [] => true
  | n :: ns => isSimple n && areSimple ns

end

theorem isSimple_element {name : String} {attrs : Table String} {children : List Node} :
    isSimple (.element name attrs children) ↔ prefixOf name = none ∧
      (∀ a ∈ attrs.entries, prefixOf a.1 = none ∧ OneLine a.2) ∧ areSimple children := by
  simp only [isSimple, Bool.and_eq_true, List.all_eq_true, Option.isNone_iff_eq_none, decide_eq_true_iff, and_assoc]

theorem areSimple_cons {n : Node} {ns : List Node} : areSimple (n :: ns) ↔ isSimple n ∧ areSimple ns := by
  rw [areSimple, Bool.and_eq_true]

/-- A namespace on one line that may be declared has no white space. -/
theorem noSpace_of_bindPrefix {p v : String} (h : bindPrefix [] p v = .ok [(p, v)]) (hline : OneLine v) : NoSpace v := by
  have hblank : Text.hasChar v ' ' = false := by
    unfold bindPrefix at h
    grind
  intro c hc
  have hchar := hline c hc
  have hspace : c ≠ ' ' := by
    rintro rfl
    rw [Text.hasChar, List.contains_iff_mem.2 hc] at hblank
    cases hblank
  simp only [isSpace, Bool.or_eq_false_iff, beq_eq_false_iff_ne]
  tauto

/-- A tag without prefixes can be read wherever it stands. -/
theorem tagContained_of_unprefixed {inner : Bindings} {name : String} {attrs : List (String × String)}
    (hlawful : LawfulAttrs attrs) (hname : prefixOf name = none)
    (hattrs : ∀ a ∈ attrs, prefixOf a.1 = none ∧ OneLine a.2) : TagContained inner name attrs where
  namespaces a ha hdeclared := by
    obtain ⟨p, hp⟩ := Option.isSome_iff_exists.1 hdeclared
    exact noSpace_of_bindPrefix (hlawful.declares a ha p hp) (hattrs a ha).2
  tag p hp := by
    rw [hname] at hp
    cases hp
  attributes a ha _ p hp := by
    rw [(hattrs a ha).1] at hp
    cases hp
  distinct := by
    -- only names with a prefix are compared by their namespaces
    have hnone : ((attrs.filter (!isDeclared ·)).map (·.1)).filterMap (expandedName inner) = [] := by
      rw [List.filterMap_eq_nil_iff, List.forall_mem_map]
      intro a ha
      rw [expandedName, (hattrs a (List.mem_of_mem_filter ha)).1]
      rfl
    rw [hnone]
    exact List.nodup_nil

theorem allSelfContained_of_areSimple (ns : List Node) (hlawful : AllLawful ns) (h : areSimple ns) (bound : Bindings) :
    AllSelfContained bound ns := by
  cases ns with
  | nil => trivial
  | cons n ns =>
    obtain ⟨hn, hns⟩ := areSimple_cons.1 h
    refine ⟨?_, allSelfContained_of_areSimple ns hlawful.2 hns bound⟩
    cases n with
    | element name attrs children =>
      obtain ⟨hname, hattrs, hchildren⟩ := isSimple_element.1 hn
      exact ⟨tagContained_of_unprefixed hlawful.1.1 hname hattrs,
        allSelfContained_of_areSimple children hlawful.1.2 hchildren _⟩
    | _ => trivial

/-- Rereading leaves nodes alone that are spelled simply and have their declarations in front. -/
theorem settleNodes_of_areSimple (ns : List Node) (hsimple : areSimple ns) (hordered : EachTags OrderedAttrs ns) :
    settleNodes (unifyNodes ns) = ns := by
  cases ns with
  | nil => rfl
  | cons n ns =>
    obtain ⟨hn, hns⟩ := areSimple_cons.1 hsimple
    rw [unifyNodes, settleNodes, settleNodes_of_areSimple ns hns hordered.2]
    cases n with
    | element name attrs children =>
      obtain ⟨-, hattrs, hchildren⟩ := isSimple_element.1 hn
      -- values on one line stay as they are, and declarations that stand in front stay there
      have htidy : ∀ a ∈ attrs.entries, tidyAttr a = a := by
        intro a ha
        rw [tidyAttr, tidy_of_oneLine (hattrs a ha).2]
      have hsame : sortAttrs ((attrs.entries.map unifyAttr).map flatAttr) = attrs.entries := by
        rw [map_tidyAttr, List.map_congr_left htidy, List.map_id']
        exact hordered.1.1
      rw [unifyNode, settleNode, hsame, settleNodes_of_areSimple children hchildren hordered.1.2]
    | text s =>
      have hreturn : '\r' ∉ s.toList := by simpa [isSimple] using hn
      rw [unifyNode, unify_of_not_mem hreturn, settleNode]
      rintro _ _ _ ⟨⟩
    | _ => rfl

/-- **An element that is spelled simply comes back** from its text, wherever in a document it has been taken from. -/
theorem read_write_of_isSimple {e : Element} (he : e.Ok) (hlawful : Lawful e.toNode)
    (hordered : EachTag OrderedAttrs e.toNode) (h : isSimple e.toNode) : read e.write = .ok e := by
  have hsimple : areSimple [e.toNode] := areSimple_cons.2 ⟨h, rfl⟩
  obtain ⟨m, hm⟩ := (decidedBy_read_write he hlawful).1 (allSelfContained_of_areSimple [e.toNode] ⟨hlawful, trivial⟩ hsimple _).1
  have hsame : m.toNode = e.toNode := (eq_settleNode (Pattern.rereadNode_of_read_write he hm)).trans
    (List.cons.inj (settleNodes_of_areSimple [e.toNode] hsimple ⟨hordered, trivial⟩)).1
  obtain ⟨name, attrs, children⟩ := m
  obtain ⟨name', attrs', children'⟩ := e
  cases hsame
  exact hm

end Stitchwork.Markup
