/- # Stitchwork.Proofs.Markup.SelfContained — trees that can be read on their own.

A part of a document need not be a document: a prefix in it may be bound further out.  What has been read is lawful, in
that each attribute comes once and all declarations may be made, and so is every part of it.  A lawful tree that has
been written can be read if and only if it is self-contained: its prefixes are bound inside it, its namespaces hold no
white space, and no two attributes of a tag have one namespace and one local name.
-/
import Stitchwork.Proofs.Markup.Tags
import Stitchwork.Proofs.Markup.WellFormed

namespace Stitchwork.Markup

open Stitchwork.Text

/-! ## Results that a property decides -/

/-- Is the fault one of prefixes and namespaces?  A namespace with white space counts as a syntax error. -/
def Fault.ofNamespaces : Fault → Bool
  | .notMarkup => true
  | .duplicateAttribute => true
  | .unboundPrefix => true
  | _ => false

section

variable {α β : Type} {P Q : Prop}

/-- There is a result if the property holds, and a fault of namespaces if it does not. -/
def DecidedBy (P : Prop) (r : Except Fault α) : Prop :=
  (P → ∃ a, r = .ok a) ∧ (¬P → ∃ f, f.ofNamespaces ∧ r = .error f)

theorem decidedBy_ok (a : α) : DecidedBy True (.ok a : Except Fault α) :=
  ⟨fun _ => ⟨a, rfl⟩, fun h => absurd trivial h⟩

theorem DecidedBy.congr {r : Except Fault α} (h : DecidedBy P r) (hiff : P ↔ Q) : DecidedBy Q r :=
  ⟨fun hq => h.1 (hiff.2 hq), fun hq => h.2 fun hp => hq (hiff.1 hp)⟩

/-- One result behind another: both properties are needed, and the second result is asked for only if the first is
there. -/
theorem DecidedBy.bind {r : Except Fault α} {f : α → Except Fault β} (hr : DecidedBy P r)
    (hf : P → ∀ a, r = .ok a → DecidedBy Q (f a)) : DecidedBy (P ∧ Q) (r >>= f) := by
  by_cases hp : P
  · obtain ⟨a, ha⟩ := hr.1 hp
    have hdecided := hf hp a ha
    subst ha
    exact hdecided.congr (and_iff_right hp).symm
  · obtain ⟨fault, hfault, herror⟩ := hr.2 hp
    subst herror
    exact ⟨fun h => absurd h.1 hp, fun _ => ⟨fault, hfault, rfl⟩⟩

end

/-! ## Lawful trees -/

/-- The attributes of a tag that has been read: each comes once, and the declarations among them may be made. -/
structure LawfulAttrs (attrs : List (String × String)) : Prop where
  nodup : (attrs.map (·.1)).Nodup
  declares : ∀ a ∈ attrs, ∀ p, declaredPrefix? a.1 = some p → bindPrefix [] p a.2 = .ok [(p, a.2)]

mutual

/-- The attributes of the element and of all below it are lawful. -/
def Lawful : Node → Prop
  | .element _ attrs children => LawfulAttrs attrs.entries ∧ AllLawful children
  | _ => True

/-- All of the nodes are lawful. -/
def AllLawful : List Node → Prop
  | [] => True
  | n :: ns => Lawful n ∧ AllLawful ns

end

theorem allLawful_iff {ns : List Node} : AllLawful ns ↔ ∀ n ∈ ns, Lawful n := by
  induction ns with
  | nil => exact iff_of_true trivial nofun
  | cons n ns ih => rw [AllLawful, ih, List.forall_mem_cons]

/-- One attribute more, with a name that has not been seen. -/
theorem LawfulAttrs.grow {es fs : List (String × String)} {a : String × String} {seen : List String}
    (hes : LawfulAttrs es) (hfresh : ∀ b ∈ es, b.1 ∉ a.1 :: seen) (hseen : a.1 ∉ seen)
    (ha : ∀ p, declaredPrefix? a.1 = some p → bindPrefix [] p a.2 = .ok [(p, a.2)]) (hfs : fs.Perm (a :: es)) :
    LawfulAttrs fs ∧ ∀ b ∈ fs, b.1 ∉ seen := by
  have hnew : a.1 ∉ es.map (·.1) := by
    intro hmem
    obtain ⟨b, hb, hname⟩ := List.mem_map.1 hmem
    exact hfresh b hb (by simp [hname])
  refine ⟨⟨?_, fun b hb => ?_⟩, fun b hb => ?_⟩
  · exact (hfs.map _).nodup_iff.2 (List.nodup_cons.2 ⟨hnew, hes.nodup⟩)
  · rcases List.mem_cons.1 (hfs.mem_iff.1 hb) with rfl | hb
    · exact ha
    · exact hes.declares b hb
  · rcases List.mem_cons.1 (hfs.mem_iff.1 hb) with rfl | hb
    · exact hseen
    · exact fun hmem => hfresh b hb (List.mem_cons_of_mem _ hmem)

theorem lawful_readAttrs {bound : Bindings} {seen : List String} {attrs : List (String × List Chunk)} {r : ReadAttrs}
    (h : readAttrs bound seen attrs = .ok r) :
    LawfulAttrs (r.declared ++ r.plain) ∧ ∀ a ∈ r.declared ++ r.plain, a.1 ∉ seen := by
  induction attrs generalizing bound seen r with
  | nil =>
    cases h
    exact ⟨⟨List.nodup_nil, nofun⟩, nofun⟩
  | cons a attrs ih =>
    obtain ⟨name, value⟩ := a
    rw [readAttrs] at h
    split at h
    · cases h
    next hseen =>
    have hname : name ∉ seen := by simpa using hseen
    obtain ⟨cs, -, h⟩ := bind_eq_ok.1 h
    dsimp only at h
    split at h
    · next p hp =>
      obtain ⟨middle, hmiddle, h⟩ := bind_eq_ok.1 h
      obtain ⟨r', hr', h⟩ := bind_eq_ok.1 h
      cases h
      obtain ⟨hlawful, hfresh⟩ := ih hr'
      refine hlawful.grow hfresh hname (fun q hq => ?_) (List.Perm.refl _)
      rw [hp] at hq
      cases hq
      exact bindPrefix_anywhere [] hmiddle
    · next hp =>
      obtain ⟨r', hr', h⟩ := bind_eq_ok.1 h
      cases h
      obtain ⟨hlawful, hfresh⟩ := ih hr'
      -- declarations stand in front, so the attribute is put in the middle of the list
      refine hlawful.grow hfresh hname (fun q hq => ?_) List.perm_middle
      rw [hp] at hq
      cases hq

theorem lawful_readTag {bound inner : Bindings} {name : String} {attrs : List (String × List Chunk)}
    {table : Table String} (h : readTag bound name attrs = .ok (table, inner)) : LawfulAttrs table.entries := by
  obtain ⟨r, hr, h⟩ := bind_eq_ok.1 h
  obtain ⟨_, -, h⟩ := bind_eq_ok.1 h
  have hlawful := (lawful_readAttrs hr).1
  split at h
  · split at h
    · cases h
    · cases h
      exact hlawful
  · cases h
    exact hlawful

mutual

theorem lawful_iff_eachTag (n : Node) : Lawful n ↔ EachTag LawfulAttrs n := by
  cases n with
  | element name attrs children => exact and_congr_right fun _ => allLawful_iff_eachTags children
  | _ => exact Iff.rfl

theorem allLawful_iff_eachTags (ns : List Node) : AllLawful ns ↔ EachTags LawfulAttrs ns := by
  cases ns with
  | nil => exact Iff.rfl
  | cons n ns => exact and_congr (lawful_iff_eachTag n) (allLawful_iff_eachTags ns)

end

/-- What is read is lawful. -/
theorem lawful_read {s : String} {e : Element} (h : read s = .ok e) : Lawful e.toNode :=
  (lawful_iff_eachTag _).2 (eachTag_read lawful_readTag h)

/-! ## Namespaces -/

/-- The text has no white space. -/
def NoSpace (s : String) : Prop := ∀ c ∈ s.toList, isSpace c = false

theorem tidy_of_noSpace {s : String} (h : NoSpace s) : tidy s = s :=
  tidy_eq_self_iff.2 fun c hc hspace => by
    rw [h c hc] at hspace
    cases hspace

/-- White space stays white space when line ends are unified. -/
theorem exists_isSpace_unifyLineEnds {s : List Char} (h : ∃ c ∈ s, isSpace c) : ∃ c ∈ unifyLineEnds s, isSpace c := by
  induction s using lineEnds_induction with
  | nil => exact h
  | pair s _ => exact ⟨'\n', by rw [unifyLineEnds_pair]; simp, rfl⟩
  | single s hs _ => exact ⟨'\n', by rw [unifyLineEnds_return hs]; simp, rfl⟩
  | cons c s hc ih =>
    rw [unifyLineEnds_cons hc]
    obtain ⟨d, hd, hspace⟩ := h
    rcases List.mem_cons.1 hd with rfl | hd
    · exact ⟨d, by simp, hspace⟩
    · obtain ⟨e, he, hspace'⟩ := ih ⟨d, hd, hspace⟩
      exact ⟨e, List.mem_cons_of_mem _ he, hspace'⟩

theorem hasChar_tidy {s : String} (h : ¬NoSpace s) : hasChar (tidy s) ' ' = true := by
  have hspace : ∃ c ∈ s.toList, isSpace c := by
    simpa [NoSpace] using h
  obtain ⟨c, hc, hspace⟩ := exists_isSpace_unifyLineEnds hspace
  rw [hasChar, List.contains_iff_mem, tidy, toList_flat, toList_unify]
  refine List.mem_map.2 ⟨c, hc, ?_⟩
  rw [flatten, if_pos hspace]

/-- A declaration that may be made may be made again when it has been written, if its namespace has no white space. -/
theorem decidedBy_bindPrefix {p v : String} (h : bindPrefix [] p v = .ok [(p, v)]) (bound : Bindings) :
    DecidedBy (NoSpace v) (bindPrefix bound p (tidy v)) := by
  constructor
  · intro hspace
    rw [tidy_of_noSpace hspace]
    exact ⟨_, bindPrefix_anywhere bound h⟩
  -- white space is written as a blank or read as one, and a namespace with a blank is refused
  · intro hspace
    refine ⟨.notMarkup, rfl, ?_⟩
    have hchar := hasChar_tidy hspace
    have hnonempty : (tidy v).isEmpty = false := by
      rw [← Bool.not_eq_true, String.isEmpty_iff]
      intro hempty
      rw [hempty] at hchar
      cases hchar
    have hreserved : ¬(p == "xmlns") := by
      intro hp
      unfold bindPrefix at h
      grind
    rw [bindPrefix, if_neg (by simp [hnonempty]), if_neg hreserved, if_pos hchar]

/-! ## Self-contained trees -/

/-- What attributes declare: prefixes with their namespaces. -/
def declaredIn (attrs : List (String × String)) : Bindings :=
  attrs.filterMap fun a => (declaredPrefix? a.1).map (·, a.2)

/-- What is bound inside a tag with the given attributes. -/
def boundInside (bound : Bindings) (attrs : List (String × String)) : Bindings := (declaredIn attrs).reverse ++ bound

theorem boundInside_cons (bound : Bindings) (a : String × String) (attrs : List (String × String)) :
    boundInside bound (a :: attrs) = match declaredPrefix? a.1 with
      | some p => boundInside ((p, a.2) :: bound) attrs
      | none => boundInside bound attrs := by
  rw [boundInside, declaredIn, List.filterMap_cons]
  cases declaredPrefix? a.1 with
  | none => rfl
  | some p =>
    simp only [Option.map_some, List.reverse_cons, List.append_assoc]
    rfl

/-- The namespace and the local name of a name with a prefix. -/
def expandedName (bound : Bindings) (name : String) : Option (String × String) :=
  (prefixOf name).bind fun p => (bound.lookup p).map (·, localName name)

/-- The prefix of the name, if it has one, is bound. -/
def PrefixBound (bound : Bindings) (name : String) : Prop := ∀ p, prefixOf name = some p → (bound.lookup p).isSome

/-- What a tag needs so that it can be read with the given bindings inside it: its namespaces have no white space, its
prefixes are bound, and no two of its attributes have one namespace and one local name. -/
structure TagContained (inner : Bindings) (name : String) (attrs : List (String × String)) : Prop where
  namespaces : ∀ a ∈ attrs, isDeclared a → NoSpace a.2
  tag : PrefixBound inner name
  attributes : ∀ a ∈ attrs, isDeclared a = false → PrefixBound inner a.1
  distinct : (((attrs.filter (!isDeclared ·)).map (·.1)).filterMap (expandedName inner)).Nodup

mutual

/-- The tree can be read where the given prefixes are bound. -/
def SelfContained (bound : Bindings) : Node → Prop
  | .element name attrs children =>
    TagContained (boundInside bound attrs.entries) name attrs.entries ∧
      AllSelfContained (boundInside bound attrs.entries) children
  | _ => True

/-- All of the trees can be read where the given prefixes are bound. -/
def AllSelfContained (bound : Bindings) : List Node → Prop
  | [] => True
  | n :: ns => SelfContained bound n ∧ AllSelfContained bound ns

end

/-- The element can be read on its own: but for `xml`, its prefixes are bound inside it. -/
def Element.SelfContained (e : Element) : Prop := Markup.SelfContained [("xml", xmlNamespace)] e.toNode

/-! ## Reading self-contained trees -/

theorem decidedBy_readAttrs {attrs : List (String × String)} (hattrs : LawfulAttrs attrs) (bound : Bindings)
    (seen : List String) (hseen : ∀ a ∈ attrs, a.1 ∉ seen) :
    DecidedBy (∀ a ∈ attrs, isDeclared a → NoSpace a.2)
      (readAttrs bound seen ((attrs.map unifyAttr).map literalAttr)) := by
  induction attrs generalizing bound seen with
  | nil => exact (decidedBy_ok _).congr (iff_of_true trivial nofun)
  | cons a attrs ih =>
    have hrest : LawfulAttrs attrs :=
      ⟨(List.nodup_cons.1 hattrs.nodup).2, fun b hb => hattrs.declares b (List.mem_cons_of_mem _ hb)⟩
    have hnew : ∀ b ∈ attrs, b.1 ∉ a.1 :: seen := by
      intro b hb hmem
      rcases List.mem_cons.1 hmem with heq | hmem
      · exact (List.nodup_cons.1 hattrs.nodup).1 (List.mem_map.2 ⟨b, hb, heq⟩)
      · exact hseen b (List.mem_cons_of_mem _ hb) hmem
    rw [List.map_cons, List.map_cons, readAttrs_cons, List.forall_mem_cons]
    have hname : (unifyAttr a).1 ∉ seen := hseen a (by simp)
    rw [if_neg (by simpa using hname)]
    cases hp : declaredPrefix? a.1 with
    | none =>
      have hplain : isDeclared a = false := by rw [isDeclared, hp]; rfl
      have hdecided := (ih hrest bound _ hnew).bind fun _ r _ => decidedBy_ok (α := ReadAttrs)
        { r with plain := flatAttr (unifyAttr a) :: r.plain }
      change DecidedBy _ (match declaredPrefix? a.1 with | some p => _ | none => _)
      rw [hp]
      refine hdecided.congr ?_
      simp [hplain]
    | some p =>
      have hdeclared : isDeclared a = true := by rw [isDeclared, hp]; rfl
      have hbind := decidedBy_bindPrefix (hattrs.declares a (by simp) p hp) bound
      have hdecided := hbind.bind fun _ middle _ => (ih hrest middle _ hnew).bind fun _ r _ =>
        decidedBy_ok (α := ReadAttrs) { r with declared := flatAttr (unifyAttr a) :: r.declared }
      change DecidedBy _ (match declaredPrefix? a.1 with | some p => _ | none => _)
      rw [hp]
      refine hdecided.congr ?_
      simp [hdeclared]

theorem isDeclared_tidyAttr (a : String × String) : isDeclared (tidyAttr a) = isDeclared a := by
  simp only [isDeclared, tidyAttr]

/-- What is bound when namespaces without white space have been written and read. -/
theorem bindAll_tidyAttr {attrs : List (String × String)} (hspace : ∀ a ∈ attrs, isDeclared a → NoSpace a.2)
    {bound inner : Bindings} (h : bindAll bound (attrs.map tidyAttr) = .ok inner) : inner = boundInside bound attrs := by
  induction attrs generalizing bound with
  | nil =>
    cases h
    rfl
  | cons a attrs ih =>
    rw [List.forall_mem_cons] at hspace
    obtain ⟨name, v⟩ := a
    rw [List.map_cons, tidyAttr, bindAll] at h
    rw [boundInside_cons]
    cases hp : declaredPrefix? name with
    | none =>
      rw [hp] at h
      exact ih hspace.2 h
    | some p =>
      rw [hp] at h
      obtain ⟨middle, hmiddle, h⟩ := bind_eq_ok.1 h
      have hvalue : tidy v = v := tidy_of_noSpace (hspace.1 (by rw [isDeclared, hp]; rfl))
      rw [ih hspace.2 h, bindPrefix_eq_ok hmiddle]
      dsimp only
      rw [hvalue]

/-- Checking the prefixes of attributes is checking that they are bound and that no expanded name comes twice. -/
theorem decidedBy_checkPrefixes (bound : Bindings) (seen : List (String × String)) (names : List String) :
    DecidedBy ((∀ name ∈ names, PrefixBound bound name) ∧ (names.filterMap (expandedName bound)).Nodup ∧
      ∀ x ∈ names.filterMap (expandedName bound), x ∉ seen) (checkPrefixes bound seen names) := by
  induction names generalizing seen with
  | nil => exact (decidedBy_ok ()).congr (by simp)
  | cons name names ih =>
    rcases hsplit : splitName name with ⟨q, l⟩
    rw [checkPrefixes, hsplit]
    cases q with
    | none =>
      have hfront : prefixOf name = none := congrArg Prod.fst hsplit
      have hname : expandedName bound name = none := by rw [expandedName, hfront]; rfl
      refine (ih seen).congr ?_
      rw [List.filterMap_cons_none hname, List.forall_mem_cons]
      simp [PrefixBound, hfront]
    | some p =>
      have hfront : prefixOf name = some p := congrArg Prod.fst hsplit
      have hlocal : localName name = l := congrArg Prod.snd hsplit
      dsimp only
      cases hlookup : List.lookup p bound with
      | none =>
        refine ⟨fun h => ?_, fun _ => ⟨.unboundPrefix, rfl, rfl⟩⟩
        have hbound := h.1 name (by simp) p hfront
        rw [hlookup] at hbound
        cases hbound
      | some uri =>
        have hname : expandedName bound name = some (uri, l) := by
          rw [expandedName, hfront, Option.bind_some, hlookup, hlocal]
          rfl
        have hbound : PrefixBound bound name := by
          intro q hq
          rw [hfront] at hq
          cases hq
          rw [hlookup]
          rfl
        rw [List.filterMap_cons_some hname, List.forall_mem_cons]
        dsimp only
        split
        · next hseen =>
          refine ⟨fun h => ?_, fun _ => ⟨.duplicateAttribute, rfl, rfl⟩⟩
          exact absurd (by simpa using hseen) (h.2.2 (uri, l) (by simp))
        · next hseen =>
          -- the expanded name joins those that have been seen
          refine (ih ((uri, l) :: seen)).congr ?_
          have hnew : (uri, l) ∉ seen := by simpa using hseen
          simp only [hbound, true_and, List.nodup_cons, List.mem_cons, forall_eq_or_imp, not_or, hnew, not_false_eq_true]
          constructor
          · rintro ⟨hall, hnodup, hfresh⟩
            exact ⟨hall, ⟨fun hmem => (hfresh _ hmem).1 rfl, hnodup⟩, fun x hx => (hfresh x hx).2⟩
          · rintro ⟨hall, ⟨hmem, hnodup⟩, hfresh⟩
            exact ⟨hall, hnodup, fun x hx => ⟨fun heq => hmem (heq ▸ hx), hfresh x hx⟩⟩

/-- Checking the prefix of a tag is checking that it is bound. -/
theorem decidedBy_tagPrefix {α : Type} (bound : Bindings) (name : String) (a : α) :
    DecidedBy (PrefixBound bound name) (do
      match prefixOf name with
      | some p => if (bound.lookup p).isNone then throw .unboundPrefix
      | none => pure ()
      .ok a) := by
  cases hp : prefixOf name with
  | none => exact (decidedBy_ok a).congr (iff_of_true trivial (by simp [PrefixBound, hp]))
  | some p =>
    have hiff : PrefixBound bound name ↔ (bound.lookup p).isSome := by simp [PrefixBound, hp]
    dsimp only
    split
    · next hnone =>
      refine ⟨fun h => ?_, fun _ => ⟨.unboundPrefix, rfl, rfl⟩⟩
      rw [hiff, ← Option.not_isNone, hnone] at h
      cases h
    · next hsome => exact (decidedBy_ok a).congr (iff_of_true trivial (hiff.2 (by simpa using hsome)))

/-- A lawful tag that has been written can be read if it is contained. -/
theorem decidedBy_readTag {attrs : List (String × String)} (hattrs : LawfulAttrs attrs) (bound : Bindings)
    (name : String) : DecidedBy (TagContained (boundInside bound attrs) name attrs)
      (readTag bound name ((attrs.map unifyAttr).map literalAttr)) := by
  have hdecided := (decidedBy_readAttrs hattrs bound [] (by simp)).bind (β := Table String × Bindings)
    (f := fun r => do
      checkPrefixes r.bound [] (r.plain.map (·.1))
      match prefixOf name with
      | some p => if (r.bound.lookup p).isNone then throw .unboundPrefix
      | none => pure ()
      .ok (⟨r.declared ++ r.plain⟩, r.bound))
    (Q := ((∀ a ∈ attrs, isDeclared a = false → PrefixBound (boundInside bound attrs) a.1) ∧
      (((attrs.filter (!isDeclared ·)).map (·.1)).filterMap (expandedName (boundInside bound attrs))).Nodup) ∧
      PrefixBound (boundInside bound attrs) name)
    fun hspace r hr => by
      obtain ⟨-, hbinds, -, hplain⟩ := readAttrs_literal.1 hr
      rw [map_tidyAttr] at hbinds hplain
      have hnames : r.plain.map (·.1) = (attrs.filter (!isDeclared ·)).map (·.1) := by
        rw [hplain, List.filter_map, names_tidyAttr]
        refine congrArg (List.map _) (List.filter_congr fun a _ => ?_)
        rw [Function.comp_apply, isDeclared_tidyAttr]
      -- the namespaces have come back unchanged, so the bindings inside are those that the attributes state
      rw [bindAll_tidyAttr hspace hbinds, hnames]
      refine DecidedBy.bind ((decidedBy_checkPrefixes _ _ _).congr ?_) fun _ _ _ => ?_
      · simp
      · exact decidedBy_tagPrefix _ name _
  refine hdecided.congr ⟨?_, ?_⟩
  · rintro ⟨hspace, ⟨hall, hdistinct⟩, htag⟩
    exact ⟨hspace, htag, hall, hdistinct⟩
  · rintro ⟨hspace, htag, hall, hdistinct⟩
    exact ⟨hspace, ⟨hall, hdistinct⟩, htag⟩

mutual

/-- A lawful tree that has been written can be read if it is self-contained. -/
theorem decidedBy_rereadNode (n : Node) (hn : Lawful n) (bound : Bindings) :
    DecidedBy (SelfContained bound n) (rereadNode bound (unifyNode n)) := by
  cases n with
  | element name attrs children =>
    rw [unifyNode, rereadNode, SelfContained]
    refine (decidedBy_readTag hn.1 bound name).bind fun htag p hp => ?_
    obtain ⟨table, inner⟩ := p
    have hbinds := (readTag_literal.1 hp).1.binds
    rw [map_tidyAttr] at hbinds
    rw [← bindAll_tidyAttr htag.namespaces hbinds]
    exact ((decidedBy_rereadNodes children hn.2 inner).bind fun _ ms _ =>
      decidedBy_ok (Node.element name table ms)).congr (and_iff_left trivial)
  | _ => exact decidedBy_ok _

theorem decidedBy_rereadNodes (ns : List Node) (hns : AllLawful ns) (bound : Bindings) :
    DecidedBy (AllSelfContained bound ns) (rereadNodes bound (unifyNodes ns)) := by
  cases ns with
  | nil => exact decidedBy_ok _
  | cons n ns =>
    rw [unifyNodes, rereadNodes_cons, AllSelfContained]
    exact (decidedBy_rereadNode n hns.1 bound).bind fun _ m _ =>
      ((decidedBy_rereadNodes ns hns.2 bound).bind fun _ ms _ => decidedBy_ok (m :: ms)).congr (and_iff_left trivial)

end

/-- **Reading on its own.**  A lawful element that has been written can be read if it is self-contained, and otherwise
there is a fault of namespaces. -/
theorem decidedBy_read_write {e : Element} (he : e.Ok) (hlawful : Lawful e.toNode) :
    DecidedBy e.SelfContained (read e.write) := by
  -- reading what has been written is rereading the tree with its line ends unified
  have hdecided := decidedBy_rereadNode e.toNode hlawful [("xml", xmlNamespace)]
  rw [← toNode_unified, rereadNode_toNode, ← read_write he] at hdecided
  refine ⟨fun h => ?_, fun h => ?_⟩
  · obtain ⟨n, hn⟩ := hdecided.1 h
    obtain ⟨m, hm, -⟩ := map_eq_ok.1 hn
    exact ⟨m, hm⟩
  · obtain ⟨f, hf, herror⟩ := hdecided.2 h
    refine ⟨f, hf, ?_⟩
    cases hread : read e.write with
    | error g =>
      rw [hread] at herror
      cases herror
      rfl
    | ok m =>
      rw [hread] at herror
      cases herror

end Stitchwork.Markup
