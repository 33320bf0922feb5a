/- # Stitchwork.Proofs.Markup.Settled — trees that are read as they are.

What has been reread once stays as it is when it is reread again, also where more prefixes are bound: its
white space is flat, its declarations come first, and its prefixes are bound.  This is what makes it
possible to put elements from one text into another.
-/
import Stitchwork.Proofs.Markup.Document
import Stitchwork.Proofs.Table

namespace Stitchwork.Markup

open Stitchwork.Text

variable {bound bound' inner : Bindings} {attrs : List (String × String)} {name p : String} {m e : Element}

/-! ## Flat values -/

/-- A text with its white space as spaces. -/
def flat (s : String) : String := String.ofList (s.toList.map flatten)

theorem toList_flat (s : String) : (flat s).toList = s.toList.map flatten := String.toList_ofList

theorem isSpace_flatten {c : Char} (h : isSpace (flatten c)) : flatten c = ' ' := by
  rw [flatten] at h ⊢
  split
  · rfl
  · next hc =>
    rw [if_neg hc] at h
    exact absurd h hc

@[simp] theorem flatten_flatten (c : Char) : flatten (flatten c) = flatten c := by
  by_cases h : isSpace (flatten c)
  · rw [isSpace_flatten h]
    rfl
  · rw [flatten, if_neg h]

@[simp] theorem flat_flat (s : String) : flat (flat s) = flat s := by
  rw [flat, toList_flat, List.map_map]
  congr 2
  funext c
  exact flatten_flatten c

/-- An attribute with a flat value. -/
def flatAttr (a : String × String) : String × String := (a.1, flat a.2)

@[simp] theorem flatAttr_flatAttr (a : String × String) : flatAttr (flatAttr a) = flatAttr a := by
  rw [flatAttr, flatAttr, flat_flat]

theorem isMarkupChar_flatten {c : Char} (h : isMarkupChar c) : isMarkupChar (flatten c) := by
  rw [flatten]
  split
  · rfl
  · exact h

theorem AttrOk.flat {a : String × String} (h : AttrOk a) : AttrOk (flatAttr a) := by
  refine ⟨h.name, fun c hc => ?_⟩
  rw [flatAttr, toList_flat] at hc
  obtain ⟨d, hd, rfl⟩ := List.mem_map.1 hc
  exact isMarkupChar_flatten (h.value d hd)

/-! ## Tags -/

/-- Is the attribute a declaration of a prefix? -/
def isDeclared (a : String × String) : Bool := (declaredPrefix? a.1).isSome

/-- Binds the prefixes that attributes declare, one after the other. -/
def bindAll (bound : Bindings) : List (String × String) → Except Fault Bindings
  | [] => .ok bound
  | (name, v) :: rest =>
    match declaredPrefix? name with
    | some p => do
      let bound ← bindPrefix bound p v
      bindAll bound rest
    | none => bindAll bound rest

/-- Attributes with the declarations in front. -/
def sortAttrs (attrs : List (String × String)) : List (String × String) :=
  attrs.filter isDeclared ++ attrs.filter (!isDeclared ·)

/-- One attribute more in front of others that have been read. -/
theorem readAttrs_cons (bound : Bindings) (seen : List String) (a : String × String)
    (attrs : List (String × List Chunk)) :
    readAttrs bound seen (literalAttr a :: attrs) =
      (if seen.contains a.1 then .error .duplicateAttribute
      else match declaredPrefix? a.1 with
        | some p => do
          let bound ← bindPrefix bound p (flat a.2)
          let r ← readAttrs bound (a.1 :: seen) attrs
          .ok { r with declared := flatAttr a :: r.declared }
        | none => do
          let r ← readAttrs bound (a.1 :: seen) attrs
          .ok { r with plain := flatAttr a :: r.plain }) := by
  rw [literalAttr, readAttrs, resolveValue_literal]
  by_cases hseen : seen.contains a.1
  · rw [if_pos hseen, if_pos hseen]
    rfl
  · rw [if_neg hseen, if_neg hseen]
    rfl

theorem readAttrs_literal {seen : List String} {r : ReadAttrs} :
    readAttrs bound seen (attrs.map literalAttr) = .ok r ↔
      ((attrs.map (·.1)).Nodup ∧ ∀ a ∈ attrs, a.1 ∉ seen) ∧
      bindAll bound (attrs.map flatAttr) = .ok r.bound ∧
      r.declared = (attrs.map flatAttr).filter isDeclared ∧
      r.plain = (attrs.map flatAttr).filter (!isDeclared ·) := by
  induction attrs generalizing bound seen r with
  | nil =>
    obtain ⟨declared, plain, inner⟩ := r
    simp only [List.map_nil, readAttrs, bindAll, Except.ok.injEq, ReadAttrs.mk.injEq]
    simp only [List.nodup_nil, List.filter_nil, true_and]
    constructor
    · rintro ⟨rfl, rfl, rfl⟩
      simp
    · rintro ⟨-, rfl, rfl, rfl⟩
      simp
  | cons a attrs ih =>
    -- the name joins those that have been seen, so that none behind it may be the same
    have hnames : (((a :: attrs).map (·.1)).Nodup ∧ ∀ b ∈ a :: attrs, b.1 ∉ seen) ↔
        a.1 ∉ seen ∧ (attrs.map (·.1)).Nodup ∧ ∀ b ∈ attrs, b.1 ∉ a.1 :: seen := by
      simp only [List.map_cons, List.nodup_cons, List.mem_map, List.mem_cons, not_or, not_exists, not_and,
        forall_eq_or_imp]
      constructor
      · rintro ⟨⟨hne, hnodup⟩, ha, hrest⟩
        exact ⟨ha, hnodup, fun b hb => ⟨hne b hb, hrest b hb⟩⟩
      · rintro ⟨ha, hnodup, hrest⟩
        exact ⟨⟨fun b hb => (hrest b hb).1, hnodup⟩, ha, fun b hb => (hrest b hb).2⟩
    rw [List.map_cons, readAttrs_cons, hnames, List.map_cons]
    by_cases hseen : a.1 ∈ seen
    · simp [hseen]
    · obtain ⟨declared, plain, inner⟩ := r
      rw [if_neg (by simpa using hseen)]
      cases hp : declaredPrefix? a.1 with
      | none =>
        have hdeclared : isDeclared (flatAttr a) = false := by simp [isDeclared, flatAttr, hp]
        have hbind : bindAll bound (flatAttr a :: attrs.map flatAttr) = bindAll bound (attrs.map flatAttr) := by
          rw [flatAttr, bindAll, hp]
        simp only [bind_eq_ok, hbind, ih]
        rw [List.filter_cons_of_neg (by simp [hdeclared]), List.filter_cons_of_pos (by simp [hdeclared])]
        constructor
        · rintro ⟨⟨declared', plain', inner'⟩, ⟨hnames', hinner, rfl, rfl⟩, hr⟩
          cases hr
          exact ⟨⟨hseen, hnames'⟩, hinner, rfl, rfl⟩
        · rintro ⟨⟨-, hnames'⟩, hinner, rfl, rfl⟩
          exact ⟨⟨_, _, inner⟩, ⟨hnames', hinner, rfl, rfl⟩, rfl⟩
      | some q =>
        have hdeclared : isDeclared (flatAttr a) = true := by simp [isDeclared, flatAttr, hp]
        have hbind : bindAll bound (flatAttr a :: attrs.map flatAttr) =
            bindPrefix bound q (flat a.2) >>= fun bound => bindAll bound (attrs.map flatAttr) := by
          rw [flatAttr, bindAll, hp]
        simp only [bind_eq_ok, hbind, ih]
        rw [List.filter_cons_of_pos hdeclared, List.filter_cons_of_neg (by simp [hdeclared])]
        constructor
        · rintro ⟨middle, hmiddle, ⟨declared', plain', inner'⟩, ⟨hnames', hinner, rfl, rfl⟩, hr⟩
          cases hr
          exact ⟨⟨hseen, hnames'⟩, ⟨middle, hmiddle, hinner⟩, rfl, rfl⟩
        · rintro ⟨⟨-, hnames'⟩, ⟨middle, hmiddle, hinner⟩, rfl, rfl⟩
          exact ⟨middle, hmiddle, ⟨_, _, inner⟩, ⟨hnames', hinner, rfl, rfl⟩, rfl⟩

/-- The attributes of a tag with the given name can be read, and `inner` is bound inside. -/
structure ReadsTag (bound : Bindings) (name : String) (attrs : List (String × String))
    (inner : Bindings) : Prop where
  nodup : (attrs.map (·.1)).Nodup
  binds : bindAll bound (attrs.map flatAttr) = .ok inner
  plain : checkPrefixes inner [] (((attrs.map flatAttr).filter (!isDeclared ·)).map (·.1)) = .ok ()
  tag : ∀ p, prefixOf name = some p → (inner.lookup p).isSome

theorem readTag_literal {table : Table String} :
    readTag bound name (attrs.map literalAttr) = .ok (table, inner) ↔
      ReadsTag bound name attrs inner ∧ table = ⟨sortAttrs (attrs.map flatAttr)⟩ := by
  rw [readTag]
  simp only [bind_eq_ok, readAttrs_literal]
  constructor
  · rintro ⟨⟨declared, plain, inner'⟩, ⟨hnames, hbinds, hdeclared, hplain⟩, _, hcheck, htag⟩
    dsimp only at hdeclared hplain hcheck hbinds htag
    subst hdeclared hplain
    cases hp : prefixOf name with
    | none =>
      rw [hp] at htag
      cases htag
      exact ⟨⟨hnames.1, hbinds, hcheck, fun p h => by rw [hp] at h; cases h⟩, rfl⟩
    | some p =>
      rw [hp] at htag
      dsimp only at htag
      cases hlookup : List.lookup p inner' with
      | none =>
        rw [hlookup] at htag
        cases htag
      | some u =>
        rw [hlookup] at htag
        cases htag
        refine ⟨⟨hnames.1, hbinds, hcheck, fun q h => ?_⟩, rfl⟩
        rw [hp] at h
        cases h
        rw [hlookup]
        rfl
  · rintro ⟨⟨hnodup, hbinds, hplain, htag⟩, rfl⟩
    refine ⟨⟨_, _, inner⟩, ⟨⟨hnodup, fun _ _ => List.not_mem_nil⟩, hbinds, rfl, rfl⟩, (), hplain, ?_⟩
    cases hp : prefixOf name with
    | none => rfl
    | some p =>
      have hsome := htag p hp
      dsimp only
      rw [if_neg (by simpa using Option.isSome_iff_ne_none.1 hsome)]
      rfl

/-- What rereading makes of an element. -/
theorem rereadNode_element {attrs : Table String} {children : List Node} {m : Node} :
    rereadNode bound (.element name attrs children) = .ok m ↔
      ∃ inner ms, ReadsTag bound name attrs.entries inner ∧ rereadNodes inner children = .ok ms ∧
        m = .element name ⟨sortAttrs (attrs.entries.map flatAttr)⟩ ms := by
  rw [rereadNode]
  simp only [bind_eq_ok]
  constructor
  · rintro ⟨⟨table, inner⟩, htag, ms, hms, hm⟩
    obtain ⟨hreads, rfl⟩ := readTag_literal.1 htag
    cases hm
    exact ⟨inner, ms, hreads, hms, rfl⟩
  · rintro ⟨inner, ms, hreads, hms, rfl⟩
    exact ⟨⟨_, inner⟩, readTag_literal.2 ⟨hreads, rfl⟩, ms, hms, rfl⟩

/-! ## Attributes in order -/

theorem filter_sortAttrs (p : String × String → Bool) (es : List (String × String)) :
    (sortAttrs es).filter p = sortAttrs (es.filter p) := by
  simp only [sortAttrs, List.filter_append, List.filter_filter, Bool.and_comm]

theorem filter_isDeclared_sortAttrs (es : List (String × String)) :
    (sortAttrs es).filter isDeclared = es.filter isDeclared := by
  rw [filter_sortAttrs, sortAttrs]
  simp [List.filter_filter]

theorem filter_not_isDeclared_sortAttrs (es : List (String × String)) :
    (sortAttrs es).filter (!isDeclared ·) = es.filter (!isDeclared ·) := by
  rw [filter_sortAttrs, sortAttrs]
  simp [List.filter_filter]

theorem sortAttrs_sortAttrs (es : List (String × String)) : sortAttrs (sortAttrs es) = sortAttrs es := by
  rw [sortAttrs, filter_isDeclared_sortAttrs, filter_not_isDeclared_sortAttrs, ← sortAttrs]

theorem sortAttrs_perm (es : List (String × String)) : (sortAttrs es).Perm es :=
  List.filter_append_perm isDeclared es

theorem bindAll_filter_isDeclared (bound : Bindings) (es : List (String × String)) :
    bindAll bound (es.filter isDeclared) = bindAll bound es := by
  induction es generalizing bound with
  | nil => rfl
  | cons a es ih =>
    obtain ⟨name, v⟩ := a
    cases hp : declaredPrefix? name with
    | none =>
      rw [List.filter_cons_of_neg (by simp [isDeclared, hp]), ih, bindAll, hp]
    | some q =>
      rw [List.filter_cons_of_pos (by simp [isDeclared, hp]), bindAll, bindAll, hp]
      simp only [ih]

theorem bindAll_sortAttrs (bound : Bindings) (es : List (String × String)) :
    bindAll bound (sortAttrs es) = bindAll bound es := by
  rw [← bindAll_filter_isDeclared, filter_isDeclared_sortAttrs, bindAll_filter_isDeclared]

/-! ## More prefixes -/

/-- Whatever is bound in the first is bound to the same in the second. -/
def Extends (bound bound' : Bindings) : Prop := ∀ p u, bound.lookup p = some u → bound'.lookup p = some u

theorem extends_refl (bound : Bindings) : Extends bound bound := fun _ _ h => h

theorem Extends.trans {bound'' : Bindings} (h : Extends bound bound') (h' : Extends bound' bound'') :
    Extends bound bound'' := fun p u hp => h' p u (h p u hp)

theorem Extends.cons (h : Extends bound bound') (p u : String) : Extends ((p, u) :: bound) ((p, u) :: bound') := by
  intro q v hq
  rw [List.lookup_cons] at hq ⊢
  cases hqp : q == p with
  | true => rwa [hqp] at hq
  | false =>
    rw [hqp] at hq
    exact h q v hq

theorem bindPrefix_eq_ok {uri : String} (h : bindPrefix bound p uri = .ok inner) : inner = (p, uri) :: bound := by
  unfold bindPrefix at h
  grind

/-- Whether a prefix may be bound does not depend on what is bound already. -/
theorem bindPrefix_anywhere {uri : String} (bound' : Bindings) (h : bindPrefix bound p uri = .ok inner) :
    bindPrefix bound' p uri = .ok ((p, uri) :: bound') := by
  unfold bindPrefix at h ⊢
  grind

theorem bindAll_extends {es : List (String × String)} (hbound : Extends bound bound')
    (h : bindAll bound es = .ok inner) : ∃ inner', bindAll bound' es = .ok inner' ∧ Extends inner inner' := by
  induction es generalizing bound bound' with
  | nil =>
    cases h
    exact ⟨bound', rfl, hbound⟩
  | cons a es ih =>
    obtain ⟨name, v⟩ := a
    rw [bindAll] at h ⊢
    cases hp : declaredPrefix? name with
    | none =>
      rw [hp] at h
      exact ih hbound h
    | some q =>
      rw [hp] at h
      obtain ⟨middle, hmiddle, hrest⟩ := bind_eq_ok.1 h
      rw [bindPrefix_eq_ok hmiddle] at hrest
      obtain ⟨inner', hinner', hext⟩ := ih (hbound.cons q v) hrest
      refine ⟨inner', ?_, hext⟩
      dsimp only
      rw [bindPrefix_anywhere bound' hmiddle]
      exact hinner'

theorem checkPrefixes_extends (hbound : Extends bound bound') {names : List String} {seen : List (String × String)}
    (h : checkPrefixes bound seen names = .ok ()) : checkPrefixes bound' seen names = .ok () := by
  induction names generalizing seen with
  | nil => rfl
  | cons name names ih =>
    rw [checkPrefixes] at h ⊢
    rcases hsplit : splitName name with ⟨q, l⟩
    rw [hsplit] at h
    cases q with
    | none => exact ih h
    | some q =>
      dsimp only at h ⊢
      cases hlookup : List.lookup q bound with
      | none =>
        rw [hlookup] at h
        cases h
      | some uri =>
        rw [hlookup] at h
        rw [hbound q uri hlookup]
        dsimp only at h ⊢
        split at h
        · cases h
        · next hnew =>
          rw [if_neg hnew]
          exact ih h

theorem map_flatAttr_sortAttrs (attrs : List (String × String)) :
    (sortAttrs (attrs.map flatAttr)).map flatAttr = sortAttrs (attrs.map flatAttr) := by
  refine (List.map_congr_left fun a ha => ?_).trans (List.map_id _)
  obtain ⟨b, -, rfl⟩ := List.mem_map.1 ((sortAttrs_perm _).mem_iff.1 ha)
  exact flatAttr_flatAttr b

theorem names_flatAttr (attrs : List (String × String)) :
    (attrs.map flatAttr).map (·.1) = attrs.map (·.1) := by
  rw [List.map_map]
  rfl

theorem nodup_sortAttrs (h : (attrs.map (·.1)).Nodup) : ((sortAttrs (attrs.map flatAttr)).map (·.1)).Nodup := by
  refine ((sortAttrs_perm _).map _).nodup_iff.2 ?_
  rwa [names_flatAttr]

/-- A tag that has been read is read again where more prefixes are bound. -/
theorem ReadsTag.settled (h : ReadsTag bound name attrs inner) (hbound : Extends bound bound') :
    ∃ inner', ReadsTag bound' name (sortAttrs (attrs.map flatAttr)) inner' ∧ Extends inner inner' := by
  obtain ⟨inner', hbinds, hext⟩ := bindAll_extends hbound h.binds
  refine ⟨inner', ⟨nodup_sortAttrs h.nodup, ?_, ?_, fun p hp => ?_⟩, hext⟩
  · rw [map_flatAttr_sortAttrs, bindAll_sortAttrs, hbinds]
  · rw [map_flatAttr_sortAttrs, filter_not_isDeclared_sortAttrs]
    exact checkPrefixes_extends hext h.plain
  · obtain ⟨u, hu⟩ := Option.isSome_iff_exists.1 (h.tag p hp)
    rw [hext p u hu]
    rfl

/-! ## Rereading twice -/

theorem rereadNodes_singleton {n m : Node} : rereadNodes bound [n] = .ok [m] ↔ rereadNode bound n = .ok m := by
  rw [rereadNodes_cons]
  constructor
  · intro h
    obtain ⟨_, hm, h⟩ := bind_eq_ok.1 h
    cases h
    exact hm
  · intro h
    rw [h]
    rfl

mutual

/-- What rereading makes of a node, wherever it can be read: values are flat, and declarations stand in front. -/
def settleNode : Node → Node
  | .element name attrs children => .element name ⟨sortAttrs (attrs.entries.map flatAttr)⟩ (settleNodes children)
  | n => n

/-- What rereading makes of nodes. -/
def settleNodes : List Node → List Node
  | [] => []
  | n :: ns => settleNode n :: settleNodes ns

end

theorem eq_settleNodes {bound : Bindings} (ns : List Node) {ms : List Node} (h : rereadNodes bound ns = .ok ms) :
    ms = settleNodes ns := by
  cases ns with
  | nil =>
    cases h
    rfl
  | cons n ns =>
    rw [rereadNodes_cons] at h
    obtain ⟨m, hm, h⟩ := bind_eq_ok.1 h
    obtain ⟨ms', hms, h⟩ := bind_eq_ok.1 h
    cases h
    rw [settleNodes, eq_settleNodes ns hms]
    cases n with
    | element name attrs children =>
      obtain ⟨inner, below, -, hbelow, rfl⟩ := rereadNode_element.1 hm
      rw [settleNode, eq_settleNodes children hbelow]
    | _ =>
      cases hm
      rfl

theorem eq_settleNode {n m : Node} (h : rereadNode bound n = .ok m) : m = settleNode n :=
  (List.cons.inj (eq_settleNodes [n] (rereadNodes_singleton.2 h))).1

/-- What has been reread stays as it is where more prefixes are bound. -/
theorem rereadNodes_settled (ns : List Node) {ms : List Node} {bound bound' : Bindings}
    (h : rereadNodes bound ns = .ok ms) (hbound : Extends bound bound') :
    rereadNodes bound' ms = .ok ms := by
  cases ns with
  | nil =>
    cases h
    rfl
  | cons n ns =>
    rw [rereadNodes_cons] at h
    obtain ⟨m, hm, h⟩ := bind_eq_ok.1 h
    obtain ⟨ms', hms, h⟩ := bind_eq_ok.1 h
    cases h
    have hnode : rereadNode bound' m = .ok m := by
      cases n with
      | element name attrs children =>
        obtain ⟨inner, below, hreads, hbelow, rfl⟩ := rereadNode_element.1 hm
        obtain ⟨inner', hreads', hext⟩ := hreads.settled hbound
        refine rereadNode_element.2 ⟨inner', below, hreads', rereadNodes_settled children hbelow hext, ?_⟩
        rw [map_flatAttr_sortAttrs, sortAttrs_sortAttrs]
      | _ =>
        cases hm
        rfl
    rw [rereadNodes_cons, hnode, rereadNodes_settled ns hms hbound]
    rfl

theorem isText_settleNode (n : Node) : (settleNode n).isText = n.isText := by
  cases n <;> rfl

theorem textFirst_settleNodes (ns : List Node) : textFirst (settleNodes ns) = textFirst ns := by
  cases ns with
  | nil => rfl
  | cons n ns => exact isText_settleNode n

/-- What has been reread can be written, if it could be before. -/
theorem nodesOk_settleNodes (ns : List Node) (hns : NodesOk ns) : NodesOk (settleNodes ns) := by
  cases ns with
  | nil => trivial
  | cons n ns =>
    obtain ⟨hn, hapart, hns⟩ := hns
    rw [settleNodes, NodesOk, isText_settleNode, textFirst_settleNodes]
    refine ⟨?_, hapart, nodesOk_settleNodes ns hns⟩
    cases n with
    | element name attrs children =>
      refine ⟨hn.1, fun a ha => ?_, nodesOk_settleNodes children hn.2.2⟩
      obtain ⟨b, hb, rfl⟩ := List.mem_map.1 ((sortAttrs_perm _).mem_iff.1 ha)
      exact (hn.2.1 b hb).flat
    | _ => exact hn

/-! ## Line ends again -/

theorem unify_of_not_mem {s : String} (h : '\r' ∉ s.toList) : unify s = s := by
  rw [unify, unifyLineEnds_eq h, String.ofList_toList]

@[simp] theorem unify_flat (s : String) : unify (flat s) = flat s := by
  refine unify_of_not_mem fun hr => ?_
  rw [toList_flat] at hr
  obtain ⟨c, -, hc⟩ := List.mem_map.1 hr
  have hspace := isSpace_flatten (c := c) (by rw [hc]; rfl)
  rw [hc] at hspace
  exact absurd hspace (by decide)

theorem unifyAttr_flatAttr (a : String × String) : unifyAttr (flatAttr a) = flatAttr a := by
  rw [unifyAttr, flatAttr, unify_flat]

theorem map_unifyAttr_sortAttrs (attrs : List (String × String)) :
    (sortAttrs (attrs.map flatAttr)).map unifyAttr = sortAttrs (attrs.map flatAttr) := by
  refine (List.map_congr_left fun a ha => ?_).trans (List.map_id _)
  obtain ⟨b, -, rfl⟩ := List.mem_map.1 ((sortAttrs_perm _).mem_iff.1 ha)
  exact unifyAttr_flatAttr b

/-- What has been reread from unified line ends has unified line ends. -/
theorem unifyNodes_settleNodes (ns : List Node) :
    unifyNodes (settleNodes (unifyNodes ns)) = settleNodes (unifyNodes ns) := by
  cases ns with
  | nil => rfl
  | cons n ns =>
    rw [unifyNodes, settleNodes, unifyNodes, unifyNodes_settleNodes ns]
    cases n with
    | element name attrs children =>
      rw [unifyNode, settleNode, unifyNode, map_unifyAttr_sortAttrs, unifyNodes_settleNodes children]
    | text s =>
      refine congrArg (Node.text · :: _) (unify_of_not_mem ?_)
      rw [toList_unify]
      exact not_mem_unifyLineEnds _
    | _ => rfl

/-! ## Elements that have been stored -/

/-- The element can be written, and is read as it is, wherever at least the given prefixes are bound. -/
structure Element.Settled (bound : Bindings) (e : Element) : Prop where
  ok : e.Ok
  unified : unifyNode e.toNode = e.toNode
  reread : ∀ bound', Extends bound bound' → rereadNode bound' e.toNode = .ok e.toNode

/-- An element that has been written and read is settled. -/
theorem settled_of_read_write (he : e.Ok) (h : read e.write = .ok m) : m.Settled [("xml", xmlNamespace)] := by
  rw [read_write he] at h
  have hnode : rereadNode [("xml", xmlNamespace)] (unifyNode e.toNode) = .ok m.toNode := by
    rw [← toNode_unified, rereadNode_toNode, h]
    rfl
  have hsame := eq_settleNode hnode
  refine ⟨?_, ?_, fun bound' hbound => ?_⟩
  · have hok := (nodesOk_settleNodes [unifyNode e.toNode] ⟨he.unified, fun _ => rfl, trivial⟩).1
    rwa [← hsame] at hok
  · have hunified := (List.cons.inj (unifyNodes_settleNodes [e.toNode])).1
    rwa [← hsame] at hunified
  · exact rereadNodes_singleton.1 (rereadNodes_settled _ (rereadNodes_singleton.2 hnode) hbound)

theorem Element.Settled.mono (h : e.Settled bound) (hbound : Extends bound bound') : e.Settled bound' :=
  ⟨h.ok, h.unified, fun bound'' hbound' => h.reread bound'' (hbound.trans hbound')⟩

/-- An attribute value as it is read when it has been written: line ends are unified, and white space
becomes spaces. -/
def tidy (s : String) : String := flat (unify s)

/-- An attribute with a tidy value. -/
def tidyAttr (a : String × String) : String × String := (a.1, tidy a.2)

theorem map_flatten_of_forall {s : List Char} (h : ∀ c ∈ s, isSpace c → c = ' ') : s.map flatten = s := by
  have hchar : ∀ c ∈ s, flatten c = c := by
    intro c hc
    rw [flatten]
    split
    · next hspace => exact (h c hc hspace).symm
    · rfl
  rw [List.map_congr_left hchar, List.map_id']

/-- A value comes back as it is exactly if spaces are its only white space. -/
theorem tidy_eq_self_iff {s : String} : tidy s = s ↔ ∀ c ∈ s.toList, isSpace c → c = ' ' := by
  constructor
  · intro h c hc hspace
    rw [← h, tidy, toList_flat] at hc
    obtain ⟨d, -, rfl⟩ := List.mem_map.1 hc
    exact isSpace_flatten hspace
  · intro h
    have hreturn : '\r' ∉ s.toList := fun hmem => absurd (h _ hmem rfl) (by decide)
    rw [tidy, unify_of_not_mem hreturn, flat, map_flatten_of_forall h, String.ofList_toList]

theorem map_tidyAttr (attrs : List (String × String)) :
    (attrs.map unifyAttr).map flatAttr = attrs.map tidyAttr := by
  rw [List.map_map]
  rfl

theorem names_tidyAttr (attrs : List (String × String)) : (attrs.map tidyAttr).map (·.1) = attrs.map (·.1) := by
  rw [List.map_map]
  exact List.map_congr_left fun a _ => by rw [Function.comp_apply, tidyAttr]

/-- What reading makes of a written element. -/
theorem read_write_eq_ok (he : e.Ok) :
    read e.write = .ok m ↔ ∃ inner ms,
      ReadsTag [("xml", xmlNamespace)] e.name (e.attrs.entries.map unifyAttr) inner ∧
      rereadNodes inner (unifyNodes e.children) = .ok ms ∧
      m = ⟨e.name, ⟨sortAttrs (e.attrs.entries.map tidyAttr)⟩, ms⟩ := by
  have hnode : read e.write = .ok m ↔
      rereadNode [("xml", xmlNamespace)] (unifyNode e.toNode) = .ok m.toNode := by
    rw [read_write he, ← toNode_unified, rereadNode_toNode, map_eq_ok]
    constructor
    · exact fun h => ⟨m, h, rfl⟩
    · rintro ⟨m', h, heq⟩
      obtain ⟨name, attrs, children⟩ := m
      obtain ⟨name', attrs', children'⟩ := m'
      cases heq
      exact h
  rw [hnode, Element.toNode, unifyNode, rereadNode_element, ← map_tidyAttr]
  constructor
  · rintro ⟨inner, ms, hreads, hms, heq⟩
    obtain ⟨name, attrs, children⟩ := m
    cases heq
    exact ⟨inner, _, hreads, hms, rfl⟩
  · rintro ⟨inner, ms, hreads, hms, rfl⟩
    exact ⟨inner, ms, hreads, hms, rfl⟩

/-- An attribute of a written element is read with a tidy value. -/
theorem attr?_of_read_write (he : e.Ok) (h : read e.write = .ok m) (k : String) : m.attr? k = (e.attr? k).map tidy := by
  obtain ⟨inner, ms, hreads, -, rfl⟩ := (read_write_eq_ok he).1 h
  have hnodup : ((e.attrs.entries.map tidyAttr).map (·.1)).Nodup := by
    have hnames := hreads.nodup
    rwa [List.map_map] at hnames ⊢
  exact (Table.valueIn?_perm hnodup (sortAttrs_perm _).symm k).trans (Table.valueIn?_map tidy k _)

/-! ## Taking a declaration off -/

theorem declaredPrefix?_eq_some (hp : p ≠ "") (h : declaredPrefix? name = some p) : name = "xmlns:" ++ p := by
  rw [declaredPrefix?] at h
  split at h
  · cases h
    exact absurd rfl hp
  · split at h
    · next q hsplit =>
      cases h
      rw [splitName] at hsplit
      split at hsplit
      · next q l hcut =>
        cases hsplit
        have hjoin := join_cut (show ":".toList = [':'] from rfl) name
        rw [hcut] at hjoin
        rw [← hjoin, ← String.toList_inj, join, String.toList_ofList, String.toList_append]
        simp [List.intercalate]
      · cases hsplit
    · cases h

/-- A declaration can be left out where its prefix is bound outside. -/
theorem bindAll_erase {k ns : String} (hk : declaredPrefix? k = some p) (hp : p ≠ "") (hbound : Extends bound bound')
    (hlookup : bound'.lookup p = some ns) {es : List (String × String)} (hes : ∀ a ∈ es, a.1 = k → a.2 = ns)
    (h : bindAll bound es = .ok inner) :
    ∃ inner', bindAll bound' (es.filter (·.1 != k)) = .ok inner' ∧ Extends inner inner' := by
  induction es generalizing bound bound' with
  | nil =>
    cases h
    exact ⟨bound', rfl, hbound⟩
  | cons a es ih =>
    obtain ⟨name, v⟩ := a
    have hes' : ∀ a ∈ es, a.1 = k → a.2 = ns := fun a ha => hes a (by simp [ha])
    rw [bindAll] at h
    by_cases hname : name = k
    · -- the declaration that is left out: what it binds inside is bound outside already
      subst hname
      rw [hk] at h
      obtain ⟨middle, hmiddle, hrest⟩ := bind_eq_ok.1 h
      have hv : v = ns := hes (name, v) (by simp) rfl
      subst hv
      rw [bindPrefix_eq_ok hmiddle] at hrest
      rw [List.filter_cons_of_neg (by simp)]
      refine ih (fun q u hq => ?_) hlookup hes' hrest
      rw [List.lookup_cons] at hq
      cases hqp : q == p with
      | true =>
        rw [hqp] at hq
        rw [← hq, beq_iff_eq.1 hqp]
        exact hlookup
      | false =>
        rw [hqp] at hq
        exact hbound q u hq
    · rw [List.filter_cons_of_pos (by simpa using hname), bindAll]
      cases hq : declaredPrefix? name with
      | none =>
        rw [hq] at h
        exact ih hbound hlookup hes' h
      | some q =>
        rw [hq] at h
        obtain ⟨middle, hmiddle, hrest⟩ := bind_eq_ok.1 h
        rw [bindPrefix_eq_ok hmiddle] at hrest
        -- only one name declares a prefix, so this declaration is for another one
        have hqp : (p == q) = false := by
          rw [beq_eq_false_iff_ne]
          rintro rfl
          exact hname ((declaredPrefix?_eq_some hp hq).trans (declaredPrefix?_eq_some hp hk).symm)
        obtain ⟨inner', hinner', hext⟩ := ih (hbound.cons q v) (by rw [List.lookup_cons, hqp]; exact hlookup)
          hes' hrest
        refine ⟨inner', ?_, hext⟩
        dsimp only
        rw [bindPrefix_anywhere bound' hmiddle]
        exact hinner'

/-- The parts of a tag that is read as it is. -/
theorem rereadNode_eq_self {attrs : Table String} {children : List Node} :
    rereadNode bound (.element name attrs children) = .ok (.element name attrs children) ↔
      ∃ inner, ReadsTag bound name attrs.entries inner ∧ rereadNodes inner children = .ok children ∧
        sortAttrs (attrs.entries.map flatAttr) = attrs.entries := by
  rw [rereadNode_element]
  constructor
  · rintro ⟨inner, ms, hreads, hms, h⟩
    obtain ⟨entries⟩ := attrs
    injection h with _ hattrs hchildren
    injection hattrs with hentries
    subst hchildren
    exact ⟨inner, hreads, hms, hentries.symm⟩
  · rintro ⟨inner, hreads, hms, hentries⟩
    exact ⟨inner, children, hreads, hms, by rw [hentries]⟩

theorem map_filter_flatAttr (k : String) (es : List (String × String)) :
    (es.filter (·.1 != k)).map flatAttr = (es.map flatAttr).filter (·.1 != k) := by
  rw [List.filter_map]
  rfl

/-- A settled element without a declaration is settled where the prefix is bound outside. -/
theorem Element.Settled.erase (hm : m.Settled bound) {k ns : String} (hk : declaredPrefix? k = some p) (hp : p ≠ "")
    (hbound : bound.lookup p = none) (hns : m.attr? k = some ns) : (m.eraseAttr k).Settled ((p, ns) :: bound) := by
  obtain ⟨name, attrs, children⟩ := m
  have hok : IsQName name.toList ∧ (∀ a ∈ attrs.entries, AttrOk a) ∧ NodesOk children := hm.ok
  have hunified := hm.unified
  refine ⟨⟨hok.1, fun a ha => hok.2.1 a (List.mem_of_mem_filter ha), hok.2.2⟩, ?_, fun bound' hbound' => ?_⟩
  · change Node.element name ⟨attrs.entries.map unifyAttr⟩ (unifyNodes children) = .element name attrs children
      at hunified
    injection hunified with _ hentries hchildren
    change Node.element name ⟨(attrs.entries.filter (·.1 != k)).map unifyAttr⟩ (unifyNodes children) =
      .element name ⟨attrs.entries.filter (·.1 != k)⟩ children
    have hmap : attrs.entries.map unifyAttr = attrs.entries := congrArg Table.entries hentries
    have hfilter : (attrs.entries.filter (·.1 != k)).map unifyAttr =
        (attrs.entries.map unifyAttr).filter (·.1 != k) := by
      rw [List.filter_map]
      rfl
    rw [hfilter, hmap, hchildren]
  · -- the prefix was free before, so binding it takes nothing away
    have hless : Extends bound bound' := by
      intro q u hq
      refine hbound' q u ?_
      rw [List.lookup_cons]
      cases hqp : q == p with
      | true =>
        rw [beq_iff_eq.1 hqp, hbound] at hq
        cases hq
      | false => exact hq
    have hlookup : bound'.lookup p = some ns := hbound' p ns (by simp)
    obtain ⟨inner, hreads, hchildren, hentries⟩ := rereadNode_eq_self.1 (hm.reread bound' hless)
    have hsorted := map_flatAttr_sortAttrs attrs.entries
    rw [hentries] at hsorted
    have hvalue : ∀ a ∈ attrs.entries.map flatAttr, a.1 = k → a.2 = ns := by
      rw [hsorted]
      rintro ⟨i, v⟩ ha rfl
      have hget := Table.valueIn?_of_mem hreads.nodup ha
      exact Option.some.inj (hget.symm.trans hns)
    obtain ⟨inner', hbinds, hext⟩ := bindAll_erase hk hp (extends_refl bound') hlookup hvalue hreads.binds
    refine rereadNode_eq_self.2 ⟨inner', ⟨?_, ?_, ?_, fun q hq => ?_⟩, ?_, ?_⟩
    · exact (List.Sublist.map _ List.filter_sublist).nodup hreads.nodup
    · exact (congrArg (bindAll bound') (map_filter_flatAttr k attrs.entries)).trans hbinds
    · have hplain : ((attrs.entries.map flatAttr).filter (·.1 != k)).filter (!isDeclared ·) =
          (attrs.entries.map flatAttr).filter (!isDeclared ·) := by
        rw [List.filter_filter]
        refine List.filter_congr fun a _ => ?_
        by_cases ha : a.1 = k
        · simp [isDeclared, ha, hk]
        · simp [ha]
      have hcheck := checkPrefixes_extends hext hreads.plain
      rw [← hplain, ← map_filter_flatAttr] at hcheck
      exact hcheck
    · obtain ⟨u, hu⟩ := Option.isSome_iff_exists.1 (hreads.tag q hq)
      rw [hext q u hu]
      rfl
    · exact rereadNodes_settled children hchildren hext
    · change sortAttrs ((attrs.entries.filter (·.1 != k)).map flatAttr) = attrs.entries.filter (·.1 != k)
      rw [map_filter_flatAttr, ← filter_sortAttrs, hentries]

end Stitchwork.Markup
