/- # Stitchwork.Proofs.Pattern.Census — which definitions a tree gives.

The definitions of a kind that are read from a tree are the elements with its tag, at any depth, in document
order and under their own names.  Reading succeeds exactly if each of them can be read by itself and no name
that must be unique comes twice.
-/
import Mathlib.Data.List.Forall2
import Stitchwork.Proofs.Pattern.Outline

namespace Stitchwork

variable {α β : Type}

/-! ## Work that succeeds -/

/-- The work succeeds, whatever has been drawn before. -/
def Succeeds (x : Work α) : Prop := ∀ n, ∃ a n', x.run.run n = (.ok a, n')

theorem succeeds_pure (a : α) : Succeeds (pure a) := fun n => ⟨a, n, rfl⟩

theorem succeeds_liftExcept {r : Except Error α} {a : α} (h : r = .ok a) : Succeeds (liftExcept r) := by
  subst h
  exact fun n => ⟨a, n, rfl⟩

theorem succeeds_freshIdentifier : Succeeds freshIdentifier := fun n => ⟨_, n + 1, rfl⟩

theorem succeeds_bind {P : α → Prop} {x : Work α} {f : α → Work β} (hx : Succeeds x) (hP : Ensures x P)
    (hf : ∀ a, P a → Succeeds (f a)) : Succeeds (x >>= f) := by
  intro n
  obtain ⟨a, m, hrun⟩ := hx n
  obtain ⟨b, n', hrun'⟩ := hf a (hP n a m hrun) m
  refine ⟨b, n', ?_⟩
  simp only [ExceptT.run_bind, StateT.run_bind, hrun]
  exact hrun'

end Stitchwork

namespace Stitchwork.Pattern

open Stitchwork.Markup

variable {r : Reading} {sources : Sources} {kinds : List Kind} {e : Element} {d d' : Document} {dir : String}
  {kind : Kind} {xs : List Definition} {os : List Element} {x : Definition}

/-! ## Names -/

/-- The name of a definition; metadata has none. -/
def Definition.name : Definition → String
  | .action a => a.name
  | .block b => b.name
  | .chart c => c.name
  | .color c => c.name
  | .component c => c.name
  | .config c => c.name
  | .image i => i.name
  | .metadata _ => ""
  | .value v => v.name

/-- The names of the definitions of a kind. -/
def Document.names (d : Document) (k : Kind) : List String := (d.listed k).map Definition.name

/-- Must the names of definitions of this kind be unique? -/
def Kind.isUnique : Kind → Bool
  | .action => true
  | .block => true
  | .chart => true
  | .color => true
  | .image => true
  | _ => false

/-- The texts of the metadata of a document. -/
def Document.metadataTexts (d : Document) : List String := (d.metadata.map Metadata.elements).getD []

/-- The texts of metadata. -/
def Definition.metadataTexts : Definition → List String
  | .metadata m => m.elements
  | _ => []

/-- The document has got definitions of a kind; of metadata only the texts show. -/
def Gained (d d' : Document) (k : Kind) (xs : List Definition) : Prop :=
  if k = .metadata then d'.metadataTexts = d.metadataTexts ++ xs.flatMap Definition.metadataTexts
  else d'.listed k = d.listed k ++ xs

theorem gained_nil (d : Document) (k : Kind) : Gained d d k [] := by
  rw [Gained]
  split <;> simp

theorem Gained.trans {d'' : Document} {k : Kind} {ys : List Definition} (h : Gained d d' k xs)
    (h' : Gained d' d'' k ys) : Gained d d'' k (xs ++ ys) := by
  unfold Gained at h h' ⊢
  split at h
  · next hk =>
    rw [if_pos hk] at h' ⊢
    rw [h', h, List.flatMap_append, List.append_assoc]
  · next hk =>
    rw [if_neg hk] at h' ⊢
    rw [h', h, List.append_assoc]

theorem Gained.names {k : Kind} (h : Gained d d' k xs) (hk : k ≠ .metadata) :
    d'.names k = d.names k ++ xs.map Definition.name := by
  rw [Gained, if_neg hk] at h
  rw [Document.names, h, List.map_append]
  rfl

/-- What adding a definition adds. -/
theorem gained_add (h : d.add x = .ok d') (k : Kind) : Gained d d' k (if k = x.kind then [x] else []) := by
  by_cases hx : x.kind = .metadata
  · cases x with
    | metadata m =>
      rw [Document.add_metadata] at h
      cases h
      by_cases hk : k = .metadata
      · subst hk
        simp [Gained, Document.metadataTexts, Definition.kind, Definition.metadataTexts]
      · rw [Gained, if_neg hk, Document.listed_withMetadata d _ hk, Definition.kind, if_neg hk, List.append_nil]
    | _ => cases hx
  · by_cases hk : k = .metadata
    · subst hk
      have htexts : d'.metadataTexts = d.metadataTexts := by
        have hlisted := Document.listed_add h hx .metadata
        rw [if_neg (Ne.symm hx), List.append_nil] at hlisted
        rw [Document.metadataTexts, Document.metadataTexts]
        rw [Document.listed, Document.listed] at hlisted
        have hsame : d'.metadata = d.metadata := by
          cases hd : d.metadata <;> cases hd' : d'.metadata <;> simp_all
        rw [hsame]
      rw [Gained, if_pos rfl, if_neg (Ne.symm hx), htexts, List.flatMap_nil, List.append_nil]
    · rw [Gained, if_neg hk]
      exact Document.listed_add h hx k

theorem Document.names_add (h : d.add x = .ok d') {k : Kind} (hk : k ≠ .metadata) :
    d'.names k = d.names k ++ if k = x.kind then [x.name] else [] := by
  rw [(gained_add h k).names hk]
  split <;> rfl

theorem addUnique_of_not_mem {α : Type} (nameOf : α → String) (inj : α → Definition)
    (hname : ∀ a, (inj a).name = nameOf a) {xs : List α} {x : α} (h : (inj x).name ∉ (xs.map inj).map Definition.name) :
    addUnique kind nameOf xs x = .ok (xs ++ [x]) := by
  rw [addUnique, if_neg]
  intro hany
  obtain ⟨y, hy, heq⟩ := List.any_eq_true.1 hany
  rw [List.map_map] at h
  refine h (List.mem_map.2 ⟨y, hy, ?_⟩)
  rw [Function.comp_apply, hname, hname]
  exact beq_iff_eq.1 heq

/-- A definition can be added unless its name is taken. -/
theorem Document.add_of_not_mem (h : x.kind.isUnique → x.name ∉ d.names x.kind) : ∃ d', d.add x = .ok d' := by
  cases x with
  | metadata m => exact ⟨_, add_metadata d m⟩
  | component c => exact ⟨_, rfl⟩
  | config c => exact ⟨_, rfl⟩
  | value v => exact ⟨_, rfl⟩
  | action a => exact ⟨_, by rw [add, addUnique_of_not_mem Action.name .action (fun _ => rfl) (h rfl)]; rfl⟩
  | block b => exact ⟨_, by rw [add, addUnique_of_not_mem Block.name .block (fun _ => rfl) (h rfl)]; rfl⟩
  | chart c => exact ⟨_, by rw [add, addUnique_of_not_mem Chart.name .chart (fun _ => rfl) (h rfl)]; rfl⟩
  | color c => exact ⟨_, by rw [add, addUnique_of_not_mem Color.name .color (fun _ => rfl) (h rfl)]; rfl⟩
  | image i => exact ⟨_, by rw [add, addUnique_of_not_mem Image.name .image (fun _ => rfl) (h rfl)]; rfl⟩

/-! ## One definition -/

/-- Can the element be read as a definition of the kind? -/
def Readable (sources : Sources) (dir : String) : Kind → Element → Prop
  | .block, e => ∃ kept, prune [] e.children = .ok kept
  | .chart, e => Text.hasChar (e.attr "name") ':' = false ∧ ∃ kept, prune chartElements e.children = .ok kept
  | .color, e => ∃ v, normalColor (Text.lower (Text.trim (e.attr "value"))) = .ok v
  | .component, e => ∃ kept, prune [] e.children = .ok kept
  | .image, e => ∃ i, Image.ofElement sources dir e = .ok i
  | .metadata, e => ∃ kept, pruneMetadata e.children = .ok kept
  | _, _ => True

theorem attr_outline (e : Element) {k : String} (hk : isKept k) : (outline isKept e).attr k = e.attr k := by
  rw [Element.attr, Element.attr]
  exact congrArg (Option.getD · "") (attr?_outline e hk)

/-- Whether an element can be read shows in its outline. -/
theorem readable_outline : Readable sources dir kind (outline isKept e) ↔ Readable sources dir kind e := by
  have hprune : ∀ allowed, (∃ kept, prune allowed (outline isKept e).children = .ok kept) ↔
      ∃ kept, prune allowed e.children = .ok kept := by
    intro allowed
    rw [outline, prune_outlineNodes]
    cases prune allowed e.children <;> simp [Except.map]
  cases kind with
  | block => exact hprune []
  | component => exact hprune []
  | chart =>
    rw [Readable, Readable, hprune, attr_outline e (by decide)]
  | color => rw [Readable, Readable, attr_outline e (by decide)]
  | image =>
    have himage : Image.ofElement sources dir (outline isKept e) = Image.ofElement sources dir e := by
      rw [Image.ofElement, Image.ofElement, Image.sizeOf, Image.sizeOf, attr?_outline e (by decide),
        attr?_outline e (by decide), attr_outline e (by decide), attr_outline e (by decide)]
    rw [Readable, Readable, himage]
  | metadata =>
    rw [Readable, Readable, outline, pruneMetadata_outlineNodes]
    cases pruneMetadata e.children <;> simp [Except.map]
  | _ => exact Iff.rfl

theorem Color.ofElement_eq_ok {c : Color} : Color.ofElement e = .ok c ↔
    ∃ v, normalColor (Text.lower (Text.trim (e.attr "value"))) = .ok v ∧
      c = ⟨e.attr "name", v, e.attr "description"⟩ := by
  rw [ofElement, bind_eq_ok]
  simp only [Except.ok.injEq, eq_comm]

theorem Image.name_of_ofElement {i : Image} (h : Image.ofElement sources dir e = .ok i) : i.name = e.attr "name" := by
  obtain ⟨size, -, h⟩ := bind_eq_ok.1 h
  split at h
  · split at h
    · cases h
    · obtain ⟨content, -, h⟩ := bind_eq_ok.1 h
      obtain ⟨picture, -, h⟩ := bind_eq_ok.1 h
      cases h
      rfl
  · obtain ⟨bs, -, h⟩ := bind_eq_ok.1 h
    cases h
    rfl

theorem Block.ofElement_eq_ok {p : Block × Element} : Block.ofElement e = .ok p ↔
    ∃ kept, prune [] e.children = .ok kept ∧
      p = (⟨e.attr "name", store (kept.map declareNode), readBlockParams (e.attr "params")⟩,
        { e with children := kept.map declareNode }) := by
  rw [ofElement, bind_eq_ok]
  simp only [Except.ok.injEq, eq_comm]

/-- A row of a chart with the declaration on it; other elements as they are. -/
def Chart.declareRow (n : Node) : Node := if isRow n then declareNode n else n

theorem Chart.ofElement_eq_ok {p : Chart × Element} : Chart.ofElement e = .ok p ↔
    Text.hasChar (e.attr "name") ':' = false ∧ ∃ kept, prune chartElements e.children = .ok kept ∧
      p = (⟨e.attr "name", store ((kept.map declareRow).filter isRow), e.attr? "condition"⟩,
        { e with children := kept.map declareRow }) := by
  rw [ofElement]
  cases hcolon : Text.hasChar (e.attr "name") ':' with
  | true =>
    simp only [Bool.true_eq_false, false_and, iff_false]
    intro h
    cases h
  | false =>
    change (prune chartElements e.children >>= _) = _ ↔ _
    rw [bind_eq_ok]
    constructor
    · rintro ⟨kept, hkept, hp⟩
      cases hp
      exact ⟨rfl, kept, hkept, rfl⟩
    · rintro ⟨-, kept, hkept, rfl⟩
      exact ⟨kept, hkept, rfl⟩

theorem Metadata.ofElement_eq_ok {p : Metadata × Element} : Metadata.ofElement e = .ok p ↔
    ∃ kept, pruneMetadata e.children = .ok kept ∧ p = (⟨store kept⟩, { e with children := kept }) := by
  rw [ofElement, bind_eq_ok]
  simp only [Except.ok.injEq, eq_comm]

theorem Component.ensures_ofElement (e : Element) : Ensures (Component.ofElement e) fun p =>
    ∃ id kept, prune [] e.children = .ok kept ∧
      p = (⟨e.attr "name", some id, some (store (kept.map declareNode)), e.attr? "condition"⟩,
        { e with children := kept.map declareNode }) := by
  refine ensures_bind (P := fun _ => True) (fun _ _ _ _ => trivial) fun id _ => ?_
  refine ensures_bind (P := fun kept => prune [] e.children = .ok kept) (ensures_liftExcept fun _ h => h)
    fun kept hkept => ?_
  exact ensures_pure ⟨id, kept, hkept, rfl⟩

theorem NamedValue.ensures_ofElement (e : Element) : Ensures (NamedValue.ofElement e) fun v =>
    ∃ id, v = ⟨e.attr "name", e.attr "value", some id, e.attr? "condition"⟩ := by
  refine ensures_bind (P := fun _ => True) (fun _ _ _ _ => trivial) fun id _ => ?_
  exact ensures_pure ⟨id, rfl⟩

theorem outline_children {ns : List Node} (h : outlineNodes isKept ns = outlineNodes isKept e.children) :
    outline isKept { e with children := ns } = outline isKept e := by
  rw [outline, outline, h]

theorem outlineNodes_declared {allowed : List String} {ns kept : List Node} {f : Node → Node}
    (hf : ∀ n, outlineNode isKept (f n) = outlineNode isKept n) (h : prune allowed ns = .ok kept) :
    outlineNodes isKept (kept.map f) = outlineNodes isKept ns :=
  (outlineNodes_map hf kept).trans (outlineNodes_of_prune isKept ns h)

/-- What reading a definition gives, and what it needs. -/
theorem ensures_ofElement (sources : Sources) (dir : String) (kind : Kind) (e : Element) :
    Ensures (Definition.ofElement sources dir kind e) fun p =>
      p.1.kind = kind ∧ (kind ≠ .metadata → p.1.name = e.attr "name") ∧ outline isKept p.2 = outline isKept e ∧
        Readable sources dir kind e := by
  cases kind with
  | action => exact ensures_pure ⟨rfl, fun _ => rfl, rfl, trivial⟩
  | config => exact ensures_pure ⟨rfl, fun _ => rfl, rfl, trivial⟩
  | value =>
    refine ensures_bind (NamedValue.ensures_ofElement e) ?_
    rintro _ ⟨id, rfl⟩
    exact ensures_pure ⟨rfl, fun _ => rfl, rfl, trivial⟩
  | color =>
    refine ensures_bind (ensures_liftExcept fun c => Color.ofElement_eq_ok.1) ?_
    rintro _ ⟨v, hv, rfl⟩
    exact ensures_pure ⟨rfl, fun _ => rfl, rfl, v, hv⟩
  | image =>
    refine ensures_bind (ensures_liftExcept fun i hi => hi) fun i hi => ?_
    exact ensures_pure ⟨rfl, fun _ => Image.name_of_ofElement hi, rfl, i, hi⟩
  | block =>
    refine ensures_bind (ensures_liftExcept fun p => Block.ofElement_eq_ok.1) ?_
    rintro _ ⟨kept, hkept, rfl⟩
    exact ensures_pure ⟨rfl, fun _ => rfl,
      outline_children (outlineNodes_declared (outlineNode_declareNode fun _ h => h) hkept), kept, hkept⟩
  | chart =>
    refine ensures_bind (ensures_liftExcept fun p => Chart.ofElement_eq_ok.1) ?_
    rintro _ ⟨hcolon, kept, hkept, rfl⟩
    have hrow : ∀ n, outlineNode isKept (Chart.declareRow n) = outlineNode isKept n := by
      intro n
      rw [Chart.declareRow]
      split
      · exact outlineNode_declareNode (fun _ h => h) n
      · rfl
    exact ensures_pure ⟨rfl, fun _ => rfl, outline_children (outlineNodes_declared hrow hkept), hcolon,
      kept, hkept⟩
  | component =>
    refine ensures_bind (Component.ensures_ofElement e) ?_
    rintro _ ⟨id, kept, hkept, rfl⟩
    exact ensures_pure ⟨rfl, fun _ => rfl,
      outline_children (outlineNodes_declared (outlineNode_declareNode fun _ h => h) hkept), kept, hkept⟩
  | metadata =>
    refine ensures_bind (ensures_liftExcept fun p => Metadata.ofElement_eq_ok.1) ?_
    rintro _ ⟨kept, hkept, rfl⟩
    exact ensures_pure ⟨rfl, fun h => absurd rfl h,
      outline_children (outlineNodes_of_pruneMetadata isKept e.children hkept), kept, hkept⟩

/-- The element is read as the definition. -/
def Reads (sources : Sources) (dir : String) (kind : Kind) (e : Element) (x : Definition) : Prop :=
  ∃ n e' n', (Definition.ofElement sources dir kind e).run.run n = (.ok (x, e'), n')

theorem ensures_reads (sources : Sources) (dir : String) (kind : Kind) (e : Element) :
    Ensures (Definition.ofElement sources dir kind e) fun p => Reads sources dir kind e p.1 :=
  fun n p n' h => ⟨n, p.2, n', h⟩

/-- An element with the outline is read as the definition. -/
def Defines (sources : Sources) (dir : String) (kind : Kind) (o : Element) (x : Definition) : Prop :=
  ∃ e, outline isKept e = o ∧ Reads sources dir kind e x

/-- What shows of a definition in the outline of its element. -/
theorem Defines.head {o : Element} (h : Defines sources dir kind o x) :
    (kind ≠ .metadata → x.name = o.attr "name") ∧ Readable sources dir kind o := by
  obtain ⟨e, rfl, n, e', n', hrun⟩ := h
  obtain ⟨-, hname, -, hreadable⟩ := ensures_ofElement sources dir kind e n _ n' hrun
  refine ⟨fun hk => ?_, readable_outline.2 hreadable⟩
  rw [attr_outline e (by decide)]
  exact hname hk

/-- Definitions that elements with the given outlines are read as. -/
def AllDefine (sources : Sources) (dir : String) (kind : Kind) : List Element → List Definition → Prop :=
  List.Forall₂ (Defines sources dir kind)

theorem AllDefine.names (h : AllDefine sources dir kind os xs) (hk : kind ≠ .metadata) :
    xs.map Definition.name = os.map (·.attr "name") := by
  induction h with
  | nil => rfl
  | cons hx _ ih => rw [List.map_cons, List.map_cons, hx.head.1 hk, ih]

theorem AllDefine.readable (h : AllDefine sources dir kind os xs) : ∀ o ∈ os, Readable sources dir kind o := by
  induction h with
  | nil => exact nofun
  | cons hx _ ih => exact List.forall_mem_cons.2 ⟨hx.head.2, ih⟩

theorem succeeds_uniqueIdOf (e : Element) : Succeeds (uniqueIdOf e) := by
  rw [uniqueIdOf]
  split
  · exact succeeds_pure _
  · exact succeeds_freshIdentifier

theorem succeeds_ofElement (h : Readable sources dir kind e) : Succeeds (Definition.ofElement sources dir kind e) := by
  have htrue : ∀ {α : Type} (x : Work α), Ensures x fun _ => True := fun _ _ _ _ _ => trivial
  cases kind with
  | action => exact succeeds_pure _
  | config => exact succeeds_pure _
  | value =>
    refine succeeds_bind ?_ (htrue _) fun v _ => succeeds_pure _
    exact succeeds_bind (succeeds_uniqueIdOf e) (htrue _) fun id _ => succeeds_pure _
  | color =>
    obtain ⟨v, hv⟩ := h
    exact succeeds_bind (succeeds_liftExcept (Color.ofElement_eq_ok.2 ⟨v, hv, rfl⟩)) (htrue _)
      fun c _ => succeeds_pure _
  | image =>
    obtain ⟨i, hi⟩ := h
    exact succeeds_bind (succeeds_liftExcept hi) (htrue _) fun i _ => succeeds_pure _
  | block =>
    obtain ⟨kept, hkept⟩ := h
    exact succeeds_bind (succeeds_liftExcept (Block.ofElement_eq_ok.2 ⟨kept, hkept, rfl⟩)) (htrue _)
      fun p _ => succeeds_pure _
  | chart =>
    obtain ⟨hcolon, kept, hkept⟩ := h
    exact succeeds_bind (succeeds_liftExcept (Chart.ofElement_eq_ok.2 ⟨hcolon, kept, hkept, rfl⟩)) (htrue _)
      fun p _ => succeeds_pure _
  | component =>
    obtain ⟨kept, hkept⟩ := h
    refine succeeds_bind ?_ (htrue _) fun p _ => succeeds_pure _
    refine succeeds_bind (succeeds_uniqueIdOf e) (htrue _) fun id _ => ?_
    exact succeeds_bind (succeeds_liftExcept hkept) (htrue _) fun kept _ => succeeds_pure _
  | metadata =>
    obtain ⟨kept, hkept⟩ := h
    exact succeeds_bind (succeeds_liftExcept (Metadata.ofElement_eq_ok.2 ⟨kept, hkept, rfl⟩)) (htrue _)
      fun p _ => succeeds_pure _

/-! ## The definitions of a tree -/

section

variable {sources : Sources} {dir : String} {kind : Kind}

/-- Definitions are read from elements of which `T` holds, and reading them leaves such elements behind; `R` relates
the outline of the element to the definition. -/
structure Tracks (sources : Sources) (dir : String) (T : Element → Prop) (R : Kind → Element → Definition → Prop) :
    Prop where
  hereditary : Hereditary T
  reads : ∀ kind e, T e → Ensures (Definition.ofElement sources dir kind e) fun p =>
    T p.2 ∧ R kind (outline isKept e) p.1

/-- Whatever the tree is, elements with the outlines are read as the definitions. -/
theorem tracks_defines (sources : Sources) (dir : String) : Tracks sources dir (fun _ => True) (Defines sources dir) where
  hereditary := ⟨fun _ _ => trivial, fun _ _ _ => trivial⟩
  reads kind e _ := (ensures_reads sources dir kind e).mono fun _ hp => ⟨trivial, e, rfl, hp⟩

variable {T : Element → Prop} {R : Kind → Element → Definition → Prop}

/-- What reading leaves behind when it has read the definitions with the given outlines, which may differ from
kind to kind. -/
structure Advanced (T : Element → Prop) (R : Kind → Element → Definition → Prop) (os : Kind → List Element)
    (r r' : Reading) : Prop where
  root : outline isKept r'.root = outline isKept r.root
  tree : T r'.root
  gained : ∀ k, ∃ xs, List.Forall₂ (R k) (os k) xs ∧ Gained r.document r'.document k xs

/-- The outlines, all of them of one kind. -/
def ofKind (kind : Kind) (os : List Element) (k : Kind) : List Element := if k = kind then os else []

theorem Advanced.names {os : Kind → List Element} {r' : Reading} (h : Advanced T (Defines sources dir) os r r')
    {k : Kind} (hk : k ≠ .metadata) : r'.document.names k = r.document.names k ++ (os k).map (·.attr "name") := by
  obtain ⟨xs, hxs, hgained⟩ := h.gained k
  rw [hgained.names hk, AllDefine.names hxs hk]

theorem Advanced.readable {os : Kind → List Element} {r' : Reading} (h : Advanced T (Defines sources dir) os r r')
    (k : Kind) : ∀ o ∈ os k, Readable sources dir k o := by
  obtain ⟨xs, hxs, -⟩ := h.gained k
  exact AllDefine.readable hxs

theorem Advanced.trans {os os' : Kind → List Element} {r' r'' : Reading} (h : Advanced T R os r r')
    (h' : Advanced T R os' r' r'') : Advanced T R (fun k => os k ++ os' k) r r'' := by
  refine ⟨h'.root.trans h.root, h'.tree, fun k => ?_⟩
  obtain ⟨xs, hxs, hgained⟩ := h.gained k
  obtain ⟨ys, hys, hgained'⟩ := h'.gained k
  exact ⟨xs ++ ys, List.rel_append hxs hys, hgained.trans hgained'⟩

theorem advanced_nil (hr : T r.root) : Advanced T R (fun _ => []) r r :=
  ⟨rfl, hr, fun k => ⟨[], .nil, gained_nil _ k⟩⟩

section

variable (hR : Tracks sources dir T R)

include hR

/-- One definition. -/
theorem ensures_readAt_advanced (hr : T r.root) {place : List Nat} {o : Element}
    (ho : elementAt? place (outline isKept r.root) = some o) :
    Ensures (readAt sources dir kind r place) (Advanced T R (ofKind kind [o]) r) := by
  rw [elementAt?_outline, Option.map_eq_some_iff] at ho
  obtain ⟨e, he, rfl⟩ := ho
  rw [readAt, he]
  refine ensures_bind ((ensures_ofElement sources dir kind e).and
    (hR.reads kind e (hR.hereditary.elementAt hr he))) ?_
  rintro p ⟨⟨hkind, -, houtline, -⟩, hleft, hreads⟩
  refine ensures_bind (ensures_liftExcept fun d hd => hd) fun d hd => ?_
  refine ensures_pure ⟨outline_replaceAt he houtline, hR.hereditary.replaceAt hleft place hr,
    fun k => ⟨_, ?_, gained_add hd k⟩⟩
  rw [ofKind, hkind]
  split
  · next hk =>
    subst hk
    exact .cons hreads .nil
  · exact .nil

/-- All definitions at the given places. -/
theorem ensures_readPlaces {ps : List (List Nat)} (hr : T r.root)
    (hos : ps.map (elementAt? · (outline isKept r.root)) = os.map some) :
    Ensures (ps.foldlM (readAt sources dir kind) r) (Advanced T R (ofKind kind os) r) := by
  induction ps generalizing r os with
  | nil =>
    rw [List.map_nil, eq_comm, List.map_eq_nil_iff] at hos
    subst hos
    have hnil : ofKind kind [] = fun _ => [] := funext fun k => ite_self _
    rw [hnil]
    exact ensures_pure (advanced_nil hr)
  | cons place ps ih =>
    cases os with
    | nil => cases hos
    | cons o os =>
      rw [List.map_cons, List.map_cons, List.cons.injEq] at hos
      rw [List.foldlM_cons]
      refine ensures_bind (ensures_readAt_advanced hR hr hos.1) fun r' hr' => ?_
      have hrest := hos.2
      rw [← hr'.root] at hrest
      refine (ih hr'.tree hrest).mono fun r'' hr'' => ?_
      have hcons : ofKind kind (o :: os) = fun k => ofKind kind [o] k ++ ofKind kind os k := by
        funext k
        unfold ofKind
        split <;> rfl
      rw [hcons]
      exact hr'.trans hr''

end

/-- The outlines of the elements that define things of a kind. -/
def definers (root : Element) (kind : Kind) : List Element :=
  descendants kind.tag (outline isKept root).children

theorem map_elementAt?_definers (kind : Kind) (root : Element) :
    (places kind.tag root).map (elementAt? · (outline isKept root)) = (definers root kind).map some := by
  rw [← places_outline]
  exact map_elementAt?_places kind.tag (outline isKept root)

theorem ensures_readKind (hR : Tracks sources dir T R) (hr : T r.root) (kind : Kind) :
    Ensures (readKind sources dir r kind) (Advanced T R (ofKind kind (definers r.root kind)) r) :=
  ensures_readPlaces hR hr (map_elementAt?_definers kind r.root)

theorem definers_congr {root root' : Element} (h : outline isKept root' = outline isKept root) (kind : Kind) :
    definers root' kind = definers root kind := by
  rw [definers, definers, h]

/-- The outlines of the elements that define things of the given kinds. -/
def allDefiners (kinds : List Kind) (root : Element) (k : Kind) : List Element :=
  if k ∈ kinds then definers root k else []

theorem ensures_readAllKinds (hR : Tracks sources dir T R) (hkinds : kinds.Nodup) (hr : T r.root) :
    Ensures (kinds.foldlM (readKind sources dir) r) (Advanced T R (allDefiners kinds r.root) r) := by
  induction kinds generalizing r with
  | nil =>
    have hnil : allDefiners [] r.root = fun _ => [] := funext fun k => if_neg List.not_mem_nil
    rw [hnil]
    exact ensures_pure (advanced_nil hr)
  | cons kind kinds ih =>
    rw [List.nodup_cons] at hkinds
    rw [List.foldlM_cons]
    refine ensures_bind (ensures_readKind hR hr kind) fun r' hr' => ?_
    refine (ih hkinds.2 hr'.tree).mono fun r'' hr'' => ?_
    have hcons : allDefiners (kind :: kinds) r.root =
        fun k => ofKind kind (definers r.root kind) k ++ allDefiners kinds r'.root k := by
      funext k
      rw [allDefiners, allDefiners, ofKind, definers_congr hr'.root]
      by_cases hk : k = kind
      · subst hk
        simp [hkinds.1]
      · simp [hk]
    rw [hcons]
    exact hr'.trans hr''

theorem ensures_readKinds_tracked (hR : Tracks sources dir T R) (hkinds : kinds.Nodup) (d : Document) {root : Element}
    (hroot : T root) :
    Ensures (readKinds sources dir kinds d root) fun d' => ∀ k, ∃ xs,
      List.Forall₂ (R k) (allDefiners kinds root k) xs ∧ Gained d d' k xs :=
  ensures_bind (ensures_readAllKinds hR hkinds (r := ⟨d, root⟩) hroot) fun _ hr => ensures_pure hr.gained

/-- **The definitions that a document gets from a tree:** for each kind those that the elements with its tag are
read as, in document order. -/
theorem ensures_readKinds_gained (hkinds : kinds.Nodup) (d : Document) (root : Element) :
    Ensures (readKinds sources dir kinds d root) fun d' => ∀ k, ∃ xs,
      AllDefine sources dir k (allDefiners kinds root k) xs ∧ Gained d d' k xs :=
  ensures_readKinds_tracked (tracks_defines sources dir) hkinds d trivial

/-- The definitions that a document gets from a tree have the names of their elements. -/
theorem ensures_readKinds_names (hkinds : kinds.Nodup) (d : Document) (root : Element) :
    Ensures (readKinds sources dir kinds d root) fun d' =>
      (∀ k, k ≠ .metadata → d'.names k = d.names k ++
        if k ∈ kinds then (definers root k).map (·.attr "name") else []) ∧
      ∀ k ∈ kinds, ∀ o ∈ definers root k, Readable sources dir k o := by
  refine ensures_bind (ensures_readAllKinds (tracks_defines sources dir) hkinds (r := ⟨d, root⟩) trivial) fun r hr =>
    ensures_pure ⟨fun k hk => ?_, fun k hk => ?_⟩
  · rw [hr.names hk, allDefiners]
    split <;> rfl
  · have hreadable := hr.readable k
    rwa [allDefiners, if_pos hk] at hreadable

/-! ## When reading succeeds -/

/-- No name that must be unique comes twice when names are added. -/
def Distinct (d : Document) (kind : Kind) (names : List String) : Prop :=
  kind.isUnique → (d.names kind ++ names).Nodup

theorem succeeds_readAt {place : List Nat} {o : Element} (ho : elementAt? place (outline isKept r.root) = some o)
    (hreadable : Readable sources dir kind o) (hnew : kind.isUnique → o.attr "name" ∉ r.document.names kind) :
    Succeeds (readAt sources dir kind r place) := by
  rw [elementAt?_outline, Option.map_eq_some_iff] at ho
  obtain ⟨e, he, rfl⟩ := ho
  rw [readAt, he]
  refine succeeds_bind (succeeds_ofElement (readable_outline.1 hreadable)) (ensures_ofElement sources dir kind e) ?_
  rintro p ⟨hkind, hname, -, -⟩
  have hadd : p.1.kind.isUnique → p.1.name ∉ r.document.names p.1.kind := by
    intro hunique
    rw [hkind] at hunique ⊢
    rw [hname (by rintro rfl; cases hunique), ← attr_outline e (by decide)]
    exact hnew hunique
  obtain ⟨d, hd⟩ := Document.add_of_not_mem hadd
  exact succeeds_bind (succeeds_liftExcept hd) (P := fun _ => True) (fun _ _ _ _ => trivial)
    fun d _ => succeeds_pure _

theorem succeeds_readPlaces {ps : List (List Nat)} (hos : ps.map (elementAt? · (outline isKept r.root)) = os.map some)
    (hreadable : ∀ o ∈ os, Readable sources dir kind o)
    (hdistinct : Distinct r.document kind (os.map (·.attr "name"))) :
    Succeeds (ps.foldlM (readAt sources dir kind) r) := by
  induction ps generalizing r os with
  | nil => exact succeeds_pure r
  | cons place ps ih =>
    cases os with
    | nil => cases hos
    | cons o os =>
      rw [List.map_cons, List.map_cons, List.cons.injEq] at hos
      rw [List.forall_mem_cons] at hreadable
      rw [List.foldlM_cons]
      have hnew : kind.isUnique → o.attr "name" ∉ r.document.names kind := by
        intro hunique hmem
        have hnodup := hdistinct hunique
        rw [List.map_cons, List.nodup_append] at hnodup
        exact hnodup.2.2 _ hmem _ (by simp) rfl
      refine succeeds_bind (succeeds_readAt hos.1 hreadable.1 hnew)
        (ensures_readAt_advanced (tracks_defines sources dir) trivial hos.1) fun r' hr' => ?_
      have hrest := hos.2
      rw [← hr'.root] at hrest
      refine ih hrest hreadable.2 fun hunique => ?_
      have hnodup := hdistinct hunique
      rw [hr'.names (by rintro rfl; cases hunique), ofKind, if_pos rfl, List.append_assoc]
      exact hnodup

/-- Reading succeeds if each definition can be read and no name comes twice. -/
theorem succeeds_readAllKinds (hkinds : kinds.Nodup)
    (hreadable : ∀ k ∈ kinds, ∀ o ∈ definers r.root k, Readable sources dir k o)
    (hdistinct : ∀ k ∈ kinds, Distinct r.document k ((definers r.root k).map (·.attr "name"))) :
    Succeeds (kinds.foldlM (readKind sources dir) r) := by
  induction kinds generalizing r with
  | nil => exact succeeds_pure r
  | cons kind kinds ih =>
    rw [List.nodup_cons] at hkinds
    rw [List.forall_mem_cons] at hreadable hdistinct
    rw [List.foldlM_cons]
    refine succeeds_bind (succeeds_readPlaces (map_elementAt?_definers kind r.root) hreadable.1 hdistinct.1)
      (ensures_readKind (tracks_defines sources dir) trivial kind) fun r' hr' => ?_
    refine ih hkinds.2 (fun k hk => ?_) fun k hk hunique => ?_
    · rw [definers_congr hr'.root]
      exact hreadable.2 k hk
    · have hne : k ≠ kind := by
        rintro rfl
        exact hkinds.1 hk
      rw [definers_congr hr'.root, hr'.names (by rintro rfl; cases hunique), ofKind, if_neg hne, List.map_nil,
        List.append_nil]
      exact hdistinct.2 k hk hunique

theorem succeeds_readKinds (hkinds : kinds.Nodup) {root : Element}
    (hreadable : ∀ k ∈ kinds, ∀ o ∈ definers root k, Readable sources dir k o)
    (hdistinct : ∀ k ∈ kinds, Distinct d k ((definers root k).map (·.attr "name"))) :
    Succeeds (readKinds sources dir kinds d root) :=
  succeeds_bind (succeeds_readAllKinds (r := ⟨d, root⟩) hkinds hreadable hdistinct) (P := fun _ => True)
    (fun _ _ _ _ => trivial) fun _ _ => succeeds_pure _

end

end Stitchwork.Pattern
