/- # Stitchwork.Proofs.Project.LiteralTexts — texts without formulas on their way into a project.

The data of a text is read from the file of the pattern, written into the stored text of its component, read again
when the component is expanded, and searched for formulas.  Where there are none, only the second reading changes it:
a tab or a line end that stands in the value of an attribute is read as a space.
-/
import Stitchwork.Proofs.Formula.Template
import Stitchwork.Proofs.Pattern.Includes
import Stitchwork.Proofs.Pattern.Portable
import Stitchwork.Proofs.Pattern.SelfContained
import Stitchwork.Proofs.Project.Independence
import Stitchwork.Proofs.Project.Vocabulary

namespace Stitchwork.Formula

open Stitchwork.Markup Stitchwork.Text

/-! ## No formula appears when a text gets tidy -/

theorem infix_of_not_mem {l xs ys : List Char} {c : Char} (hc : c ∉ l) (h : l <:+: xs ++ c :: ys) :
    l <:+: xs ∨ l <:+: ys := by
  -- a piece that reaches across the boundary, or up to it from behind, has the character `c` in it
  have hstart : ∀ m, m <+: c :: ys → c ∉ m → m = [] := by
    intro m hm hcm
    cases m with
    | nil => rfl
    | cons d m =>
      rw [List.cons_prefix_cons] at hm
      exact absurd (hm.1 ▸ List.mem_cons_self) hcm
  rcases List.infix_append_iff.1 h with h | h | ⟨l₁, l₂, rfl, h₁, h₂⟩
  · exact .inl h
  · rcases List.infix_cons_iff.1 h with h | h
    · rw [hstart l h hc]
      exact .inl (List.nil_infix)
    · exact .inr h
  · rw [hstart l₂ h₂ fun hmem => hc (List.mem_append_right _ hmem), List.append_nil]
    exact .inl h₁.isInfix

/-- What has no line end in it stands in a text already if it stands there when the line ends are unified. -/
theorem infix_of_infix_unifyFrom {l : List Char} (hfeed : '\n' ∉ l) (seen s : List Char)
    (h : l <:+: unifyFrom seen s) : l <:+: seen.reverse ++ s := by
  have hbetween : ∀ {xs : List Char} (ys zs : List Char), l <:+: xs ++ '\n' :: zs → l <:+: xs ++ ys ++ zs := by
    intro xs ys zs h
    rcases infix_of_not_mem hfeed h with h | h
    · rw [List.append_assoc]
      exact h.trans (List.prefix_append _ _).isInfix
    · exact h.trans (List.suffix_append _ _).isInfix
  fun_induction unifyFrom seen s with
  | case1 seen rest ih =>
    have hrest := ih h
    rw [List.reverse_cons, List.append_assoc, List.singleton_append] at hrest
    simpa using hbetween ['\r', '\n'] rest hrest
  | case2 seen rest _ ih =>
    have hrest := ih h
    rw [List.reverse_cons, List.append_assoc, List.singleton_append] at hrest
    simpa using hbetween ['\r'] rest hrest
  | case3 seen c rest _ _ ih => simpa using ih h
  | case4 seen => simpa using h

theorem flatten_eq_iff {c d : Char} (hd : isSpace d = false) : flatten c = d ↔ c = d := by
  rw [flatten]
  split
  · next hc =>
    have hne : ' ' ≠ d := by
      rintro rfl
      cases hd
    exact iff_of_false hne fun h => by simp [h, hd] at hc
  · rfl

/-- A text without formulas has none when tabs and line ends have become spaces. -/
theorem Literal.tidy {s : String} (h : Literal s) : Literal (Markup.tidy s) := by
  intro hin
  rw [Markup.tidy, toList_flat, List.infix_map_iff] at hin
  obtain ⟨l, hl, heq⟩ := hin
  obtain ⟨c, l, rfl, hc, hrest⟩ := List.map_eq_cons_iff.1 heq.symm
  obtain ⟨d, l, rfl, hd, hnil⟩ := List.map_eq_cons_iff.1 hrest
  obtain rfl := List.map_eq_nil_iff.1 hnil
  rw [flatten_eq_iff (by decide)] at hc hd
  subst hc hd
  rw [toList_unify] at hl
  exact h (infix_of_infix_unifyFrom (by decide) [] s.toList hl)

end Stitchwork.Formula

namespace Stitchwork.Pattern

open Stitchwork.Markup

variable {e : Element}

theorem tidy_eq_self_iff_oneLine {s : String} : tidy s = s ↔ OneLine s := by
  refine ⟨fun h c hc => ?_, tidy_of_oneLine⟩
  rw [tidy_eq_self_iff] at h
  refine ⟨?_, ?_, ?_⟩ <;> rintro rfl <;> exact absurd (h _ hc rfl) (by decide)

/-! ## Places in what is read again -/

/-- The first element has been written and read again as the second, where some prefixes were bound. -/
def RereadAs (x y : Element) : Prop := ∃ bound, rereadNode bound (unifyNode x.toNode) = .ok y.toNode

theorem forall₂_rereadAs {bound : Bindings} {ns ms : List Node} (h : rereadNodes bound (unifyNodes ns) = .ok ms) :
    List.Forall₂ RereadAs (ns.filterMap Node.element?) (ms.filterMap Node.element?) := by
  induction ns generalizing ms with
  | nil =>
    cases h
    exact .nil
  | cons n ns ih =>
    rw [unifyNodes, rereadNodes_cons] at h
    obtain ⟨m, hm, h⟩ := bind_eq_ok.1 h
    obtain ⟨ms, hms, h⟩ := bind_eq_ok.1 h
    cases h
    cases n with
    | element name attrs children =>
      have hback := hm
      rw [unifyNode, rereadNode_element] at hm
      obtain ⟨inner, below, -, -, rfl⟩ := hm
      exact .cons ⟨bound, hback⟩ (ih hms)
    | _ =>
      have hrest := ih hms
      cases hm
      exact hrest

/-- **One element.**  Its name stays, its attributes get tidy, and the elements in it come back one by one. -/
theorem RereadAs.spec {x y : Element} (h : RereadAs x y) : y.name = x.name ∧
    (∀ k, y.attr? k = (x.attr? k).map tidy) ∧ List.Forall₂ RereadAs x.elements y.elements := by
  obtain ⟨bound, h⟩ := h
  rw [Element.toNode, unifyNode, rereadNode_element] at h
  obtain ⟨inner, ms, hreads, hms, heq⟩ := h
  obtain ⟨name, attrs, children⟩ := y
  cases heq
  refine ⟨rfl, fun k => ?_, forall₂_rereadAs hms⟩
  have hnodup : ((x.attrs.entries.map tidyAttr).map (·.1)).Nodup := by
    have hnames := hreads.nodup
    rwa [List.map_map] at hnames ⊢
  show Table.valueIn? k (sortAttrs ((x.attrs.entries.map unifyAttr).map flatAttr)) = _
  rw [map_tidyAttr]
  exact (Table.valueIn?_perm hnodup (sortAttrs_perm _).symm k).trans (Table.valueIn?_map tidy k _)

theorem rel_getElem? {α β : Type} {R : α → β → Prop} {xs : List α} {ys : List β} (h : List.Forall₂ R xs ys) (i : Nat) :
    Option.Rel R xs[i]? ys[i]? := by
  induction h generalizing i with
  | nil => exact .none
  | cons hxy _ ih =>
    cases i with
    | zero => exact .some hxy
    | succ i => exact ih i

theorem rel_bind {α β γ δ : Type} {R : α → β → Prop} {S : γ → δ → Prop} {a : Option α} {b : Option β}
    {f : α → Option γ} {g : β → Option δ} (h : Option.Rel R a b) (hfg : ∀ x y, R x y → Option.Rel S (f x) (g y)) :
    Option.Rel S (a.bind f) (b.bind g) := by
  cases h with
  | some hxy => exact hfg _ _ hxy
  | none => exact .none

theorem rel_trans {α β γ : Type} {R : α → β → Prop} {S : β → γ → Prop} {Q : α → γ → Prop} {a : Option α}
    {b : Option β} {c : Option γ} (hab : Option.Rel R a b) (hbc : Option.Rel S b c)
    (hQ : ∀ x y z, R x y → S y z → Q x z) : Option.Rel Q a c := by
  cases hab with
  | some hxy =>
    cases hbc with
    | some hyz => exact .some (hQ _ _ _ hxy hyz)
  | none =>
    cases hbc
    exact .none

/-- What stands at a place comes back at that place. -/
theorem RereadAs.elementAt? {x y : Element} (h : RereadAs x y) (place : List Nat) :
    Option.Rel RereadAs (elementAt? place x) (elementAt? place y) := by
  induction place generalizing x y with
  | nil => exact .some h
  | cons i place ih =>
    exact rel_bind (rel_getElem? h.spec.2.2 i) fun _ _ hback => ih hback

/-! ## Places in what a component stores -/

/-- The second element has the name of the first one, and its attributes, made tidy; but whether the prefix of patterns
is declared does not count. -/
structure StoredAs (w v : Element) : Prop where
  name : v.name = w.name
  attr? : ∀ k, isKept k → v.attr? k = (w.attr? k).map tidy

theorem rel_elementAt?_of_outlineNodes {y : Element}
    (h : outlineNodes isKept y.children = outlineNodes isKept e.children) {place : List Nat} (hplace : place ≠ []) :
    Option.Rel (fun w v => outline isKept v = outline isKept w) (elementAt? place e) (elementAt? place y) := by
  have hsame : elementAt? place (outline isKept y) = elementAt? place (outline isKept e) := by
    cases place with
    | nil => exact absurd rfl hplace
    | cons i place => rw [elementAt?, elementAt?, Element.elements, Element.elements, outline, outline, h]
  rw [elementAt?_outline, elementAt?_outline] at hsame
  rcases hw : elementAt? place e with _ | w <;> rcases hv : elementAt? place y with _ | v <;> rw [hw, hv] at hsame
  · exact .none
  · cases hsame
  · cases hsame
  · exact .some (Option.some.inj hsame)

/-- A component with the elements in it. -/
def holding (es : List Element) : Element := ⟨Kind.component.tag, Table.empty, es.map Element.toNode⟩

@[simp] theorem elements_holding (es : List Element) : (holding es).elements = es := by
  show List.filterMap _ (List.map _ _) = _
  rw [List.filterMap_map]
  exact List.filterMap_some

/-- **What a component stores.**  The content of a component that has been stored and read again has the same elements
at the same places. -/
theorem rel_storedAs (he : e.Ok) {kept : List Node} (hkept : prune [] e.children = .ok kept) {ms : List Element}
    (hms : restoreAll (store (kept.map declareNode)) = .ok ms) {place : List Nat} (hplace : place ≠ []) :
    Option.Rel StoredAs (elementAt? place e) (elementAt? place (holding ms)) := by
  have hok := ok_of_mem_elements (nodeOk_of_prune _ he.children hkept)
  -- the elements as they are written, with the prefix declared
  let written : List Element := (kept.filterMap Node.element?).map declare
  have houtline : outlineNodes isKept (holding written).children = outlineNodes isKept e.children := by
    have hnodes : (holding written).children = ((kept.filterMap Node.element?).map Element.toNode).map declareNode := by
      show List.map _ (List.map _ _) = List.map _ (List.map _ _)
      rw [List.map_map, List.map_map]
      rfl
    rw [hnodes, outlineNodes_map (outlineNode_declareNode fun _ h => h), outlineNodes_elements]
    exact outlineNodes_of_prune isKept e.children hkept
  have hback : List.Forall₂ RereadAs written ms := by
    rw [store_declare, restoreAll_eq_ok, List.forall₂_map_left_iff] at hms
    rw [List.forall₂_map_left_iff]
    refine ((List.forall₂_and_left _ _).2 ⟨hok, hms⟩).imp ?_
    rintro x m ⟨hx, hread⟩
    exact ⟨_, rereadNode_of_read_write (ok_declare hx) hread⟩
  have hread : Option.Rel RereadAs (elementAt? place (holding written)) (elementAt? place (holding ms)) := by
    cases place with
    | nil => exact absurd rfl hplace
    | cons i place =>
      rw [elementAt?, elementAt?, elements_holding, elements_holding]
      exact rel_bind (rel_getElem? hback i) fun _ _ h => h.elementAt? place
  refine rel_trans (rel_elementAt?_of_outlineNodes houtline hplace) hread fun w y v hy hv => ?_
  obtain ⟨hname, hattr, -⟩ := hv.spec
  have hsame : (outline isKept y).name = (outline isKept w).name := by rw [hy]
  refine ⟨hname.trans hsame, fun k hk => ?_⟩
  rw [hattr, ← attr?_outline y hk, hy, attr?_outline w hk]

/-! ## Components of a file -/

/-- A sound element with the outline is read as the definition. -/
def SoundlyDefines (sources : Sources) (dir : String) (kind : Kind) (o : Element) (x : Definition) : Prop :=
  ∃ e, Sound e ∧ outline isKept e = o ∧ Reads sources dir kind e x

theorem tracks_sound (sources : Sources) (dir : String) : Tracks sources dir Sound (SoundlyDefines sources dir) where
  hereditary := hereditary_sound
  reads kind e he := ((ensures_ofElement_sound sources dir kind he).and (ensures_reads sources dir kind e)).mono
    fun _ hp => ⟨hp.1.1, e, he, rfl, hp.2⟩

theorem sound_rootAt? {files : Files.Tree} {place : List String} {root : Element} (h : rootAt? files place = some root) :
    Sound root := by
  rw [rootAt?] at h
  split at h
  · next content _ =>
    cases hread : Markup.read content.toText with
    | error f =>
      rw [hread] at h
      cases h
    | ok e =>
      rw [hread] at h
      cases h
      exact ⟨read_ok hread, lawful_read hread⟩
  · cases h

/-- What is read as a component, with the content as it is restored from what the component stores. -/
theorem exists_stored_of_soundlyDefines {sources : Sources} {dir : String} {k : Component}
    (h : SoundlyDefines sources dir .component (outline isKept e) (.component k)) :
    k.condition = e.attr? "condition" ∧ ∃ texts, k.elements = some texts ∧ ∀ ms, restoreAll texts = .ok ms →
      ∀ place ≠ [], Option.Rel StoredAs (elementAt? place e) (elementAt? place (holding ms)) := by
  obtain ⟨e', hsound, houtline, n, left, n', hrun⟩ := h
  have hread : Ensures (Definition.ofElement sources dir .component e') fun p => ∃ id kept,
      prune [] e'.children = .ok kept ∧
      p.1 = .component ⟨e'.attr "name", some id, some (store (kept.map declareNode)), e'.attr? "condition"⟩ := by
    refine ensures_bind (Component.ensures_ofElement e') ?_
    rintro _ ⟨id, kept, hkept, rfl⟩
    exact ensures_pure ⟨id, kept, hkept, rfl⟩
  obtain ⟨id, kept, hkept, hk⟩ := hread n _ n' hrun
  cases hk
  constructor
  · show e'.attr? "condition" = _
    rw [← attr?_outline e' (by decide : isKept "condition"), houtline, attr?_outline e (by decide)]
  · refine ⟨_, rfl, fun ms hms place hplace => ?_⟩
    have hchildren : outlineNodes isKept e'.children = outlineNodes isKept e.children :=
      congrArg Element.children houtline
    refine rel_trans (rel_elementAt?_of_outlineNodes hchildren hplace) (rel_storedAs hsound.1 hkept hms hplace) ?_
    intro w y v hy hv
    have hname : (outline isKept y).name = (outline isKept w).name := by rw [hy]
    refine ⟨hv.name.trans hname, fun key hkey => ?_⟩
    rw [hv.attr? key hkey, ← attr?_outline y hkey, hy, attr?_outline w hkey]

/-- The components of a pattern are read from those of its file, one by one. -/
theorem exists_component_of_readPattern {sources : Sources} {main : String} {n n' : Nat} {d : Document}
    (hread : (readPattern sources main).run.run n = (.ok d, n')) {place : List String}
    (hplace : Files.normal? sources.files.home main = some place) {root : Element}
    (hroot : rootAt? sources.files place = some root) {j : Nat}
    (he : (descendants Kind.component.tag root.children)[j]? = some e) :
    ∃ k, d.components[j]? = some k ∧
      SoundlyDefines sources (dirOf place) .component (outline isKept e) (.component k) := by
  obtain ⟨root', head, visits, owns, last, hroot', hhead, -, howns, ⟨⟨m, m', halone⟩, -, -⟩, rfl⟩ :=
    ensures_readPattern_postOrder hplace n d n' hread
  rw [hroot] at hroot'
  cases hroot'
  obtain ⟨xs, hxs, hgained⟩ := ensures_readKinds_tracked (tracks_sound sources (dirOf place)) (by decide) .empty
    (sound_rootAt? hroot) m last m' halone .component
  -- only the main file gives components
  have hcomponents : ((owns ++ [last]).foldl Document.append head).components.map Definition.component = xs := by
    have hlisted := Document.listed_foldl_append (owns ++ [last]) head (k := .component) nofun
    rw [List.flatMap_append, components_eq_nil_of_gives howns, List.nil_append, List.flatMap_singleton,
      List.eq_nil_iff_forall_not_mem.2 (not_mem_listed_of_readRoot hhead .component), List.nil_append] at hlisted
    exact hlisted.trans hgained
  rw [allDefiners, if_pos (by decide), definers, outline, descendants_outlineNodes, List.forall₂_map_left_iff] at hxs
  have hj := rel_getElem? hxs j
  rw [he, ← hcomponents, List.getElem?_map] at hj
  cases hk : ((owns ++ [last]).foldl Document.append head).components[j]? with
  | none =>
    rw [hk] at hj
    cases hj
  | some k =>
    rw [hk] at hj
    cases hj with
    | some hdefines => exact ⟨k, rfl, hdefines⟩

end Stitchwork.Pattern

namespace Stitchwork.Project

open Stitchwork.Formula Stitchwork.Markup Stitchwork.Pattern

variable {a : Expansion} {e : Element} {place : List Nat}

/-! ## Places in what is expanded -/

/-- The elements that become an element with what their content becomes in it. -/
def containers : List String := ["opaf:instruction", "opaf:repeat", "opaf:row"]

/-- Where, among what the content of an element becomes, that stands which the element at a place becomes: behind all
that the elements in front of it become, level by level. -/
def outputPlace (expand : List Node → Except Error Expansion) : List Nat → Element → Option (List Nat)
  | [], _ => some []
  | i :: place, e => do
    let front ← (expand ((e.elements.take i).map Element.toNode)).toOption
    let child ← e.elements[i]?
    let inner ← outputPlace expand place child
    some ((front.nodes.filterMap Node.element?).length :: inner)

/-- All elements on the way to a place can hold others, and no condition on the way fails; `stored` says how the
condition of an element is spelled when it is looked at. -/
structure Shown (scope : Scope) (stored : String → String) (place : List Nat) (e : Element) : Prop where
  opens : ∀ q w, q <+: place → q ≠ [] → q ≠ place → elementAt? q e = some w → w.name ∈ containers
  holds : ∀ q w, q <+: place → q ≠ [] → elementAt? q e = some w →
    holdsIfGiven scope ((w.attr? "condition").map stored) ≠ .ok false

theorem Shown.child {scope : Scope} {stored : String → String} {i : Nat} {w : Element}
    (h : Shown scope stored (i :: place) e) (hw : e.elements[i]? = some w) : Shown scope stored place w := by
  have hat : ∀ q, elementAt? (i :: q) e = elementAt? q w := by
    intro q
    rw [elementAt?, hw]
    rfl
  constructor
  · intro q v hq hne hlast hv
    refine h.opens (i :: q) v (List.cons_prefix_cons.2 ⟨rfl, hq⟩) (List.cons_ne_nil i q) (fun heq => hlast ?_) ((hat q).trans hv)
    exact (List.cons.inj heq).2
  · intro q v hq _ hv
    exact h.holds (i :: q) v (List.cons_prefix_cons.2 ⟨rfl, hq⟩) (List.cons_ne_nil i q) ((hat q).trans hv)

theorem outputPlace_cons {expand : List Node → Except Error Expansion} {i : Nat} {place' : List Nat} {w : Element}
    {front : Expansion} (hfront : expand ((e.elements.take i).map Element.toNode) = .ok front)
    (hw : e.elements[i]? = some w) (hplace : outputPlace expand place w = some place') :
    outputPlace expand (i :: place) e = some ((front.nodes.filterMap Node.element?).length :: place') := by
  rw [outputPlace, hfront, hw]
  show (outputPlace expand place w).bind _ = _
  rw [hplace]
  rfl

section

variable {c : Context} {content : Scope → List String → Except Error Expansion} {scope : Scope}

/-- Only elements can be expanded. -/
theorem children_of_expandNodes (h : expandNodes c content scope e.children = .ok a) :
    e.children = e.elements.map Element.toNode := by
  obtain ⟨name, attrs, ns⟩ := e
  show ns = (ns.filterMap Node.element?).map Element.toNode
  induction ns generalizing a with
  | nil => rfl
  | cons n ns ih =>
    rw [expandNodes] at h
    obtain ⟨b, hb, h⟩ := bind_eq_ok.1 h
    obtain ⟨rest, hrest, -⟩ := bind_eq_ok.1 h
    cases n with
    | element name attrs children => exact congrArg (Node.element name attrs children :: ·) (ih hrest)
    | _ => cases hb

/-- A text without formulas becomes a text with the same data. -/
theorem expandNode_text {x : Element} (hname : x.name = "opaf:text") {s : String} (hdata : x.attr? "data" = some s)
    (hs : Literal s) (hholds : elementHolds scope x ≠ .ok false) (h : expandNode c content scope x.toNode = .ok a) :
    a = .ofNodes [(element "text" [("data", s)]).toNode] := by
  obtain ⟨name, attrs, children⟩ := x
  dsimp only at hname
  subst hname
  rw [Element.toNode, expandNode] at h
  obtain ⟨kept, hkept, h⟩ := bind_eq_ok.1 h
  cases kept with
  | false => exact absurd hkept hholds
  | true =>
    have hexpand : expandText scope s = .ok s := by rw [expandText, expand_of_literal hs]; rfl
    have hout : expandTextElement scope ⟨"opaf:text", attrs, []⟩ =
        .ok (.ofNodes [(element "text" [("data", s)]).toNode]) := by
      have hgiven : Element.attr? ⟨"opaf:text", attrs, []⟩ "data" = some s := hdata
      rw [expandTextElement, hgiven]
      show (Option.some <$> expandText scope s) >>= _ = _
      rw [hexpand]
      rfl
    simp only [Bool.not_true, Bool.false_eq_true, if_false] at h
    exact Except.ok.inj (h.symm.trans hout)

/-- An element that holds others becomes one element, with what its content becomes in it. -/
theorem expandNode_container (hscope : scope.update c.globals = scope) {x : Element} (hname : x.name ∈ containers)
    (hholds : elementHolds scope x ≠ .ok false) (h : expandNode c content scope x.toNode = .ok a) :
    ∃ inner q, expandNodes c content scope x.children = .ok inner ∧ a.nodes = [Element.toNode q] ∧
      q.children = inner.nodes := by
  obtain ⟨name, attrs, children⟩ := x
  rw [Element.toNode, expandNode] at h
  obtain ⟨kept, hkept, h⟩ := bind_eq_ok.1 h
  cases kept with
  | false => exact absurd hkept hholds
  | true =>
    -- whichever head is put around it, the content is expanded in the scope of the element
    have hwrap : ∀ {head : Except Error Element}, (∀ q, head = .ok q → q.children = []) →
        (do let q ← head; let inner ← expandNodes c content scope children; .ok (inner.wrap q)) = .ok a →
        ∃ inner q, expandNodes c content scope children = .ok inner ∧ a.nodes = [Element.toNode q] ∧
          q.children = inner.nodes := by
      intro head hempty h
      obtain ⟨q, hq, h⟩ := bind_eq_ok.1 h
      obtain ⟨inner, hinner, h⟩ := bind_eq_ok.1 h
      cases h
      refine ⟨inner, q.append inner.nodes, hinner, rfl, ?_⟩
      rw [Element.append, hempty q hq, List.nil_append]
    simp only [Bool.not_true, Bool.false_eq_true, if_false, hscope] at h
    rcases List.mem_cons.1 hname with rfl | hname
    · refine hwrap ?_ h
      intro q hq
      obtain ⟨name, -, hq⟩ := bind_eq_ok.1 hq
      cases hq
      rfl
    rcases List.mem_cons.1 hname with rfl | hname
    · refine hwrap ?_ h
      intro q hq
      obtain ⟨-, t, -, rfl⟩ := repeatHead_eq_ok hq
      rfl
    · obtain rfl := List.mem_singleton.1 hname
      refine hwrap ?_ h
      intro q hq
      obtain ⟨-, t, -, rfl⟩ := rowHead_eq_ok hq
      rfl

/-- The element at an index, with what the elements around it become. -/
theorem exists_around {w : Element} {i : Nat} (hw : e.elements[i]? = some w)
    (h : expandNodes c content scope e.children = .ok a) :
    ∃ front b back, expandNodes c content scope ((e.elements.take i).map Element.toNode) = .ok front ∧
      expandNode c content scope w.toNode = .ok b ∧ a.nodes = front.nodes ++ (b.nodes ++ back) := by
  have hsplit : e.children = (e.elements.take i).map Element.toNode ++
      w.toNode :: (e.elements.drop (i + 1)).map Element.toNode := by
    rw [children_of_expandNodes h, ← List.map_cons, ← List.map_append]
    congr 1
    obtain ⟨hi, rfl⟩ := List.getElem?_eq_some_iff.1 hw
    rw [← List.drop_eq_getElem_cons hi, List.take_append_drop]
  rw [hsplit, expandNodes_append] at h
  obtain ⟨front, hfront, h⟩ := bind_eq_ok.1 h
  obtain ⟨rest, hrest, h⟩ := bind_eq_ok.1 h
  cases h
  rw [expandNodes] at hrest
  obtain ⟨b, hb, hrest⟩ := bind_eq_ok.1 hrest
  obtain ⟨back, -, hrest⟩ := bind_eq_ok.1 hrest
  cases hrest
  exact ⟨front, b, back.nodes, hfront, hb, rfl⟩

theorem elementAt?_behind {q v : Element} {front back : List Node} (hq : q.children = front ++ v.toNode :: back)
    (place : List Nat) : elementAt? ((front.filterMap Node.element?).length :: place) q = elementAt? place v := by
  rw [elementAt?, Element.elements, hq, List.filterMap_append, List.getElem?_append_right (Nat.le_refl _),
    Nat.sub_self, elements_cons]
  rfl

/-- **Literal texts in what is expanded.**  By induction on the place: each level is one element, whose content is
expanded in the same scope. -/
theorem exists_outputPlace (hscope : scope.update c.globals = scope) (hplace : place ≠ []) {x : Element}
    (hx : elementAt? place e = some x) (hname : x.name = "opaf:text") {s : String} (hdata : x.attr? "data" = some s)
    (hs : Literal s) (hshown : Shown scope id place e) (h : expandNodes c content scope e.children = .ok a) :
    ∃ place', outputPlace (expandNodes c content scope) place e = some place' ∧
      ∀ q : Element, q.children = a.nodes → elementAt? place' q = some (element "text" [("data", s)]) := by
  induction place generalizing e a with
  | nil => exact absurd rfl hplace
  | cons i place ih =>
    rw [elementAt?] at hx
    obtain ⟨w, hw, hx⟩ := Option.bind_eq_some_iff.1 hx
    obtain ⟨front, b, back, hfront, hb, hnodes⟩ := exists_around hw h
    have hholds : elementHolds scope w ≠ .ok false := by
      have hgiven := hshown.holds [i] w (List.prefix_append [i] place) (List.cons_ne_nil i []) (by rw [elementAt?, hw]; rfl)
      rwa [Option.map_id] at hgiven
    cases place with
    | nil =>
      cases hx
      rw [expandNode_text hname hdata hs hholds hb] at hnodes
      refine ⟨_, outputPlace_cons hfront hw rfl, fun q hq => ?_⟩
      rw [elementAt?_behind (hq.trans hnodes)]
      rfl
    | cons j place =>
      have hopens : w.name ∈ containers :=
        hshown.opens [i] w (List.prefix_append [i] _) (List.cons_ne_nil i []) (by simp) (by rw [elementAt?, hw]; rfl)
      obtain ⟨inner, v, hinner, hv, hchildren⟩ := expandNode_container hscope hopens hholds hb
      obtain ⟨place', hplace', hfound⟩ := ih (List.cons_ne_nil _ _) hx (hshown.child hw) hinner
      rw [hv] at hnodes
      refine ⟨_, outputPlace_cons hfront hw hplace', fun q hq => ?_⟩
      rw [elementAt?_behind (hq.trans hnodes)]
      exact hfound v hchildren

end

/-! ## From the file of a pattern to its project -/

theorem expandTo_eq (c : Context) (depth : Nat) (scope : Scope) :
    expandTo c depth scope = expandNode c (contentTo c depth) scope := by
  cases depth with
  | zero => rfl
  | succ depth => rfl

/-- Stored elements that can be expanded can be restored, and become what the restored elements become. -/
theorem exists_restored_of_expandTexts {c : Context} {content : Scope → List String → Except Error Expansion}
    {scope : Scope} {texts : List String} (h : expandTexts (expandNode c content scope) texts = .ok a) :
    ∃ ms, restoreAll texts = .ok ms ∧ expandNodes c content scope (ms.map Element.toNode) = .ok a := by
  induction texts generalizing a with
  | nil =>
    cases h
    exact ⟨[], rfl, rfl⟩
  | cons s rest ih =>
    obtain ⟨m, hm, h⟩ := bind_eq_ok.1 h
    obtain ⟨b, hb, h⟩ := bind_eq_ok.1 h
    obtain ⟨back, hback, h⟩ := bind_eq_ok.1 h
    cases h
    obtain ⟨ms, hms, hexpand⟩ := ih hback
    refine ⟨m :: ms, ?_, ?_⟩
    · rw [restoreAll, List.mapM_cons, hm]
      show (restoreAll rest >>= _) = _
      rw [hms]
      rfl
    · rw [List.map_cons, expandNodes, hb, hexpand]
      rfl

/-- Where the elements of a component are shown, they are shown when they have been stored and restored. -/
theorem Shown.restored {scope : Scope} {ms : List Element} (h : Shown scope tidy place e)
    (hms : ∀ q ≠ [], Option.Rel StoredAs (elementAt? q e) (elementAt? q (holding ms))) :
    Shown scope id place (holding ms) := by
  have hback : ∀ q v, q ≠ [] → elementAt? q (holding ms) = some v → ∃ w, elementAt? q e = some w ∧ StoredAs w v := by
    intro q v hq hv
    have hrel := hms q hq
    rw [hv] at hrel
    generalize elementAt? q e = o at hrel
    cases hrel with
    | some hstored => exact ⟨_, rfl, hstored⟩
  constructor
  · intro q v hprefix hq hlast hv
    obtain ⟨w, hw, hstored⟩ := hback q v hq hv
    rw [hstored.name]
    exact h.opens q w hprefix hq hlast hw
  · intro q v hprefix hq hv
    obtain ⟨w, hw, hstored⟩ := hback q v hq hv
    rw [Option.map_id, id, hstored.attr? "condition" (by decide)]
    exact h.holds q w hprefix hq hw

/-- The element of a project that the element at a place of a component becomes. -/
def counterpart? (c : Context) (k : Component) (place : List Nat) : Option Element := do
  let ms ← (restoreAll (k.elements.getD [])).toOption
  let part ← becomes (componentExpansion c) k
  let place' ← outputPlace (expandNodes c (contentTo c c.depth) c.globals) place (holding ms)
  elementAt? place' part

/-- **Literal texts.**  Take a text at any depth in a component of the file that a pattern is read from, with no
condition on the way that fails and no block around it, and let there be no formula in its data.  In every project that
is built from the pattern, what stands in the place of the text is a text whose data is the same but for tabs and line
ends, which have become spaces: so it has exactly the data of the file if this stands on one line, and never
otherwise. -/
theorem literal_text_comes_tidy {sources : Sources} {main : String} {n n' : Nat} {d : Document}
    (hread : (readPattern sources main).run.run n = (.ok d, n')) {place : List String}
    (hplace : Files.normal? sources.files.home main = some place) {root : Element}
    (hroot : rootAt? sources.files place = some root) {j : Nat} {e : Element}
    (he : (descendants Kind.component.tag root.children)[j]? = some e) {choices : Choices} {name id : String}
    {project : Expansion} (hbuild : (build d choices name id).tree = .ok project)
    (hcondition : holdsIfGiven (build d choices name id).globals (e.attr? "condition") ≠ .ok false)
    {spot : List Nat} (hshown : Shown (build d choices name id).globals tidy spot e) {x : Element}
    (hx : elementAt? spot e = some x) (htext : x.name = "opaf:text") {s : String} (hdata : x.attr? "data" = some s)
    (hs : Literal s) :
    ∃ k part top y, d.components[j]? = some k ∧
      becomes (componentExpansion ⟨d, (build d choices name id).globals⟩) k = some part ∧
      project.nodes = [Element.toNode top] ∧ part ∈ top.elements ∧
      counterpart? ⟨d, (build d choices name id).globals⟩ k spot = some y ∧
      y = element "text" [("data", tidy s)] ∧ (y.attr? "data" = some s ↔ OneLine s) := by
  obtain ⟨k, hk, hdefines⟩ := exists_component_of_readPattern hread hplace hroot he
  obtain ⟨hkcondition, texts, htexts, hstored⟩ := exists_stored_of_soundlyDefines hdefines
  have hspot : spot ≠ [] := by
    rintro rfl
    cases hx
    rw [name_of_mem_descendants _ (List.mem_of_getElem? he)] at htext
    exact absurd htext (by decide)
  let c : Context := ⟨d, (build d choices name id).globals⟩
  have hscope : c.globals.update c.globals = c.globals := Table.update_self (nodup_keys_globals d choices name id)
  -- the component is expanded, and its condition does not fail
  obtain ⟨pattern, configs, colors, content, -, -, -, -, hparts, rfl⟩ := build_eq_ok hbuild
  obtain ⟨charts, -, hparts⟩ := bind_eq_ok.1 hparts
  obtain ⟨components, hcomponents, hparts⟩ := bind_eq_ok.1 hparts
  cases hparts
  have hkmem : k ∈ d.components := List.mem_of_getElem? hk
  obtain ⟨a, ha⟩ := forall_of_expandEach hcomponents k hkmem
  rcases componentExpansion_eq_ok ha with ⟨hfails, -⟩ | ⟨texts', inner, -, htexts', hinner, rfl⟩
  · rw [hkcondition] at hfails
    exact absurd hfails hcondition
  rw [htexts] at htexts'
  cases htexts'
  -- its content is what is restored from its texts
  rw [Context.expand, expandTo_eq] at hinner
  obtain ⟨ms, hms, hexpand⟩ := exists_restored_of_expandTexts hinner
  have hrel := hstored ms hms
  obtain ⟨v, hv, hstoredAs⟩ : ∃ v, elementAt? spot (holding ms) = some v ∧ StoredAs x v := by
    have hspotRel := hrel spot hspot
    rw [hx] at hspotRel
    generalize elementAt? spot (holding ms) = o at hspotRel
    cases hspotRel with
    | some h => exact ⟨_, rfl, h⟩
  have hvdata : v.attr? "data" = some (tidy s) := by
    rw [hstoredAs.attr? "data" (by decide), hdata]
    rfl
  obtain ⟨spot', hspot', hfound⟩ := exists_outputPlace hscope hspot hv (hstoredAs.name.trans htext) hvdata hs.tidy
    (hshown.restored hrel) hexpand
  have hpart : becomes (componentExpansion c) k = some ((element "component"
      [("name", k.name), ("unique_id", k.uniqueId.getD "")]).append inner.nodes) := by
    rw [becomes_eq ha]
    rfl
  refine ⟨k, _, _, _, hk, hpart, rfl, ?_, ?_, rfl, ?_⟩
  · rw [expandEach_eq (oneOrNone_componentExpansion c) (forall_of_expandEach hcomponents)] at hcomponents
    cases hcomponents
    refine mem_elements.2 (List.mem_append_right _ (List.mem_append_right _ ?_))
    exact List.mem_map_of_mem (List.mem_filterMap.2 ⟨k, hkmem, hpart⟩)
  · rw [counterpart?, htexts]
    show (restoreAll texts).toOption.bind _ = _
    rw [hms]
    show (becomes (componentExpansion c) k).bind _ = _
    rw [hpart]
    show (outputPlace _ _ _).bind _ = _
    rw [hspot']
    exact hfound _ (List.nil_append _)
  · show some (tidy s) = some s ↔ _
    rw [Option.some.injEq, tidy_eq_self_iff_oneLine]

/-- A pattern with a text of two lines inside an instruction. -/
def twoLines : String :=
  "<pattern xmlns:opaf=\"u\" name=\"n\"><opaf:component name=\"a\"><opaf:text data=\"x\"/>" ++
    "<opaf:instruction name=\"i\"><opaf:text data=\"a&#10;b\"/></opaf:instruction></opaf:component></pattern>"

/-- The two lines become one. -/
theorem twoLines_joined : ∃ d n' project, (readPattern (oneFile "p" twoLines) "p").run.run 0 = (.ok d, n') ∧
    (build d ⟨.empty, .empty⟩ "k" "id").tree = .ok project ∧ ∃ k y, d.components[0]? = some k ∧
      counterpart? ⟨d, (build d ⟨.empty, .empty⟩ "k" "id").globals⟩ k [1, 0] = some y ∧
      y.attr? "data" = some "a b" ∧ y.attr? "data" ≠ some "a\nb" := by
  have hbuilds : (match (readPattern (oneFile "p" twoLines) "p").run.run 0 with
      | (.ok d, _) => (build d ⟨.empty, .empty⟩ "k" "id").tree.toOption.isSome
      | (.error _, _) => false) = true := by
    rw [readPattern_oneFile]
    decide +kernel
  have hroot : rootAt? (oneFile "p" twoLines).files ["p"] = (readPlain twoLines).toOption := by
    rw [readPlain_eq_read]
    rfl
  have hfile : ((rootAt? (oneFile "p" twoLines).files ["p"]).any fun root =>
      (descendants Kind.component.tag root.children)[0]?.any fun e => e.attr? "condition" == none &&
        (elementAt? [1] e).any (fun w => w.name == "opaf:instruction" && w.attr? "condition" == none) &&
        (elementAt? [1, 0] e).any fun x => x.name == "opaf:text" && x.attr? "condition" == none &&
          x.attr? "data" == some "a\nb") = true := by
    rw [hroot]
    decide +kernel
  rcases hread : (readPattern (oneFile "p" twoLines) "p").run.run 0 with ⟨_ | d, n'⟩
  · rw [hread] at hbuilds
    cases hbuilds
  rw [hread] at hbuilds
  dsimp only at hbuilds
  cases hbuild : (build d ⟨.empty, .empty⟩ "k" "id").tree with
  | error report =>
    rw [hbuild] at hbuilds
    cases hbuilds
  | ok project =>
    obtain ⟨root, hroot, hfile⟩ := (Option.any_eq_true ..).1 hfile
    obtain ⟨e, he, hfile⟩ := (Option.any_eq_true ..).1 hfile
    simp only [Bool.and_eq_true, beq_iff_eq, Option.any_eq_true] at hfile
    obtain ⟨⟨hcondition, w, hw, hwname, hwcondition⟩, x, hx, ⟨hxname, hxcondition⟩, hdata⟩ := hfile
    have hway : ∀ q, q <+: [1, 0] → q ≠ [] → q = [1] ∨ q = [1, 0] := by
      intro q hq hne
      have hmem := (List.mem_inits q [1, 0]).2 hq
      simpa [hne] using hmem
    have hshown : Shown (build d ⟨.empty, .empty⟩ "k" "id").globals tidy [1, 0] e := by
      constructor
      · intro q v hq hne hlast hv
        rcases hway q hq hne with rfl | rfl
        · cases hw.symm.trans hv
          rw [hwname]
          decide
        · exact absurd rfl hlast
      · intro q v hq hne hv
        rcases hway q hq hne with rfl | rfl
        · cases hw.symm.trans hv
          rw [hwcondition]
          exact nofun
        · cases hx.symm.trans hv
          rw [hxcondition]
          exact nofun
    obtain ⟨k, -, -, y, hk, -, -, -, hy, rfl, hsame⟩ := literal_text_comes_tidy hread (normal?_oneFile twoLines) hroot he
      hbuild (by rw [hcondition]; exact nofun) hshown hx hxname hdata (by decide +kernel)
    refine ⟨d, n', project, rfl, hbuild, k, _, hk, hy, by decide +kernel, fun h => ?_⟩
    exact absurd (hsame.1 h) (by decide +kernel)

end Stitchwork.Project
