/- # Stitchwork.Proofs.Project.Conditions — conditions that are empty.

An empty condition counts as none: on values, charts and components, and on every node that is expanded, at any depth.
So two trees become the same if they are the same without the empty conditions in them.

The elements of actions are the exception.  There a condition is evaluated whenever it is given, and an empty one says
neither that it holds nor that it does not.  A use of the action that gets as far as such an element ends there.
-/
import Mathlib.Data.List.Forall2
import Stitchwork.Proofs.Project.Expansion
import Stitchwork.Proofs.Table

namespace Stitchwork.Project

open Stitchwork.Formula Stitchwork.Markup Stitchwork.Pattern

variable {α β : Type}

/-! ## Trees without empty conditions -/

/-- The attributes without a condition that is empty. -/
def dropEmpty (attrs : Table String) : Table String :=
  if attrs.get? "condition" = some "" then attrs.erase "condition" else attrs

mutual

/-- The node without the empty conditions in it. -/
def dropEmptyNode : Node → Node
  | .element name attrs children => .element name (dropEmpty attrs) (dropEmptyNodes children)
  | .text s => .text s
  | .cdata s => .cdata s
  | .comment s => .comment s
  | .instruction target data => .instruction target data

/-- The nodes without the empty conditions in them. -/
def dropEmptyNodes : List Node → List Node
  | [] => []
  | n :: ns => dropEmptyNode n :: dropEmptyNodes ns

end

theorem dropEmptyNodes_append (ns ms : List Node) :
    dropEmptyNodes (ns ++ ms) = dropEmptyNodes ns ++ dropEmptyNodes ms := by
  induction ns with
  | nil => rfl
  | cons n ns ih => rw [List.cons_append, dropEmptyNodes, ih, dropEmptyNodes, List.cons_append]

/-! ### What is left of an element -/

/-- Attributes other than the condition stay. -/
theorem get?_dropEmpty (attrs : Table String) {k : String} (hk : k ≠ "condition") :
    (dropEmpty attrs).get? k = attrs.get? k := by
  rw [dropEmpty]
  split
  · rw [Table.get?_erase, if_neg hk]
  · rfl

theorem holdsIfGiven_dropEmpty (scope : Scope) (attrs : Table String) :
    holdsIfGiven scope ((dropEmpty attrs).get? "condition") = holdsIfGiven scope (attrs.get? "condition") := by
  rw [dropEmpty]
  split
  · next h =>
    rw [Table.get?_erase, if_pos rfl, h]
    rfl
  · rfl

section

variable (name : String) (attrs : Table String)

theorem attr?_dropEmpty {k : String} (hk : k ≠ "condition") :
    Element.attr? ⟨name, dropEmpty attrs, []⟩ k = Element.attr? ⟨name, attrs, []⟩ k :=
  get?_dropEmpty attrs hk

theorem attr_dropEmpty {k : String} (hk : k ≠ "condition") :
    Element.attr ⟨name, dropEmpty attrs, []⟩ k = Element.attr ⟨name, attrs, []⟩ k :=
  congrArg (·.getD "") (get?_dropEmpty attrs hk)

theorem hasAttr_dropEmpty {k : String} (hk : k ≠ "condition") :
    Element.hasAttr ⟨name, dropEmpty attrs, []⟩ k = Element.hasAttr ⟨name, attrs, []⟩ k :=
  congrArg Option.isSome (get?_dropEmpty attrs hk)

/-- A condition is no argument. -/
theorem argumentsOf_dropEmpty : argumentsOf ⟨name, dropEmpty attrs, []⟩ = argumentsOf ⟨name, attrs, []⟩ := by
  rw [argumentsOf, argumentsOf, dropEmpty]
  split
  · rw [Table.erase, List.filter_filter]
    refine List.filter_congr fun a _ => ?_
    by_cases ha : a.1 = "condition"
    · simp [ha, protectedAttrs]
    · simp [ha]
  · rfl

variable (c : Context) (scope : Scope)

theorem expandAction_dropEmpty :
    expandAction c scope ⟨name, dropEmpty attrs, []⟩ = expandAction c scope ⟨name, attrs, []⟩ := by
  rw [expandAction, expandAction, attr_dropEmpty name attrs (by decide), argumentsOf_dropEmpty]

theorem enterBlock_dropEmpty :
    enterBlock c scope ⟨name, dropEmpty attrs, []⟩ = enterBlock c scope ⟨name, attrs, []⟩ := by
  rw [enterBlock, enterBlock, attr_dropEmpty name attrs (by decide), argumentsOf_dropEmpty]

theorem instructionHead_dropEmpty :
    instructionHead scope ⟨name, dropEmpty attrs, []⟩ = instructionHead scope ⟨name, attrs, []⟩ := by
  rw [instructionHead, instructionHead, attr?_dropEmpty name attrs (by decide)]

theorem repeatHead_dropEmpty : repeatHead scope ⟨name, dropEmpty attrs, []⟩ = repeatHead scope ⟨name, attrs, []⟩ := by
  rw [repeatHead, repeatHead, hasAttr_dropEmpty name attrs (by decide), argumentsOf_dropEmpty]

theorem rowHead_dropEmpty : rowHead scope ⟨name, dropEmpty attrs, []⟩ = rowHead scope ⟨name, attrs, []⟩ := by
  rw [rowHead, rowHead, hasAttr_dropEmpty name attrs (by decide), argumentsOf_dropEmpty]

theorem expandImage_dropEmpty : expandImage c ⟨name, dropEmpty attrs, []⟩ = expandImage c ⟨name, attrs, []⟩ := by
  have htag := attr?_dropEmpty name attrs (k := "tag") (by decide)
  have hcaption := attr?_dropEmpty name attrs (k := "caption") (by decide)
  rw [expandImage, expandImage, attr_dropEmpty name attrs (by decide)]
  simp only [htag, hcaption]

theorem expandTextElement_dropEmpty :
    expandTextElement scope ⟨name, dropEmpty attrs, []⟩ = expandTextElement scope ⟨name, attrs, []⟩ := by
  rw [expandTextElement, expandTextElement, attr?_dropEmpty name attrs (by decide)]

end

mutual

/-- Empty conditions change nothing about what a node becomes. -/
theorem expandNode_dropEmpty (c : Context) (content : Scope → List String → Except Error Expansion) (scope : Scope)
    (n : Node) : expandNode c content scope (dropEmptyNode n) = expandNode c content scope n := by
  cases n with
  | element name attrs children =>
    have hinner := fun scope => expandNodes_dropEmpty c content scope children
    have hholds : elementHolds scope ⟨name, dropEmpty attrs, []⟩ = elementHolds scope ⟨name, attrs, []⟩ :=
      holdsIfGiven_dropEmpty scope attrs
    rw [dropEmptyNode, expandNode, expandNode, hholds]
    simp only [hinner, expandAction_dropEmpty, enterBlock_dropEmpty, instructionHead_dropEmpty, repeatHead_dropEmpty,
      rowHead_dropEmpty, expandImage_dropEmpty, expandTextElement_dropEmpty]
  | _ => rfl

theorem expandNodes_dropEmpty (c : Context) (content : Scope → List String → Except Error Expansion) (scope : Scope)
    (ns : List Node) : expandNodes c content scope (dropEmptyNodes ns) = expandNodes c content scope ns := by
  cases ns with
  | nil => rfl
  | cons n ns => rw [dropEmptyNodes, expandNodes, expandNodes, expandNode_dropEmpty, expandNodes_dropEmpty]

end

theorem expandTo_dropEmpty (c : Context) (depth : Nat) (scope : Scope) (n : Node) :
    expandTo c depth scope (dropEmptyNode n) = expandTo c depth scope n := by
  cases depth with
  | zero => exact expandNode_dropEmpty c _ scope n
  | succ depth => exact expandNode_dropEmpty c _ scope n

/-! ## Results that may be the report of an empty condition -/

/-- The second result is the first one or else, where that may be, the report that an empty condition is undecided. -/
def Near (p : Prop) (r r' : Except Error α) : Prop := r' = r ∨ p ∧ r' = .error (.undecided "")

section

variable {p : Prop}

theorem near_refl (p : Prop) (r : Except Error α) : Near p r r := .inl rfl

theorem near_bind {r r' : Except Error α} {f f' : α → Except Error β} (hr : Near p r r')
    (hf : ∀ a, Near p (f a) (f' a)) : Near p (r >>= f) (r' >>= f') := by
  rcases hr with rfl | ⟨hp, rfl⟩
  · cases r' with
    | error e => exact .inl rfl
    | ok a => exact hf a
  · exact .inr ⟨hp, rfl⟩

theorem near_findNamed_bind {R : α → α → Prop} {xs xs' : List α} (h : List.Forall₂ R xs xs') {kind : Kind}
    {nameOf : α → String} (hname : ∀ x x', R x x' → nameOf x' = nameOf x) (name : String)
    {f f' : α → Except Error β} (hf : ∀ x x', R x x' → Near p (f x) (f' x')) :
    Near p (findNamed kind nameOf xs name >>= f) (findNamed kind nameOf xs' name >>= f') := by
  induction h with
  | nil => exact .inl rfl
  | @cons x x' xs xs' hx _ ih =>
    simp only [findNamed, List.find?_cons, hname x x' hx] at ih ⊢
    cases nameOf x == name with
    | true => exact hf x x' hx
    | false => exact ih

theorem near_expandEach {R : α → α → Prop} {f f' : α → Except Error Expansion} {xs xs' : List α}
    (h : List.Forall₂ R xs xs') (hf : ∀ x x', R x x' → Near p (f x) (f' x')) :
    Near p (expandEach f xs) (expandEach f' xs') := by
  induction h with
  | nil => exact near_refl p _
  | cons hx _ ih => exact near_bind (hf _ _ hx) fun a => near_bind ih fun b => near_refl p _

end

/-! ## The same but for empty conditions -/

/-- The conditions are the same, if an empty one counts as none. -/
def SameCondition (c c' : Option String) : Prop := c'.getD "" = c.getD ""

/-- The stored texts say the same but for empty conditions. -/
def SameText (s s' : String) : Prop :=
  (restore s').map (dropEmptyNode ·.toNode) = (restore s).map (dropEmptyNode ·.toNode)

/-- The stored texts of elements of actions are the same, or else, where that may be, the second one has a condition
that is empty. -/
def SameActionText (p : Prop) (s s' : String) : Prop :=
  s' = s ∨ p ∧ ∃ e, restore s' = .ok e ∧ e.attr? "condition" = some ""

structure SameValue (v v' : NamedValue) : Prop where
  name : v'.name = v.name
  value : v'.value = v.value
  condition : SameCondition v.condition v'.condition

structure SameChart (c c' : Chart) : Prop where
  name : c'.name = c.name
  condition : SameCondition c.condition c'.condition
  rows : List.Forall₂ SameText c.rows c'.rows

structure SameBlock (b b' : Block) : Prop where
  name : b'.name = b.name
  params : b'.params = b.params
  elements : List.Forall₂ SameText b.elements b'.elements

structure SameComponent (c c' : Component) : Prop where
  name : c'.name = c.name
  uniqueId : c'.uniqueId = c.uniqueId
  condition : SameCondition c.condition c'.condition
  elements : Option.Rel (List.Forall₂ SameText) c.elements c'.elements

structure SameAction (p : Prop) (a a' : Action) : Prop where
  name : a'.name = a.name
  params : a'.params = a.params
  elements : Option.Rel (List.Forall₂ (SameActionText p)) a.elements a'.elements

/-- The documents say the same to a compilation but for empty conditions; `p` tells whether there may be such conditions
on elements of actions. -/
structure SameDocument (p : Prop) (d d' : Document) : Prop where
  name : d'.name = d.name
  uniqueId : d'.uniqueId = d.uniqueId
  version : d'.version = d.version
  pkgVersion : d'.pkgVersion = d.pkgVersion
  metadata : d'.metadata = d.metadata
  configs : d'.configs = d.configs
  colors : d'.colors = d.colors
  images : d'.images = d.images
  values : List.Forall₂ SameValue d.values d'.values
  charts : List.Forall₂ SameChart d.charts d'.charts
  blocks : List.Forall₂ SameBlock d.blocks d'.blocks
  actions : List.Forall₂ (SameAction p) d.actions d'.actions
  components : List.Forall₂ SameComponent d.components d'.components

theorem holdsIfGiven_same {c c' : Option String} (h : SameCondition c c') (scope : Scope) :
    holdsIfGiven scope c' = holdsIfGiven scope c := by
  have hgiven : ∀ c : Option String, holdsIfGiven scope c =
      if (c.getD "").isEmpty then .ok true else holds scope (c.getD "") := by
    intro c
    cases c with
    | none => rfl
    | some s => rfl
  rw [hgiven, hgiven, h]

/-! ## Actions -/

/-- An element of an action whose condition is empty becomes nothing at all. -/
theorem expandActionElement_of_empty {e : Element} (he : e.attr? "condition" = some "") (params : Table Value) :
    expandActionElement params e = .error (.undecided "") := by
  rw [expandActionElement, he]
  rfl

/-- Behind an element whose condition is empty, nothing of an action is expanded. -/
theorem expandActionTexts_of_empty {s : String} {e : Element} (hs : restore s = .ok e)
    (he : e.attr? "condition" = some "") (params : Table Value) (before after : List String) :
    expandActionTexts params (before ++ s :: after) =
      (expandActionTexts params before >>= fun _ => .error (.undecided "")) := by
  have hfails : expandActionTexts params (s :: after) = .error (.undecided "") := by
    rw [expandActionTexts, hs]
    change expandActionElement params e >>= _ = _
    rw [expandActionElement_of_empty he]
    rfl
  rw [expandActionTexts_append, hfails]
  rfl

section

variable {p : Prop} {d d' : Document}

theorem near_expandActionTexts {ss ss' : List String} (h : List.Forall₂ (SameActionText p) ss ss')
    (params : Table Value) : Near p (expandActionTexts params ss) (expandActionTexts params ss') := by
  rw [expandActionTexts_eq, expandActionTexts_eq]
  refine near_expandEach h fun s s' hs => ?_
  rcases hs with rfl | ⟨hp, e, he, hempty⟩
  · exact near_refl p _
  · refine .inr ⟨hp, ?_⟩
    rw [he]
    exact expandActionElement_of_empty hempty params

theorem near_expandAction (h : SameDocument p d d') (globals scope : Scope) (e : Element) :
    Near p (expandAction ⟨d, globals⟩ scope e) (expandAction ⟨d', globals⟩ scope e) := by
  have hcolor : checkColor d' = checkColor d := by
    funext params
    rw [checkColor, checkColor, Document.colorTable, Document.colorTable, h.colors]
  refine near_findNamed_bind h.actions (fun _ _ ha => ha.name) _ fun a a' ha => ?_
  rw [ha.params, hcolor]
  refine near_bind (near_refl p _) fun params => ?_
  refine near_bind (near_refl p _) fun _ => ?_
  refine near_bind (near_refl p _) fun _ => ?_
  have helements := ha.elements
  generalize a.elements = texts, a'.elements = texts' at helements
  cases helements with
  | none => exact .inl rfl
  | some htexts => exact near_expandActionTexts htexts params

/-! ## Nodes and stored texts -/

section

variable {content content' : Scope → List String → Except Error Expansion}

/-- Using a block goes alike if the content of blocks is expanded alike. -/
theorem near_enterBlock_bind (h : SameDocument p d d') (globals scope : Scope) (e : Element)
    (hcontent : ∀ inner ss ss', List.Forall₂ SameText ss ss' → Near p (content inner ss) (content' inner ss')) :
    Near p (enterBlock ⟨d, globals⟩ scope e >>= fun r => content r.1 r.2)
      (enterBlock ⟨d', globals⟩ scope e >>= fun r => content' r.1 r.2) := by
  have hassoc : ∀ (d : Document) (content : Scope → List String → Except Error Expansion),
      (enterBlock ⟨d, globals⟩ scope e >>= fun r => content r.1 r.2) =
        (d.block (e.attr "name") >>= fun block =>
          bindArguments (scope.update globals) block.params (argumentsOf e) >>= fun params =>
          checkParams .block (e.attr "name") params >>= fun _ => content (params.update globals) block.elements) := by
    intro d content
    simp only [enterBlock, bind_assoc]
    rfl
  rw [hassoc, hassoc]
  refine near_findNamed_bind h.blocks (fun _ _ hb => hb.name) _ fun b b' hb => ?_
  rw [hb.params]
  refine near_bind (near_refl p _) fun params => ?_
  exact near_bind (near_refl p _) fun _ => hcontent _ _ _ hb.elements

mutual

theorem near_expandNode (h : SameDocument p d d') (globals : Scope)
    (hcontent : ∀ inner ss ss', List.Forall₂ SameText ss ss' → Near p (content inner ss) (content' inner ss'))
    (scope : Scope) (n : Node) :
    Near p (expandNode ⟨d, globals⟩ content scope n) (expandNode ⟨d', globals⟩ content' scope n) := by
  cases n with
  | element name attrs children =>
    have hinner (head : Scope → Element → Except Error Element) : Near p
        (do
          let scope := scope.update globals
          let head ← head scope ⟨name, attrs, []⟩
          let inner ← expandNodes ⟨d, globals⟩ content scope children
          .ok (inner.wrap head))
        (do
          let scope := scope.update globals
          let head ← head scope ⟨name, attrs, []⟩
          let inner ← expandNodes ⟨d', globals⟩ content' scope children
          .ok (inner.wrap head)) :=
      near_bind (near_refl p _) fun _ =>
        near_bind (near_expandNodes h globals hcontent _ children) fun _ => near_refl p _
    rw [expandNode, expandNode]
    refine near_bind (near_refl p _) fun kept => ?_
    split
    · exact near_refl p _
    split
    · exact near_expandAction h globals scope _
    split
    · exact near_enterBlock_bind h globals scope _ hcontent
    split
    · exact hinner instructionHead
    split
    · exact hinner repeatHead
    split
    · exact hinner rowHead
    split
    · rw [expandImage, expandImage, Document.image, Document.image, h.images]
      exact near_refl p _
    · exact near_refl p _
  | _ => exact near_refl p _

theorem near_expandNodes (h : SameDocument p d d') (globals : Scope)
    (hcontent : ∀ inner ss ss', List.Forall₂ SameText ss ss' → Near p (content inner ss) (content' inner ss'))
    (scope : Scope) (ns : List Node) :
    Near p (expandNodes ⟨d, globals⟩ content scope ns) (expandNodes ⟨d', globals⟩ content' scope ns) := by
  cases ns with
  | nil => exact near_refl p _
  | cons n ns =>
    rw [expandNodes, expandNodes]
    refine near_bind (near_expandNode h globals hcontent scope n) fun a => ?_
    exact near_bind (near_expandNodes h globals hcontent scope ns) fun b => near_refl p _

end

end

/-- Stored texts that say the same are expanded alike if trees that are the same without empty conditions are. -/
theorem near_expandTexts {expand expand' : Node → Except Error Expansion} {ss ss' : List String}
    (h : List.Forall₂ SameText ss ss')
    (hexpand : ∀ n n', dropEmptyNode n' = dropEmptyNode n → Near p (expand n) (expand' n')) :
    Near p (expandTexts expand ss) (expandTexts expand' ss') := by
  rw [expandTexts_eq, expandTexts_eq]
  refine near_expandEach h fun s s' hs => ?_
  rw [SameText] at hs
  cases hrestore : restore s with
  | error f =>
    rw [hrestore] at hs
    rw [map_eq_error.1 hs]
    exact .inl rfl
  | ok e =>
    rw [hrestore] at hs
    obtain ⟨e', he', hdrop⟩ := map_eq_ok.1 hs
    rw [he']
    exact hexpand e.toNode e'.toNode hdrop

theorem near_expandTo (h : SameDocument p d d') (globals : Scope) (depth : Nat) (scope : Scope) {n n' : Node}
    (hn : dropEmptyNode n' = dropEmptyNode n) :
    Near p (expandTo ⟨d, globals⟩ depth scope n) (expandTo ⟨d', globals⟩ depth scope n') := by
  induction depth generalizing scope n n' with
  | zero =>
    rw [← expandTo_dropEmpty _ 0 scope n', hn, expandTo_dropEmpty]
    exact near_expandNode h globals (fun _ _ _ _ => near_refl p _) scope n
  | succ depth ih =>
    rw [← expandTo_dropEmpty _ (depth + 1) scope n', hn, expandTo_dropEmpty]
    refine near_expandNode h globals (fun inner ss ss' hss => ?_) scope n
    exact near_expandTexts hss fun m m' hm => ih inner hm

theorem near_expand (h : SameDocument p d d') (globals : Scope) {ss ss' : List String}
    (hss : List.Forall₂ SameText ss ss') :
    Near p (Context.expand ⟨d, globals⟩ ss) (Context.expand ⟨d', globals⟩ ss') := by
  have hdepth : Context.depth ⟨d', globals⟩ = Context.depth ⟨d, globals⟩ := by
    rw [Context.depth, Context.depth, h.blocks.length_eq]
  rw [Context.expand, Context.expand, hdepth]
  exact near_expandTexts hss fun n n' hn => near_expandTo h globals _ globals hn

/-! ## Projects -/

theorem near_chartExpansion (h : SameDocument p d d') (globals : Scope) {c c' : Chart} (hc : SameChart c c') :
    Near p (chartExpansion ⟨d, globals⟩ c) (chartExpansion ⟨d', globals⟩ c') := by
  rw [chartExpansion, chartExpansion, holdsIfGiven_same hc.condition, hc.name]
  refine near_bind (near_refl p _) fun kept => ?_
  split
  · exact near_bind (near_expand h globals hc.rows) fun rows => near_refl p _
  · exact near_refl p _

theorem near_componentExpansion (h : SameDocument p d d') (globals : Scope) {c c' : Component}
    (hc : SameComponent c c') :
    Near p (componentExpansion ⟨d, globals⟩ c) (componentExpansion ⟨d', globals⟩ c') := by
  rw [componentExpansion, componentExpansion, holdsIfGiven_same hc.condition, hc.name, hc.uniqueId]
  refine near_bind (near_refl p _) fun kept => ?_
  have helements := hc.elements
  generalize c.elements = texts, c'.elements = texts' at helements
  split
  · cases helements with
    | none => exact near_refl p _
    | some htexts => exact near_bind (near_expand h globals htexts) fun content => near_refl p _
  · exact near_refl p _

theorem near_parts (h : SameDocument p d d') (globals : Scope) : Near p (parts ⟨d, globals⟩) (parts ⟨d', globals⟩) := by
  refine near_bind (near_expandEach h.charts fun _ _ => near_chartExpansion h globals) fun charts => ?_
  exact near_bind (near_expandEach h.components fun _ _ => near_componentExpansion h globals) fun _ => near_refl p _

theorem evaluateValues_same {vs vs' : List NamedValue} (h : List.Forall₂ SameValue vs vs') (globals : Scope) :
    evaluateValues globals vs' = evaluateValues globals vs := by
  induction h generalizing globals with
  | nil => rfl
  | @cons v v' vs vs' hv _ ih =>
    have hvalue : evaluateValue globals v' = evaluateValue globals v := by
      rw [evaluateValue, evaluateValue, holdsIfGiven_same hv.condition, hv.name, hv.value]
    rw [evaluateValues, evaluateValues, hvalue]
    simp only [ih]

/-- What is built from documents that say the same but for empty conditions. -/
theorem near_build (h : SameDocument p d d') (choices : Choices) (name id : String) :
    Near p (build d choices name id).tree (build d' choices name id).tree := by
  have hpattern : patternElement d' = patternElement d := by
    rw [patternElement, patternElement, metadataElement, metadataElement, h.metadata, h.uniqueId, h.name, h.version]
  rw [build, build, hpattern, h.configs]
  split
  · exact near_refl p _
  simp only
  split
  · exact near_refl p _
  simp only [evaluateValues_same h.values]
  split
  · exact near_refl p _
  · rw [h.colors, imageElements, imageElements, h.images]
    refine near_bind (near_refl p _) fun colors => ?_
    exact near_bind (near_parts h _) fun content => near_refl p _

/-- What is compiled from documents that say the same but for empty conditions. -/
theorem near_compile (h : SameDocument p d d') (c : Compilation) (choices : Choices) (name : String) (n : Nat) :
    Near p ((compile c choices name d).run n).1.text ((compile c choices name d').run n).1.text := by
  have htext : ∀ d : Document, ((compile c choices name d).run n).1.text =
      if (d.pkgVersion.getD "").isEmpty then .error .notPackaged
      else if c.started then .error .secondRoot
      else (build d choices name (identifier (n + 1))).tree >>= write := by
    intro d
    rw [compile]
    split
    · rfl
    · cases hstarted : c.started with
      | true => rfl
      | false => rfl
  rw [htext, htext, h.pkgVersion]
  split
  · exact near_refl p _
  split
  · exact near_refl p _
  · exact near_bind (near_build h choices name _) fun project => near_refl p _

end

/-! ## Documents that gain an empty condition -/

/-- One thing in a list is changed. -/
def OneChanges (R : α → α → Prop) (xs xs' : List α) : Prop :=
  ∃ before x x' after, xs = before ++ x :: after ∧ xs' = before ++ x' :: after ∧ R x x'

/-- An element of the tree, at any depth, has no condition and gains an empty one. -/
inductive NodeGains : Node → Node → Prop
  | here {name : String} {attrs attrs' : Table String} {children : List Node}
      (hempty : attrs'.get? "condition" = some "") (hrest : attrs'.erase "condition" = attrs) :
      NodeGains (.element name attrs children) (.element name attrs' children)
  | inside {name : String} {attrs : Table String} {before after : List Node} {n n' : Node} (h : NodeGains n n') :
      NodeGains (.element name attrs (before ++ n :: after)) (.element name attrs (before ++ n' :: after))

/-- The stored text says the same as before, but for an element that gains an empty condition. -/
def TextGains (s s' : String) : Prop :=
  ∃ e e', restore s = .ok e ∧ restore s' = .ok e' ∧ NodeGains e.toNode e'.toNode

/-- The document gains an empty condition: on a value, a chart or a component that had none, or on an element in what a
chart, a block or a component stores. -/
inductive Gains (d : Document) : Document → Prop
  | value {vs : List NamedValue}
      (h : OneChanges (fun v v' => v.condition = none ∧ v' = { v with condition := some "" }) d.values vs) :
      Gains d { d with values := vs }
  | chart {cs : List Chart}
      (h : OneChanges (fun c c' => c.condition = none ∧ c' = { c with condition := some "" }) d.charts cs) :
      Gains d { d with charts := cs }
  | component {cs : List Component}
      (h : OneChanges (fun c c' => c.condition = none ∧ c' = { c with condition := some "" }) d.components cs) :
      Gains d { d with components := cs }
  | inChart {cs : List Chart}
      (h : OneChanges (fun c c' => ∃ rows, OneChanges TextGains c.rows rows ∧ c' = { c with rows := rows })
        d.charts cs) :
      Gains d { d with charts := cs }
  | inBlock {bs : List Block}
      (h : OneChanges (fun b b' => ∃ texts, OneChanges TextGains b.elements texts ∧ b' = { b with elements := texts })
        d.blocks bs) :
      Gains d { d with blocks := bs }
  | inComponent {cs : List Component}
      (h : OneChanges (fun c c' => ∃ texts texts', c.elements = some texts ∧ OneChanges TextGains texts texts' ∧
        c' = { c with elements := some texts' }) d.components cs) :
      Gains d { d with components := cs }

/-- The document gains an empty condition on an element of an action, which had none. -/
def ActionGains (d d' : Document) : Prop :=
  ∃ as, d' = { d with actions := as } ∧ OneChanges (fun a a' => ∃ texts texts', a.elements = some texts ∧
    OneChanges (fun s s' => ∃ e e', restore s = .ok e ∧ restore s' = .ok e' ∧ e'.attr? "condition" = some "" ∧
      e'.eraseAttr "condition" = e) texts texts' ∧ a' = { a with elements := some texts' }) d.actions as

/-! ### What has been gained is an empty condition -/

/-- Where one thing is changed, the others are the same. -/
theorem OneChanges.forall₂ {R S : α → α → Prop} {xs xs' : List α} (h : OneChanges R xs xs')
    (hR : ∀ x x', R x x' → S x x') (hrefl : ∀ x, S x x) : List.Forall₂ S xs xs' := by
  obtain ⟨before, x, x', after, rfl, rfl, hx⟩ := h
  have hsame : ∀ ys : List α, List.Forall₂ S ys ys := fun ys => List.forall₂_same.2 fun y _ => hrefl y
  exact List.rel_append (hsame before) (.cons (hR x x' hx) (hsame after))

theorem dropEmptyNode_gains {n n' : Node} (h : NodeGains n n') : dropEmptyNode n' = dropEmptyNode n := by
  induction h with
  | @here name attrs attrs' children hempty hrest =>
    have hnone : attrs.get? "condition" = none := by
      rw [← hrest, Table.get?_erase, if_pos rfl]
    rw [dropEmptyNode, dropEmptyNode, dropEmpty, dropEmpty, if_pos hempty, hrest, hnone, if_neg (by decide)]
  | inside _ ih =>
    rw [dropEmptyNode, dropEmptyNode, dropEmptyNodes_append, dropEmptyNodes_append, dropEmptyNodes, dropEmptyNodes, ih]

theorem sameText_refl (s : String) : SameText s s := rfl

theorem sameText_of_gains {s s' : String} (h : TextGains s s') : SameText s s' := by
  obtain ⟨e, e', hs, hs', hgains⟩ := h
  rw [SameText, hs, hs']
  exact congrArg Except.ok (dropEmptyNode_gains hgains)

theorem sameTexts_refl (ss : List String) : List.Forall₂ SameText ss ss :=
  List.forall₂_same.2 fun s _ => sameText_refl s

theorem sameTexts_of_gains {ss ss' : List String} (h : OneChanges TextGains ss ss') : List.Forall₂ SameText ss ss' :=
  h.forall₂ (fun _ _ => sameText_of_gains) sameText_refl

theorem rel_refl {R : α → α → Prop} (h : ∀ x, R x x) (x : Option α) : Option.Rel R x x := by
  cases x with
  | none => exact .none
  | some x => exact .some (h x)

theorem sameCondition_of_none {c : Option String} (h : c = none) : SameCondition c (some "") := by
  rw [h]
  rfl

theorem sameValue_refl (v : NamedValue) : SameValue v v := ⟨rfl, rfl, rfl⟩

theorem sameChart_refl (c : Chart) : SameChart c c := ⟨rfl, rfl, sameTexts_refl _⟩

theorem sameBlock_refl (b : Block) : SameBlock b b := ⟨rfl, rfl, sameTexts_refl _⟩

theorem sameComponent_refl (c : Component) : SameComponent c c := ⟨rfl, rfl, rfl, rel_refl sameTexts_refl _⟩

theorem sameAction_refl (p : Prop) (a : Action) : SameAction p a a :=
  ⟨rfl, rfl, rel_refl (fun _ => List.forall₂_same.2 fun _ _ => .inl rfl) _⟩

theorem sameDocument_refl (p : Prop) (d : Document) : SameDocument p d d where
  name := rfl
  uniqueId := rfl
  version := rfl
  pkgVersion := rfl
  metadata := rfl
  configs := rfl
  colors := rfl
  images := rfl
  values := List.forall₂_same.2 fun v _ => sameValue_refl v
  charts := List.forall₂_same.2 fun c _ => sameChart_refl c
  blocks := List.forall₂_same.2 fun b _ => sameBlock_refl b
  actions := List.forall₂_same.2 fun a _ => sameAction_refl p a
  components := List.forall₂_same.2 fun c _ => sameComponent_refl c

theorem sameDocument_of_gains {d d' : Document} (h : Gains d d') : SameDocument False d d' := by
  have hd := sameDocument_refl False d
  cases h with
  | value h =>
    refine { hd with values := h.forall₂ ?_ sameValue_refl }
    rintro v _ ⟨hv, rfl⟩
    exact ⟨rfl, rfl, sameCondition_of_none hv⟩
  | chart h =>
    refine { hd with charts := h.forall₂ ?_ sameChart_refl }
    rintro c _ ⟨hc, rfl⟩
    exact ⟨rfl, sameCondition_of_none hc, sameTexts_refl _⟩
  | component h =>
    refine { hd with components := h.forall₂ ?_ sameComponent_refl }
    rintro c _ ⟨hc, rfl⟩
    exact ⟨rfl, rfl, sameCondition_of_none hc, rel_refl sameTexts_refl _⟩
  | inChart h =>
    refine { hd with charts := h.forall₂ ?_ sameChart_refl }
    rintro c _ ⟨rows, hrows, rfl⟩
    exact ⟨rfl, rfl, sameTexts_of_gains hrows⟩
  | inBlock h =>
    refine { hd with blocks := h.forall₂ ?_ sameBlock_refl }
    rintro b _ ⟨texts, htexts, rfl⟩
    exact ⟨rfl, rfl, sameTexts_of_gains htexts⟩
  | inComponent h =>
    refine { hd with components := h.forall₂ ?_ sameComponent_refl }
    rintro c _ ⟨texts, texts', hc, htexts, rfl⟩
    refine ⟨rfl, rfl, rfl, ?_⟩
    rw [hc]
    exact .some (sameTexts_of_gains htexts)

theorem sameDocument_of_actionGains {d d' : Document} (h : ActionGains d d') : SameDocument True d d' := by
  obtain ⟨as, rfl, h⟩ := h
  refine { sameDocument_refl True d with actions := h.forall₂ ?_ (sameAction_refl True) }
  rintro a _ ⟨texts, texts', ha, htexts, rfl⟩
  refine ⟨rfl, rfl, ?_⟩
  rw [ha]
  refine .some (htexts.forall₂ ?_ fun _ => .inl rfl)
  rintro s s' ⟨e, e', -, hs', hempty, -⟩
  exact .inr ⟨trivial, e', hs', hempty⟩

/-- An empty condition where there was none changes nothing about what is compiled from a document, text or report, on
values, charts and components and at any depth in them and in blocks.  On an element of an action it changes nothing
either, or the report is that it is undecided: every use of the action that gets as far as this element ends with this
report, whatever the parameters are. -/
theorem empty_condition_ignored_outside_actions (c : Compilation) (choices : Choices) (name : String) (n : Nat)
    (d : Document) :
    (∀ d', Gains d d' → ((compile c choices name d').run n).1.text = ((compile c choices name d).run n).1.text) ∧
    (∀ d', ActionGains d d' → ((compile c choices name d').run n).1.text = ((compile c choices name d).run n).1.text ∨
      ((compile c choices name d').run n).1.text = .error (.undecided "")) ∧
    ∀ before s after e params, restore s = .ok e → e.attr? "condition" = some "" →
      expandActionTexts params (before ++ s :: after) =
        (expandActionTexts params before >>= fun _ => .error (.undecided "")) := by
  refine ⟨fun d' h => ?_, fun d' h => ?_, fun before s after e params hs he => ?_⟩
  · rcases near_compile (sameDocument_of_gains h) c choices name n with heq | ⟨hno, -⟩
    · exact heq
    · exact hno.elim
  · rcases near_compile (sameDocument_of_actionGains h) c choices name n with heq | ⟨-, hundecided⟩
    · exact .inl heq
    · exact .inr hundecided
  · exact expandActionTexts_of_empty hs he params before after

/-! ### A document that uses an action -/

/-- A document in which a component uses an action.  The texts stand in the tag of the element of the action, and in
that of its use. -/
def usingAction (inElement inUse : String) : Document :=
  { Document.empty with
    pkgVersion := some "1"
    actions := [⟨"b", false, Table.empty, some ["<action" ++ inElement ++ "/>"]⟩]
    components := [⟨"a", some "i", some ["<opaf:action xmlns:opaf=\"u\" name=\"b\"" ++ inUse ++ "/>"], none⟩] }

/-- What is compiled from the document. -/
def compiledUse (inElement inUse : String) : Except Error String :=
  ((compile .fresh ⟨Table.empty, Table.empty⟩ "k" (usingAction inElement inUse)).run 0).1.text

theorem restore_of_check {s name : String} {es : List (String × String)}
    (h : (restore s).toOption.map (fun e => (e.name, e.attrs.entries, e.children.length)) = some (name, es, 0)) :
    restore s = .ok ⟨name, ⟨es⟩, []⟩ := by
  cases hs : restore s with
  | error f =>
    rw [hs] at h
    cases h
  | ok e =>
    obtain ⟨ename, ⟨entries⟩, children⟩ := e
    rw [hs] at h
    simp only [Except.toOption, Option.map_some, Option.some.injEq, Prod.mk.injEq, List.length_eq_zero_iff] at h
    rw [h.1, h.2.1, h.2.2]

/-- The use of the action gains an empty condition. -/
theorem gains_use : Gains (usingAction "" "") (usingAction "" " condition=\"\"") := by
  have htext : restore ("<opaf:action xmlns:opaf=\"u\" name=\"b\"" ++ "" ++ "/>") =
      .ok ⟨"opaf:action", ⟨[("xmlns:opaf", "u"), ("name", "b")]⟩, []⟩ := restore_of_check (by decide +kernel)
  have htext' : restore ("<opaf:action xmlns:opaf=\"u\" name=\"b\"" ++ " condition=\"\"" ++ "/>") =
      .ok ⟨"opaf:action", ⟨[("xmlns:opaf", "u"), ("name", "b"), ("condition", "")]⟩, []⟩ :=
    restore_of_check (by decide +kernel)
  have hgains : TextGains _ _ := ⟨_, _, htext, htext', .here (by decide) (by decide)⟩
  exact .inComponent ⟨[], _, _, [], rfl, rfl, [_], [_], rfl, ⟨[], _, _, [], rfl, rfl, hgains⟩, rfl⟩

/-- The element of the action gains an empty condition. -/
theorem gains_element : ActionGains (usingAction "" "") (usingAction " condition=\"\"" "") := by
  have htext : restore ("<action" ++ "" ++ "/>") = .ok ⟨"action", ⟨[]⟩, []⟩ := restore_of_check (by decide +kernel)
  have htext' : restore ("<action" ++ " condition=\"\"" ++ "/>") = .ok ⟨"action", ⟨[("condition", "")]⟩, []⟩ :=
    restore_of_check (by decide +kernel)
  refine ⟨_, rfl, [], _, _, [], rfl, rfl, [_], [_], rfl, ⟨[], _, _, [], rfl, rfl, ?_⟩, rfl⟩
  exact ⟨_, _, htext, htext', rfl, rfl⟩

/-- An empty condition on the use of the action changes nothing, and one on the element of the action makes the
compilation fail. -/
theorem usingAction_undecided : (compiledUse "" "").isOk = true ∧
    compiledUse "" " condition=\"\"" = compiledUse "" "" ∧
    compiledUse " condition=\"\"" "" = .error (.undecided "") := by
  have hcheck : (compiledUse "" "").isOk = true ∧ (compiledUse " condition=\"\"" "").isOk = false := by decide +kernel
  obtain ⟨hplain, hactions, -⟩ := empty_condition_ignored_outside_actions .fresh ⟨Table.empty, Table.empty⟩ "k" 0
    (usingAction "" "")
  refine ⟨hcheck.1, hplain _ gains_use, ?_⟩
  rcases hactions _ gains_element with hsame | hundecided
  · change compiledUse " condition=\"\"" "" = compiledUse "" "" at hsame
    rw [hsame, hcheck.1] at hcheck
    cases hcheck.2
  · exact hundecided

end Stitchwork.Project
