/- # Stitchwork.Proofs.Project.Expansion — what an expansion looks at, and what it reports.

An expansion looks up actions, blocks, colours and images in its document, and nothing else.  Nodes that stand
behind each other are expanded one behind the other, in the same scope.

Every step of an expansion has reports of its own.  Two reports are foreign to all steps: that a config does not
allow a value, which only configs say, and that blocks stand too deep in blocks, which only the end of a bounded
expansion says.  That a text is not a document is said of stored texts only.  What a node becomes depends on the
content of blocks only for the blocks that it uses, and it makes a foreign report only if the content of one of these
makes it.
-/
import Stitchwork.Project.Build
import Stitchwork.Proofs.Work

namespace Stitchwork.Project

open Stitchwork.Formula Stitchwork.Markup Stitchwork.Pattern

variable {α β : Type}

variable {texts : List String} {bad : Error} {c : Context}

/-! ## Stored texts -/

/-- Is the report one that an expansion does not make of anything but stored texts? -/
def isStrange : Error → Bool
  | .markup _ => true
  | e => isForeign e

theorem avoids_restore (hbad : isForeign bad) (s : String) : Avoids bad (restore s) :=
  avoids_mapError hbad fun _ => rfl

/-- A definition that has been found is there and has the name. -/
theorem findNamed_eq_ok {kind : Kind} {nameOf : α → String} {xs : List α} {name : String} {x : α}
    (h : findNamed kind nameOf xs name = .ok x) : x ∈ xs ∧ nameOf x = name := by
  rw [findNamed] at h
  split at h
  · next y hy =>
    cases h
    exact ⟨List.mem_of_find?_eq_some hy, by simpa using List.find?_some hy⟩
  · cases h

/-- The report is not made of what the actions of a document store. -/
def ActionsAvoid (bad : Error) (d : Document) : Prop :=
  ∀ a ∈ d.actions, ∀ texts ∈ a.elements, ∀ s ∈ texts, Avoids bad (restore s)

theorem actionsAvoid_of_isForeign (hbad : isForeign bad) (d : Document) : ActionsAvoid bad d :=
  fun _ _ _ _ s _ => avoids_restore hbad s

/-! ## One behind the other -/

/-- What is done with the results of two steps is the same if it is the same for every result. -/
theorem bind_congr_ok {ε : Type} {r : Except ε α} {f g : α → Except ε β} (h : ∀ a, r = .ok a → f a = g a) :
    r >>= f = r >>= g := by
  cases r with
  | error e => rfl
  | ok a => exact h a rfl

theorem Expansion.append_assoc (a b c : Expansion) : (a.append b).append c = a.append (b.append c) := by
  simp [Expansion.append, Bool.and_assoc]

section

variable {f : α → Except Error Expansion}

theorem expandEach_append (f : α → Except Error Expansion) (xs ys : List α) :
    expandEach f (xs ++ ys) = (do
      let a ← expandEach f xs
      let b ← expandEach f ys
      .ok (a.append b)) := by
  induction xs with
  | nil =>
    show expandEach f ys = expandEach f ys >>= fun b => .ok (Expansion.none.append b)
    cases expandEach f ys <;> rfl
  | cons x xs ih =>
    rw [List.cons_append, expandEach, expandEach, ih]
    simp only [bind_assoc]
    refine bind_congr_ok fun a _ => bind_congr_ok fun b _ => ?_
    show expandEach f ys >>= (fun c => .ok (a.append (b.append c))) =
      expandEach f ys >>= fun c => .ok ((a.append b).append c)
    simp only [Expansion.append_assoc]

theorem expandEach_congr {g : α → Except Error Expansion} {xs : List α} (h : ∀ x ∈ xs, f x = g x) :
    expandEach f xs = expandEach g xs := by
  induction xs with
  | nil => rfl
  | cons x xs ih =>
    rw [List.forall_mem_cons] at h
    rw [expandEach, expandEach, h.1, ih h.2]

theorem avoids_expandEach {xs : List α} (hf : ∀ x ∈ xs, Avoids bad (f x)) : Avoids bad (expandEach f xs) := by
  induction xs with
  | nil => exact avoids_ok _
  | cons x xs ih =>
    rw [List.forall_mem_cons] at hf
    exact avoids_bind hf.1 fun _ => avoids_bind (ih hf.2) fun _ => avoids_ok _

/-- Things that are expanded one behind the other are each expanded. -/
theorem forall_of_expandEach {xs : List α} {a : Expansion} (h : expandEach f xs = .ok a) :
    ∀ x ∈ xs, ∃ b, f x = .ok b := by
  induction xs generalizing a with
  | nil => exact nofun
  | cons x xs ih =>
    obtain ⟨b, hb, h⟩ := bind_eq_ok.1 h
    obtain ⟨rest, hrest, -⟩ := bind_eq_ok.1 h
    exact List.forall_mem_cons.2 ⟨⟨b, hb⟩, ih hrest⟩

theorem forall_expandEach {E : Node → Prop} {xs : List α} (hf : ∀ x ∈ xs, ∀ b, f x = .ok b → ∀ n ∈ b.nodes, E n)
    {a : Expansion} (ha : expandEach f xs = .ok a) : ∀ n ∈ a.nodes, E n := by
  induction xs generalizing a with
  | nil =>
    cases ha
    exact nofun
  | cons x xs ih =>
    rw [List.forall_mem_cons] at hf
    obtain ⟨first, hfirst, ha⟩ := bind_eq_ok.1 ha
    obtain ⟨rest, hrest, ha⟩ := bind_eq_ok.1 ha
    cases ha
    exact List.forall_mem_append.2 ⟨hf.1 first hfirst, ih hf.2 hrest⟩

end

/-- Stored elements are restored and expanded one behind the other. -/
theorem expandTexts_eq (expand : Node → Except Error Expansion) (texts : List String) :
    expandTexts expand texts = expandEach (fun s => restore s >>= fun e => expand e.toNode) texts := by
  induction texts with
  | nil => rfl
  | cons s rest ih => simp only [expandTexts, expandEach, ih, bind_assoc]

theorem expandTexts_congr {expand other : Node → Except Error Expansion}
    (h : ∀ s ∈ texts, ∀ e, restore s = .ok e → expand e.toNode = other e.toNode) :
    expandTexts expand texts = expandTexts other texts := by
  rw [expandTexts_eq, expandTexts_eq]
  exact expandEach_congr fun s hs => bind_congr_ok (h s hs)

theorem avoids_expandTexts {expand : Node → Except Error Expansion}
    (h : ∀ s ∈ texts, Avoids bad (restore s) ∧ ∀ e, restore s = .ok e → Avoids bad (expand e.toNode)) :
    Avoids bad (expandTexts expand texts) := by
  rw [expandTexts_eq]
  exact avoids_expandEach fun s hs => avoids_bind_of_ok (h s hs).1 (h s hs).2

/-- Siblings are expanded one behind the other, all in the same scope. -/
theorem expandNodes_eq (c : Context) (content : Scope → List String → Except Error Expansion) (scope : Scope)
    (ns : List Node) : expandNodes c content scope ns = expandEach (expandNode c content scope) ns := by
  induction ns with
  | nil => rfl
  | cons n ns ih => rw [expandNodes, expandEach, ih]

theorem expandNodes_append (c : Context) (content : Scope → List String → Except Error Expansion) (scope : Scope)
    (xs ys : List Node) :
    expandNodes c content scope (xs ++ ys) = (do
      let a ← expandNodes c content scope xs
      let b ← expandNodes c content scope ys
      .ok (a.append b)) := by
  simp only [expandNodes_eq, expandEach_append]

/-- The elements of an action are expanded one behind the other. -/
theorem expandActionTexts_eq (params : Table Value) (texts : List String) :
    expandActionTexts params texts = expandEach (fun s => restore s >>= expandActionElement params) texts := by
  induction texts with
  | nil => rfl
  | cons s rest ih => simp only [expandActionTexts, expandEach, ih, bind_assoc]

theorem expandActionTexts_append (params : Table Value) (xs ys : List String) :
    expandActionTexts params (xs ++ ys) = (do
      let a ← expandActionTexts params xs
      let b ← expandActionTexts params ys
      .ok (a.append b)) := by
  simp only [expandActionTexts_eq, expandEach_append]

/-- The use of an action becomes what the elements of an action of the document become. -/
theorem exists_of_expandAction {scope : Scope} {e : Element} {a : Expansion} (h : expandAction c scope e = .ok a) :
    ∃ action ∈ c.document.actions, ∃ params texts,
      bindArguments scope action.params (argumentsOf e) = .ok params ∧ action.elements = some texts ∧
      expandActionTexts params texts = .ok a := by
  obtain ⟨action, haction, h⟩ := bind_eq_ok.1 h
  obtain ⟨params, hparams, h⟩ := bind_eq_ok.1 h
  obtain ⟨_, -, h⟩ := bind_eq_ok.1 h
  obtain ⟨_, -, h⟩ := bind_eq_ok.1 h
  split at h
  · next texts htexts => exact ⟨action, (findNamed_eq_ok haction).1, params, texts, hparams, htexts, h⟩
  · cases h

/-! ## Elements of an action -/

/-- Does the condition of an element of an action hold, if it has one? -/
def partHolds (params : Table Value) (e : Element) : Except Error Bool :=
  match e.attr? "condition" with
  | some condition => holds params condition
  | none => .ok true

theorem expandActionElement_eq (params : Table Value) (e : Element) : expandActionElement params e = (do
    let kept ← partHolds params e
    if !kept then .ok .none
    else
      let attrs ← expandAttrs params (e.eraseAttr "condition").attrs.entries
      let e ← addAttrs params { e with attrs := ⟨attrs⟩ }
      .ok (addChart params e)) := by
  rw [expandActionElement, partHolds]
  cases e.attr? "condition" <;> rfl

section

variable {bad : Error} (hbad : isStrange bad)

include hbad

/-! ## Texts and conditions -/

theorem avoids_expandText (scope : Scope) (s : String) : Avoids bad (expandText scope s) :=
  avoids_mapError hbad fun _ => rfl

theorem avoids_holds (scope : Scope) (s : String) : Avoids bad (holds scope s) := by
  refine avoids_bind (avoids_expandText hbad scope s) fun t => ?_
  cases saysTruth? t with
  | none => exact avoids_error hbad rfl
  | some b => exact avoids_ok b

theorem avoids_holdsIfGiven (scope : Scope) (condition : Option String) :
    Avoids bad (holdsIfGiven scope condition) := by
  cases condition with
  | none => exact avoids_ok true
  | some s =>
    rw [holdsIfGiven]
    split
    · exact avoids_ok true
    · exact avoids_holds hbad scope s

theorem avoids_findNamed (kind : Kind) (nameOf : α → String) (xs : List α) (name : String) :
    Avoids bad (findNamed kind nameOf xs name) := by
  rw [findNamed]
  split
  · exact avoids_ok _
  · exact avoids_error hbad rfl

/-! ## Arguments -/

theorem avoids_expandAttr (scope : Scope) (a : String × String) : Avoids bad (expandAttr scope a) := by
  rw [expandAttr]
  split
  · exact avoids_error hbad rfl
  · exact avoids_expandText hbad scope a.2

theorem avoids_copyArguments (scope : Scope) (t : Table String) (as : List (String × String)) :
    Avoids bad (copyArguments scope t as) := by
  induction as generalizing t with
  | nil => exact avoids_ok t
  | cons a as ih => exact avoids_bind (avoids_expandAttr hbad scope a) fun _ => ih _

theorem avoids_bindArguments (scope : Scope) (t : Table Value) (as : List (String × String)) :
    Avoids bad (bindArguments scope t as) := by
  induction as generalizing t with
  | nil => exact avoids_ok t
  | cons a as ih => exact avoids_bind (avoids_expandAttr hbad scope a) fun _ => ih _

theorem avoids_checkParams (kind : Kind) (name : String) (params : Table Value) :
    Avoids bad (checkParams kind name params) := by
  rw [checkParams]
  split
  · exact avoids_error hbad rfl
  · exact avoids_ok ()

/-! ## Actions -/

theorem avoids_checkColor (d : Document) (params : Table Value) : Avoids bad (checkColor d params) := by
  rw [checkColor]
  split
  · exact avoids_ok ()
  · split
    · exact avoids_ok ()
    · exact avoids_error hbad rfl
  · exact avoids_error hbad rfl

theorem avoids_expandAttrs (scope : Scope) (as : List (String × String)) :
    Avoids bad (expandAttrs scope as) := by
  induction as with
  | nil => exact avoids_ok []
  | cons a as ih =>
    exact avoids_bind (avoids_expandAttr hbad scope a) fun _ =>
      avoids_bind ih fun _ => avoids_ok _

theorem avoids_addAttrs (params : Table Value) (e : Element) : Avoids bad (addAttrs params e) := by
  rw [addAttrs]
  split
  · exact avoids_ok e
  · exact avoids_ok _
  · exact avoids_error hbad rfl

theorem avoids_expandActionElement (params : Table Value) (e : Element) :
    Avoids bad (expandActionElement params e) := by
  have hholds : Avoids bad (partHolds params e) := by
    rw [partHolds]
    split
    · exact avoids_holds hbad params _
    · exact avoids_ok true
  rw [expandActionElement_eq]
  refine avoids_bind hholds fun kept => ?_
  split
  · exact avoids_ok _
  · refine avoids_bind (avoids_expandAttrs hbad params _) fun attrs => ?_
    exact avoids_bind (avoids_addAttrs hbad params _) fun _ => avoids_ok _

theorem avoids_expandActionTexts (params : Table Value) (h : ∀ s ∈ texts, Avoids bad (restore s)) :
    Avoids bad (expandActionTexts params texts) := by
  rw [expandActionTexts_eq]
  exact avoids_expandEach fun s hs => avoids_bind (h s hs) (avoids_expandActionElement hbad params)

theorem avoids_expandAction (hactions : ActionsAvoid bad c.document) (scope : Scope) (e : Element) :
    Avoids bad (expandAction c scope e) := by
  refine avoids_bind_of_ok (avoids_findNamed hbad _ _ _ _) fun action haction => ?_
  refine avoids_bind (avoids_bindArguments hbad _ _ _) fun params => ?_
  refine avoids_bind (avoids_checkParams hbad _ _ _) fun _ => ?_
  refine avoids_bind (avoids_checkColor hbad _ _) fun _ => ?_
  cases htexts : action.elements with
  | none => exact avoids_error hbad rfl
  | some texts =>
    exact avoids_expandActionTexts hbad params (hactions action (findNamed_eq_ok haction).1 texts htexts)

/-! ## Other elements -/

theorem avoids_expandImage (c : Context) (e : Element) : Avoids bad (expandImage c e) :=
  avoids_bind (avoids_findNamed hbad _ _ _ _) fun _ => avoids_ok _

theorem avoids_expandTextElement (scope : Scope) (e : Element) :
    Avoids bad (expandTextElement scope e) :=
  avoids_bind (avoids_optionMapM (avoids_expandText hbad scope) _) fun _ => avoids_ok _

theorem avoids_instructionHead (scope : Scope) (e : Element) :
    Avoids bad (instructionHead scope e) :=
  avoids_bind (avoids_optionMapM (avoids_expandText hbad scope) _) fun _ => avoids_ok _

theorem avoids_repeatHead (scope : Scope) (e : Element) : Avoids bad (repeatHead scope e) := by
  rw [repeatHead]
  split
  · exact avoids_error hbad rfl
  · exact avoids_bind (avoids_copyArguments hbad scope _ _) fun _ => avoids_ok _

theorem avoids_rowHead (scope : Scope) (e : Element) : Avoids bad (rowHead scope e) := by
  rw [rowHead]
  split
  · exact avoids_error hbad rfl
  · exact avoids_bind (avoids_copyArguments hbad scope _ _) fun _ => avoids_ok _

theorem avoids_enterBlock (c : Context) (scope : Scope) (e : Element) :
    Avoids bad (enterBlock c scope e) := by
  refine avoids_bind (avoids_findNamed hbad _ _ _ _) fun block => ?_
  refine avoids_bind (avoids_bindArguments hbad _ _ _) fun params => ?_
  exact avoids_bind (avoids_checkParams hbad _ _ _) fun _ => avoids_ok _

end

/-! ## Blocks that are used -/

/-- The names of the blocks that a node uses, at any depth. -/
def usedNames (n : Node) : List String := (selfAndDescendants "opaf:block" n).map (·.attr "name")

/-- The names of the blocks that nodes use, at any depth. -/
def usedAmong (ns : List Node) : List String := (descendants "opaf:block" ns).map (·.attr "name")

theorem usedNames_element (name : String) (attrs : Table String) (children : List Node) :
    usedNames (.element name attrs children) =
      (if name == "opaf:block" then [Element.attr ⟨name, attrs, []⟩ "name"] else []) ++ usedAmong children := by
  rw [usedNames, selfAndDescendants]
  split
  · rfl
  · rfl

theorem usedAmong_cons (n : Node) (ns : List Node) :
    usedAmong (n :: ns) = usedNames n ++ usedAmong ns := by
  rw [usedAmong, descendants, List.map_append]
  rfl

/-- The stored elements of every block with one of the names have the property. -/
def OnBlocks (c : Context) (names : List String) (P : List String → Prop) : Prop :=
  ∀ name ∈ names, ∀ block, c.document.block name = .ok block → P block.elements

theorem onBlocks_append {ks ls : List String} {P : List String → Prop} :
    OnBlocks c (ks ++ ls) P ↔ OnBlocks c ks P ∧ OnBlocks c ls P :=
  List.forall_mem_append

/-- Entering a block gives the stored elements of the block that the element names. -/
theorem enterBlock_eq_ok {scope inner : Scope} {e : Element} (h : enterBlock c scope e = .ok (inner, texts)) :
    ∃ block, c.document.block (e.attr "name") = .ok block ∧ texts = block.elements := by
  obtain ⟨block, hblock, h⟩ := bind_eq_ok.1 h
  obtain ⟨params, -, h⟩ := bind_eq_ok.1 h
  obtain ⟨_, -, h⟩ := bind_eq_ok.1 h
  cases h
  exact ⟨block, hblock, rfl⟩

/-! ## Nodes -/

section

variable {bad : Error} {c : Context} {content other : Scope → List String → Except Error Expansion}

mutual

/-- What a node becomes depends on the content of the blocks that it uses only. -/
theorem expandNode_congr (scope : Scope) (n : Node)
    (h : OnBlocks c (usedNames n) fun texts => ∀ inner, content inner texts = other inner texts) :
    expandNode c content scope n = expandNode c other scope n := by
  cases n with
  | element name attrs children =>
    rw [usedNames_element, onBlocks_append] at h
    have hinner := fun scope => expandNodes_congr scope children h.2
    rw [expandNode, expandNode]
    simp only [hinner]
    refine bind_congr_ok fun kept _ => ?_
    split
    · rfl
    split
    · rfl
    split
    · next hname =>
      refine bind_congr_ok fun p hp => ?_
      obtain ⟨block, hblock, htexts⟩ := enterBlock_eq_ok hp
      rw [if_pos hname] at h
      have hblocks := h.1 _ (by simp) block hblock p.1
      rwa [← htexts] at hblocks
    · rfl
  | _ => rfl

theorem expandNodes_congr (scope : Scope) (ns : List Node)
    (h : OnBlocks c (usedAmong ns) fun texts => ∀ inner, content inner texts = other inner texts) :
    expandNodes c content scope ns = expandNodes c other scope ns := by
  cases ns with
  | nil => rfl
  | cons n ns =>
    rw [usedAmong_cons, onBlocks_append] at h
    rw [expandNodes, expandNodes, expandNode_congr scope n h.1, expandNodes_congr scope ns h.2]

end

mutual

/-- A node makes a foreign report only if the content of a block that it uses makes it. -/
theorem avoids_expandNode (hbad : isStrange bad) (hactions : ActionsAvoid bad c.document) (scope : Scope) (n : Node)
    (h : OnBlocks c (usedNames n) fun texts => ∀ inner, Avoids bad (content inner texts)) :
    Avoids bad (expandNode c content scope n) := by
  cases n with
  | element name attrs children =>
    rw [usedNames_element, onBlocks_append] at h
    have hinner (head : Scope → Element → Except Error Element)
        (hhead : ∀ scope e, Avoids bad (head scope e)) : Avoids bad (do
          let scope := scope.update c.globals
          let head ← head scope ⟨name, attrs, []⟩
          let inner ← expandNodes c content scope children
          .ok (inner.wrap head)) :=
      avoids_bind (hhead _ _) fun _ =>
        avoids_bind (avoids_expandNodes hbad hactions _ children h.2) fun _ => avoids_ok _
    rw [expandNode]
    refine avoids_bind (avoids_holdsIfGiven hbad scope _) fun kept => ?_
    split
    · exact avoids_ok _
    split
    · exact avoids_expandAction hbad hactions scope _
    split
    · next hname =>
      refine avoids_bind_of_ok (avoids_enterBlock hbad c scope _) fun p hp => ?_
      obtain ⟨block, hblock, htexts⟩ := enterBlock_eq_ok hp
      rw [if_pos hname] at h
      have hblocks := h.1 _ (by simp) block hblock p.1
      rwa [← htexts] at hblocks
    split
    · exact hinner instructionHead (avoids_instructionHead hbad)
    split
    · exact hinner repeatHead (avoids_repeatHead hbad)
    split
    · exact hinner rowHead (avoids_rowHead hbad)
    split
    · exact avoids_expandImage hbad c _
    split
    · exact avoids_expandTextElement hbad scope _
    · exact avoids_ok _
  | _ => exact avoids_error hbad rfl

theorem avoids_expandNodes (hbad : isStrange bad) (hactions : ActionsAvoid bad c.document) (scope : Scope)
    (ns : List Node)
    (h : OnBlocks c (usedAmong ns) fun texts => ∀ inner, Avoids bad (content inner texts)) :
    Avoids bad (expandNodes c content scope ns) := by
  cases ns with
  | nil => exact avoids_ok _
  | cons n ns =>
    rw [usedAmong_cons, onBlocks_append] at h
    refine avoids_bind (avoids_expandNode hbad hactions scope n h.1) fun a => ?_
    exact avoids_bind (avoids_expandNodes hbad hactions scope ns h.2) fun _ => avoids_ok _

end

end

/-! ## What an expansion looks up -/

/-- The contexts hold the same for an expansion: the same global values, and documents with the same actions,
blocks, colours and images. -/
structure Alike (c c' : Context) : Prop where
  globals : c'.globals = c.globals
  actions : c'.document.actions = c.document.actions
  blocks : c'.document.blocks = c.document.blocks
  colors : c'.document.colors = c.document.colors
  images : c'.document.images = c.document.images

section

variable {c c' : Context}

theorem Alike.expandAction (h : Alike c c') : Project.expandAction c' = Project.expandAction c := by
  have htable : c'.document.colorTable = c.document.colorTable := by
    rw [Document.colorTable, Document.colorTable, h.colors]
  have hcolor : checkColor c'.document = checkColor c.document := by
    funext params
    rw [checkColor, checkColor, htable]
  funext scope e
  rw [Project.expandAction, Project.expandAction, Document.action, Document.action, h.actions, hcolor]

theorem Alike.expandImage (h : Alike c c') : Project.expandImage c' = Project.expandImage c := by
  funext e
  simp only [Project.expandImage, Document.image, h.images]

theorem Alike.enterBlock (h : Alike c c') : Project.enterBlock c' = Project.enterBlock c := by
  funext scope e
  simp only [Project.enterBlock, Document.block, h.blocks, h.globals]

mutual

theorem expandNode_alike (h : Alike c c') (content : Scope → List String → Except Error Expansion)
    (scope : Scope) (n : Node) : expandNode c' content scope n = expandNode c content scope n := by
  cases n with
  | element name attrs children =>
    have hinner := fun scope => expandNodes_alike h content scope children
    rw [expandNode, expandNode]
    simp only [hinner, h.globals, h.expandAction, h.expandImage, h.enterBlock]
  | _ => rfl

theorem expandNodes_alike (h : Alike c c') (content : Scope → List String → Except Error Expansion)
    (scope : Scope) (ns : List Node) : expandNodes c' content scope ns = expandNodes c content scope ns := by
  cases ns with
  | nil => rfl
  | cons n ns => rw [expandNodes, expandNodes, expandNode_alike h, expandNodes_alike h]

end

theorem expandTo_alike (h : Alike c c') (depth : Nat) : expandTo c' depth = expandTo c depth := by
  induction depth with
  | zero =>
    funext scope n
    exact expandNode_alike h _ scope n
  | succ depth ih =>
    funext scope n
    rw [expandTo, expandTo, ih]
    exact expandNode_alike h _ scope n

theorem expand_alike (h : Alike c c') : c'.expand = c.expand := by
  funext texts
  rw [Context.expand, Context.expand, Context.depth, Context.depth, h.blocks, h.globals, expandTo_alike h]

theorem chartExpansion_alike (h : Alike c c') : chartExpansion c' = chartExpansion c := by
  funext chart
  rw [chartExpansion, chartExpansion, expand_alike h, h.globals]

theorem componentExpansion_alike (h : Alike c c') : componentExpansion c' = componentExpansion c := by
  funext component
  rw [componentExpansion, componentExpansion, expand_alike h, h.globals]

end

end Stitchwork.Project
