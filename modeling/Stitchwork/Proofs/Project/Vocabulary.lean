/- # Stitchwork.Proofs.Project.Vocabulary — what a project is made of.

Expansion leaves six kinds of elements: actions, instructions, repeats, rows, images and texts.  No element
keeps its condition, images and texts are empty, and blocks are gone.  A row has a type and a repeat a count, but
perhaps not under that name: an attribute with a prefix takes the place of one with the same local name.
Expansion looks at elements only, since what documents store is elements all the way down.
-/
import Stitchwork.Proofs.Project.Calls
import Stitchwork.Proofs.Project.Rules

namespace Stitchwork.Project

open Stitchwork.Formula Stitchwork.Markup Stitchwork.Pattern

variable {e : Element} {scope : Scope} {k : String} {a : Expansion} {t : Table String} {params : Table Value}
  {c : Context}

/-! ## The calls of an expansion -/

/-- The step records calls for nodes with the property only. -/
def Watches {α : Type} (P : Node → Prop) (x : Watched α) : Prop :=
  ∀ w : Watch, (∀ call ∈ w.calls, P call.node) → ∀ call ∈ (x.run.run w).2.calls, P call.node

/-- **Only elements are looked at.** -/
theorem watches_watchParts (hd : c.document.Stocked) : Watches Bare (watchParts c) := by
  have hyields : Yields c Bare (watchParts c) := yields_watchParts allBare_iff.1 hd.elements
  exact fun w hw call hcall => (hyields w call hcall).elim (hw call) Counts.node

/-! ## Attributes that are copied -/

/-- The names of attributes after one more has been set. -/
def setName (ks : List String) (k : String) : List String :=
  if k ∈ ks then ks else ks.filter (localName · != localName k) ++ [k]

/-- The names that the copied attributes of an element have. -/
def copiedNames (e : Element) : List String := ((argumentsOf e).map (·.1)).foldl setName []

theorem contains_iff_mem_keys {α : Type} {t : Table α} : t.contains k = true ↔ k ∈ t.keys := by
  rw [Table.contains, Option.isSome_iff_ne_none, ne_eq, Table.get?, Table.valueIn?_eq_none_iff, Decidable.not_not]
  rfl

theorem keys_setByLocalName (t : Table String) (k v : String) :
    (setByLocalName t k v).keys = setName t.keys k := by
  have hfilter : (⟨t.entries.filter fun a => localName a.1 != localName k⟩ : Table String).keys =
      t.keys.filter (localName · != localName k) := by
    rw [Table.keys, Table.keys, List.filter_map]
    rfl
  rw [setByLocalName, setName]
  by_cases h : k ∈ t.keys
  · rw [if_pos (contains_iff_mem_keys.2 h), if_pos h, Table.keys_insert_of_mem v h]
  · rw [if_neg (mt contains_iff_mem_keys.1 h), if_neg h, Table.keys_insert_of_not_mem, hfilter]
    rw [hfilter]
    exact fun hk => h (List.mem_of_mem_filter hk)

theorem keys_copyArguments {args : List (String × String)} {t' : Table String}
    (h : copyArguments scope t args = .ok t') : t'.keys = (args.map (·.1)).foldl setName t.keys := by
  induction args generalizing t with
  | nil =>
    cases h
    rfl
  | cons a args ih =>
    obtain ⟨s, -, h⟩ := bind_eq_ok.1 h
    rw [ih h, keys_setByLocalName]
    rfl

/-- No name comes up that has not been set. -/
theorem mem_of_mem_foldl_setName {names ks : List String} (h : k ∈ names.foldl setName ks) : k ∈ ks ∨ k ∈ names := by
  induction names generalizing ks with
  | nil => exact .inl h
  | cons j names ih =>
    rcases ih h with h | h
    · rw [setName] at h
      split at h
      · exact .inl h
      · rcases List.mem_append.1 h with h | h
        · exact .inl (List.mem_of_mem_filter h)
        · exact .inr (List.mem_cons.2 (.inl (List.mem_singleton.1 h)))
    · exact .inr (List.mem_cons_of_mem _ h)

theorem mem_setName_self (ks : List String) (k : String) : k ∈ setName ks k := by
  rw [setName]
  split
  · assumption
  · simp

theorem mem_setName_of_ne {ks : List String} {j : String} (hk : k ∈ ks) (hne : localName j ≠ localName k) :
    k ∈ setName ks j := by
  rw [setName]
  split
  · exact hk
  · exact List.mem_append_left _ (List.mem_filter.2 ⟨hk, by simpa using Ne.symm hne⟩)

/-- A local name that has been set stays. -/
theorem exists_localName_foldl_setName {l : String} (names : List String) {ks : List String}
    (h : ∃ k ∈ ks ++ names, localName k = l) : ∃ k ∈ names.foldl setName ks, localName k = l := by
  induction names generalizing ks with
  | nil => simpa using h
  | cons j names ih =>
    apply ih
    obtain ⟨k, hk, hl⟩ := h
    rw [List.mem_append, List.mem_cons] at hk
    by_cases hj : localName j = l
    · exact ⟨j, List.mem_append_left _ (mem_setName_self ks j), hj⟩
    · refine ⟨k, ?_, hl⟩
      rcases hk with hk | rfl | hk
      · exact List.mem_append_left _ (mem_setName_of_ne hk (by rwa [hl]))
      · exact absurd hl hj
      · exact List.mem_append_right _ hk

/-- A name stays that is the last of those with its local name. -/
theorem mem_foldl_setName (hk : localName k = k) {names : List String}
    (h : (names.filter (localName · == k)).getLast? = some k) : k ∈ names.foldl setName [] := by
  induction names using List.reverseRecOn with
  | nil => cases h
  | append_singleton names j ih =>
    rw [List.foldl_append, List.foldl_cons, List.foldl_nil]
    rw [List.filter_append] at h
    by_cases hj : localName j = k
    · rw [List.filter_cons_of_pos (by simpa using hj), List.filter_nil, List.getLast?_concat] at h
      cases h
      exact mem_setName_self _ _
    · rw [List.filter_cons_of_neg (by simpa using hj), List.filter_nil, List.append_nil] at h
      exact mem_setName_of_ne (ih h) (by rwa [hk])

/-! ## The vocabulary -/

/-- The names of the elements below charts and components. -/
def projectTags : List String := ["action", "instruction", "repeat", "row", "image", "text"]

mutual

/-- The node is of the vocabulary, and so is what is below it unless it is an action; `has` says what it takes to
have an attribute, by the names of the attributes. -/
def InVocabulary (has : String → List String → Prop) : Node → Prop
  | .element name attrs children =>
    name ∈ projectTags ∧ attrs.contains "condition" = false ∧
      (name = "row" → has "type" attrs.keys) ∧ (name = "repeat" → has "count" attrs.keys) ∧
      (name = "image" ∨ name = "text" → children = []) ∧ (name ≠ "action" → AllInVocabulary has children)
  | _ => False

/-- Nodes of the vocabulary. -/
def AllInVocabulary (has : String → List String → Prop) : List Node → Prop
  | [] => True
  | n :: ns => InVocabulary has n ∧ AllInVocabulary has ns

end

/-- The name itself is among the names. -/
def HasName (k : String) (names : List String) : Prop := k ∈ names

/-- The name is among the names without their prefixes. -/
def HasLocalName (k : String) (names : List String) : Prop := ∃ j ∈ names, localName j = k

section

variable {has : String → List String → Prop}

theorem allInVocabulary_iff {ns : List Node} : AllInVocabulary has ns ↔ ∀ n ∈ ns, InVocabulary has n := by
  induction ns with
  | nil => exact iff_of_true trivial nofun
  | cons n ns ih => rw [AllInVocabulary, ih, List.forall_mem_cons]

/-- An element that needs no attribute and is no action. -/
theorem inVocabulary_element {name : String} (hname : name ∈ ["instruction", "image", "text"])
    {attrs : List (String × String)} (hattrs : ∀ a ∈ attrs, a.1 ≠ "condition") {children : List Node}
    (hempty : name = "image" ∨ name = "text" → children = []) (hchildren : AllInVocabulary has children) :
    InVocabulary has ((element name attrs).append children).toNode := by
  have hcondition : (Table.ofList attrs).contains "condition" = false := by
    rw [← Bool.not_eq_true, contains_iff_mem_keys]
    intro hmem
    obtain ⟨a, ha, heq⟩ := List.mem_map.1 hmem
    exact hattrs a (Table.mem_ofList ha) heq
  show InVocabulary has (.element name (Table.ofList attrs) children)
  simp only [List.mem_cons, List.not_mem_nil, or_false] at hname
  rcases hname with rfl | rfl | rfl
  all_goals exact ⟨by simp [projectTags], hcondition, by simp, by simp, hempty, fun _ => hchildren⟩

/-! ## Actions -/

theorem keys_expandAttrs {as bs : List (String × String)} (h : expandAttrs scope as = .ok bs) :
    bs.map (·.1) = as.map (·.1) := by
  induction as generalizing bs with
  | nil =>
    cases h
    rfl
  | cons a as ih =>
    obtain ⟨s, -, h⟩ := bind_eq_ok.1 h
    obtain ⟨others, hothers, h⟩ := bind_eq_ok.1 h
    cases h
    rw [List.map_cons, List.map_cons, ih hothers]

theorem mem_keys_insert {j v : String} (h : j ∈ (t.insert k v).keys) : j = k ∨ j ∈ t.keys := by
  by_cases hk : k ∈ t.keys
  · rw [Table.keys_insert_of_mem v hk] at h
    exact .inr h
  · rw [Table.keys_insert_of_not_mem v hk, List.mem_append, List.mem_singleton] at h
    exact h.symm

/-- What an element of an action becomes: nothing, or the element with other attributes. -/
theorem expandActionElement_eq_ok (h : expandActionElement params e = .ok a) :
    a = .none ∨ ∃ attrs e', expandAttrs params (e.eraseAttr "condition").attrs.entries = .ok attrs ∧
      addAttrs params { e with attrs := ⟨attrs⟩ } = .ok e' ∧ a = addChart params e' := by
  rw [expandActionElement_eq] at h
  obtain ⟨kept, -, h⟩ := bind_eq_ok.1 h
  split at h
  · cases h
    exact .inl rfl
  · obtain ⟨attrs, hattrs, h⟩ := bind_eq_ok.1 h
    obtain ⟨e', he', h⟩ := bind_eq_ok.1 h
    cases h
    exact .inr ⟨attrs, e', hattrs, he', rfl⟩

theorem addAttrs_eq_ok {e' : Element} (h : addAttrs params e = .ok e') : e' = e ∨ ∃ s, e' = e.setAttr "attrs" s := by
  unfold addAttrs at h
  split at h
  · cases h
    exact .inl rfl
  · cases h
    exact .inr ⟨_, rfl⟩
  · cases h

theorem nodes_addChart (params : Table Value) (e : Element) :
    (addChart params e).nodes = [e.toNode] ∨ ∃ s, (addChart params e).nodes = [(e.setAttr "chart" s).toNode] := by
  unfold addChart
  split
  · exact .inl rfl
  · exact .inr ⟨_, rfl⟩

/-- An action, whatever is in it. -/
def IsAction (e : Element) : Prop := e.name = "action" ∧ "condition" ∉ e.attrs.keys

theorem IsAction.inVocabulary (he : IsAction e) : InVocabulary has e.toNode := by
  obtain ⟨name, attrs, children⟩ := e
  obtain ⟨rfl, hkeys⟩ := he
  refine ⟨by simp [projectTags], ?_, by simp, by simp, by simp, by simp⟩
  rwa [← Bool.not_eq_true, contains_iff_mem_keys]

theorem IsAction.setAttr (he : IsAction e) (hk : "condition" ≠ k) (s : String) : IsAction (e.setAttr k s) :=
  ⟨he.1, fun h => (mem_keys_insert h).elim hk he.2⟩

/-- An element of an action keeps its name and loses its condition. -/
theorem inVocabulary_expandActionElement (he : e.name = "action") (h : expandActionElement params e = .ok a) :
    ∀ n ∈ a.nodes, InVocabulary has n := by
  rcases expandActionElement_eq_ok h with rfl | ⟨attrs, e', hattrs, he', rfl⟩
  · exact List.forall_mem_nil _
  · have hexpanded : IsAction { e with attrs := ⟨attrs⟩ } := by
      refine ⟨he, ?_⟩
      show "condition" ∉ attrs.map (·.1)
      rw [keys_expandAttrs hattrs]
      simp [Element.eraseAttr, Table.erase]
    have hadded : IsAction e' := by
      rcases addAttrs_eq_ok he' with rfl | ⟨s, rfl⟩
      · exact hexpanded
      · exact hexpanded.setAttr (by decide) s
    rcases nodes_addChart params e' with hnodes | ⟨s, hnodes⟩
    · rw [hnodes]
      exact List.forall_mem_singleton.2 hadded.inVocabulary
    · rw [hnodes]
      exact List.forall_mem_singleton.2 (hadded.setAttr (by decide) s).inVocabulary

theorem inVocabulary_expandAction (hd : c.document.Stocked) (h : expandAction c scope e = .ok a) :
    ∀ n ∈ a.nodes, InVocabulary has n := by
  obtain ⟨action, haction, params, texts, -, htexts, h⟩ := exists_of_expandAction h
  rw [expandActionTexts_eq] at h
  refine forall_expandEach (fun s hs b hb => ?_) h
  obtain ⟨x, hx, hb⟩ := bind_eq_ok.1 hb
  exact inVocabulary_expandActionElement (hd.actions action haction texts htexts s hs x hx) hb

/-! ## Nodes -/

/-- The attribute `k` is among the copied attributes of the elements, if they have it. -/
def Secures (has : String → List String → Prop) (k : String) (es : List Element) : Prop :=
  ∀ e ∈ es, e.hasAttr k = true → has k (copiedNames e)

/-- The rows and repeats at a node and below it keep the attributes that they need. -/
def Secure (has : String → List String → Prop) (n : Node) : Prop :=
  Secures has "type" (selfAndDescendants "opaf:row" n) ∧ Secures has "count" (selfAndDescendants "opaf:repeat" n)

/-- A row or a repeat keeps the attribute that it needs. -/
def SecureTag (has : String → List String → Prop) (name : String) (attrs : Table String) : Prop :=
  (name = "opaf:row" → Secures has "type" [⟨name, attrs, []⟩]) ∧
    (name = "opaf:repeat" → Secures has "count" [⟨name, attrs, []⟩])

theorem Secure.throughout {n : Node} (h : Secure has n) : Throughout (SecureTag has) n := by
  have hfound : ∀ {tag : String}, ∀ x ∈ reached (fun _ => false) [n], x.name = tag → x ∈ selfAndDescendants tag n := by
    intro tag x hx hname
    rw [← descendants_singleton, descendants_eq_filter]
    exact List.mem_filter.2 ⟨hx, beq_iff_eq.2 hname⟩
  refine (throughoutAll_of_reached [n] fun x hx => ⟨fun hname => ?_, fun hname => ?_⟩).1
  · exact List.forall_mem_singleton.2 (h.1 x (hfound x hx hname))
  · exact List.forall_mem_singleton.2 (h.2 x (hfound x hx hname))

/-- Arguments are no conditions. -/
theorem contains_condition_of_copied (h : copyArguments scope Table.empty (argumentsOf e) = .ok t) :
    t.keys = copiedNames e ∧ t.contains "condition" = false := by
  have hkeys : t.keys = copiedNames e := keys_copyArguments h
  refine ⟨hkeys, ?_⟩
  rw [← Bool.not_eq_true, contains_iff_mem_keys, hkeys]
  intro hmem
  rcases mem_of_mem_foldl_setName hmem with hmem | hmem
  · cases hmem
  · obtain ⟨a, ha, hname⟩ := List.mem_map.1 hmem
    have hprotected := (List.mem_filter.1 ha).2
    rw [hname] at hprotected
    revert hprotected
    decide

theorem rowHead_eq_ok {head : Element} (h : rowHead scope e = .ok head) :
    e.hasAttr "type" = true ∧
      ∃ t, copyArguments scope Table.empty (argumentsOf e) = .ok t ∧ head = ⟨"row", t, []⟩ := by
  unfold rowHead at h
  split at h
  · cases h
  · next htype =>
    obtain ⟨t, ht, h⟩ := bind_eq_ok.1 h
    cases h
    exact ⟨by simpa using htype, t, ht, rfl⟩

theorem repeatHead_eq_ok {head : Element} (h : repeatHead scope e = .ok head) :
    e.hasAttr "count" = true ∧
      ∃ t, copyArguments scope Table.empty (argumentsOf e) = .ok t ∧ head = ⟨"repeat", t, []⟩ := by
  unfold repeatHead at h
  split at h
  · cases h
  · next hcount =>
    obtain ⟨t, ht, h⟩ := bind_eq_ok.1 h
    cases h
    exact ⟨by simpa using hcount, t, ht, rfl⟩

/-- A row or a repeat with copied attributes. -/
theorem inVocabulary_of_copied (name k : String) (hname : (name, k) ∈ [("row", "type"), ("repeat", "count")])
    (ht : copyArguments scope Table.empty (argumentsOf e) = .ok t) (hhas : has k (copiedNames e)) {ns : List Node}
    (hns : AllInVocabulary has ns) : InVocabulary has (.element name t ns) := by
  obtain ⟨hkeys, hcondition⟩ := contains_condition_of_copied ht
  rw [← hkeys] at hhas
  simp only [List.mem_cons, Prod.mk.injEq, List.not_mem_nil, or_false] at hname
  rcases hname with ⟨rfl, rfl⟩ | ⟨rfl, rfl⟩
  · exact ⟨by simp [projectTags], hcondition, fun _ => hhas, by simp, by simp, fun _ => hns⟩
  · exact ⟨by simp [projectTags], hcondition, by simp, fun _ => hhas, by simp, fun _ => hns⟩

theorem inVocabulary_instructionHead {head : Element} (h : instructionHead scope e = .ok head) {ns : List Node}
    (hns : AllInVocabulary has ns) : InVocabulary has (head.append ns).toNode := by
  obtain ⟨name, -, h⟩ := bind_eq_ok.1 h
  cases h
  exact inVocabulary_element (by simp) (by cases name <;> simp) (by simp) hns

theorem inVocabulary_expandImage (h : expandImage c e = .ok a) : ∀ n ∈ a.nodes, InVocabulary has n := by
  obtain ⟨_, -, h⟩ := bind_eq_ok.1 h
  cases h
  refine List.forall_mem_singleton.2 (inVocabulary_element (by simp) ?_ (fun _ => rfl) trivial)
  simp only [List.mem_append, List.mem_singleton, Option.mem_toList, Option.map_eq_some_iff]
  rintro a ((rfl | ⟨s, -, rfl⟩) | ⟨s, -, rfl⟩)
  all_goals simp

theorem inVocabulary_expandTextElement (h : expandTextElement scope e = .ok a) : ∀ n ∈ a.nodes, InVocabulary has n := by
  obtain ⟨data, -, h⟩ := bind_eq_ok.1 h
  cases h
  exact List.forall_mem_singleton.2 (inVocabulary_element (by simp) (by cases data <;> simp) (fun _ => rfl) trivial)

/-! ## Projects -/

/-- The rows and repeats that a document stores keep the attributes that they need. -/
def Document.Secures (has : String → List String → Prop) (d : Document) : Prop :=
  ∀ s ∈ d.storedTexts, ∀ e, restore s = .ok e → Secure has e.toNode

/-- **One node.**  Every rule makes elements of the vocabulary. -/
theorem rules_inVocabulary (hd : c.document.Stocked) (hsecure : Document.Secures has c.document) :
    Rules c (fun _ => True) (SecureTag has) (InVocabulary has) where
  action _ _ ha := inVocabulary_expandAction hd ha
  instruction _ _ hhead hns := inVocabulary_instructionHead hhead (allInVocabulary_iff.2 hns)
  repeats _ hsource hname hhead hns := by
    obtain ⟨hcount, t, ht, rfl⟩ := repeatHead_eq_ok hhead
    have hhas := hsource.2 hname _ List.mem_cons_self hcount
    exact inVocabulary_of_copied "repeat" "count" (by simp) ht hhas (allInVocabulary_iff.2 hns)
  row _ hsource hname hhead hns := by
    obtain ⟨htype, t, ht, rfl⟩ := rowHead_eq_ok hhead
    have hhas := hsource.1 hname _ List.mem_cons_self htype
    exact inVocabulary_of_copied "row" "type" (by simp) ht hhas (allInVocabulary_iff.2 hns)
  image _ ha := inVocabulary_expandImage ha
  text _ _ ha := inVocabulary_expandTextElement ha
  globals := trivial
  update _ := trivial
  enter _ _ _ := trivial
  stored s hs e he := (hsecure s hs e he).throughout

/-- The parts of a project are of the vocabulary. -/
theorem inVocabulary_of_build {d : Document} (hd : d.Stocked) (hsecure : Document.Secures has d)
    {choices : Choices} {name id : String} {project : Expansion}
    (h : (build d choices name id).tree = .ok project) {root : Element} (hroot : project.nodes = [root.toNode])
    {part : Element} (hpart : part ∈ root.elements) (hname : part.name = "chart" ∨ part.name = "component") :
    AllInVocabulary has part.children := by
  obtain ⟨front, hfront, hbuild⟩ := exists_front h
  obtain ⟨content, hcontent, hproject⟩ := bind_eq_ok.1 ((hbuild d.charts d.components).2.symm.trans h)
  cases hproject
  have hchildren : root.children = front.map Element.toNode ++ content.nodes := by
    obtain ⟨rname, attrs, children⟩ := root
    cases hroot
    rfl
  have hmem := mem_elements.1 hpart
  rw [hchildren, List.mem_append] at hmem
  rcases hmem with hmem | hmem
  · -- what stands in front has other names
    obtain ⟨e, he, heq⟩ := List.mem_map.1 hmem
    have hsame : e = part := by simpa using congrArg Node.element? heq
    subst hsame
    have hfrontName := hfront e he
    rcases hname with hname | hname <;> simp [hname, frontTags] at hfrontName
  · have hall : ∀ n ∈ content.nodes, ∀ e, n.element? = some e → AllInVocabulary has e.children := by
      refine (rules_inVocabulary hd hsecure).parts ?_ ?_ hcontent
      · rintro _ - ns hns _ ⟨⟩
        exact allInVocabulary_iff.2 hns
      · rintro _ - ns hns _ ⟨⟩
        exact allInVocabulary_iff.2 hns
    exact hall _ hmem part rfl

end

/-! ## Which names rows and repeats keep -/

/-- The attribute, if the element has it, is the last of those with its local name. -/
def IsLast (k : String) (e : Element) : Prop :=
  e.hasAttr k = true → (e.attrs.keys.filter (localName · == k)).getLast? = some k

/-- In the rows and repeats that a document stores no attribute with the same local name comes behind the type or
the count. -/
def Document.Unrivalled (d : Document) : Prop :=
  ∀ s ∈ d.storedTexts, ∀ e, restore s = .ok e →
    (∀ x ∈ selfAndDescendants "opaf:row" e.toNode, IsLast "type" x) ∧
      ∀ x ∈ selfAndDescendants "opaf:repeat" e.toNode, IsLast "count" x

/-- What is needed has no prefix, and is copied. -/
theorem localName_needed (hk : k ∈ ["type", "count"]) : localName k = k ∧ ∀ p ∈ protectedAttrs, localName p ≠ k := by
  have hall : ∀ k ∈ ["type", "count"], localName k = k ∧ ∀ p ∈ protectedAttrs, localName p ≠ k := by
    decide +kernel
  exact hall k hk

/-- All attributes with the local name of an attribute that is needed are copied. -/
theorem filter_argumentsOf (hk : k ∈ ["type", "count"]) (e : Element) :
    ((argumentsOf e).map (·.1)).filter (localName · == k) = e.attrs.keys.filter (localName · == k) := by
  rw [argumentsOf, Table.keys, List.filter_map, List.filter_map, List.filter_filter]
  congr 1
  refine List.filter_congr fun a _ => ?_
  have hprotected := (localName_needed hk).2 a.1
  simp only [Function.comp_apply, Bool.and_eq_left_iff_imp, beq_iff_eq, Bool.not_eq_true']
  intro hlocal
  rw [← Bool.not_eq_true, List.contains_iff_mem]
  exact fun hmem => hprotected hmem hlocal

/-- The local name is never lost. -/
theorem secures_hasLocalName (hk : k ∈ ["type", "count"]) (es : List Element) : Secures HasLocalName k es := by
  intro e _ he
  have hmem : k ∈ e.attrs.keys.filter (localName · == k) :=
    List.mem_filter.2 ⟨contains_iff_mem_keys.1 he, by simpa using (localName_needed hk).1⟩
  rw [← filter_argumentsOf hk] at hmem
  exact exists_localName_foldl_setName _ ⟨k, List.mem_of_mem_filter hmem, (localName_needed hk).1⟩

/-- The name is not lost where it comes last. -/
theorem secures_hasName (hk : k ∈ ["type", "count"]) {es : List Element} (hes : ∀ e ∈ es, IsLast k e) :
    Secures HasName k es := by
  intro e he hattr
  refine mem_foldl_setName (localName_needed hk).1 ?_
  rw [filter_argumentsOf hk]
  exact hes e he hattr

/-- **The vocabulary of projects.**  Whatever pattern has been read and whatever is chosen, the expansion looks at
elements only.  If it succeeds, everything below the charts and components of the project, but for what is in
actions, is an action, instruction, repeat, row, image or text without a condition, and images and texts are empty.
Rows have a type and repeats a count, up to a prefix; they have it under that very name in every pattern in whose
rows and repeats no attribute with the same local name comes behind it. -/
theorem project_vocabulary {sources : Sources} {main : String} {n n' : Nat} {d : Document}
    (h : (readPattern sources main).run.run n = (.ok d, n')) (choices : Choices) (name id : String) :
    let c : Context := ⟨d, (build d choices name id).globals⟩
    (∃ calls, (watchParts c).run.run ⟨c.globals, []⟩ = (parts c, ⟨c.globals, calls⟩) ∧
      ∀ call ∈ calls, call.node.isElement = true) ∧
    ∀ project, (build d choices name id).tree = .ok project →
      ∃ root : Element, project.nodes = [root.toNode] ∧
        ∀ part ∈ root.elements, part.name = "chart" ∨ part.name = "component" →
          AllInVocabulary HasLocalName part.children ∧
          (Document.Unrivalled d → AllInVocabulary HasName part.children) := by
  intro c
  have hd : d.Stocked := (ensures_readPattern_isRead sources main n d n' h).stocked
  refine ⟨?_, fun project hproject => ?_⟩
  · obtain ⟨calls, hrun, -⟩ := watchParts_follows (c := c) (nodup_keys_globals d choices name id) []
    refine ⟨calls, by simpa using hrun, fun call hcall => ?_⟩
    have hbare := watches_watchParts (c := c) hd ⟨c.globals, []⟩ (by simp) call
    rw [hrun] at hbare
    exact (hbare (by simpa using hcall)).isElement
  · obtain ⟨front, -, hbuild⟩ := exists_front hproject
    obtain ⟨content, -, hwrap⟩ := bind_eq_ok.1 ((hbuild d.charts d.components).2.symm.trans hproject)
    cases hwrap
    refine ⟨_, rfl, fun part hpart hname => ⟨?_, fun hplain => ?_⟩⟩
    · refine inVocabulary_of_build hd (fun s _ e _ => ?_) hproject rfl hpart hname
      exact ⟨secures_hasLocalName (by simp) _, secures_hasLocalName (by simp) _⟩
    · refine inVocabulary_of_build hd (fun s hs e he => ?_) hproject rfl hpart hname
      obtain ⟨hrows, hrepeats⟩ := hplain s hs e he
      exact ⟨secures_hasName (by simp) hrows, secures_hasName (by simp) hrepeats⟩

/-- A pattern with a row that has a type and, behind it, another one with a prefix. -/
def rivalledRow : String :=
  "<pattern xmlns:opaf=\"u\"><opaf:component name=\"a\"><opaf:row xmlns:z=\"v\" type=\"flat\" z:type=\"x\"/>" ++
    "</opaf:component></pattern>"

/-- The row of the project has a type with a prefix only. -/
theorem rivalledRow_loses_type : ∃ d n' project,
    (readPattern (oneFile "p" rivalledRow) "p").run.run 0 = (.ok d, n') ∧
      (build d ⟨Table.empty, Table.empty⟩ "k" "i").tree = .ok project ∧
      (∃ row ∈ descendants "row" project.nodes, row.attrs.keys = ["xmlns:z", "z:type"]) ∧
      ∃ root : Element, project.nodes = [root.toNode] ∧ ∀ part ∈ root.elements,
        part.name = "chart" ∨ part.name = "component" → AllInVocabulary HasLocalName part.children := by
  have hcheck : (((readPattern (oneFile "p" rivalledRow) "p").run.run 0).1.toOption.any fun d =>
      (build d ⟨Table.empty, Table.empty⟩ "k" "i").tree.toOption.any fun project =>
        (descendants "row" project.nodes).any (·.attrs.keys == ["xmlns:z", "z:type"])) = true := by decide +kernel
  rcases hr : (readPattern (oneFile "p" rivalledRow) "p").run.run 0 with ⟨r, n'⟩
  rw [hr] at hcheck
  cases r with
  | error e => cases hcheck
  | ok d =>
    simp only [Except.toOption, Option.any_some] at hcheck
    cases htree : (build d ⟨Table.empty, Table.empty⟩ "k" "i").tree with
    | error e =>
      rw [htree] at hcheck
      cases hcheck
    | ok project =>
      rw [htree] at hcheck
      simp only [Option.any_some, List.any_eq_true, beq_iff_eq] at hcheck
      obtain ⟨root, hroot, hparts⟩ := (project_vocabulary hr ⟨Table.empty, Table.empty⟩ "k" "i").2 project htree
      exact ⟨d, n', project, rfl, htree, hcheck, root, hroot, fun part hpart hname => (hparts part hpart hname).1⟩

end Stitchwork.Project
