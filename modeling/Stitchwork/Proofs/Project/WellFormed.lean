/- # Stitchwork.Proofs.Project.WellFormed — projects as documents.

A project is written as a document, but what is written need not be one.  The names in it are names, whatever the
pattern; yet a formula can make a character that no document can hold, a row can have a prefix that nothing in the
project binds, and an action can bind a prefix to a namespace that a formula gives.  The text is a document exactly if
the tree is readable, and the tree is readable if the formulas name no such characters, rows and repeats have attributes
without prefixes, and actions declare their prefixes without formulas.
-/
import Stitchwork.Proofs.Pattern.SelfContained
import Stitchwork.Proofs.Project.Spelling

namespace Stitchwork.Project

open Stitchwork.Formula Stitchwork.Markup Stitchwork.Pattern

/-! ## Properties of names -/

/-- A property that asks nothing of texts and scopes. -/
theorem emission_of_names {c : Context} {Q : String → Table String → Prop} {E : Node → Prop}
    (hfixed : ∀ {tag : String} {attrs : List (String × String)} {ns : List Node}, tag ∈ fixedNames →
      (∀ a ∈ attrs, a.1 ∈ fixedNames) → (∀ n ∈ ns, E n) → E ((element tag attrs).append ns).toNode)
    (hcopied : ∀ {scope : Scope} {e : Element} {tag : String} {t : Table String} {ns : List Node}, Q e.name e.attrs →
      (e.name, tag) ∈ [("opaf:row", "row"), ("opaf:repeat", "repeat")] →
      copyArguments scope Table.empty (argumentsOf e) = .ok t → (∀ n ∈ ns, E n) → E (.element tag t ns))
    (haction : ∀ {action : Action} {params : Table Value} {texts : List String} {own x : Element},
      action ∈ c.document.actions → texts ∈ action.elements → Emits params texts own x → E x.toNode)
    (hstored : ∀ s ∈ c.document.storedTexts, ∀ e, restore s = .ok e → Throughout Q e.toNode) :
    Emission c (fun _ => True) (fun _ => True) Q E where
  fixed := fun htag hattrs hns => hfixed htag (fun a ha => (hattrs a ha).1) hns
  copied := fun _ he htag ht hns => hcopied he htag ht hns
  action := by
    intro scope e a _ _ h n hn
    obtain ⟨action, hmem, params, -, texts, htexts, own, x, rfl, hemits⟩ := exists_emits_of_expandAction h n hn
    exact haction hmem htexts hemits
  given := fun _ _ _ => trivial
  expanded := fun _ _ _ _ _ _ => trivial
  absent := trivial
  globals := trivial
  update := fun _ => trivial
  enter := fun _ _ _ => trivial
  stored := hstored
  charts := fun _ _ => trivial
  components := fun _ _ => ⟨trivial, trivial⟩

theorem front_of_names (d : Document) (choices : Choices) : Front d choices (fun _ => True) (fun _ => True) where
  fresh := trivial
  config := fun _ _ _ _ _ _ => ⟨trivial, trivial, fun _ _ => trivial⟩
  value := fun _ _ _ _ _ _ => trivial
  color := fun _ _ => ⟨trivial, trivial⟩
  chosen := fun _ _ _ => trivial
  image := fun _ _ => ⟨trivial, trivial⟩
  name := trivial
  uniqueId := trivial
  version := trivial

theorem spec_of_mem_fixedNames {k : String} (h : k ∈ fixedNames) : IsQName k.toList ∧ ∀ v, PlainAttr (k, v) := by
  have hall : ∀ k ∈ fixedNames, isQName k ∧ declaredPrefix? k = none ∧ prefixOf k = none := by decide +kernel
  exact ⟨isQName_sound (hall k h).1, fun _ => (hall k h).2⟩

theorem nodup_setName {ks : List String} (h : ks.Nodup) (k : String) : (setName ks k).Nodup := by
  rw [setName]
  split
  · exact h
  · next hk =>
    refine List.nodup_append.2 ⟨h.filter _, List.nodup_singleton k, fun a ha b hb => ?_⟩
    rw [List.mem_singleton.1 hb]
    rintro rfl
    exact hk (List.mem_of_mem_filter ha)

theorem nodup_foldl_setName (names : List String) {ks : List String} (h : ks.Nodup) : (names.foldl setName ks).Nodup := by
  induction names generalizing ks with
  | nil => exact h
  | cons k names ih => exact ih (nodup_setName h k)

/-- The names of copied attributes are names of arguments, and each comes once. -/
theorem keys_copied {scope : Scope} {e : Element} {t : Table String}
    (h : copyArguments scope Table.empty (argumentsOf e) = .ok t) :
    (∀ k ∈ t.keys, ∃ v, (k, v) ∈ argumentsOf e) ∧ t.keys.Nodup := by
  have hkeys := keys_copyArguments h
  constructor
  · intro k hk
    rw [hkeys] at hk
    rcases mem_of_mem_foldl_setName hk with hk | hk
    · cases hk
    · obtain ⟨⟨k, v⟩, ha, rfl⟩ := List.mem_map.1 hk
      exact ⟨v, ha⟩
  · rw [hkeys]
    exact nodup_foldl_setName _ List.nodup_nil

/-! ## Names -/

theorem nodesNamed_of_forall {ns : List Node} (h : ∀ n ∈ ns, NodeNamed n ∧ n.isText = false) : NodesNamed ns := by
  induction ns with
  | nil => trivial
  | cons n ns ih =>
    rw [List.forall_mem_cons] at h
    refine ⟨h.1.1, fun htext => ?_, ih h.2⟩
    rw [h.1.2] at htext
    cases htext

/-- The names of the attributes of a tag are names. -/
def NamedTag (_name : String) (attrs : Table String) : Prop := ∀ k ∈ attrs.keys, IsQName k.toList

mutual

theorem NodeNamed.tags (n : Node) (h : NodeNamed n) : Throughout NamedTag n := by
  cases n with
  | element name attrs children => exact ⟨h.2.1, NodesNamed.tags children h.2.2⟩
  | _ => trivial

theorem NodesNamed.tags (ns : List Node) (h : NodesNamed ns) : ThroughoutAll NamedTag ns := by
  cases ns with
  | nil => trivial
  | cons n ns => exact ⟨NodeNamed.tags n h.1, NodesNamed.tags ns h.2.2⟩

end

theorem named_of_restore {s : String} {e : Element} (h : restore s = .ok e) : NodeNamed e.toNode :=
  ((nodeOk_iff _).1 (ok_of_restore h)).1

/-- An emitted element has the attributes of its source but for the condition, and those that the action adds. -/
theorem Emits.keys {params : Table Value} {texts : List String} {own x : Element} (h : Emits params texts own x) :
    ∀ k ∈ x.attrs.keys, k ∈ own.attrs.keys ∨ k ∈ ["attrs", "chart"] := by
  obtain ⟨t, ht, hx⟩ := h.shape
  have hown : ∀ k ∈ t.keys, k ∈ own.attrs.keys ∨ k ∈ ["attrs", "chart"] := by
    intro k hk
    rcases ht with rfl | ⟨s, rfl⟩
    · exact .inl hk
    · rcases mem_keys_insert hk with rfl | hk
      · exact .inr (by simp)
      · exact .inl hk
  rcases hx with rfl | ⟨s, rfl⟩
  · exact hown
  · intro k hk
    rcases mem_keys_insert hk with rfl | hk
    · exact .inr (by simp)
    · exact hown k hk

/-- **Names.**  All names in the parts of a project are names, and no texts stand in them. -/
theorem named_emission (c : Context) :
    Emission c (fun _ => True) (fun _ => True) NamedTag (fun n => NodeNamed n ∧ n.isText = false) := by
  refine emission_of_names ?_ ?_ ?_ fun s _ e he => NodeNamed.tags _ (named_of_restore he)
  · intro tag attrs ns htag hattrs hns
    refine ⟨⟨(spec_of_mem_fixedNames htag).1, fun k hk => ?_, nodesNamed_of_forall hns⟩, rfl⟩
    obtain ⟨a, ha, rfl⟩ := List.mem_map.1 hk
    exact (spec_of_mem_fixedNames (hattrs a (Table.mem_ofList ha))).1
  · intro scope e tag t ns he htag ht hns
    have htags : ∀ tag ∈ ["row", "repeat"], isQName tag := by decide +kernel
    refine ⟨⟨isQName_sound (htags tag ?_), fun k hk => ?_, nodesNamed_of_forall hns⟩, rfl⟩
    · exact List.mem_map_of_mem (f := Prod.snd) htag
    · obtain ⟨v, hv⟩ := (keys_copied ht).1 k hk
      exact he k (List.mem_map_of_mem (f := Prod.fst) (List.mem_filter.1 hv).1)
  · intro action params texts own x _ _ hemits
    obtain ⟨s, -, source, attrs, hsource, hattrs, rfl⟩ := hemits.source
    obtain ⟨hname, hkeys, hchildren⟩ := named_of_restore hsource
    have hadded : ∀ k ∈ ["attrs", "chart"], isQName k := by decide +kernel
    obtain ⟨hsame, hbelow⟩ := hemits.name_children
    refine ⟨⟨hsame ▸ hname, fun k hk => ?_, hbelow ▸ hchildren⟩, rfl⟩
    rcases hemits.keys k hk with hk | hk
    · refine hkeys k ?_
      rw [Table.keys, keys_expandAttrs hattrs] at hk
      exact (List.filter_sublist.map _).subset hk
    · exact isQName_sound (hadded k hk)

/-! ## Namespaces -/

theorem namespacePart_of_plain {a : String × String} (h : PlainAttr a) : namespacePart a = none := by
  rw [namespacePart_of_not_declared (isDeclared_of_plain h), h.2]
  rfl

theorem namespaceParts_of_plain {attrs : List (String × String)} (h : ∀ a ∈ attrs, PlainAttr a) :
    namespaceParts attrs = [] :=
  List.filterMap_eq_nil_iff.2 fun a ha => namespacePart_of_plain (h a ha)

/-- An attribute that is nothing to namespaces can be set. -/
theorem namespaceParts_insert {k : String} (hk : ∀ v, PlainAttr (k, v)) (v : String) (t : Table String) :
    namespaceParts (t.insert k v).entries = namespaceParts t.entries := by
  obtain ⟨es⟩ := t
  show namespaceParts (Table.insertEntry k v es) = namespaceParts es
  have hnone := fun w => namespacePart_of_plain (hk w)
  induction es with
  | nil => exact List.filterMap_cons_none (hnone v)
  | cons a es ih =>
    obtain ⟨i, w⟩ := a
    rw [Table.insertEntry]
    split
    · next heq =>
      subst heq
      rw [namespaceParts_cons, namespaceParts_cons, hnone v, hnone w]
    · rw [namespaceParts_cons, namespaceParts_cons, ih]

/-- An attribute that is nothing to namespaces can be taken away. -/
theorem namespaceParts_erase {k : String} (hk : ∀ v, PlainAttr (k, v)) (t : Table String) :
    namespaceParts (t.erase k).entries = namespaceParts t.entries := by
  obtain ⟨es⟩ := t
  show namespaceParts (es.filter (·.1 != k)) = namespaceParts es
  rw [namespaceParts, List.filterMap_filter]
  refine List.filterMap_congr fun a _ => ?_
  split
  · rfl
  · next hsame =>
    obtain ⟨i, w⟩ := a
    obtain rfl : i = k := by simpa using hsame
    exact (namespacePart_of_plain (hk w)).symm

theorem eq_of_expandAttr {scope : Scope} {a : String × String} (ha : Literal a.2) {s : String}
    (h : expandAttr scope a = .ok s) : s = a.2 := by
  unfold expandAttr at h
  split at h
  · cases h
  · rw [expandText, expand_of_literal ha] at h
    cases h
    rfl

/-- Attributes stay what they are to namespaces when their formulas are replaced, if there are none in declarations. -/
theorem namespaceParts_expandAttrs {scope : Scope} {as bs : List (String × String)}
    (has : ∀ a ∈ as, isDeclared a → Literal a.2) (h : expandAttrs scope as = .ok bs) :
    namespaceParts bs = namespaceParts as := by
  induction as generalizing bs with
  | nil =>
    cases h
    rfl
  | cons a as ih =>
    rw [List.forall_mem_cons] at has
    obtain ⟨s, hs, h⟩ := bind_eq_ok.1 h
    obtain ⟨others, hothers, h⟩ := bind_eq_ok.1 h
    cases h
    have hpart : namespacePart (a.1, s) = namespacePart a := by
      cases hdeclared : isDeclared a with
      | true => rw [eq_of_expandAttr (has.1 hdeclared) hs]
      | false =>
        have hname : isDeclared (a.1, s) = false := hdeclared
        rw [namespacePart_of_not_declared hname, namespacePart_of_not_declared hdeclared]
    rw [namespaceParts_cons, namespaceParts_cons, hpart, ih has.2 hothers]

/-- Rows and repeats have no arguments with prefixes, and declare nothing. -/
def PlainTag (name : String) (attrs : Table String) : Prop :=
  name ∈ ["opaf:row", "opaf:repeat"] → ∀ a ∈ argumentsOf ⟨name, attrs, []⟩, PlainAttr a

instance (a : String × String) : Decidable (PlainAttr a) := inferInstanceAs (Decidable (_ ∧ _))

instance (name : String) (attrs : Table String) : Decidable (PlainTag name attrs) := inferInstanceAs (Decidable (_ → _))

end Stitchwork.Project

namespace Stitchwork.Pattern

open Stitchwork.Formula Stitchwork.Markup

/-- No row or repeat of the pattern has an argument with a prefix, and no action declares a prefix with a formula. -/
structure Document.PlainNames (d : Document) : Prop where
  rows : ∀ e ∈ d.storedElements, Throughout Project.PlainTag e.toNode
  actions : ∀ e ∈ d.actionElements, ∀ a ∈ e.attrs.entries, isDeclared a → Literal a.2

instance (d : Document) : Decidable d.PlainNames :=
  decidable_of_iff ((∀ e ∈ d.storedElements, Throughout Project.PlainTag e.toNode) ∧
    ∀ e ∈ d.actionElements, ∀ a ∈ e.attrs.entries, isDeclared a → Literal a.2)
    ⟨fun h => ⟨h.1, h.2⟩, fun h => ⟨h.rows, h.actions⟩⟩

/-- What is restored from a definition is lawful and self-contained. -/
theorem contained_of_restore {x : Definition} (hx : x.StoresSound) {s : String} (hs : s ∈ x.stored) {e : Element}
    (h : restore s = .ok e) : Lawful e.toNode ∧ e.SelfContained := by
  obtain ⟨source, hsource, rfl⟩ := hx s hs
  exact contained_of_read_write (hsource.declared x).1 (mapError_eq_ok.1 h)

end Stitchwork.Pattern

namespace Stitchwork.Project

open Stitchwork.Formula Stitchwork.Markup Stitchwork.Pattern

/-- An emitted element is to namespaces what its source is, and has distinct attributes. -/
theorem Emits.contained {params : Table Value} {texts : List String} {own x : Element} (h : Emits params texts own x)
    {attrs : Table String} (hparts : namespaceParts own.attrs.entries = namespaceParts attrs.entries)
    (hnodup : own.attrs.keys.Nodup) {bound : Bindings}
    (hsource : Lawful (.element own.name attrs own.children) ∧ SelfContained bound (.element own.name attrs own.children)) :
    Lawful x.toNode ∧ SelfContained bound x.toNode := by
  have hadded : ∀ k ∈ ["attrs", "chart"], ∀ v, PlainAttr (k, v) := by
    have hall : ∀ k ∈ ["attrs", "chart"], declaredPrefix? k = none ∧ prefixOf k = none := by decide +kernel
    exact fun k hk _ => hall k hk
  have hset : ∀ {t : Table String}, namespaceParts t.entries = namespaceParts attrs.entries ∧ t.keys.Nodup →
      ∀ {k}, k ∈ ["attrs", "chart"] → ∀ s, namespaceParts (t.insert k s).entries = namespaceParts attrs.entries ∧
        (t.insert k s).keys.Nodup :=
    fun ht k hk s => ⟨(namespaceParts_insert (hadded k hk) s _).trans ht.1, Table.nodup_keys_insert k s ht.2⟩
  -- what the action adds is nothing to namespaces, so the tag stays contained as its source is
  obtain ⟨t, ht, hx⟩ := h.shape
  have hparts' : namespaceParts t.entries = namespaceParts attrs.entries ∧ t.keys.Nodup := by
    rcases ht with rfl | ⟨s, rfl⟩
    · exact ⟨hparts, hnodup⟩
    · exact hset ⟨hparts, hnodup⟩ (by simp) s
  rcases hx with rfl | ⟨s, rfl⟩
  · exact ⟨⟨hsource.1.1.congr hparts'.1 hparts'.2, hsource.1.2⟩, (selfContained_congr hparts'.1).2 hsource.2⟩
  · have hchart := hset hparts' (k := "chart") (by simp) s
    exact ⟨⟨hsource.1.1.congr hchart.1 hchart.2, hsource.1.2⟩, (selfContained_congr hchart.1).2 hsource.2⟩

/-- **Namespaces.**  The parts of a project are lawful and self-contained if the names of the pattern are plain. -/
theorem contained_emission {c : Context} (hd : c.document.All Definition.StoresSound) (hplain : c.document.PlainNames) :
    Emission c (fun _ => True) (fun _ => True) PlainTag
      (fun n => Lawful n ∧ SelfContained [("xml", xmlNamespace)] n) := by
  refine emission_of_names ?_ ?_ ?_ fun s hs e he => hplain.rows e (mem_restored hs he)
  · intro tag attrs ns htag hattrs hns
    refine contained_of_parts_nil ((spec_of_mem_fixedNames htag).2 "").2 (Table.nodup_keys_ofList attrs) ?_ hns
    refine namespaceParts_of_plain fun a ha => ?_
    exact (spec_of_mem_fixedNames (hattrs a (Table.mem_ofList ha))).2 a.2
  · intro scope e tag t ns he htag ht hns
    -- copied attributes have the names of arguments, which are plain
    have htags : ∀ p ∈ [("opaf:row", "row"), ("opaf:repeat", "repeat")],
        p.1 ∈ ["opaf:row", "opaf:repeat"] ∧ prefixOf p.2 = none := by decide +kernel
    obtain ⟨hsource, hname⟩ := htags _ htag
    obtain ⟨hargs, hnodup⟩ := keys_copied ht
    refine contained_of_parts_nil hname hnodup (namespaceParts_of_plain fun a ha => ?_) hns
    obtain ⟨v, hv⟩ := hargs a.1 (List.mem_map_of_mem ha)
    exact he hsource (a.1, v) hv
  · intro action params texts own x hmem htexts hemits
    obtain ⟨s, hs, source, attrs, hsource, hattrs, rfl⟩ := hemits.source
    have hstored : s ∈ (Definition.action action).stored := by
      show s ∈ action.elements.getD []
      rw [htexts]
      exact hs
    -- the source has been read on its own; evaluating its attributes changes no declaration
    have hcontained := contained_of_restore (hd .action (.action action) (List.mem_map_of_mem hmem)) hstored hsource
    have hcondition : ∀ v, PlainAttr ("condition", v) := by
      have hall : declaredPrefix? "condition" = none ∧ prefixOf "condition" = none := by decide +kernel
      exact fun _ => hall
    have hliteral : ∀ a ∈ source.attrs.entries, isDeclared a → Literal a.2 :=
      hplain.actions source (mem_restored (List.mem_flatMap.2 ⟨action, hmem, hstored⟩) hsource)
    have hparts : namespaceParts attrs = namespaceParts source.attrs.entries := by
      rw [namespaceParts_expandAttrs (fun a ha => hliteral a (List.mem_filter.1 ha).1) hattrs]
      exact namespaceParts_erase hcondition source.attrs
    refine hemits.contained hparts ?_ hcontained
    · show (attrs.map (·.1)).Nodup
      rw [keys_expandAttrs hattrs]
      exact (List.filter_sublist.map _).nodup hcontained.1.1.nodup

/-! ## Whole projects -/

/-- The text is a document that reads as the tree: it is made of characters, and what is read has the elements of the
tree at the same places, with attributes of the same names. -/
def ReadsAs (text : String) (e : Element) : Prop :=
  Text.hasSurrogates text.toList = false ∧ ∃ r, Markup.read text = .ok r ∧ SameShape e.toNode r.toNode

section

variable {d : Document} {choices : Choices} {name id : String} {project : Expansion}

theorem named_of_build (hbuild : (build d choices name id).tree = .ok project) : ∀ n ∈ project.nodes, NodeNamed n := by
  have hmetadata : ∀ m ∈ d.metadata, ∀ s ∈ m.elements, ∀ e, restore s = .ok e →
      NodeNamed e.toNode ∧ e.toNode.isText = false :=
    fun _ _ _ _ _ he => ⟨named_of_restore he, rfl⟩
  intro n hn
  exact ((named_emission _).project (front_of_names d choices) trivial trivial trivial hmetadata hbuild n hn).1

theorem cleanValues_of_build (hd : d.IsRead) (hquotes : d.CleanQuotes)
    (hchosen : ∀ p ∈ choices.configs.entries, Clean p.2) (hname : Clean name) (hid : Clean id)
    (hbuild : (build d choices name id).tree = .ok project) :
    ∀ n ∈ project.nodes, Throughout (fun _ => CleanValues) n := by
  have hfront := cleanValues_front hd hquotes hchosen
  have hemission := cleanValues_emission hd hquotes (hfront.globals hbuild)
  exact hemission.project hfront hname hid (by decide) (fun _ _ _ _ _ he => cleanValues_of_ok (ok_of_restore he)) hbuild

theorem contained_of_build (hd : d.All Definition.StoresSound) (hplain : d.PlainNames)
    (hbuild : (build d choices name id).tree = .ok project) :
    ∀ n ∈ project.nodes, Lawful n ∧ SelfContained [("xml", xmlNamespace)] n := by
  have hemission := contained_emission (c := ⟨d, (build d choices name id).globals⟩) hd hplain
  refine hemission.project (front_of_names d choices) trivial trivial trivial (fun m hm s hs e he => ?_) hbuild
  exact contained_of_restore (hd .metadata (.metadata m) (List.mem_map_of_mem (Option.mem_toList.2 hm))) hs he

end

/-- A packaged pattern with a row that has a plain attribute. -/
def plainRow : String :=
  "<pattern xmlns:opaf=\"u\" pkg_version=\"p\"><opaf:component name=\"k\"><opaf:row type=\"x\" foo=\"1\"/></opaf:component></pattern>"

/-- A packaged pattern with a row that has an attribute with the prefix of the pattern. -/
def prefixedRow : String :=
  "<pattern xmlns:opaf=\"u\" pkg_version=\"p\"><opaf:component name=\"k\"><opaf:row type=\"x\" opaf:foo=\"1\"/></opaf:component></pattern>"

/-- A check of a packaged pattern and of the project that is built from it. -/
def checkProject (pattern : String) (check : Document → Expansion → Bool) : Bool :=
  ((readPattern (oneFile "p" pattern) "p").run.run 0).1.toOption.any fun d =>
    !(d.pkgVersion.getD "").isEmpty && (build d ⟨.empty, .empty⟩ "k" (identifier (0 + 1))).tree.toOption.any fun project =>
      project.writable && check d project

theorem exists_of_checkProject {pattern : String} {check : Document → Expansion → Bool}
    (h : checkProject pattern check = true) : ∃ d n' project text,
      (readPattern (oneFile "p" pattern) "p").run.run 0 = (.ok d, n') ∧
      (build d ⟨.empty, .empty⟩ "k" (identifier (0 + 1))).tree = .ok project ∧
      ((compile .fresh ⟨.empty, .empty⟩ "k" d).run 0).1.text = .ok text ∧ check d project = true := by
  obtain ⟨d, hd, h⟩ := (Option.any_eq_true ..).1 h
  obtain ⟨hpackaged, h⟩ := Bool.and_eq_true_iff.1 h
  obtain ⟨project, hproject, h⟩ := (Option.any_eq_true ..).1 h
  obtain ⟨hwritable, hcheck⟩ := Bool.and_eq_true_iff.1 h
  have htree := toOption_eq_some.1 hproject
  have htext : ∃ text, ((compile .fresh ⟨.empty, .empty⟩ "k" d).run 0).1.text = .ok text := by
    rw [compile_run, if_neg (by simpa using hpackaged), if_neg (by decide)]
    dsimp only
    rw [htree]
    exact ⟨_, if_pos hwritable⟩
  obtain ⟨text, htext⟩ := htext
  exact ⟨d, _, project, text, Prod.ext (toOption_eq_some.1 hd) rfl, htree, htext, hcheck⟩

end Stitchwork.Project
