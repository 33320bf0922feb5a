/- # Stitchwork.Proofs.Project.Spelling — the characters in a project.

A pattern that has been read holds only characters that a document can hold, but a formula in it can name any character
in a text in quotes.  Where no formula does so, the project holds only such characters too: every attribute of it is
spelled with the characters of the pattern, of what has been chosen, and of ASCII.
-/
import Stitchwork.Proofs.Formula.Characters
import Stitchwork.Proofs.Pattern.Packages
import Stitchwork.Proofs.Project.Actions
import Stitchwork.Proofs.Project.Emission

namespace Stitchwork.Pattern

open Stitchwork.Formula Stitchwork.Markup

variable {s : String}

/-! ## Patterns whose formulas name no other characters -/

/-- The elements in blocks, charts and components. -/
def Document.storedElements (d : Document) : List Element := d.storedTexts.filterMap fun s => (restore s).toOption

/-- The elements of actions. -/
def Document.actionElements (d : Document) : List Element :=
  (d.actions.flatMap (·.elements.getD [])).filterMap fun s => (restore s).toOption

theorem mem_restored {ss : List String} (hs : s ∈ ss) {e : Element} (he : restore s = .ok e) :
    e ∈ ss.filterMap fun s => (restore s).toOption :=
  List.mem_filterMap.2 ⟨s, hs, by rw [he]; rfl⟩

/-- What stands in quotes in the formulas of the text holds only characters that a document can hold. -/
def CleanQuotes (s : String) : Prop := ∀ t ∈ textsIn s, Clean t

instance (s : String) : Decidable (CleanQuotes s) := List.decidableBAll Clean (textsIn s)

/-- No formula of the pattern has a character in quotes that a document cannot hold. -/
structure Document.CleanQuotes (d : Document) : Prop where
  configs : ∀ c ∈ d.configs, Pattern.CleanQuotes c.value
  values : ∀ v ∈ d.values, Pattern.CleanQuotes v.value
  elements : ∀ e ∈ d.storedElements,
    Throughout (fun _ attrs => ∀ a ∈ attrs.entries, Pattern.CleanQuotes a.2) e.toNode
  actions : ∀ e ∈ d.actionElements, ∀ a ∈ e.attrs.entries, Pattern.CleanQuotes a.2

instance (d : Document) : Decidable d.CleanQuotes :=
  decidable_of_iff ((∀ c ∈ d.configs, Pattern.CleanQuotes c.value) ∧ (∀ v ∈ d.values, Pattern.CleanQuotes v.value) ∧
    (∀ e ∈ d.storedElements, Throughout (fun _ attrs => ∀ a ∈ attrs.entries, Pattern.CleanQuotes a.2) e.toNode) ∧
    ∀ e ∈ d.actionElements, ∀ a ∈ e.attrs.entries, Pattern.CleanQuotes a.2)
    ⟨fun h => ⟨h.1, h.2.1, h.2.2.1, h.2.2.2⟩, fun h => ⟨h.configs, h.values, h.elements, h.actions⟩⟩

theorem ok_of_restore {e : Element} (h : restore s = .ok e) : e.Ok := read_ok (mapError_eq_ok.1 h)

theorem cleanValues_of_ok {e : Element} (he : e.Ok) : Throughout (fun _ => CleanValues) e.toNode :=
  ((nodeOk_iff _).1 he).2

/-! ## Parameters -/

theorem holdsOfAscii_isMarkupChar : HoldsOfAscii (isMarkupChar · = true) :=
  fun _ hlow hhigh => isMarkupChar_of_toNat ⟨hlow, by omega⟩

/-- The texts in the values of a scope hold only characters that a document can hold. -/
abbrev CleanScope (scope : Scope) : Prop := SpellsAll (isMarkupChar · = true) scope

theorem spells_readParam {unset : Value} (hunset : unset.Spells (isMarkupChar · = true)) {piece : String}
    (hpiece : Clean piece) : (readParam unset piece).2.Spells (isMarkupChar · = true) := by
  unfold readParam
  split
  · next name value rest hcut =>
    have hvalue : value ∈ Text.cut piece "=" := by
      rw [hcut]
      simp
    dsimp only
    exact Value.spells_coerce (clean_of_mem_cut rfl hpiece hvalue)
  · exact hunset

theorem cleanScope_readActionParams (hs : Clean s) : CleanScope (readActionParams s) := by
  unfold readActionParams
  split
  · exact spellsAll_empty
  · intro p hp
    obtain ⟨piece, hpiece, rfl⟩ := List.mem_map.1 (Table.mem_ofList hp)
    exact spells_readParam (Value.spells_of_isAtom rfl) (clean_of_mem_cut rfl hs hpiece)

theorem cleanScope_readBlockParams (hs : Clean s) : CleanScope (readBlockParams s) := by
  intro p hp
  obtain ⟨piece, hpiece, rfl⟩ := List.mem_map.1 (Table.mem_ofList hp)
  exact spells_readParam (Value.spells_str.2 clean_empty) (clean_of_mem_cut rfl hs (List.mem_filter.1 hpiece).1)

/-! ## Texts with formulas -/

theorem clean_expandText {scope : Scope} (hscope : CleanScope scope) {t : String} (hs : Clean s)
    (hquotes : CleanQuotes s) (h : expandText scope s = .ok t) : Clean t :=
  spelled_expand holdsOfAscii_isMarkupChar hscope hs hquotes (mapError_eq_ok.1 h)

end Stitchwork.Pattern

namespace Stitchwork.Project

open Stitchwork.Formula Stitchwork.Markup Stitchwork.Pattern

variable {scope : Scope} {params : Table Value} {texts : List String}

/-- The values of the attributes, and what stands in quotes in their formulas, hold only characters that a document can
hold. -/
def CleanTag (_name : String) (attrs : Table String) : Prop := ∀ a ∈ attrs.entries, Clean a.2 ∧ CleanQuotes a.2

theorem clean_expandAttr (hscope : CleanScope scope) {a : String × String} (ha : Clean a.2) (hquotes : CleanQuotes a.2)
    {t : String} (h : expandAttr scope a = .ok t) : Clean t := by
  unfold expandAttr at h
  split at h
  · cases h
  · exact clean_expandText hscope ha hquotes h

theorem CleanTag.argument {e : Element} (he : CleanTag e.name e.attrs) : ∀ a ∈ argumentsOf e, Clean a.2 ∧ CleanQuotes a.2 :=
  fun a ha => he a (List.mem_filter.1 ha).1

theorem cleanScope_bindArguments (hscope : CleanScope scope) {params' : Table Value} (hparams : CleanScope params)
    {args : List (String × String)} (hargs : ∀ a ∈ args, Clean a.2 ∧ CleanQuotes a.2)
    (h : bindArguments scope params args = .ok params') : CleanScope params' := by
  induction args generalizing params with
  | nil =>
    cases h
    exact hparams
  | cons a args ih =>
    rw [List.forall_mem_cons] at hargs
    obtain ⟨s, hs, h⟩ := bind_eq_ok.1 h
    exact ih (hparams.insert (Value.spells_coerce (clean_expandAttr hscope hargs.1.1 hargs.1.2 hs))) hargs.2 h

theorem cleanValues_insert {t : Table String} (ht : CleanValues t) (k : String) {v : String} (hv : Clean v) :
    CleanValues (t.insert k v) := by
  intro a ha
  rcases Table.mem_insertEntry ha with rfl | ha
  · exact hv
  · exact ht a ha

theorem cleanValues_copyArguments (hscope : CleanScope scope) {t t' : Table String} (ht : CleanValues t)
    {args : List (String × String)} (hargs : ∀ a ∈ args, Clean a.2 ∧ CleanQuotes a.2)
    (h : copyArguments scope t args = .ok t') : CleanValues t' := by
  induction args generalizing t with
  | nil =>
    cases h
    exact ht
  | cons a args ih =>
    rw [List.forall_mem_cons] at hargs
    obtain ⟨s, hs, h⟩ := bind_eq_ok.1 h
    have hclean := clean_expandAttr hscope hargs.1.1 hargs.1.2 hs
    refine ih ?_ hargs.2 h
    unfold setByLocalName
    split
    · exact cleanValues_insert ht a.1 hclean
    · exact cleanValues_insert (fun b hb => ht b (List.mem_filter.1 hb).1) a.1 hclean

theorem clean_expandAttrs (hscope : CleanScope scope) {as bs : List (String × String)}
    (has : ∀ a ∈ as, Clean a.2 ∧ CleanQuotes a.2) (h : expandAttrs scope as = .ok bs) : ∀ b ∈ bs, Clean b.2 := by
  induction as generalizing bs with
  | nil =>
    cases h
    exact nofun
  | cons a as ih =>
    rw [List.forall_mem_cons] at has
    obtain ⟨s, hs, h⟩ := bind_eq_ok.1 h
    obtain ⟨others, hothers, h⟩ := bind_eq_ok.1 h
    cases h
    exact List.forall_mem_cons.2 ⟨clean_expandAttr hscope has.1.1 has.1.2 hs, ih has.2 hothers⟩

/-! ## Actions -/

/-- The elements that the use of an action becomes are made from the elements of an action of the document. -/
theorem exists_emits_of_expandAction {c : Context} {e : Element} {a : Expansion} (h : expandAction c scope e = .ok a) :
    ∀ n ∈ a.nodes, ∃ action ∈ c.document.actions, ∃ params,
      bindArguments scope action.params (argumentsOf e) = .ok params ∧ ∃ texts ∈ action.elements, ∃ own x : Element,
        n = x.toNode ∧ Emits params texts own x := by
  intro n hn
  obtain ⟨action, haction, params, texts, hparams, htexts, h⟩ := exists_of_expandAction h
  obtain ⟨own, x, rfl, hemits⟩ := exists_emits h n hn
  exact ⟨action, haction, params, hparams, texts, htexts, own, x, rfl, hemits⟩

/-- An element of an action gets attributes more, or other values of those: `attrs`, and then `chart`. -/
theorem Emits.shape {own x : Element} (h : Emits params texts own x) :
    ∃ t : Table String, (t = own.attrs ∨ ∃ s, t = own.attrs.insert "attrs" s) ∧
      (x = { own with attrs := t } ∨ ∃ s, x = { own with attrs := t.insert "chart" s }) := by
  obtain ⟨y, hy, hx⟩ := h.added
  have hchart : ∃ s, x = y ∨ x = y.setAttr "chart" s := by
    rcases nodes_addChart params y with hnodes | ⟨s, hnodes⟩
    · exact ⟨"", .inl (eq_of_toNode (hx.symm.trans hnodes))⟩
    · exact ⟨s, .inr (eq_of_toNode (hx.symm.trans hnodes))⟩
  obtain ⟨s, hchart⟩ := hchart
  rcases addAttrs_eq_ok hy with rfl | ⟨r, rfl⟩
  · exact ⟨y.attrs, .inl rfl, hchart.imp id fun h => ⟨s, h⟩⟩
  · exact ⟨own.attrs.insert "attrs" r, .inr ⟨r, rfl⟩, hchart.imp id fun h => ⟨s, h⟩⟩

theorem Emits.name_children {own x : Element} (h : Emits params texts own x) :
    x.name = own.name ∧ x.children = own.children := by
  obtain ⟨t, -, rfl | ⟨s, rfl⟩⟩ := h.shape <;> exact ⟨rfl, rfl⟩

/-- The attributes that an action adds to its elements hold only characters that a document can hold. -/
theorem Emits.cleanValues {own x : Element} (h : Emits params texts own x) (hparams : CleanScope params)
    (hown : CleanValues own.attrs) : CleanValues x.attrs := by
  have hget : ∀ {k : String} {s : String}, params.get? k = some (.str s) → Clean s :=
    fun hk => Value.spells_str.1 (hparams _ (Table.mem_of_valueIn? hk))
  obtain ⟨y, hy, hx⟩ := h.added
  have hattrs : CleanValues y.attrs := by
    unfold addAttrs at hy
    split at hy
    · cases hy
      exact hown
    · next s hs =>
      cases hy
      refine cleanValues_insert hown "attrs" (clean_join (by decide) fun p hp => ?_)
      rcases List.mem_append.1 (mem_distinct.1 hp) with hp | hp
      · exact clean_of_mem_cut rfl (hget hs) hp
      · cases hv : own.attr? "attrs" with
        | none => simp [hv] at hp
        | some v =>
          rw [hv] at hp
          exact clean_of_mem_cut rfl (hown _ (Table.mem_of_valueIn? hv)) hp
    · cases hy
  unfold addChart at hx
  split at hx
  · rw [← eq_of_toNode hx]
    exact hattrs
  · next v hv =>
    rw [← eq_of_toNode hx]
    refine cleanValues_insert hattrs "chart" ?_
    unfold rawText
    split
    · exact hget hv
    · exact clean_empty

/-- The elements that the use of an action becomes hold only characters that a document can hold. -/
theorem cleanValues_expandAction {c : Context} (hd : c.document.IsRead) (hquotes : c.document.CleanQuotes)
    (hscope : CleanScope scope) {e : Element} (he : CleanTag e.name e.attrs) {a : Expansion}
    (h : expandAction c scope e = .ok a) : ∀ n ∈ a.nodes, Throughout (fun _ => CleanValues) n := by
  intro n hn
  obtain ⟨action, haction, params, hparams, texts, htexts, own, x, rfl, hemits⟩ := exists_emits_of_expandAction h n hn
  obtain ⟨e', he', -, rfl⟩ := hd.definitions .action (.action action) (List.mem_map_of_mem haction)
  have hclean := cleanScope_bindArguments hscope (cleanScope_readActionParams (he'.attr_clean "params")) he.argument hparams
  obtain ⟨s, hs, source, attrs, hsource, hattrs, rfl⟩ := hemits.source
  have hvalues := cleanValues_of_ok (ok_of_restore hsource)
  have hquoted := hquotes.actions source (mem_restored (List.mem_flatMap.2 ⟨_, haction, by rw [htexts]; exact hs⟩) hsource)
  have hown : CleanValues ⟨attrs⟩ := by
    refine clean_expandAttrs hclean (fun a ha => ?_) hattrs
    have hmem := (List.mem_filter.1 ha).1
    exact ⟨hvalues.1 a hmem, hquoted a hmem⟩
  refine ⟨hemits.cleanValues hclean hown, ?_⟩
  rw [hemits.name_children.2]
  exact hvalues.2

/-! ## Projects -/

/-- The parts of a project hold only characters that a document can hold. -/
theorem cleanValues_emission {d : Document} {globals : Scope} (hd : d.IsRead) (hquotes : d.CleanQuotes)
    (hglobals : CleanScope globals) :
    Emission ⟨d, globals⟩ Clean CleanScope CleanTag (Throughout fun _ => CleanValues) where
  fixed := by
    intro tag attrs ns _ hattrs hns
    exact ⟨fun a ha => (hattrs a (Table.mem_ofList ha)).2, throughoutAll_iff.2 hns⟩
  copied := by
    intro scope e tag t ns hscope he _ ht hns
    have hempty : CleanValues Table.empty := fun _ ha => (List.not_mem_nil ha).elim
    exact ⟨cleanValues_copyArguments hscope hempty he.argument ht, throughoutAll_iff.2 hns⟩
  action := fun hscope he => cleanValues_expandAction hd hquotes hscope he
  given := fun h a ha => (h a ha).1
  expanded := fun hscope h a ha s hs => clean_expandText hscope (h a ha).1 (h a ha).2 hs
  absent := clean_empty
  globals := hglobals
  update := fun hscope => hscope.update hglobals
  enter := by
    intro scope inner e texts hscope he h
    obtain ⟨block, hblock, h⟩ := bind_eq_ok.1 h
    obtain ⟨params, hparams, h⟩ := bind_eq_ok.1 h
    obtain ⟨_, -, h⟩ := bind_eq_ok.1 h
    cases h
    obtain ⟨e', after, he', hread⟩ := hd.definitions .block (.block block)
      (List.mem_map_of_mem (findNamed_eq_ok hblock).1)
    obtain ⟨kept, -, heq⟩ := Block.ofElement_eq_ok.1 hread
    cases heq
    refine SpellsAll.update (cleanScope_bindArguments (hscope.update hglobals) ?_ he.argument hparams) hglobals
    exact cleanScope_readBlockParams (he'.attr_clean "params")
  stored := by
    intro s hs e he
    refine (cleanValues_of_ok (ok_of_restore he)).both (hquotes.elements e (mem_restored hs he)) ?_
    exact fun _ _ hvalues hquoted a ha => ⟨hvalues a ha, hquoted a ha⟩
  charts := by
    intro chart hchart
    obtain ⟨e, after, he, hread⟩ := hd.definitions .chart (.chart chart) (List.mem_map_of_mem hchart)
    obtain ⟨-, kept, -, heq⟩ := Chart.ofElement_eq_ok.1 hread
    cases heq
    exact he.attr_clean "name"
  components := by
    intro component hcomponent
    obtain ⟨e, id, kept, he, hid, -, rfl⟩ := hd.definitions .component (.component component)
      (List.mem_map_of_mem hcomponent)
    exact ⟨he.attr_clean "name", hid⟩

theorem cleanValues_front {d : Document} {choices : Choices} (hd : d.IsRead) (hquotes : d.CleanQuotes)
    (hchosen : ∀ p ∈ choices.configs.entries, Clean p.2) : Front d choices Clean CleanScope where
  fresh := spellsAll_empty
  config := by
    intro c hc scope hscope v hbinds
    obtain ⟨e, he, rfl⟩ := hd.definitions .config (.config c) (List.mem_map_of_mem hc)
    have hspells : v.Spells (isMarkupChar · = true) := by
      cases hget : choices.configs.get? (Config.ofElement e).name with
      | some s =>
        rw [(hbinds.of_chosen s hget).1]
        exact Value.spells_coerce (hchosen _ (Table.mem_of_valueIn? hget))
      | none =>
        obtain ⟨s, hs, rfl⟩ := hbinds.of_default hget
        have hquoted := hquotes.configs _ hc
        exact Value.spells_coerce (clean_expandText hscope (he.attr_clean "value") hquoted hs)
    exact ⟨hscope.insert hspells, he.attr_clean "name", fun s hs => Value.spelled_text? holdsOfAscii_isMarkupChar hspells hs⟩
  value := by
    intro v hv scope hscope scope' h
    obtain ⟨e, id, he, -, rfl⟩ := hd.definitions .value (.value v) (List.mem_map_of_mem hv)
    obtain ⟨kept, -, h⟩ := bind_eq_ok.1 h
    split at h
    · obtain ⟨s, hs, h⟩ := bind_eq_ok.1 h
      cases h
      have hquoted := hquotes.values _ hv
      exact hscope.insert (Value.spells_coerce (clean_expandText hscope (he.attr_clean "value") hquoted hs))
    · cases h
      exact hscope
  color := by
    intro color hcolor
    obtain ⟨e, he, hread⟩ := hd.definitions .color (.color color) (List.mem_map_of_mem hcolor)
    obtain ⟨v, hv, rfl⟩ := Color.ofElement_eq_ok.1 hread
    exact ⟨he.attr_clean "name", clean_normalColor hv⟩
  chosen := fun _ _ => clean_normalColor
  image := fun i hi => ⟨hd.definitions .image (.image i) (List.mem_map_of_mem hi), clean_encode _⟩
  name := by
    obtain ⟨s, hs, hname⟩ := hd.name
    rw [hname]
    exact clean_trim hs
  uniqueId := by
    cases hid : d.uniqueId with
    | none => exact clean_empty
    | some id => exact hd.uniqueId id hid
  version := by
    cases hversion : d.version with
    | none => decide
    | some v =>
      obtain ⟨s, hs⟩ := hd.version v hversion
      exact clean_versionText hs

end Stitchwork.Project
