/- # Stitchwork.Proofs.Pattern.Fields — fields of definitions, written and read again.

Attribute values come back tidy.  A colour that has been read is spelled so that it is read again, and the bytes of
an image are, too.
-/
import Mathlib.Data.List.DropRight
import Stitchwork.Proofs.Pattern.Heads
import Stitchwork.Proofs.Text.Base64

namespace Stitchwork.Text

/-! ## Lower case -/

/-- Characters below `0x80` are lowered one by one. -/
theorem lowerFrom_of_lt {s : List Char} (h : ∀ c ∈ s, c.toNat < 0x80) (before : List Char) :
    lowerFrom before s = s.map lowerSimple := by
  induction s generalizing before with
  | nil => rfl
  | cons c s ih =>
    rw [List.forall_mem_cons] at h
    have hchar : lowerChar before c s = [lowerSimple c] := by
      have hsigma : (c.toNat == 0x3A3) = false := by simp; omega
      have hdotted : (c.toNat == 0x130) = false := by simp; omega
      rw [lowerChar, hsigma, hdotted]
      rfl
    rw [lowerFrom, hchar, ih h.2, List.map_cons]
    rfl

/-- White space around a text is removed once and for all. -/
theorem trimBy_trimBy (p : Char → Bool) (s : List Char) : trimBy p (trimBy p s) = trimBy p s := by
  have hfront : (trimBy p s).dropWhile p = trimBy p s := by
    apply List.dropWhile_eq_self_iff.2
    intro hpos
    have hprefix : trimBy p s <+: s.dropWhile p := List.rdropWhile_prefix p (s.dropWhile p)
    have hne : 0 < (s.dropWhile p).length := hpos.trans_le hprefix.length_le
    rw [ hprefix.getElem hpos]
    exact List.dropWhile_get_zero_not p s hne
  rw [trimBy, hfront]
  exact List.rdropWhile_idempotent p (s.dropWhile p)

theorem trim_trim (s : String) : trim (trim s) = trim s := by
  rw [trim, trim, String.toList_ofList, trimBy_trimBy]

end Stitchwork.Text

namespace Stitchwork.Markup

open Stitchwork.Text

/-! ## Tidy values -/

/-- Characters from the space on are no white space but the space. -/
theorem eq_of_isSpace {c : Char} (hcode : 0x20 ≤ c.toNat) (hspace : isSpace c) : c = ' ' := by
  simp only [isSpace, Bool.or_eq_true, beq_iff_eq] at hspace
  rcases hspace with ((rfl | rfl) | rfl) | rfl
  · rfl
  all_goals exact absurd hcode (by decide)

theorem tidy_of_le {s : String} (h : ∀ c ∈ s.toList, 0x20 ≤ c.toNat) : tidy s = s :=
  tidy_eq_self_iff.2 fun c hc => eq_of_isSpace (h c hc)

end Stitchwork.Markup

namespace Stitchwork.Pattern

open Stitchwork.Markup Stitchwork.Text

/-! ## Colours -/

theorem lt_of_isHexDigit {c : Char} (h : isHexDigit c) : c.toNat < 0x80 := by
  simp only [isHexDigit, Bool.or_eq_true, Bool.and_eq_true, decide_eq_true_eq, Char.le_def, UInt32.le_iff_toNat_le] at h
  show c.val.toNat < 0x80
  have h9 : '9'.val.toNat = 57 := rfl
  have hf : 'f'.val.toNat = 102 := rfl
  have hF : 'F'.val.toNat = 70 := rfl
  omega

/-- A hexadecimal digit in lower case is one that stays as it is. -/
theorem hexDigit_lowered {c : Char} (h : isHexDigit c) : isHexDigit (lowerSimple c) ∧
    lowerSimple (lowerSimple c) = lowerSimple c ∧ 0x20 < (lowerSimple c).toNat ∧ isBlank (lowerSimple c) = false := by
  have hlt := lt_of_isHexDigit h
  revert h
  exact forall_of_lt (P := fun c => isHexDigit c → isHexDigit (lowerSimple c) ∧
    lowerSimple (lowerSimple c) = lowerSimple c ∧ 0x20 < (lowerSimple c).toNat ∧ isBlank (lowerSimple c) = false)
    (by decide +kernel) hlt

theorem isHexColor_eq_true {s : String} (h : isHexColor s) : ∃ ds tail, s.toList = '#' :: (ds ++ tail) ∧
    ds.length = 6 ∧ (∀ c ∈ ds, isHexDigit c) ∧ (tail = [] ∨ tail = ['\n']) := by
  rw [isHexColor] at h
  split at h
  · next rest hs =>
    simp only [Bool.and_eq_true, Bool.or_eq_true, beq_iff_eq, List.all_eq_true] at h
    exact ⟨rest.take 6, rest.drop 6, by rw [hs, List.take_append_drop], h.1.1, h.1.2, h.2⟩
  · cases h

theorem isHexColor_of_digits {ds tail : List Char} (hlength : ds.length = 6) (hds : ∀ c ∈ ds, isHexDigit c)
    (htail : tail = [] ∨ tail = ['\n']) : isHexColor (String.ofList ('#' :: (ds ++ tail))) := by
  rw [isHexColor, String.toList_ofList]
  have htake : (ds ++ tail).take 6 = ds := by rw [← hlength, List.take_left]
  have hdrop : (ds ++ tail).drop 6 = tail := by rw [← hlength, List.drop_left]
  simpa [htake, hdrop, hlength, htail] using hds

/-- The spelling of a colour is that of a hexadecimal one in lower case. -/
theorem normalColor_eq_ok {s v : String} (h : normalColor s = .ok v) : ∃ w, isHexColor w ∧ v = lower w := by
  rw [normalColor] at h
  split at h
  · cases h
  · next hcolor =>
    cases h
    cases hlookup : colorNames.lookup s with
    | none =>
      refine ⟨s, ?_, rfl⟩
      simpa [isColor, hlookup] using hcolor
    | some w =>
      refine ⟨w, ?_, rfl⟩
      have hnames : ∀ p ∈ colorNames, isHexColor p.2 := by decide +kernel
      obtain ⟨before, after, hsplit, -⟩ := List.lookup_eq_some_iff.1 hlookup
      exact hnames (s, w) (by simp [hsplit])

/-- Digits in lower case stay as they are. -/
theorem lower_of_digits {ds tail : List Char} (hds : ∀ c ∈ ds, isHexDigit c ∧ lowerSimple c = c)
    (htail : tail = [] ∨ tail = ['\n']) :
    lower (String.ofList ('#' :: (ds ++ tail))) = String.ofList ('#' :: (ds ++ tail)) := by
  have hplain : ∀ c ∈ '#' :: (ds ++ tail), c.toNat < 0x80 ∧ lowerSimple c = c := by
    rw [List.forall_mem_cons, List.forall_mem_append]
    refine ⟨by decide, fun c hc => ⟨lt_of_isHexDigit (hds c hc).1, (hds c hc).2⟩, fun c hc => ?_⟩
    rcases htail with rfl | rfl
    · cases hc
    · rw [List.mem_singleton.1 hc]
      decide
  rw [lower, String.toList_ofList, lowerFrom_of_lt fun c hc => (hplain c hc).1,
    List.map_congr_left fun c hc => (hplain c hc).2, List.map_id']

theorem normalColor_of_digits {ds tail : List Char} (hlength : ds.length = 6)
    (hds : ∀ c ∈ ds, isHexDigit c ∧ lowerSimple c = c) (htail : tail = [] ∨ tail = ['\n']) :
    normalColor (String.ofList ('#' :: (ds ++ tail))) = .ok (String.ofList ('#' :: (ds ++ tail))) := by
  have hcolor := isHexColor_of_digits hlength (fun c hc => (hds c hc).1) htail
  have hlookup : colorNames.lookup (String.ofList ('#' :: (ds ++ tail))) = none := by
    have hnames : ∀ p ∈ colorNames, p.1.toList.head? ≠ some '#' := by decide +kernel
    refine List.lookup_eq_none_iff.2 fun p hp => bne_iff_ne.2 fun heq => hnames p hp ?_
    rw [← heq, String.toList_ofList]
    rfl
  rw [normalColor, isColor, hcolor, hlookup, Bool.or_true, if_neg (by decide), Option.getD_none,
    lower_of_digits hds htail]

/-- The spelling of a colour: a number sign and six digits in lower case, perhaps with a line end behind them. -/
theorem lower_of_isHexColor {w : String} (h : isHexColor w) : ∃ ds tail, (lower w).toList = ('#' :: ds) ++ tail ∧
    ds.length = 6 ∧ (∀ c ∈ ds, isHexDigit c ∧ lowerSimple c = c ∧ 0x20 < c.toNat ∧ isBlank c = false) ∧
    (tail = [] ∨ tail = ['\n']) := by
  obtain ⟨ds, tail, hw, hlength, hds, htail⟩ := isHexColor_eq_true h
  refine ⟨ds.map lowerSimple, tail, ?_, by simpa using hlength, fun c hc => ?_, htail⟩
  · have hlt : ∀ c ∈ w.toList, c.toNat < 0x80 := by
      rw [hw, List.forall_mem_cons, List.forall_mem_append]
      refine ⟨by decide, fun c hc => lt_of_isHexDigit (hds c hc), fun c hc => ?_⟩
      rcases htail with rfl | rfl
      · cases hc
      · rw [List.mem_singleton.1 hc]
        decide
    rw [lower, String.toList_ofList, lowerFrom_of_lt hlt, hw]
    rcases htail with rfl | rfl <;> simp [lowerSimple]
  · obtain ⟨b, hb, rfl⟩ := List.mem_map.1 hc
    exact hexDigit_lowered (hds b hb)

/-- A colour that has been written is a colour again, and the same one if it has no line end. -/
theorem normalColor_tidy {s v : String} (h : normalColor s = .ok v) :
    ∃ w, normalColor (lower (trim (tidy v))) = .ok w ∧ (tidy v = v → w = v) := by
  obtain ⟨w, hw, rfl⟩ := normalColor_eq_ok h
  obtain ⟨ds, tail, hlower, hlength, hds, htail⟩ := lower_of_isHexColor hw
  have hdigits : ∀ c ∈ ds, isHexDigit c ∧ lowerSimple c = c := fun c hc => ⟨(hds c hc).1, (hds c hc).2.1⟩
  have hblank : ∀ c ∈ '#' :: ds, isBlank c = false :=
    List.forall_mem_cons.2 ⟨by decide, fun c hc => (hds c hc).2.2.2⟩
  have htidy : (tidy (lower w)).toList = ('#' :: ds) ++ tail.map flatten := by
    have hreturn : '\r' ∉ (lower w).toList := by
      rw [hlower, List.mem_append, not_or]
      refine ⟨fun hmem => absurd (hblank _ hmem) (by decide), fun hmem => ?_⟩
      rcases htail with rfl | rfl
      · cases hmem
      · exact absurd (List.mem_singleton.1 hmem) (by decide)
    have hspaces : ∀ c ∈ '#' :: ds, isSpace c → c = ' ' :=
      List.forall_mem_cons.2 ⟨by decide, fun c hc => eq_of_isSpace (hds c hc).2.2.1.le⟩
    rw [tidy, unify_of_not_mem hreturn, toList_flat, hlower, List.map_append, map_flatten_of_forall hspaces]
  have htrim : trim (tidy (lower w)) = String.ofList ('#' :: ds) := by
    rw [trim, htidy, trimBy_append hblank (by simp)]
    rcases htail with rfl | rfl <;> exact List.all_eq_true.1 (by decide)
  refine ⟨String.ofList ('#' :: ds), ?_, fun hsteady => ?_⟩
  · have hnormal := normalColor_of_digits hlength hdigits (.inl rfl)
    have hlowered := lower_of_digits hdigits (.inl rfl)
    rw [List.append_nil] at hnormal hlowered
    rw [htrim, hlowered, hnormal]
  · rw [← String.toList_inj, hlower, String.toList_ofList]
    rcases htail with rfl | rfl
    · rw [List.append_nil]
    · -- A line end does not come back.
      exact absurd (tidy_eq_self_iff.1 hsteady '\n' (by rw [hlower]; simp) rfl) (by decide)

theorem clean_normalColor {s v : String} (h : normalColor s = .ok v) : Clean v := by
  obtain ⟨w, hw, rfl⟩ := normalColor_eq_ok h
  obtain ⟨ds, tail, hlower, -, hds, htail⟩ := lower_of_isHexColor hw
  intro c hc
  rw [hlower, List.mem_append] at hc
  rcases hc with hc | hc
  · have hcode : 0x20 ≤ c.toNat ∧ c.toNat < 0x80 := by
      rcases List.mem_cons.1 hc with rfl | hc
      · decide
      · exact ⟨(hds c hc).2.2.1.le, lt_of_isHexDigit (hds c hc).1⟩
    exact isMarkupChar_of_toNat (by omega)
  · rcases htail with rfl | rfl
    · cases hc
    · rw [List.mem_singleton.1 hc]
      decide

/-! ## Images -/

theorem clean_encode (bs : List UInt8) : Clean (Text.Base64.encode bs) := by
  intro c hc
  have hcode := Text.Base64.mem_encode hc
  exact isMarkupChar_of_toNat (by omega)

/-- The data of an image is read as its bytes. -/
theorem decodeData_tidy (data : ImageData) : Image.decodeData (tidy data.text) = .ok data.toBytes := by
  have hcode : ∀ c ∈ data.text.toList, 0x20 < c.toNat ∧ c.toNat < 0x80 := fun c => Text.Base64.mem_encode
  rw [tidy_of_le fun c hc => (hcode c hc).1.le, Image.decodeData, if_neg, ImageData.text, Text.Base64.decode?_encode]
  simp only [List.any_eq_true, decide_eq_true_eq, not_exists, not_and]
  intro c hc
  have hlt := hcode c hc
  omega

/-! ## All fields -/

/-- The names of the attributes of definitions. -/
def fieldNames : List String :=
  ["name", "value", "description", "custom", "params", "required", "allowed_values", "title", "condition",
   "unique_id", "data"]

/-- Nothing, or one field with the given name and a value that a document can hold. -/
def OneField (k : String) (fields : List (String × String)) : Prop :=
  fields = [] ∨ ∃ v, Clean v ∧ fields = [(k, v)]

theorem oneField_given {k v : String} (hv : Clean v) : OneField k [(k, v)] := .inr ⟨v, hv, rfl⟩

theorem oneField_unless {k v : String} (b : Bool) (hv : Clean v) : OneField k (if b then [] else [(k, v)]) := by
  cases b
  · exact oneField_given hv
  · exact .inl rfl

theorem oneField_when {k v : String} (b : Bool) (hv : Clean v) : OneField k (if b then [(k, v)] else []) := by
  cases b
  · exact .inl rfl
  · exact oneField_given hv

theorem oneField_option {k : String} {o : Option String} (ho : ∀ s ∈ o, Clean s) :
    OneField k (o.map (k, ·)).toList := by
  cases o with
  | none => exact .inl rfl
  | some s => exact oneField_given (ho s rfl)

theorem oneField_attrIfGiven {k : String} {o : Option String} (ho : ∀ s ∈ o, Clean s) :
    OneField k (attrIfGiven k o) := by
  cases o with
  | none => exact .inl rfl
  | some s => exact oneField_unless s.isEmpty (ho s rfl)

/-- The fields of a definition can be written, and no field comes twice. -/
structure FieldsOk (fields : List (String × String)) : Prop where
  each : ∀ a ∈ fields, a.1 ∈ fieldNames ∧ Clean a.2
  nodup : (fields.map (·.1)).Nodup

theorem fieldsOk_flatten (ks : List String) {parts : List (List (String × String))}
    (h : List.Forall₂ OneField ks parts) (hks : ∀ k ∈ ks, k ∈ fieldNames) (hnodup : ks.Nodup)
    {fields : List (String × String)} (hfields : parts.flatten = fields) : FieldsOk fields := by
  subst hfields
  have hsublist : (parts.flatten.map (·.1)).Sublist ks := by
    clear hks hnodup
    induction h with
    | nil => exact .slnil
    | cons hpart _ ih =>
      rcases hpart with rfl | ⟨v, -, rfl⟩
      · exact ih.cons _
      · exact ih.cons_cons _
  refine ⟨fun a ha => ⟨hks _ (hsublist.subset (List.mem_map_of_mem ha)), ?_⟩, hsublist.nodup hnodup⟩
  clear hks hnodup hsublist
  induction h with
  | nil => cases ha
  | cons hpart _ ih =>
    rw [List.flatten_cons, List.mem_append] at ha
    rcases ha with ha | ha
    · rcases hpart with rfl | ⟨v, hv, rfl⟩
      · cases ha
      · rw [List.mem_singleton.1 ha]
        exact hv
    · exact ih ha

/-- The allowed values of a config that has been read are written in characters that a document can hold. -/
theorem clean_allowed {e : Element} (he : e.Ok) : Clean (Config.ofElement e).allowed.write.1 := by
  refine clean_join (by decide) fun p hp => ?_
  rw [Config.ofElement] at hp
  dsimp only at hp
  split at hp
  · next s hs =>
    obtain ⟨q, hq, rfl⟩ := List.mem_map.1 hp
    exact clean_trim (clean_of_mem_cut rfl (he.attr?_clean hs) hq)
  · cases hp

theorem fieldsOk_of_isRead {x : Definition} (hx : x.IsRead) {fields : List (String × String)}
    (h : x.fields = .ok fields) : FieldsOk fields := by
  -- for each kind the fields that may be there, in their order, and why each is clean if it is there
  cases x with
  | action a =>
    obtain ⟨e, he, -, rfl⟩ := hx
    obtain ⟨params, hparams, rfl⟩ := map_eq_ok.1 h
    have hclean := clean_writeParams (paramOk_readActionParams (he.attr_clean "params")) hparams
    exact fieldsOk_flatten ["name", "custom", "params"]
      (.cons (oneField_given (v := (Action.ofElement e).name) (he.attr_clean "name"))
        (.cons (oneField_given (clean_boolText (Action.ofElement e).custom))
        (.cons (oneField_unless (Action.ofElement e).params.isEmpty hclean) .nil))) (by decide) (by decide) (by simp)
  | block b =>
    obtain ⟨e, e', he, hread⟩ := hx
    obtain ⟨kept, -, heq⟩ := Block.ofElement_eq_ok.1 hread
    cases heq
    obtain ⟨params, hparams, rfl⟩ := map_eq_ok.1 h
    have hclean := clean_writeParams (paramOk_readBlockParams (he.attr_clean "params")) hparams
    exact fieldsOk_flatten ["name", "params"]
      (.cons (oneField_given (he.attr_clean "name")) (.cons (oneField_unless (readBlockParams (e.attr "params")).isEmpty hclean) .nil))
      (by decide) (by decide) (by simp)
  | chart c =>
    obtain ⟨e, e', he, hread⟩ := hx
    obtain ⟨-, kept, -, heq⟩ := Chart.ofElement_eq_ok.1 hread
    cases heq
    cases h
    exact fieldsOk_flatten ["name", "condition"]
      (.cons (oneField_given (he.attr_clean "name")) (.cons (oneField_option fun s hs => he.attr?_clean (k := "condition") hs) .nil))
      (by decide) (by decide) (by simp)
  | color c =>
    obtain ⟨e, he, hread⟩ := hx
    obtain ⟨v, hv, rfl⟩ := Color.ofElement_eq_ok.1 hread
    cases h
    exact fieldsOk_flatten ["name", "value", "description"]
      (.cons (oneField_given (he.attr_clean "name")) (.cons (oneField_given (clean_normalColor hv))
        (.cons (oneField_given (he.attr_clean "description")) .nil))) (by decide) (by decide) (by simp)
  | component c =>
    obtain ⟨e, id, kept, he, hid, -, rfl⟩ := hx
    cases h
    exact fieldsOk_flatten ["name", "unique_id", "condition"]
      (.cons (oneField_given (he.attr_clean "name")) (.cons (oneField_given hid)
        (.cons (oneField_option fun s hs => he.attr?_clean (k := "condition") hs) .nil))) (by decide) (by decide) (by simp)
  | config c =>
    obtain ⟨e, he, rfl⟩ := hx
    cases h
    exact fieldsOk_flatten ["name", "value", "required", "allowed_values", "title", "description"]
      (.cons (oneField_given (he.attr_clean "name")) (.cons (oneField_given (he.attr_clean "value"))
        (.cons (oneField_given (clean_boolText (saysTrue (e.attr "required"))))
        (.cons (oneField_when (Config.ofElement e).allowed.given (clean_allowed he))
        (.cons (oneField_attrIfGiven fun s hs => he.attr?_clean (k := "title") hs)
        (.cons (oneField_attrIfGiven fun s hs => he.attr?_clean (k := "description") hs) .nil))))))
      (by decide) (by decide) (by simp [Config.ofElement])
  | image i =>
    cases h
    exact fieldsOk_flatten ["name", "data"]
      (.cons (oneField_given hx) (.cons (oneField_given (v := i.data.text) (clean_encode _)) .nil)) (by decide) (by decide) (by simp)
  | metadata m =>
    cases h
    exact fieldsOk_flatten [] .nil (by decide) (by decide) rfl
  | value v =>
    obtain ⟨e, id, he, hid, rfl⟩ := hx
    cases h
    exact fieldsOk_flatten ["unique_id", "name", "value", "condition"]
      (.cons (oneField_given hid) (.cons (oneField_given (he.attr_clean "name"))
        (.cons (oneField_given (he.attr_clean "value"))
        (.cons (oneField_attrIfGiven fun s hs => he.attr?_clean (k := "condition") hs) .nil)))) (by decide) (by decide) (by simp)

end Stitchwork.Pattern
