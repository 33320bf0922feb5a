/- # Stitchwork.Proofs.Pattern.Params — parameters that are written and read again.

Parameters are cut out of a text at spaces and equals signs, so neither stands in a name or in a value.  Written and
read again, a value is the same number or the same text, and so a table of parameters comes back as it was.  There
is one exception: an action with a single parameter that has no name and no value.
-/
import Stitchwork.Proofs.Formula.Coerce
import Stitchwork.Proofs.Pattern.Heads

namespace Stitchwork.Pattern

open Stitchwork.Formula Stitchwork.Text

/-! ## One parameter -/

/-- Neither of the characters at which parameters are cut stands in the text. -/
def Uncut (s : String) : Prop := ' ' ∉ s.toList ∧ '=' ∉ s.toList

/-- A parameter that has been read: a name, and either nothing or what a text says. -/
structure ReadParam (p : String × Value) : Prop where
  name : Uncut p.1
  value : p.2 = .nothing ∨ ∃ v, Uncut v ∧ p.2 = coerce v

theorem uncut_empty : Uncut "" := ⟨nofun, nofun⟩

theorem readParam_spec {unset : Value} (hunset : unset = .nothing ∨ unset = coerce "") {piece : String}
    (hpiece : ' ' ∉ piece.toList) : ReadParam (readParam unset piece) := by
  have hmem : ∀ p ∈ cut piece "=", Uncut p := fun p hp =>
    ⟨fun hc => hpiece (mem_of_mem_cut (show "=".toList = ['='] from rfl) hp hc),
      not_mem_of_mem_cut (show "=".toList = ['='] from rfl) hp⟩
  rw [readParam]
  split
  · next name value rest hcut =>
    rw [hcut] at hmem
    refine ⟨hmem name (by simp), .inr ⟨value, hmem value (by simp), ?_⟩⟩
    dsimp only
  · next hcut =>
    -- A text without an equals sign is its only piece.
    have hsingle : cut piece "=" = [piece] := by
      cases hpieces : cut piece "=" with
      | nil => exact absurd hpieces (cut_ne_nil (show "=".toList = ['='] from rfl) piece)
      | cons q qs =>
        cases qs with
        | cons r rs => exact absurd hpieces (hcut q r rs)
        | nil =>
          have hjoin := join_cut (show "=".toList = ['='] from rfl) piece
          rw [hpieces] at hjoin
          rw [← hjoin]
          simp [join, String.ofList_toList]
    rw [hsingle] at hmem
    refine ⟨hmem piece (by simp), hunset.imp_right fun h => ⟨"", uncut_empty, h⟩⟩

/-- What is written of a parameter. -/
structure WritesParam (p : String × Value) (piece : String) : Prop where
  writes : writeParam p = .ok piece
  whole : ' ' ∉ piece.toList
  chars : ∀ c ∈ piece.toList, c = '=' ∨ Number.isNumberChar c ∨ c ∈ p.1.toList ∨ ∃ s, p.2 = .str s ∧ c ∈ s.toList
  named : p.2 = .nothing → piece = p.1 ∧ readParam .nothing piece = p
  valued : p.2 ≠ .nothing → piece ≠ "" ∧ ∀ unset, readParam unset piece = p

/-- A parameter that has been read can be written, and is read again. -/
theorem exists_writesParam {p : String × Value} (hp : ReadParam p) : ∃ piece, WritesParam p piece := by
  obtain ⟨name, value⟩ := p
  obtain ⟨hname, rfl | ⟨v, hv, hvalue⟩⟩ := hp
  · refine ⟨name, rfl, hname.1, fun c hc => .inr (.inr (.inl hc)), fun _ => ⟨rfl, ?_⟩, fun h => absurd rfl h⟩
    rw [readParam, cut_of_not_mem (show "=".toList = ['='] from rfl) hname.2]
  · obtain ⟨t, htext, hagain, hchars⟩ := coerce_spec v
    have hsome := coerce_ne_nothing v
    -- from here on the value is any one that has this text
    rw [← show value = coerce v from hvalue] at htext hagain hchars hsome
    have huncut : Uncut t := by
      constructor
      · intro hc
        exact (hchars ' ' hc).elim (by decide) fun h => hv.1 h.2
      · intro hc
        exact (hchars '=' hc).elim (by decide) fun h => hv.2 h.2
    refine ⟨name ++ "=" ++ t, ?_, ?_, ?_, fun h => absurd h hsome, fun _ => ⟨?_, fun unset => ?_⟩⟩
    · rw [writeParam]
      split
      · next h => exact absurd h hsome
      · rw [htext]
    · rw [String.toList_append, String.toList_append, List.mem_append, List.mem_append, not_or, not_or]
      exact ⟨⟨hname.1, by decide⟩, huncut.1⟩
    · intro c hc
      rw [String.toList_append, String.toList_append, List.mem_append, List.mem_append] at hc
      rcases hc with (hc | hc) | hc
      · exact .inr (.inr (.inl hc))
      · exact .inl (List.mem_singleton.1 hc)
      · rcases hchars c hc with hnumber | hstr
        · exact .inr (.inl hnumber)
        · exact .inr (.inr (.inr ⟨v, hstr⟩))
    · intro hnil
      have hmem : '=' ∈ (name ++ "=" ++ t).toList := by simp [String.toList_append]
      rw [hnil] at hmem
      cases hmem
    · rw [readParam, cut_append (show "=".toList = ['='] from rfl) hname.2,
        cut_of_not_mem (show "=".toList = ['='] from rfl) huncut.2]
      dsimp only
      rw [hagain]

/-! ## Tables of parameters -/

theorem mem_cut_space {s piece : String} (h : piece ∈ cut s " ") : ' ' ∉ piece.toList :=
  not_mem_of_mem_cut (show " ".toList = [' '] from rfl) h

theorem readParam_of_mem_action {s : String} : ∀ p ∈ (readActionParams s).entries, ReadParam p := by
  intro p hp
  rw [readActionParams] at hp
  split at hp
  · cases hp
  · obtain ⟨piece, hpiece, rfl⟩ := List.mem_map.1 (Table.mem_ofList hp)
    exact readParam_spec (.inl rfl) (mem_cut_space hpiece)

theorem readParam_of_mem_block {s : String} :
    ∀ p ∈ (readBlockParams s).entries, ReadParam p ∧ p.2 ≠ .nothing := by
  intro p hp
  obtain ⟨piece, hpiece, rfl⟩ := List.mem_map.1 (Table.mem_ofList hp)
  refine ⟨readParam_spec (.inr coerce_empty.symm) (mem_cut_space (List.mem_of_mem_filter hpiece)), ?_⟩
  rw [readParam]
  split
  · next name value rest _ =>
    dsimp only
    exact coerce_ne_nothing value
  · intro h
    cases h

/-- The texts in parameters: their names, and values that are texts. -/
def paramTexts (t : Table Value) : List String :=
  t.entries.flatMap fun p => p.1 :: match p.2 with
    | .str s => [s]
    | _ => []

/-- The parameters can be written, and are read again; a table without parameters is not written at all. -/
structure Returns (read : String → Table Value) (t : Table Value) (text : String) : Prop where
  writes : writeParams t = .ok text
  reads : read (if t.isEmpty then "" else text) = t
  chars : ∀ c ∈ text.toList, c = ' ' ∨ c = '=' ∨ Number.isNumberChar c ∨ ∃ s ∈ paramTexts t, c ∈ s.toList

/-- What is written of parameters is cut into what is written of each. -/
theorem writeParams_spec {t : Table Value} (ht : ∀ p ∈ t.entries, ReadParam p) : ∃ text pieces,
    writeParams t = .ok text ∧ List.Forall₂ WritesParam t.entries pieces ∧ text = join " " pieces := by
  obtain ⟨pieces, hpieces⟩ := exists_forall₂ fun p hp => exists_writesParam (ht p hp)
  refine ⟨join " " pieces, pieces, bind_eq_ok.2 ⟨pieces, ?_, rfl⟩, hpieces, rfl⟩
  exact mapM_eq_ok.2 (hpieces.imp fun p piece h => h.writes)

section

variable {ps : List (String × Value)} {pieces : List String}

theorem forall₂_ne_nil (h : List.Forall₂ WritesParam ps pieces) (hne : ps ≠ []) : pieces ≠ [] := by
  rintro rfl
  cases h
  exact hne rfl

theorem cut_join_pieces (h : List.Forall₂ WritesParam ps pieces) (hne : ps ≠ []) : cut (join " " pieces) " " = pieces := by
  apply cut_join (show " ".toList = [' '] from rfl) (forall₂_ne_nil h hne)
  intro piece hpiece
  obtain ⟨p, -, hp⟩ := exists_of_mem_right h hpiece
  exact hp.whole

theorem map_readParam {unset : Value} (hunset : unset = .nothing ∨ ∀ p ∈ ps, p.2 ≠ .nothing)
    (h : List.Forall₂ WritesParam ps pieces) : pieces.map (readParam unset) = ps := by
  induction h with
  | nil => rfl
  | @cons p piece ps pieces hp _ ih =>
    have hread : readParam unset piece = p := by
      by_cases hvalue : p.2 = .nothing
      · rcases hunset with rfl | hall
        · exact (hp.named hvalue).2
        · exact absurd hvalue (hall p (by simp))
      · exact (hp.valued hvalue).2 _
    rw [List.map_cons, hread, ih (hunset.imp_right fun hall p hp => hall p (by simp [hp]))]

/-- Only a single parameter without a name and a value is written as the empty text. -/
theorem eq_of_join_empty (h : List.Forall₂ WritesParam ps pieces) (hne : ps ≠ []) (hjoin : join " " pieces = "") :
    ps = [("", .nothing)] := by
  have hpieces := cut_join_pieces h hne
  rw [hjoin, cut_of_not_mem (show " ".toList = [' '] from rfl) (by decide)] at hpieces
  subst hpieces
  cases h with
  | @cons p _ _ _ hp hrest =>
    cases hrest
    by_cases hvalue : p.2 = .nothing
    · rw [List.cons.injEq]
      exact ⟨Prod.ext (hp.named hvalue).1.symm hvalue, rfl⟩
    · exact absurd rfl (hp.valued hvalue).1

end

theorem mem_paramTexts {t : Table Value} {pieces : List String} (h : List.Forall₂ WritesParam t.entries pieces) {c : Char}
    (hc : c ∈ (join " " pieces).toList) : c = ' ' ∨ c = '=' ∨ Number.isNumberChar c ∨ ∃ s ∈ paramTexts t, c ∈ s.toList := by
  rcases mem_join hc with hc | ⟨piece, hpiece, hc⟩
  · exact .inl (List.mem_singleton.1 hc)
  · obtain ⟨p, hp, hwrites⟩ := exists_of_mem_right h hpiece
    rcases hwrites.chars c hc with heq | hnumber | hname | ⟨s, hs, hmem⟩
    · exact .inr (.inl heq)
    · exact .inr (.inr (.inl hnumber))
    · exact .inr (.inr (.inr ⟨p.1, List.mem_flatMap.2 ⟨p, hp, by simp⟩, hname⟩))
    · exact .inr (.inr (.inr ⟨s, List.mem_flatMap.2 ⟨p, hp, by simp [hs]⟩, hmem⟩))

/-- Parameters come back if what is written of them is read as their entries, which have names of their own. -/
theorem exists_returns {read : String → Table Value} {t : Table Value} (ht : ∀ p ∈ t.entries, ReadParam p)
    (hnodup : (t.entries.map (·.1)).Nodup) (hnone : read "" = ⟨[]⟩)
    (hread : t.entries ≠ [] → ∀ pieces, List.Forall₂ WritesParam t.entries pieces →
      read (join " " pieces) = Table.ofList t.entries) : ∃ text, Returns read t text := by
  obtain ⟨text, pieces, hwrite, hpieces, rfl⟩ := writeParams_spec ht
  refine ⟨join " " pieces, hwrite, ?_, fun c => mem_paramTexts hpieces⟩
  cases hempty : t.isEmpty with
  | true => exact hnone.trans (congrArg Table.mk (List.isEmpty_iff.1 hempty).symm)
  | false =>
    have hself : Table.ofList t.entries = t := congrArg Table.mk (Table.entries_ofList_of_nodup hnodup)
    exact (hread (List.isEmpty_eq_false_iff.1 hempty) pieces hpieces).trans hself

/-- **The parameters of an action come back,** unless there is only one, without a name and a value. -/
theorem exists_returns_action {s : String} (hodd : (readActionParams s).entries ≠ [("", .nothing)]) :
    ∃ text, Returns readActionParams (readActionParams s) text := by
  have hnodup : ((readActionParams s).entries.map (·.1)).Nodup := by
    rw [readActionParams]
    split
    · exact List.nodup_nil
    · exact Table.nodup_keys_ofList _
  refine exists_returns readParam_of_mem_action hnodup rfl fun hne pieces hpieces => ?_
  have htext : (join " " pieces).isEmpty = false := by
    rw [Bool.eq_false_iff]
    intro hempty
    exact hodd (eq_of_join_empty hpieces hne (by simpa using hempty))
  rw [readActionParams, htext]
  show Table.ofList ((cut (join " " pieces) " ").map (readParam .nothing)) = _
  rw [cut_join_pieces hpieces hne, map_readParam (.inl rfl) hpieces]

/-- **The parameters of a block come back.** -/
theorem exists_returns_block (s : String) : ∃ text, Returns readBlockParams (readBlockParams s) text := by
  have hvalued : ∀ p ∈ (readBlockParams s).entries, p.2 ≠ .nothing := fun p hp => (readParam_of_mem_block p hp).2
  refine exists_returns (fun p hp => (readParam_of_mem_block p hp).1) (Table.nodup_keys_ofList _) rfl
    fun hne pieces hpieces => ?_
  -- no piece is empty, so none is skipped
  have hfilter : pieces.filter (!·.isEmpty) = pieces := by
    rw [List.filter_eq_self]
    intro piece hpiece
    obtain ⟨p, hp, hwrites⟩ := exists_of_mem_right hpieces hpiece
    simpa using (hwrites.valued (hvalued p hp)).1
  show Table.ofList (((cut (join " " pieces) " ").filter (!·.isEmpty)).map (readParam (.str ""))) = _
  rw [cut_join_pieces hpieces hne, hfilter, map_readParam (.inr hvalued) hpieces]

/-! ## Texts of parameters -/

/-- Parameters that come back do so from their text, also if there are none. -/
theorem Returns.reads_text {read : String → Table Value} {t : Table Value} {text : String} (h : Returns read t text) :
    read text = t := by
  have hreads := h.reads
  cases hempty : t.isEmpty with
  | false =>
    rw [hempty] at hreads
    exact hreads
  | true =>
    have hentries : t.entries = [] := List.isEmpty_iff.1 hempty
    have hnone : writeParams t = .ok "" := by rw [writeParams, hentries]; rfl
    rw [hempty] at hreads
    obtain rfl : text = "" := Except.ok.inj (h.writes.symm.trans hnone)
    exact hreads

/-- A single parameter without a name and a value is written as nothing, and so it gets lost. -/
theorem nameless_gets_lost {t : Table Value} (ht : t.entries = [("", .nothing)]) :
    writeParams t = .ok "" ∧ readActionParams "" ≠ t := by
  constructor
  · rw [writeParams, ht]
    rfl
  · rintro rfl
    cases ht

/-- **Parameters survive being written.**  From whatever text parameters have been read, they can be written, and what is
written is read as the same parameters in the same order.  The one exception is an action whose only parameter has
neither a name nor a value. -/
theorem params_survive_writing (s : String) :
    (∃ text, writeParams (readBlockParams s) = .ok text ∧ readBlockParams text = readBlockParams s) ∧
    ∃ text, writeParams (readActionParams s) = .ok text ∧
      (readActionParams text = readActionParams s ↔ (readActionParams s).entries ≠ [("", .nothing)]) := by
  constructor
  · obtain ⟨text, htext⟩ := exists_returns_block s
    exact ⟨text, htext.writes, htext.reads_text⟩
  · by_cases hodd : (readActionParams s).entries = [("", .nothing)]
    · obtain ⟨hwrites, hlost⟩ := nameless_gets_lost hodd
      exact ⟨"", hwrites, iff_of_false hlost (not_not_intro hodd)⟩
    · obtain ⟨text, htext⟩ := exists_returns_action hodd
      exact ⟨text, htext.writes, iff_of_true htext.reads_text hodd⟩

end Stitchwork.Pattern
