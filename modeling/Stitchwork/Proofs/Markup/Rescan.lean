/- # Stitchwork.Proofs.Markup.Rescan — what is written is scanned as what it was.

Each piece that the writer makes is followed through the scanner: escaped characters, attributes, tags, runs
of text, comments, character data and instructions.  A piece is scanned with any text behind it that does not
go it on.
-/
import Mathlib.Data.List.Forall2
import Stitchwork.Markup.Reader
import Stitchwork.Proofs.Markup.Names
import Stitchwork.Proofs.Markup.Writer
import Stitchwork.Proofs.Text.Pieces

namespace Stitchwork.Markup

open Stitchwork.Text (EndsAt cutOnce?_append)

/-- The quotation mark around values. -/
def quote : Char := Char.ofNat 0x22

/-! ## Escaped characters -/

/-- Is the character written as it is? -/
def isPlain (c : Char) : Bool := c != '&' && c != '<' && c != '>' && c != quote

theorem not_isPlain {c : Char} (h : ¬isPlain c) : c = '&' ∨ c = '<' ∨ c = '>' ∨ c = quote := by
  simp only [isPlain, Bool.and_eq_true, bne_iff_ne, ne_eq, Classical.not_and_iff_not_or_not,
    Classical.not_not, or_assoc] at h
  exact h

theorem escapeChar_of_isPlain {c : Char} (h : isPlain c) : escapeChar c = [c] := by
  simp only [isPlain, Bool.and_eq_true, bne_iff_ne, ne_eq] at h
  obtain ⟨⟨⟨hamp, hlt⟩, hgt⟩, hquote⟩ := h
  have hcode : ¬c.toNat = 0x22 := fun hcode => hquote (Char.toNat_inj.1 hcode)
  simp [escapeChar, hamp, hlt, hgt, hcode]

/-- A character that is not written as it is becomes a reference to it. -/
theorem escapeChar_of_not_isPlain {c : Char} (h : ¬isPlain c) :
    ∃ name, escapeChar c = '&' :: (name ++ [';']) ∧ IsName name ∧
      entities.lookup (String.ofList name) = some c := by
  rcases not_isPlain h with rfl | rfl | rfl | rfl
  · exact ⟨['a', 'm', 'p'], rfl, isName_of_lower (by simp), by decide⟩
  · exact ⟨['l', 't'], rfl, isName_of_lower (by simp), by decide⟩
  · exact ⟨['g', 't'], rfl, isName_of_lower (by simp), by decide⟩
  · exact ⟨['q', 'u', 'o', 't'], rfl, isName_of_lower (by simp), by decide⟩

/-- A reference by name behind its ampersand. -/
theorem takeReference_append {name : List Char} (hname : IsName name) (rest : List Char) :
    takeReference (name ++ ';' :: rest) = .ok (.entity (String.ofList name), rest) := by
  have hends : EndsName (';' :: rest) := by
    intro c s h
    cases h
    exact isNamePart_semicolon
  have hstart : ∀ s, name ++ ';' :: rest ≠ '#' :: s := by
    obtain ⟨c, s, rfl, hc⟩ := hname.start
    intro t heq
    injection heq with hhead _
    exact ne_of_isNameStart hc (by decide) hhead
  rw [takeReference, takeName_append hname hends]
  · rfl
  · exact fun s h => hstart _ h
  · exact fun s h => hstart _ h

theorem escape_of_forall_isPlain {cs : List Char} (h : ∀ c ∈ cs, isPlain c) : escape cs = cs := by
  induction cs with
  | nil => rfl
  | cons c cs ih =>
    rw [escape_cons, escapeChar_of_isPlain (h c (by simp)), ih fun d hd => h d (by simp [hd])]
    rfl

/-- Where a run of characters of a class ends in an escaped text: the text is cut there, and what is behind
begins with a character that the class does not hold. -/
theorem escape_run {p : Char → Bool} (hamp : p '&' = false) (v : List Char) :
    ∃ w u, v = w ++ u ∧ ∀ d s, p d = false →
      (escape v ++ d :: s).takeWhile p = w ∧ (escape v ++ d :: s).dropWhile p = escape u ++ d :: s := by
  let q (c : Char) : Bool := isPlain c && p c
  refine ⟨v.takeWhile q, v.dropWhile q, List.takeWhile_append_dropWhile.symm, fun d s hd => ?_⟩
  have hw : ∀ c ∈ v.takeWhile q, isPlain c ∧ p c := fun c hc => by
    simpa [q] using List.all_eq_true.1 List.all_takeWhile c hc
  have hsplit : escape v ++ d :: s = v.takeWhile q ++ (escape (v.dropWhile q) ++ d :: s) := by
    have hescape : escape v = escape (v.takeWhile q) ++ escape (v.dropWhile q) := by
      rw [← escape_append, List.takeWhile_append_dropWhile]
    rw [hescape, escape_of_forall_isPlain fun c hc => (hw c hc).1, List.append_assoc]
  -- what is behind the run begins with a reference, with a character as it is, or with `d`
  have hstop : ∃ e t, escape (v.dropWhile q) ++ d :: s = e :: t ∧ p e = false := by
    cases hu : v.dropWhile q with
    | nil => exact ⟨d, s, rfl, hd⟩
    | cons c u =>
      have hc : q c = false := by
        have hhead := List.head_dropWhile_not q (l := v) (by simp [hu])
        simpa [hu] using hhead
      by_cases hplain : isPlain c
      · have hpc : p c = false := by simpa [q, hplain] using hc
        exact ⟨c, escape u ++ d :: s, by rw [escape_cons, escapeChar_of_isPlain hplain]; rfl, hpc⟩
      · obtain ⟨name, heq, -, -⟩ := escapeChar_of_not_isPlain hplain
        exact ⟨'&', name ++ [';'] ++ escape u ++ d :: s, by rw [escape_cons, heq]; simp, hamp⟩
  obtain ⟨e, t, het, he⟩ := hstop
  have hpos : ∀ c ∈ v.takeWhile q, p c := fun c hc => (hw c hc).2
  rw [hsplit, List.takeWhile_append_of_pos hpos, List.dropWhile_append_of_pos hpos, het]
  simp [he]

/-! ## Values -/

theorem isValueChar_of_isPlain {c : Char} (h : isPlain c) (hc : isMarkupChar c) :
    isValueChar quote c := by
  simp only [isPlain, Bool.and_eq_true, bne_iff_ne, ne_eq] at h
  simp [isValueChar, h, hc]

theorem flatten_of_not_isPlain {c : Char} (h : ¬isPlain c) : flatten c = c := by
  rcases not_isPlain h with rfl | rfl | rfl | rfl <;> rfl

/-- A written value is scanned up to its closing quotation mark, and stands for what was written with its
white space flattened. -/
theorem takeValue_escape {v : List Char} (hv : ∀ c ∈ v, isMarkupChar c) :
    ∃ chunks, resolveValue chunks = .ok (v.map flatten) ∧ ∀ fuel rest, v.length < fuel →
      takeValue quote fuel (escape v ++ quote :: rest) = .ok (chunks, rest) := by
  induction hn : v.length using Nat.strongRecOn generalizing v with
  | ind n ih =>
    cases v with
    | nil =>
      refine ⟨[], rfl, fun fuel rest hfuel => ?_⟩
      obtain ⟨fuel, rfl⟩ : ∃ k, fuel = k + 1 := ⟨fuel - 1, by omega⟩
      simp [takeValue]
    | cons c v =>
      have hv' : ∀ d ∈ v, isMarkupChar d := fun d hd => hv d (by simp [hd])
      by_cases hplain : isPlain c
      · -- a run of characters that stand for themselves
        have hc := isValueChar_of_isPlain hplain (hv c (by simp))
        obtain ⟨w, u, rfl, hrun⟩ := escape_run (p := isValueChar quote) (by decide) v
        obtain ⟨chunks, hresolve, hchunks⟩ := ih u.length (by simp at hn; omega)
          (fun d hd => hv' d (by simp [hd])) rfl
        refine ⟨.chars (c :: w) :: chunks, ?_, fun fuel rest hfuel => ?_⟩
        · simp [resolveValue, Chunk.resolve, hresolve, bind, Except.bind]
        · obtain ⟨fuel, rfl⟩ : ∃ k, fuel = k + 1 := ⟨fuel - 1, by omega⟩
          obtain ⟨htake, hdrop⟩ := hrun quote rest (by simp [isValueChar])
          have htext : escape (c :: (w ++ u)) ++ quote :: rest =
              c :: (escape (w ++ u) ++ quote :: rest) := by
            rw [escape_cons, escapeChar_of_isPlain hplain]
            rfl
          have hquote : (c == quote) = false := by
            simp only [isPlain, Bool.and_eq_true, bne_iff_ne, ne_eq] at hplain
            simpa using hplain.2
          have hamp : (c == '&') = false := by
            simp only [isPlain, Bool.and_eq_true, bne_iff_ne, ne_eq] at hplain
            simpa using hplain.1.1.1
          have hrest := hchunks fuel rest (by simp at hn; omega)
          rw [htext, takeValue, hquote, hamp, hc, htake, hdrop]
          simp [hrest, bind, Except.bind]
      · obtain ⟨name, heq, hname, hlookup⟩ := escapeChar_of_not_isPlain hplain
        obtain ⟨chunks, hresolve, hchunks⟩ := ih v.length (by simp at hn; omega) hv' rfl
        refine ⟨.entity (String.ofList name) :: chunks, ?_, fun fuel rest hfuel => ?_⟩
        · simp [resolveValue, Chunk.resolve, hlookup, hresolve, flatten_of_not_isPlain hplain, bind,
            Except.bind]
        · obtain ⟨fuel, rfl⟩ : ∃ k, fuel = k + 1 := ⟨fuel - 1, by omega⟩
          have htext : escape (c :: v) ++ quote :: rest =
              '&' :: (name ++ ';' :: (escape v ++ quote :: rest)) := by
            rw [escape_cons, heq]
            simp
          have hquote : ('&' == quote) = false := by decide
          have hrest := hchunks fuel rest (by simp at hn; omega)
          rw [htext, takeValue, hquote, takeReference_append hname]
          simp [hrest, bind, Except.bind]

/-! ## Attributes -/

/-- An attribute that a document can hold. -/
structure AttrOk (a : String × String) : Prop where
  name : IsQName a.1.toList
  value : ∀ c ∈ a.2.toList, isMarkupChar c

/-- A scanned attribute with the name and the value of another, with white space flattened. -/
structure ScannedAs (a : String × String) (scanned : String × List Chunk) : Prop where
  name : scanned.1 = a.1
  value : resolveValue scanned.2 = .ok (a.2.toList.map flatten)

theorem writeAttr_append (a : String × String) (rest : List Char) :
    writeAttr a ++ rest = ' ' :: (a.1.toList ++ '=' :: quote :: (escape a.2.toList ++ quote :: rest)) := by
  have h : writeAttr a = ' ' :: (a.1.toList ++ ['=', quote] ++ escape a.2.toList ++ [quote]) := rfl
  rw [h]
  simp

theorem takeAttr_write {a : String × String} (ha : AttrOk a) :
    ∃ scanned, ScannedAs a scanned ∧ ∀ rest,
      takeAttr (a.1.toList ++ '=' :: quote :: (escape a.2.toList ++ quote :: rest)) =
        .ok (scanned, rest) := by
  obtain ⟨chunks, hresolve, hchunks⟩ := takeValue_escape ha.value
  refine ⟨(a.1, chunks), ⟨rfl, hresolve⟩, fun rest => ?_⟩
  have hends : EndsQName ('=' :: quote :: (escape a.2.toList ++ quote :: rest)) := by
    refine ⟨fun c s h => ?_, fun s h => ?_⟩
    · cases h
      exact isNamePart_equals
    · cases h
  have hfuel : a.2.toList.length < (escape a.2.toList ++ quote :: rest).length + 1 := by
    have hlen := length_le_length_escape a.2.toList
    simp only [List.length_append, List.length_cons]
    omega
  rw [takeAttr, takeQualifiedName_append ha.name hends]
  change (takeValue quote _ (escape a.2.toList ++ quote :: rest) >>= fun x =>
    .ok ((String.ofList a.1.toList, x.1), x.2)) = _
  rw [hchunks _ rest hfuel, String.ofList_toList]
  rfl

/-! ## Tags -/

/-- The end of a start tag. -/
def closing (closed : Bool) : List Char := if closed then ['/', '>'] else ['>']

theorem takeTagEnd_closing (closed : Bool) (rest : List Char) :
    takeTagEnd (closing closed ++ rest) = .ok (closed, rest) := by
  cases closed <;> rfl

theorem takeAttrs_write {attrs : List (String × String)} (hattrs : ∀ a ∈ attrs, AttrOk a)
    (closed : Bool) :
    ∃ scanned, List.Forall₂ ScannedAs attrs scanned ∧ ∀ fuel rest, attrs.length < fuel →
      takeAttrs fuel (attrs.flatMap writeAttr ++ (closing closed ++ rest)) =
        .ok ((scanned, closed), rest) := by
  induction attrs with
  | nil =>
    refine ⟨[], .nil, fun fuel rest hfuel => ?_⟩
    obtain ⟨fuel, rfl⟩ : ∃ k, fuel = k + 1 := ⟨fuel - 1, by omega⟩
    have hend := takeTagEnd_closing closed rest
    obtain ⟨c, s, hs, hc⟩ : ∃ c s, closing closed ++ rest = c :: s ∧ isSpace c = false := by
      cases closed <;> exact ⟨_, _, rfl, rfl⟩
    rw [hs] at hend
    rw [List.flatMap_nil, List.nil_append, hs, takeAttrs]
    simp [hc, hend, bind, Except.bind]
  | cons a attrs ih =>
    have ha := hattrs a (by simp)
    obtain ⟨as, hscanned, has⟩ := ih fun b hb => hattrs b (by simp [hb])
    obtain ⟨scanned, hscan, htake⟩ := takeAttr_write ha
    refine ⟨scanned :: as, .cons hscan hscanned, fun fuel rest hfuel => ?_⟩
    obtain ⟨fuel, rfl⟩ : ∃ k, fuel = k + 1 := ⟨fuel - 1, by omega⟩
    have hfirst := htake (attrs.flatMap writeAttr ++ (closing closed ++ rest))
    have hrest := has fuel rest (by simp at hfuel; omega)
    obtain ⟨c, s, hname, hc⟩ := ha.name.start
    have hspace : isSpace c = false := isSpace_eq_false_of_isNamePart (isNamePart_of_isNameStart hc)
    rw [List.flatMap_cons, List.append_assoc, writeAttr_append, takeAttrs]
    rw [hname, List.cons_append] at hfirst ⊢
    have hblank : isSpace ' ' = true := rfl
    simp [hblank, hspace, hc, hfirst, hrest, bind, Except.bind]

theorem length_le_length_writeAttrs (as : List (String × String)) :
    as.length ≤ (as.flatMap writeAttr).length := by
  induction as with
  | nil => exact Nat.le_refl _
  | cons a as ih =>
    rw [List.flatMap_cons, List.length_append, List.length_cons, writeAttr, List.length_cons]
    omega

/-- A written start tag is scanned whole. -/
theorem takeStart_write {name : String} (hname : IsQName name.toList) {attrs : Table String}
    (hattrs : ∀ a ∈ attrs.entries, AttrOk a) (closed : Bool) :
    ∃ scanned, List.Forall₂ ScannedAs attrs.entries scanned ∧ ∀ rest,
      takeStart (name.toList ++ (attrs.entries.flatMap writeAttr ++ (closing closed ++ rest))) =
        .ok (.start name scanned closed, rest) := by
  obtain ⟨scanned, hscanned, htake⟩ := takeAttrs_write hattrs closed
  refine ⟨scanned, hscanned, fun rest => ?_⟩
  have hends : EndsQName (attrs.entries.flatMap writeAttr ++ (closing closed ++ rest)) := by
    cases attrs.entries with
    | nil =>
      cases closed with
      | false =>
        refine ⟨fun c s h => ?_, fun s h => ?_⟩
        · cases h
          exact isNamePart_greater
        · cases h
      | true =>
        refine ⟨fun c s h => ?_, fun s h => ?_⟩
        · cases h
          exact isNamePart_slash
        · cases h
    | cons a as =>
      rw [List.flatMap_cons, List.append_assoc, writeAttr_append]
      refine ⟨fun c s h => ?_, fun s h => ?_⟩
      · cases h
        exact isNamePart_space
      · cases h
  have hfuel : attrs.entries.length <
      (attrs.entries.flatMap writeAttr ++ (closing closed ++ rest)).length + 1 := by
    have hle := length_le_length_writeAttrs attrs.entries
    rw [List.length_append]
    omega
  rw [takeStart, takeQualifiedName_append hname hends]
  simp only [htake _ rest hfuel, bind, Except.bind, String.ofList_toList]

/-- A written end tag is scanned whole. -/
theorem takeStop_write {name : String} (hname : IsQName name.toList) (rest : List Char) :
    takeStop (name.toList ++ '>' :: rest) = .ok (.stop name, rest) := by
  obtain ⟨c, s, hcs, hc⟩ := hname.start
  have hparts := hname.parts
  have hclosing : ∀ c ∈ ('>' :: rest).head?, (isNamePart c || c == ':') = false := by
    rintro _ ⟨⟩
    simp
  obtain ⟨htake, hdrop⟩ := Text.takeWhile_append hparts hclosing
  have hspace : ('>' :: rest).dropWhile isSpace = '>' :: rest := rfl
  rw [hcs, List.cons_append] at htake hdrop ⊢
  rw [takeStop]
  simp only [hc, htake, hdrop, hspace]
  rw [← hcs, String.ofList_toList]
  rfl

/-! ## Comments, character data and instructions -/

theorem takeUntil_append {stop : List Char} (hstop : stop ≠ []) {body : List Char} (hends : EndsAt stop body)
    (hbody : ∀ c ∈ body, isMarkupChar c) (missing : Fault) (rest : List Char) :
    takeUntil stop missing (body ++ stop ++ rest) = .ok (body, rest) := by
  rw [takeUntil, cutOnce?_append hstop hends]
  exact if_pos (List.all_eq_true.2 hbody)

/-- A text that a comment can hold. -/
structure CommentOk (s : List Char) : Prop where
  ends : EndsAt ['-', '-'] s
  chars : ∀ c ∈ s, isMarkupChar c
  unified : '\r' ∉ s

theorem inside_comment {s : List Char} (h : CommentOk s) (rest : List Char) :
    inside ('<' :: '!' :: '-' :: '-' :: (s ++ '-' :: '-' :: '>' :: rest)) =
      .ok (.comment s, rest) := by
  have htake : takeComment (s ++ '-' :: '-' :: '>' :: rest) = .ok (s, rest) := by
    have huntil := takeUntil_append (List.cons_ne_nil '-' ['-']) h.ends h.chars .unclosedToken
      ('>' :: rest)
    rw [List.append_assoc] at huntil
    change (takeUntil ['-', '-'] .unclosedToken (s ++ (['-', '-'] ++ '>' :: rest)) >>= _) = _
    rw [huntil]
    rfl
  change (takeComment (s ++ '-' :: '-' :: '>' :: rest)).map _ = _
  rw [htake]
  rfl

/-- A text that character data can hold. -/
structure CdataOk (s : List Char) : Prop where
  ends : EndsAt [']', ']', '>'] s
  chars : ∀ c ∈ s, isMarkupChar c
  unified : '\r' ∉ s
  nonempty : s ≠ []

theorem inside_cdata {s : List Char} (h : CdataOk s) (rest : List Char) :
    inside ('<' :: '!' :: '[' :: ("CDATA[".toList ++ (s ++ ']' :: ']' :: '>' :: rest))) =
      .ok (.cdata s, rest) := by
  have htake : takeCdata (s ++ ']' :: ']' :: '>' :: rest) = .ok (s, rest) := by
    have huntil := takeUntil_append (List.cons_ne_nil ']' [']', '>']) h.ends h.chars
      .unclosedCdata rest
    rw [List.append_assoc] at huntil
    exact huntil
  have hbytes : ∀ t, ¬byteCount ('C' :: 'D' :: 'A' :: 'T' :: 'A' :: '[' :: t) < 6 := by
    intro t
    have hsize : 'C'.utf8Size = 1 ∧ 'D'.utf8Size = 1 ∧ 'A'.utf8Size = 1 ∧ 'T'.utf8Size = 1 ∧
        '['.utf8Size = 1 := by decide
    simp only [byteCount, hsize]
    omega
  change (if byteCount ('C' :: 'D' :: 'A' :: 'T' :: 'A' :: '[' :: _) < 6 then _ else
    (takeCdata (s ++ ']' :: ']' :: '>' :: rest)).map _) = _
  rw [if_neg (hbytes _), htake]
  rfl

/-- A target and data that an instruction can hold. -/
structure InstructionOk (target data : List Char) : Prop where
  name : IsName target
  allowed : target.map Char.toLower ≠ ['x', 'm', 'l']
  ends : EndsAt ['?', '>'] data
  chars : ∀ c ∈ data, isMarkupChar c
  unified : '\r' ∉ data
  unspaced : data.dropWhile isSpace = data

theorem InstructionOk.ne_xml {target data : List Char} (h : InstructionOk target data) :
    target ≠ ['x', 'm', 'l'] := by
  rintro rfl
  exact h.allowed (by decide)

theorem inside_instruction {target data : List Char} (h : InstructionOk target data)
    (rest : List Char) :
    inside ('<' :: '?' :: (target ++ ' ' :: (data ++ '?' :: '>' :: rest))) =
      .ok (.instruction (String.ofList target) data, rest) := by
  have hends : EndsAt ['?', '>'] (' ' :: data) := by
    refine ⟨fun hp => ?_, h.ends⟩
    have hhead := List.prefix_cons_iff.1 hp
    simp at hhead
  have hchars : ∀ c ∈ ' ' :: data, isMarkupChar c := by
    intro c hc
    rcases List.mem_cons.1 hc with rfl | hc
    · rfl
    · exact h.chars c hc
  have htake : takeData (' ' :: (data ++ '?' :: '>' :: rest)) = .ok (' ' :: data, rest) := by
    have huntil := takeUntil_append (List.cons_ne_nil '?' ['>']) hends hchars .unclosedToken rest
    rw [List.append_assoc] at huntil
    exact huntil
  have hname : EndsName (' ' :: (data ++ '?' :: '>' :: rest)) := by
    intro c s hcs
    cases hcs
    exact isNamePart_space
  have hreserved : isReservedTarget target = false := by
    simp [isReservedTarget, h.allowed]
  have hinstruction : takeInstruction (target ++ ' ' :: (data ++ '?' :: '>' :: rest)) =
      .ok ((target, ' ' :: data), rest) := by
    rw [takeInstruction, takeName_append h.name hname]
    have hblank : isSpace ' ' = true := rfl
    simp [hblank, hreserved, htake, bind, Except.bind]
  have hne : (target == ['x', 'm', 'l']) = false := by simpa using h.ne_xml
  have hdata : (' ' :: data).dropWhile isSpace = data := by
    rw [List.dropWhile_cons_of_pos rfl, h.unspaced]
  change (takeInstruction (target ++ ' ' :: (data ++ '?' :: '>' :: rest)) >>= _) = _
  rw [hinstruction]
  simp only [bind, Except.bind, hne, hdata]
  rfl

/-! ## Tags and text inside the root -/

theorem inside_start {c : Char} (hc : isNameStart c) (s : List Char) :
    inside ('<' :: c :: s) = takeStart (c :: s) := by
  have hbang : c ≠ '!' := ne_of_isNameStart hc (by decide)
  have hquestion : c ≠ '?' := ne_of_isNameStart hc (by decide)
  have hslash : c ≠ '/' := ne_of_isNameStart hc (by decide)
  unfold inside
  split
  · next h => cases h
  · next h => cases h; exact absurd rfl hbang
  · next h => cases h; exact absurd rfl hquestion
  · next h => cases h; exact absurd rfl hslash
  · next h => cases h; rfl
  · next h => cases h
  · next h => cases h
  · next hlt _ _ h => cases h; exact (hlt rfl).elim

theorem inside_stop (s : List Char) : inside ('<' :: '/' :: s) = takeStop s := rfl

theorem inside_reference {name : List Char} (hname : IsName name) (rest : List Char) :
    inside ('&' :: (name ++ ';' :: rest)) = .ok (.chunk (.entity (String.ofList name)), rest) := by
  change (takeReference (name ++ ';' :: rest)).map _ = _
  rw [takeReference_append hname]
  rfl

/-- Text up to the next special character. -/
theorem inside_chars {c : Char} (hc : isMarkupChar c) (hlt : c ≠ '<') (hamp : c ≠ '&')
    {s : List Char} (hend : ∀ t, s ≠ ']' :: '>' :: t) :
    inside (c :: s) = .ok (.chunk (.chars (c :: s.takeWhile isTextChar)), s.dropWhile isTextChar) := by
  unfold inside
  split
  · next h => cases h
  · next h => cases h; exact absurd rfl hlt
  · next h => cases h; exact absurd rfl hlt
  · next h => cases h; exact absurd rfl hlt
  · next h => cases h; exact absurd rfl hlt
  · next h => cases h; exact absurd rfl hamp
  · next h => cases h; exact absurd rfl (hend _)
  · next h => cases h; exact if_pos hc

end Stitchwork.Markup
