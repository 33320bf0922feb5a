/- # Stitchwork.Proofs.Markup.WellFormed — what is read can be written.

Every function of the scanner gives back a part of the text that it was given, behind characters that a document can
hold, and what it takes off has the form that the writer needs: names are names, and texts hold such characters.  So the tree
that is built from the tokens of any text can be written so that it is read again.
-/
import Mathlib.Data.List.Chain
import Mathlib.Data.List.DropRight
import Stitchwork.Proofs.Markup.Building
import Stitchwork.Proofs.Markup.Settled

namespace Stitchwork.Markup

open Stitchwork.Text

variable {s rest body : List Char} {c : Char} {attrs : List (String × List Chunk)} {token : Token} {chunk : Chunk}

/-! ## Characters that have been looked at -/

theorem isMarkupChar_of_isNamePart (h : isNamePart c) : isMarkupChar c := by
  have hcode := toNat_of_isNamePart h
  exact isMarkupChar_of_toNat (by omega)

theorem isMarkupChar_of_isSpace (h : isSpace c) : isMarkupChar c := by
  simp only [isSpace, Bool.or_eq_true, beq_iff_eq] at h
  rcases h with ((rfl | rfl) | rfl) | rfl <;> decide

theorem isMarkupChar_of_quote (h : (c.toNat == 0x22 || c.toNat == 0x27) = true) : isMarkupChar c := by
  simp only [Bool.or_eq_true, beq_iff_eq] at h
  exact isMarkupChar_of_toNat (by omega)

theorem isMarkupChar_of_digitIn {base d : Nat} (h : digitIn base c = some d) : isMarkupChar c := by
  obtain ⟨n, hn, -⟩ := Option.bind_eq_some_iff.1 h
  rw [hexDigit?] at hn
  have hrange : ∀ {a b : Char}, 0x20 ≤ a.toNat → b.toNat < 0xFFFE → (decide (a ≤ c) && decide (c ≤ b)) = true →
      isMarkupChar c := by
    intro a b ha hb hc
    rw [Bool.and_eq_true, decide_eq_true_eq, decide_eq_true_eq] at hc
    have hlow : a.toNat ≤ c.toNat := hc.1
    have hhigh : c.toNat ≤ b.toNat := hc.2
    exact isMarkupChar_of_toNat (by omega)
  split at hn
  · next hc => exact hrange (by decide) (by decide) hc
  split at hn
  · next hc => exact hrange (by decide) (by decide) hc
  split at hn
  · next hc => exact hrange (by decide) (by decide) hc
  · cases hn

/-- A document can hold all characters of the text. -/
def AllMarkup (s : List Char) : Prop := ∀ c ∈ s, isMarkupChar c

instance (s : List Char) : Decidable (AllMarkup s) := List.decidableBAll (isMarkupChar · = true) s

theorem allMarkup_cons : AllMarkup (c :: s) ↔ isMarkupChar c ∧ AllMarkup s :=
  List.forall_mem_cons

theorem allMarkup_append {t : List Char} : AllMarkup (s ++ t) ↔ AllMarkup s ∧ AllMarkup t := List.forall_mem_append

/-- The first text is what is left of the second behind characters that a document can hold. -/
def Behind (rest s : List Char) : Prop := ∃ used, AllMarkup used ∧ used ++ rest = s

section

variable {rest s t : List Char}

theorem Behind.suffix (h : Behind rest s) : rest <:+ s := h.imp fun _ => And.right

theorem Behind.allMarkup (h : Behind rest s) (hrest : AllMarkup rest) : AllMarkup s := by
  obtain ⟨used, hused, rfl⟩ := h
  exact allMarkup_append.2 ⟨hused, hrest⟩

theorem behind_append {used : List Char} (h : AllMarkup used) (rest : List Char) : Behind rest (used ++ rest) :=
  ⟨used, h, rfl⟩

theorem behind_cons (hc : isMarkupChar c) (s : List Char) : Behind s (c :: s) :=
  behind_append (List.forall_mem_singleton.2 hc) s

theorem Behind.trans (hrest : Behind rest s) (hs : Behind s t) : Behind rest t := by
  obtain ⟨used, hused, rfl⟩ := hrest
  obtain ⟨used', hused', rfl⟩ := hs
  exact ⟨used' ++ used, allMarkup_append.2 ⟨hused', hused⟩, List.append_assoc ..⟩

theorem Behind.cons (h : Behind rest s) (hc : isMarkupChar c) : Behind rest (c :: s) :=
  h.trans (behind_cons hc s)

theorem behind_dropWhile {p : Char → Bool} (hp : ∀ c, p c → isMarkupChar c) (s : List Char) :
    Behind (s.dropWhile p) s :=
  ⟨s.takeWhile p, fun c hc => hp c (List.all_eq_true.1 List.all_takeWhile c hc), List.takeWhile_append_dropWhile⟩

theorem behind_skipSpace (s : List Char) : Behind (s.dropWhile isSpace) s :=
  behind_dropWhile (fun _ => isMarkupChar_of_isSpace) s

end

/-! ## References and values -/

/-- A chunk as the scanner gives it: a run of characters is not empty, and a document can hold them. -/
def ChunkOk : Chunk → Prop
  | .chars cs => cs ≠ [] ∧ ∀ c ∈ cs, isMarkupChar c
  | _ => True

theorem takeCode_ok {base acc : Nat} (h : takeCode base acc s = .ok (chunk, rest)) : Behind rest s ∧ ChunkOk chunk := by
  fun_induction takeCode base acc s with
  | case1 => cases h
  | case2 acc rest' =>
    cases h
    exact ⟨behind_cons (by decide) _, trivial⟩
  | case3 acc c rest' _ d hd ih =>
    obtain ⟨hbehind, hchunk⟩ := ih h
    exact ⟨hbehind.cons (isMarkupChar_of_digitIn hd), hchunk⟩
  | case4 => cases h

theorem takeFirstCode_ok {base : Nat} (h : takeFirstCode base s = .ok (chunk, rest)) :
    Behind rest s ∧ ChunkOk chunk := by
  unfold takeFirstCode at h
  split at h
  · cases h
  · split at h
    · next hd =>
      obtain ⟨hbehind, hchunk⟩ := takeCode_ok h
      exact ⟨hbehind.cons (isMarkupChar_of_digitIn hd), hchunk⟩
    · cases h

theorem takeName_behind {name : List Char} (h : takeName s = .ok (name, rest)) : Behind rest s := by
  obtain ⟨hname, rfl, -⟩ := takeName_eq_ok h
  exact behind_append (fun c hc => isMarkupChar_of_isNamePart (hname.parts c hc)) rest

theorem takeReference_ok (h : takeReference s = .ok (chunk, rest)) : Behind rest s ∧ ChunkOk chunk := by
  unfold takeReference at h
  split at h
  · obtain ⟨hbehind, hchunk⟩ := takeFirstCode_ok h
    exact ⟨(hbehind.cons (by decide)).cons (by decide), hchunk⟩
  · obtain ⟨hbehind, hchunk⟩ := takeFirstCode_ok h
    exact ⟨hbehind.cons (by decide), hchunk⟩
  · obtain ⟨⟨name, rest'⟩, hname, h⟩ := bind_eq_ok.1 h
    dsimp only at h
    split at h
    · cases h
    · cases h
      exact ⟨(behind_cons (by decide) _).trans (takeName_behind hname), trivial⟩
    · cases h

theorem isMarkupChar_of_isValueChar {quote : Char} (h : isValueChar quote c) : isMarkupChar c := by
  simp only [isValueChar, Bool.and_eq_true] at h
  exact h.2

/-- A run of characters in front of a text. -/
theorem chunkOk_run {p : Char → Bool} (hp : ∀ c, p c → isMarkupChar c) (hc : isMarkupChar c) (s : List Char) :
    ChunkOk (.chars (c :: s.takeWhile p)) := by
  refine ⟨List.cons_ne_nil _ _, fun d hd => ?_⟩
  rcases List.mem_cons.1 hd with rfl | hd
  · exact hc
  · exact hp d (List.all_eq_true.1 List.all_takeWhile d hd)

theorem takeValue_ok {quote : Char} (hquote : isMarkupChar quote) {fuel : Nat} {chunks : List Chunk}
    (h : takeValue quote fuel s = .ok (chunks, rest)) : Behind rest s ∧ ∀ c ∈ chunks, ChunkOk c := by
  induction fuel generalizing s chunks with
  | zero => cases h
  | succ fuel ih =>
    cases s with
    | nil => cases h
    | cons c s =>
      rw [takeValue] at h
      split at h
      · next hc =>
        cases h
        rw [beq_iff_eq] at hc
        exact ⟨behind_cons (hc ▸ hquote) _, by simp⟩
      split at h
      · next hc =>
        obtain ⟨⟨r, s'⟩, hr, h⟩ := bind_eq_ok.1 h
        obtain ⟨⟨cs, s''⟩, hcs, h⟩ := bind_eq_ok.1 h
        cases h
        obtain ⟨hbehind, hchunks⟩ := ih hcs
        obtain ⟨hbehind', hchunk⟩ := takeReference_ok hr
        rw [beq_iff_eq] at hc
        exact ⟨hbehind.trans (hbehind'.cons (hc ▸ by decide)), List.forall_mem_cons.2 ⟨hchunk, hchunks⟩⟩
      split at h
      · next hvalue =>
        obtain ⟨⟨cs, s''⟩, hcs, h⟩ := bind_eq_ok.1 h
        cases h
        obtain ⟨hbehind, hchunks⟩ := ih hcs
        have hrun : ∀ d, isValueChar quote d → isMarkupChar d := fun _ => isMarkupChar_of_isValueChar
        refine ⟨hbehind.trans ((behind_dropWhile hrun s).cons (hrun c hvalue)), ?_⟩
        exact List.forall_mem_cons.2 ⟨chunkOk_run hrun (hrun c hvalue) s, hchunks⟩
      · cases h

/-! ## Tags -/

/-- An attribute as the scanner gives it. -/
structure ScanOk (a : String × List Chunk) : Prop where
  name : IsQName a.1.toList
  value : ∀ c ∈ a.2, ChunkOk c

theorem takeQualifiedName_behind {name : List Char} (h : takeQualifiedName s = .ok (name, rest)) : Behind rest s := by
  obtain ⟨⟨p, rest'⟩, hp, h⟩ := bind_eq_ok.1 h
  dsimp only at h
  split at h
  · obtain ⟨⟨l, rest''⟩, hl, h⟩ := bind_eq_ok.1 h
    cases h
    exact ((takeName_behind hl).cons (by decide)).trans (takeName_behind hp)
  · cases h
    exact takeName_behind hp

theorem takeTagEnd_behind {closed : Bool} (h : takeTagEnd s = .ok (closed, rest)) : Behind rest s := by
  unfold takeTagEnd at h
  split at h
  · cases h
  · cases h
    exact behind_cons (by decide) _
  · cases h
  · cases h
    exact (behind_cons (by decide) _).cons (by decide)
  · cases h

theorem takeAttr_ok {a : String × List Chunk} (h : takeAttr s = .ok (a, rest)) : Behind rest s ∧ ScanOk a := by
  obtain ⟨⟨name, s1⟩, hname, h⟩ := bind_eq_ok.1 h
  have hfront := (behind_skipSpace s1).trans (takeQualifiedName_behind hname)
  dsimp only at h
  split at h
  · cases h
  · next s2 hs2 =>
    rw [hs2] at hfront
    have hequals := ((behind_skipSpace s2).cons (by decide)).trans hfront
    split at h
    · cases h
    · next c s3 hs3 =>
      rw [hs3] at hequals
      split at h
      · next hquote =>
        obtain ⟨⟨value, s4⟩, hvalue, h⟩ := bind_eq_ok.1 h
        cases h
        have hchar := isMarkupChar_of_quote hquote
        obtain ⟨hbehind, hchunks⟩ := takeValue_ok hchar hvalue
        refine ⟨(hbehind.cons hchar).trans hequals, ?_, hchunks⟩
        rw [String.toList_ofList]
        exact takeQualifiedName_eq_ok hname
      · cases h
  · cases h

theorem takeAttrs_ok {fuel : Nat} {closed : Bool} (h : takeAttrs fuel s = .ok ((attrs, closed), rest)) :
    Behind rest s ∧ ∀ a ∈ attrs, ScanOk a := by
  induction fuel generalizing s attrs with
  | zero => cases h
  | succ fuel ih =>
    cases s with
    | nil => cases h
    | cons c s =>
      rw [takeAttrs] at h
      split at h
      · split at h
        · cases h
        · next d s1 hs1 =>
          have hspace : Behind (d :: s1) (c :: s) := hs1 ▸ behind_skipSpace (c :: s)
          split at h
          · obtain ⟨⟨a, s2⟩, ha, h⟩ := bind_eq_ok.1 h
            obtain ⟨⟨⟨as, closed'⟩, s3⟩, has, h⟩ := bind_eq_ok.1 h
            cases h
            obtain ⟨hbehind, hscan⟩ := takeAttr_ok ha
            obtain ⟨hbehind', hscans⟩ := ih has
            exact ⟨hbehind'.trans (hbehind.trans hspace), List.forall_mem_cons.2 ⟨hscan, hscans⟩⟩
          · obtain ⟨⟨closed', s2⟩, hend, h⟩ := bind_eq_ok.1 h
            cases h
            exact ⟨(takeTagEnd_behind hend).trans hspace, by simp⟩
      · obtain ⟨⟨closed', s2⟩, hend, h⟩ := bind_eq_ok.1 h
        cases h
        exact ⟨takeTagEnd_behind hend, by simp⟩

/-! ## Tokens -/

/-- A token as the scanner gives it. -/
def TokenOk : Token → Prop
  | .start name attrs _ => IsQName name.toList ∧ ∀ a ∈ attrs, ScanOk a
  | .chunk c => ChunkOk c
  | .cdata s => s ≠ [] → CdataOk s
  | .comment s => CommentOk s
  | .instruction target data => InstructionOk target.toList data
  | _ => True

theorem takeStart_ok (h : takeStart s = .ok (token, rest)) : Behind rest s ∧ TokenOk token := by
  obtain ⟨⟨name, s1⟩, hname, h⟩ := bind_eq_ok.1 h
  obtain ⟨⟨⟨attrs, closed⟩, s2⟩, hattrs, h⟩ := bind_eq_ok.1 h
  cases h
  obtain ⟨hbehind, hscan⟩ := takeAttrs_ok hattrs
  refine ⟨hbehind.trans (takeQualifiedName_behind hname), ?_, hscan⟩
  rw [String.toList_ofList]
  exact takeQualifiedName_eq_ok hname

theorem takeStop_ok (h : takeStop s = .ok (token, rest)) : Behind rest s ∧ TokenOk token := by
  have hname : ∀ c, (isNamePart c || c == ':') = true → isMarkupChar c := by
    intro c hc
    rw [Bool.or_eq_true, beq_iff_eq] at hc
    rcases hc with hc | rfl
    · exact isMarkupChar_of_isNamePart hc
    · decide
  unfold takeStop at h
  split at h
  · cases h
  · next c s' =>
    split at h
    · cases h
    · dsimp only at h
      have hfront := (behind_skipSpace _).trans (behind_dropWhile hname (c :: s'))
      split at h
      · cases h
      · next s1 hs1 =>
        cases h
        rw [hs1] at hfront
        exact ⟨(behind_cons (by decide) _).trans hfront, trivial⟩
      · cases h

theorem takeUntil_ok {stop : List Char} {missing : Fault} (h : takeUntil stop missing s = .ok (body, rest)) :
    s = body ++ stop ++ rest ∧ EndsAt stop body ∧ ∀ c ∈ body, isMarkupChar c := by
  unfold takeUntil at h
  split at h
  · next b r hcut =>
    split at h
    · next hall =>
      cases h
      obtain ⟨hs, hends⟩ := cutOnce?_eq_some hcut
      exact ⟨hs, hends, List.all_eq_true.1 hall⟩
    · cases h
  · split at h <;> cases h

theorem takeUntil_behind {stop : List Char} {missing : Fault} (hstop : AllMarkup stop)
    (h : takeUntil stop missing s = .ok (body, rest)) : Behind rest s := by
  obtain ⟨rfl, -, hbody⟩ := takeUntil_ok h
  exact behind_append (allMarkup_append.2 ⟨hbody, hstop⟩) rest

theorem takeComment_ok (h : takeComment s = .ok (body, rest)) : Behind rest s ∧ ('\r' ∉ s → CommentOk body) := by
  obtain ⟨⟨body', s1⟩, huntil, hend⟩ := bind_eq_ok.1 h
  clear h
  have hfront := takeUntil_behind (by decide) huntil
  obtain ⟨rfl, hends, hchars⟩ := takeUntil_ok huntil
  dsimp only at hend
  split at hend
  · cases hend
  · cases hend
    exact ⟨(behind_cons (by decide) _).trans hfront, fun hs => ⟨hends, hchars, fun hr => hs (by simp [hr])⟩⟩
  · cases hend

theorem takeCdata_ok (h : takeCdata s = .ok (body, rest)) : Behind rest s ∧ ('\r' ∉ s → body ≠ [] → CdataOk body) := by
  refine ⟨takeUntil_behind (by decide) h, fun hs hne => ?_⟩
  obtain ⟨rfl, hends, hchars⟩ := takeUntil_ok h
  exact ⟨hends, hchars, fun hr => hs (by simp [hr]), hne⟩

theorem takeInstruction_ok {target data : List Char} (h : takeInstruction s = .ok ((target, data), rest)) :
    Behind rest s ∧ ('\r' ∉ s → target ≠ ['x', 'm', 'l'] → InstructionOk target (data.dropWhile isSpace)) := by
  obtain ⟨⟨name, s1⟩, hname, hrest⟩ := bind_eq_ok.1 h
  clear h
  have hfront := takeName_behind hname
  obtain ⟨hisName, rfl, -⟩ := takeName_eq_ok hname
  -- a target that is neither reserved nor the declaration
  have hallowed : isReservedTarget name = false → name ≠ ['x', 'm', 'l'] →
      name.map Char.toLower ≠ ['x', 'm', 'l'] := by
    intro hreserved hne hlower
    simp [isReservedTarget, hne, hlower] at hreserved
  dsimp only at hrest
  split at hrest
  · cases hrest
  · next c after =>
    split at hrest
    · split at hrest
      · cases hrest
      · next hreserved =>
        obtain ⟨⟨data', after'⟩, hdata, hrest⟩ := bind_eq_ok.1 hrest
        cases hrest
        refine ⟨(takeUntil_behind (by decide) hdata).trans hfront, fun hs hne => ?_⟩
        obtain ⟨heq, hends, hchars⟩ := takeUntil_ok hdata
        have hsub := List.dropWhile_suffix isSpace (l := data')
        exact ⟨hisName, hallowed (by simpa using hreserved) hne, hends.suffix hsub,
          fun d hd => hchars d (hsub.subset hd), fun hr => hs (by simp [heq, hsub.subset hr]),
          List.dropWhile_idempotent ..⟩
    · split at hrest
      · next hc =>
        rw [beq_iff_eq] at hc
        subst hc
        split at hrest
        · cases hrest
        · next hreserved =>
          split at hrest
          · cases hrest
          · cases hrest
            refine ⟨((behind_cons (by decide) _).cons (by decide)).trans hfront, fun hs hne => ?_⟩
            exact ⟨hisName, hallowed (by simpa using hreserved) hne, trivial, by simp, by simp, rfl⟩
          · cases hrest
      · cases hrest

theorem inside_ok (h : inside s = .ok (token, rest)) : Behind rest s ∧ ('\r' ∉ s → TokenOk token) := by
  unfold inside at h
  split at h
  · cases h
  · next r =>
    -- behind an exclamation mark only a comment or a section of plain text is a token
    split at h
    · cases h
    · cases h
    · next t =>
      obtain ⟨⟨body, t'⟩, hbody, heq⟩ := map_eq_ok.1 h
      cases heq
      obtain ⟨hrest, hok⟩ := takeComment_ok hbody
      refine ⟨(((hrest.cons (by decide)).cons (by decide)).cons (by decide)).cons (by decide), fun hs => hok ?_⟩
      exact fun hr => hs (by simp [hr])
    · next t =>
      split at h
      · cases h
      split at h
      · next hcdata =>
        obtain ⟨⟨body, t'⟩, hbody, heq⟩ := map_eq_ok.1 h
        cases heq
        obtain ⟨hrest, hok⟩ := takeCdata_ok hbody
        have hword : Behind (t.drop 6) t :=
          ⟨t.take 6, by rw [beq_iff_eq.1 hcdata]; decide, List.take_append_drop 6 t⟩
        refine ⟨(((hrest.trans hword).cons (by decide)).cons (by decide)).cons (by decide), fun hs => hok ?_⟩
        exact fun hr => hs (by simp [List.mem_of_mem_drop hr])
      · cases h
    · cases h
  · next r =>
    obtain ⟨⟨⟨target, data⟩, t⟩, hinstruction, h⟩ := bind_eq_ok.1 h
    obtain ⟨hrest, hok⟩ := takeInstruction_ok hinstruction
    dsimp only at h
    split at h
    · cases h
    · next hne =>
      cases h
      refine ⟨(hrest.cons (by decide)).cons (by decide), fun hs => ?_⟩
      rw [TokenOk, String.toList_ofList]
      exact hok (fun hr => hs (by simp [hr])) (by simpa using hne)
  · obtain ⟨hrest, hok⟩ := takeStop_ok h
    exact ⟨(hrest.cons (by decide)).cons (by decide), fun _ => hok⟩
  · obtain ⟨hrest, hok⟩ := takeStart_ok h
    exact ⟨hrest.cons (by decide), fun _ => hok⟩
  · obtain ⟨⟨chunk, t⟩, hchunk, heq⟩ := map_eq_ok.1 h
    cases heq
    obtain ⟨hrest, hok⟩ := takeReference_ok hchunk
    exact ⟨hrest.cons (by decide), fun _ => hok⟩
  · cases h
  · next c r _ _ _ _ _ _ =>
    have htext : ∀ d, isTextChar d → isMarkupChar d := by
      intro d hd
      simp only [isTextChar, Bool.and_eq_true] at hd
      exact hd.2
    split at h
    · next hc =>
      cases h
      exact ⟨(behind_dropWhile htext r).cons hc, fun _ => chunkOk_run htext hc r⟩
    · cases h

/-- What comes next outside the root ends the scan. -/
def Outside.stops : Outside → Bool
  | .reference => true
  | .other => true
  | .fault _ => true
  | _ => false

theorem stops_looseWord (s : List Char) : (looseWord s).stops := by
  unfold looseWord
  dsimp only
  repeat' split
  all_goals rfl

theorem stops_looseKeyword (s : List Char) : (looseKeyword s).stops := by
  unfold looseKeyword
  repeat' split
  all_goals rfl

theorem stops_looseReference (s : List Char) : (looseReference s).stops := by
  unfold looseReference
  repeat' split
  all_goals rfl

theorem stops_looseDeclaration (s : List Char) : (looseDeclaration s).stops := by
  unfold looseDeclaration
  repeat' split
  all_goals rfl

theorem stops_looseLiteral (quote : Char) (s : List Char) : (looseLiteral quote s).stops := by
  unfold looseLiteral
  repeat' split
  all_goals rfl

/-- What comes next outside the root leaves the rest of the text, and only its end is nothing. -/
def Outside.Leaves (s : List Char) : Outside → Prop
  | .nothing => s = []
  | .skip rest => Behind rest s
  | .start rest => Behind rest s
  | .declaration _ rest => Behind rest s
  | _ => True

theorem Outside.leaves_of_stops {o : Outside} (h : o.stops) (s : List Char) : o.Leaves s := by
  cases o with
  | reference => trivial
  | other => trivial
  | fault f => trivial
  | _ => cases h

theorem outside_leaves (s : List Char) : (outside s).Leaves s := by
  unfold outside
  split
  · rfl
  · split
    · next hcomment =>
      have hrest := (takeComment_ok hcomment).1
      exact (((hrest.cons (by decide)).cons (by decide)).cons (by decide)).cons (by decide)
    · trivial
  · exact Outside.leaves_of_stops (stops_looseDeclaration _) _
  · split
    · next hinstruction =>
      have hrest := ((takeInstruction_ok hinstruction).1.cons (c := '?') (by decide)).cons (c := '<') (by decide)
      split
      · exact hrest
      · exact hrest
    · trivial
  · trivial
  · split
    · exact behind_cons (by decide) _
    · trivial
  · -- no markup: white space is skipped, and whatever else there is ends the scan
    split
    · next hc => exact (behind_skipSpace _).cons (isMarkupChar_of_isSpace hc)
    split
    · exact Outside.leaves_of_stops (stops_looseLiteral _ _) _
    split
    · trivial
    split
    · split <;> trivial
    split
    · exact Outside.leaves_of_stops (stops_looseReference _) _
    split
    · split
      · trivial
      · split <;> trivial
    split
    · exact Outside.leaves_of_stops (stops_looseKeyword _) _
    split
    · exact Outside.leaves_of_stops (stops_looseWord _) _
    · trivial

/-- The tokens in front of the root, given that those behind them are as they should be. -/
theorem tokenOk_before {place : Place} (hplace : place = .start ∨ place = .before) {fuel : Nat} (hs : '\r' ∉ s)
    (ih : ∀ {place : Place} {s : List Char}, '\r' ∉ s → token ∈ tokensFrom fuel place s → TokenOk token)
    (h : token ∈ tokensFrom (fuel + 1) place s) : TokenOk token := by
  have hpart : ∀ {t : List Char}, Behind t s → '\r' ∉ t := fun ht hr => hs (ht.suffix.subset hr)
  have hfault : ∀ f, token ∈ [Token.fault f] → TokenOk token := by
    rintro f hf
    rw [List.mem_singleton.1 hf]
    trivial
  have hleaves := outside_leaves s
  rw [tokensFrom] at h
  · split at h
    · exact hfault _ h
    · next rest hout =>
      rw [hout] at hleaves
      exact ih (hpart hleaves) h
    · exact hfault _ h
    · exact hfault _ h
    · exact hfault _ h
    · next data rest hout =>
      rw [hout] at hleaves
      split at h
      · exact hfault _ h
      split at h
      · exact ih (hpart hleaves) h
      · exact hfault _ h
    · next t hout =>
      rw [hout] at hleaves
      split at h
      · exact hfault _ h
      · next htake =>
        obtain ⟨hrest, hok⟩ := takeStart_ok htake
        rcases List.mem_cons.1 h with rfl | h
        · exact hok
        · exact ih (hpart (hrest.trans hleaves)) h
      · next htake =>
        obtain ⟨hrest, hok⟩ := takeStart_ok htake
        rcases List.mem_cons.1 h with rfl | h
        · exact hok
        · exact ih (hpart (hrest.trans hleaves)) h
  · rintro depth rfl
    rcases hplace with h | h <;> cases h
  · rintro rfl
    rcases hplace with h | h <;> cases h

/-- Every token of a text without carriage returns is as the scanner gives it. -/
theorem tokenOk_of_mem_tokensFrom {fuel : Nat} {place : Place} (hs : '\r' ∉ s) (h : token ∈ tokensFrom fuel place s) :
    TokenOk token := by
  have hfault : ∀ f, token ∈ [Token.fault f] → TokenOk token := by
    rintro f hf
    rw [List.mem_singleton.1 hf]
    trivial
  induction fuel generalizing place s with
  | zero => exact hfault _ h
  | succ fuel ih =>
    have hpart : ∀ {t : List Char}, Behind t s → '\r' ∉ t := fun ht hr => hs (ht.suffix.subset hr)
    cases place with
    | within depth =>
      rw [tokensFrom] at h
      split at h
      · next t rest hinside =>
        obtain ⟨hrest, hok⟩ := inside_ok hinside
        rcases List.mem_cons.1 h with rfl | h
        · exact hok hs
        · exact ih (hpart hrest) h
      · exact hfault _ h
    | behind =>
      have hleaves := outside_leaves s
      rw [tokensFrom] at h
      split at h
      · cases h
      · next rest hout =>
        rw [hout] at hleaves
        exact ih (hpart hleaves) h
      · exact hfault _ h
      · exact hfault _ h
    | start => exact tokenOk_before (.inl rfl) hs ih h
    | before => exact tokenOk_before (.inr rfl) hs ih h

/-! ## Attributes that are read -/

theorem characterOf_ok {n : Nat} (h : characterOf n = .ok c) : isMarkupChar c := by
  unfold characterOf at h
  split at h
  · next hn =>
    cases h
    simp only [Bool.and_eq_true] at hn
    exact hn.2
  · cases h

theorem entities_ok {name : String} (h : entities.lookup name = some c) : isMarkupChar c := by
  have hmem : ∀ e ∈ entities, isMarkupChar e.2 := by decide
  obtain ⟨before, behind, hentities, -⟩ := List.lookup_eq_some_iff.1 h
  exact hmem (name, c) (by simp [hentities])

theorem resolve_ok {literal : Char → Char} (hliteral : ∀ c, isMarkupChar c → isMarkupChar (literal c))
    (hchunk : ChunkOk chunk) {cs : List Char} (h : chunk.resolve literal = .ok cs) :
    cs ≠ [] ∧ ∀ c ∈ cs, isMarkupChar c := by
  cases chunk with
  | chars ds =>
    cases h
    refine ⟨by simpa using hchunk.1, fun c hc => ?_⟩
    obtain ⟨d, hd, rfl⟩ := List.mem_map.1 hc
    exact hliteral d (hchunk.2 d hd)
  | code n =>
    obtain ⟨c, hc, rfl⟩ := map_eq_ok.1 h
    exact ⟨List.cons_ne_nil _ _, by simpa using characterOf_ok hc⟩
  | entity name =>
    rw [Chunk.resolve] at h
    split at h
    · next c hc =>
      cases h
      exact ⟨List.cons_ne_nil _ _, by simpa using entities_ok hc⟩
    · cases h

theorem resolveValue_ok {chunks : List Chunk} (hchunks : ∀ c ∈ chunks, ChunkOk c) {cs : List Char}
    (h : resolveValue chunks = .ok cs) : ∀ c ∈ cs, isMarkupChar c := by
  induction chunks generalizing cs with
  | nil =>
    cases h
    simp
  | cons r rs ih =>
    obtain ⟨ds, hds, h⟩ := bind_eq_ok.1 h
    obtain ⟨es, hes, h⟩ := bind_eq_ok.1 h
    cases h
    have hfirst := (resolve_ok (fun c => isMarkupChar_flatten) (hchunks r (by simp)) hds).2
    have hrest := ih (fun c hc => hchunks c (by simp [hc])) hes
    exact List.forall_mem_append.2 ⟨hfirst, hrest⟩

theorem readAttrs_ok {bound : Bindings} {seen : List String} (hattrs : ∀ a ∈ attrs, ScanOk a) {r : ReadAttrs}
    (h : readAttrs bound seen attrs = .ok r) : (∀ a ∈ r.declared, AttrOk a) ∧ ∀ a ∈ r.plain, AttrOk a := by
  induction attrs generalizing bound seen r with
  | nil =>
    cases h
    simp
  | cons a attrs ih =>
    obtain ⟨name, value⟩ := a
    have hscan := hattrs (name, value) (by simp)
    have hattrs' : ∀ a ∈ attrs, ScanOk a := fun a ha => hattrs a (by simp [ha])
    rw [readAttrs] at h
    split at h
    · cases h
    · obtain ⟨cs, hcs, h⟩ := bind_eq_ok.1 h
      have hattr : AttrOk (name, String.ofList cs) := by
        refine ⟨hscan.name, ?_⟩
        rw [String.toList_ofList]
        exact resolveValue_ok hscan.value hcs
      dsimp only at h
      split at h
      · obtain ⟨middle, -, h⟩ := bind_eq_ok.1 h
        obtain ⟨r', hr', h⟩ := bind_eq_ok.1 h
        cases h
        obtain ⟨hdeclared, hplain⟩ := ih hattrs' hr'
        exact ⟨List.forall_mem_cons.2 ⟨hattr, hdeclared⟩, hplain⟩
      · obtain ⟨r', hr', h⟩ := bind_eq_ok.1 h
        cases h
        obtain ⟨hdeclared, hplain⟩ := ih hattrs' hr'
        exact ⟨hdeclared, List.forall_mem_cons.2 ⟨hattr, hplain⟩⟩

theorem readTag_ok {bound inner : Bindings} {name : String} (hattrs : ∀ a ∈ attrs, ScanOk a) {table : Table String}
    (h : readTag bound name attrs = .ok (table, inner)) : ∀ a ∈ table.entries, AttrOk a := by
  obtain ⟨r, hr, h⟩ := bind_eq_ok.1 h
  obtain ⟨_, -, h⟩ := bind_eq_ok.1 h
  obtain ⟨hdeclared, hplain⟩ := readAttrs_ok hattrs hr
  have htable : ∀ a ∈ r.declared ++ r.plain, AttrOk a := List.forall_mem_append.2 ⟨hdeclared, hplain⟩
  split at h
  · split at h
    · cases h
    · cases h
      exact htable
  · cases h
    exact htable

/-! ## The tree -/

/-- Do two nodes have no text between them that could have been one? -/
def Apart (m n : Node) : Prop := m.isText → n.isText = false

theorem nodesOk_iff {ns : List Node} : NodesOk ns ↔ (∀ n ∈ ns, NodeOk n) ∧ ns.IsChain Apart := by
  induction ns with
  | nil => simp [NodesOk]
  | cons n ns ih =>
    rw [NodesOk, ih, List.forall_mem_cons]
    cases ns with
    | nil => simp [textFirst]
    | cons m ns =>
      rw [List.isChain_cons_cons]
      constructor
      · rintro ⟨hn, happart, hall, hchain⟩
        exact ⟨⟨hn, hall⟩, happart, hchain⟩
      · rintro ⟨⟨hn, hall⟩, happart, hchain⟩
        exact ⟨hn, happart, hall, hchain⟩

theorem nodesOk_reverse {ns : List Node} (h : NodesOk ns) : NodesOk ns.reverse := by
  obtain ⟨hall, hchain⟩ := nodesOk_iff.1 h
  refine nodesOk_iff.2 ⟨fun n hn => hall n (List.mem_reverse.1 hn), ?_⟩
  rw [List.isChain_reverse]
  refine hchain.imp fun m n hmn hn => ?_
  cases hm : m.isText with
  | false => rfl
  | true =>
    rw [hmn hm] at hn
    cases hn

/-- An open element that can be closed to one that can be written. -/
structure FrameOk (f : Frame) : Prop where
  name : IsQName f.name.toList
  attrs : ∀ a ∈ f.attrs.entries, AttrOk a
  children : NodesOk f.children

theorem FrameOk.add {f : Frame} (hf : FrameOk f) {n : Node} (hn : NodeOk n) (htext : n.isText = false) :
    FrameOk (f.add n) := by
  refine ⟨hf.name, hf.attrs, ?_⟩
  change NodesOk (n :: f.children)
  rw [NodesOk, htext]
  exact ⟨hn, nofun, hf.children⟩

theorem FrameOk.addText {f : Frame} (hf : FrameOk f) {cs : List Char} (hne : cs ≠ [])
    (hcs : ∀ c ∈ cs, isMarkupChar c) : FrameOk (f.addText cs) := by
  have hchildren := hf.children
  unfold Frame.addText
  split
  · next s rest heq =>
    refine ⟨hf.name, hf.attrs, ?_⟩
    rw [heq, NodesOk, NodeOk] at hchildren
    dsimp only
    rw [NodesOk, NodeOk, String.toList_append, String.toList_ofList]
    exact ⟨⟨by simp [hne], List.forall_mem_append.2 ⟨hchildren.1.2, hcs⟩⟩, hchildren.2⟩
  · next hclean =>
    refine ⟨hf.name, hf.attrs, ?_⟩
    dsimp only
    rw [NodesOk, NodeOk, String.toList_ofList]
    refine ⟨⟨hne, hcs⟩, fun _ => ?_, hchildren⟩
    cases hns : f.children with
    | nil => rfl
    | cons n ns =>
      cases n with
      | text s => exact (hclean s ns hns).elim
      | _ => rfl

theorem FrameOk.close {f : Frame} (hf : FrameOk f) : f.close.Ok :=
  ⟨hf.name, hf.attrs, nodesOk_reverse hf.children⟩

/-- What can be told of a token of the scanner keeps open elements such. -/
theorem TokenOk.keeps {t : Token} (ht : TokenOk t) : t.Keeps FrameOk := by
  cases t with
  | start name attrs => exact fun htag => ⟨ht.1, readTag_ok ht.2 htag, trivial⟩
  | chunk =>
    intro cs hcs f hf
    obtain ⟨hne, hchars⟩ := resolve_ok (fun _ h => h) ht hcs
    exact hf.addText hne hchars
  | cdata s =>
    intro hne f hf
    refine hf.add ?_ rfl
    rw [NodeOk, String.toList_ofList]
    exact ht hne
  | comment s =>
    intro f hf
    refine hf.add ?_ rfl
    rw [NodeOk, String.toList_ofList]
    exact ht
  | instruction target data =>
    intro f hf
    refine hf.add ?_ rfl
    rw [NodeOk, String.toList_ofList]
    exact ht
  | _ => trivial

/-- What is read can be written. -/
theorem read_ok {s : String} {e : Element} (h : read s = .ok e) : e.Ok := by
  refine (build_keeps FrameOk.close (fun hf he => hf.add he rfl) (fun t ht => TokenOk.keeps ?_)
    (List.forall_mem_nil _) (by simp) h).1
  refine tokenOk_of_mem_tokensFrom (fun hr => ?_) ht
  have hunified := not_mem_unifyLineEnds s.toList
  split at hr
  · next c rest hs =>
    rw [hs] at hunified
    split at hr
    · exact hunified (List.mem_cons_of_mem _ hr)
    · exact hunified hr
  · cases hr

end Stitchwork.Markup
