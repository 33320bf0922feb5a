/- # Stitchwork.Proofs.Number.IntegerText — which texts are integers, and which.

An integer may have blanks around it and a sign in front, and its digits, of any script, may have single underscores
between them.  Reading takes exactly these texts, as far as they do not have too many digits, and finds the number that
their digits say.
-/
import Mathlib.Data.Nat.Digits.Defs
import Stitchwork.Proofs.Number.Reread

namespace Stitchwork.Number

open Stitchwork.Text

variable {c : Char} {s : List Char}

/-! ## Integers as texts -/

/-- Is `c` a decimal digit of some script? -/
def isDigit (c : Char) : Bool := (digitValue? c).isSome

/-- Characters of a class, with single underscores between them. -/
inductive Underscored (p : Char → Bool) : List Char → Prop
  | one {c : Char} : p c → Underscored p [c]
  | next {c : Char} {cs : List Char} : p c → Underscored p cs → Underscored p (c :: cs)
  | apart {c : Char} {cs : List Char} : p c → Underscored p cs → Underscored p (c :: '_' :: cs)

/-- The parts of an integer: blanks, perhaps a sign, digits, and blanks. -/
structure IntegerParts where
  before : List Char
  sign : List Char
  body : List Char
  after : List Char
  isNumberBlank_before : ∀ c ∈ before, isNumberBlank c
  isNumberBlank_after : ∀ c ∈ after, isNumberBlank c
  sign_mem : sign ∈ [[], ['+'], ['-']]
  underscored : Underscored isDigit body

/-- The parts of an integer, one behind the other. -/
def IntegerParts.text (p : IntegerParts) : List Char := p.before ++ (p.sign ++ p.body) ++ p.after

/-- The text is an integer. -/
def IsInteger (s : String) : Prop := ∃ p : IntegerParts, s.toList = p.text

/-- The digits of a text, by their values. -/
def digitsIn (s : String) : List Nat := s.toList.filterMap digitValue?

/-- The number that the digits of a text say, negative if there is a minus sign. -/
def integerIn (s : String) : Int :=
  Binary64.signed (s.toList.contains '-') (Nat.ofDigits 10 (digitsIn s).reverse)

/-! ## Digits of any script -/

theorem digitValue?_spec {d : Nat} (h : digitValue? c = some d) :
    d < 10 ∧ isNumberBlank c = false ∧ 48 ≤ c.toNat ∧ c ≠ '_' := by
  -- the digits of a script are apart from the blanks, the underscore and the signs
  have hapart : ∀ r ∈ digitRanges, 48 ≤ r.1 ∧ (r.2 < 95 ∨ 95 < r.1) ∧ ∀ b ∈ blankRanges, b.2 < r.1 ∨ r.2 < b.1 := by
    decide +kernel
  obtain ⟨r, hr, rfl⟩ := Option.map_eq_some_iff.1 h
  obtain ⟨hlow, hscore, hblank⟩ := hapart r (List.mem_of_find?_eq_some hr)
  have hcovers := List.find?_some hr
  simp only [covers, Bool.and_eq_true, decide_eq_true_eq] at hcovers
  refine ⟨Nat.mod_lt _ (by decide), ?_, by omega, ?_⟩
  · rw [isNumberBlank, Bool.and_eq_false_iff]
    refine .inl (List.any_eq_false.2 fun b hb hcov => ?_)
    simp only [covers, Bool.and_eq_true, decide_eq_true_eq] at hcov
    have := hblank b hb
    omega
  · rintro rfl
    change r.1 ≤ 95 ∧ 95 ≤ r.2 at hcovers
    omega

/-- A digit of any script as a plain one; another character as it is. -/
def plainChar (c : Char) : Char :=
  match digitValue? c with
  | some d => Char.ofNat ('0'.toNat + d)
  | none => c

theorem plainDigits_eq_map (s : List Char) : plainDigits s = s.map plainChar := rfl

theorem plainChar_of_digit {d : Nat} (h : digitValue? c = some d) :
    isPlainDigit (plainChar c) ∧ plainDigit (plainChar c) = d := by
  have hten : ∀ d < 10, isPlainDigit (Char.ofNat ('0'.toNat + d)) ∧ plainDigit (Char.ofNat ('0'.toNat + d)) = d := by
    decide +kernel
  rw [plainChar, h]
  exact hten d (digitValue?_spec h).1

theorem digitValue?_isSome_of_isPlainDigit (h : isPlainDigit c) : (digitValue? c).isSome := by
  have hcode := isPlainDigit_iff.1 h
  exact forall_of_lt (P := fun c => isPlainDigit c → (digitValue? c).isSome) (by decide +kernel) (by omega) h

theorem isPlainDigit_plainChar (c : Char) : isPlainDigit (plainChar c) = isDigit c := by
  cases h : digitValue? c with
  | some d =>
    rw [(plainChar_of_digit h).1, isDigit, h]
    rfl
  | none =>
    rw [plainChar, isDigit, h]
    exact Bool.eq_false_iff.2 fun hplain => by simpa [h] using digitValue?_isSome_of_isPlainDigit hplain

theorem plainChar_of_not_isDigit (h : isDigit c = false) : plainChar c = c := by
  rw [isDigit, Option.isSome_eq_false_iff, Option.isNone_iff_eq_none] at h
  rw [plainChar, h]

/-- No character but itself becomes one that is no digit. -/
theorem plainChar_eq_iff {d : Char} (hd : isDigit d = false) : plainChar c = d ↔ c = d := by
  constructor
  · rintro rfl
    cases hc : isDigit c with
    | true =>
      have hplain : isDigit (plainChar c) := digitValue?_isSome_of_isPlainDigit ((isPlainDigit_plainChar c).trans hc)
      rw [hd] at hplain
      cases hplain
    | false => exact (plainChar_of_not_isDigit hc).symm
  · rintro rfl
    exact plainChar_of_not_isDigit hd

/-- The plain digits that a text becomes have the values of its digits. -/
theorem map_plainDigit_filter (s : List Char) :
    ((s.map plainChar).filter isPlainDigit).map plainDigit = s.filterMap digitValue? := by
  induction s with
  | nil => rfl
  | cons c s ih =>
    have hclass := isPlainDigit_plainChar c
    cases h : digitValue? c with
    | some d =>
      rw [List.map_cons, List.filter_cons_of_pos (plainChar_of_digit h).1, List.map_cons, ih,
        (plainChar_of_digit h).2, List.filterMap_cons_some h]
    | none =>
      rw [isDigit, h] at hclass
      rw [List.map_cons, List.filter_cons_of_neg (by simp [hclass]), ih, List.filterMap_cons_none h]

theorem digitsValue_eq_ofDigits (ds : List Char) :
    digitsValue ds = Nat.ofDigits 10 (ds.map plainDigit).reverse := by
  rw [Nat.ofDigits_eq_foldr, List.foldr_reverse, List.foldl_map, digitsValue]
  simp only [Nat.cast_id, Nat.add_comm]

/-! ## Underscores -/

section

variable {p q : Char → Bool} {s : List Char}

theorem Underscored.exists_cons (h : Underscored p s) : ∃ c t, s = c :: t ∧ p c := by
  cases h with
  | one hc => exact ⟨_, _, rfl, hc⟩
  | next hc _ => exact ⟨_, _, rfl, hc⟩
  | apart hc _ => exact ⟨_, _, rfl, hc⟩

theorem Underscored.forall_mem (h : Underscored p s) : ∀ c ∈ s, p c ∨ c = '_' := by
  induction h with
  | one hc => exact List.forall_mem_singleton.2 (.inl hc)
  | next hc _ ih => exact List.forall_mem_cons.2 ⟨.inl hc, ih⟩
  | apart hc _ ih => exact List.forall_mem_cons.2 ⟨.inl hc, List.forall_mem_cons.2 ⟨.inr rfl, ih⟩⟩

theorem underscored_of_forall (h : ∀ c ∈ s, p c) (hne : s ≠ []) : Underscored p s := by
  induction s with
  | nil => exact absurd rfl hne
  | cons c s ih =>
    rw [List.forall_mem_cons] at h
    by_cases hs : s = []
    · rw [hs]
      exact .one h.1
    · exact .next h.1 (ih h.2 hs)

/-- Replacing characters of one class by those of another keeps the underscores where they are. -/
theorem underscored_map {f : Char → Char} (hclass : ∀ c, p (f c) = q c) (hscore : ∀ c, f c = '_' ↔ c = '_') :
    Underscored p (s.map f) ↔ Underscored q s := by
  have hfix : f '_' = '_' := (hscore '_').2 rfl
  constructor
  · intro h
    generalize ht : s.map f = t at h
    induction h generalizing s with
    | one hc =>
      obtain ⟨d, rfl, rfl⟩ := List.map_eq_singleton_iff.1 ht
      exact .one ((hclass d).symm.trans hc)
    | next hc _ ih =>
      obtain ⟨d, s, rfl, rfl, hs⟩ := List.map_eq_cons_iff.1 ht
      exact .next ((hclass d).symm.trans hc) (ih hs)
    | apart hc _ ih =>
      obtain ⟨d, s, rfl, rfl, hs⟩ := List.map_eq_cons_iff.1 ht
      obtain ⟨e, s, rfl, he, hs⟩ := List.map_eq_cons_iff.1 hs
      rw [(hscore e).1 he]
      exact .apart ((hclass d).symm.trans hc) (ih hs)
  · intro h
    induction h with
    | one hc => exact .one ((hclass _).trans hc)
    | next hc _ ih => exact .next ((hclass _).trans hc) ih
    | apart hc _ ih =>
      rw [List.map_cons, List.map_cons, hfix]
      exact .apart ((hclass _).trans hc) ih

end

theorem takeDigits_cons (hc : isPlainDigit c) (hs : ∀ t, s ≠ '_' :: t) :
    takeDigits (c :: s) = (c :: (takeDigits s).1, (takeDigits s).2) := by
  conv_lhs => unfold takeDigits
  split
  · next heq => cases heq
  · next heq =>
    rw [List.cons.injEq] at heq
    exact absurd heq.1 (ne_of_isPlainDigit hc rfl)
  · next heq =>
    rw [List.cons.injEq] at heq
    exact absurd heq.2 (hs _)
  · next heq =>
    rw [List.cons.injEq] at heq
    obtain ⟨rfl, rfl⟩ := heq
    rw [if_pos hc]

theorem takeDigits_apart {d : Char} (hc : isPlainDigit c) (hd : isPlainDigit d) :
    takeDigits (c :: '_' :: d :: s) = (c :: (takeDigits (d :: s)).1, (takeDigits (d :: s)).2) := by
  conv_lhs => unfold takeDigits
  split
  · next heq => cases heq
  · next heq =>
    rw [List.cons.injEq] at heq
    exact absurd heq.1 (ne_of_isPlainDigit hc rfl)
  · next heq =>
    simp only [List.cons.injEq, true_and] at heq
    obtain ⟨rfl, rfl, rfl⟩ := heq
    rw [if_pos hc, if_pos hd]
  · next hnot heq =>
    rw [List.cons.injEq] at heq
    obtain ⟨rfl, rfl⟩ := heq
    exact absurd rfl (hnot d s)

/-- Digits are taken whole, and without their underscores. -/
theorem takeDigits_of_underscored (h : Underscored isPlainDigit s) : takeDigits s = (s.filter isPlainDigit, []) := by
  induction h with
  | one hc =>
    rw [takeDigits_cons hc (by simp), List.filter_cons_of_pos hc]
    rfl
  | @next c cs hc hcs ih =>
    obtain ⟨d, t, rfl, hd⟩ := hcs.exists_cons
    have hne : ∀ u, d :: t ≠ '_' :: u := fun u heq => ne_of_isPlainDigit hd rfl (List.cons.inj heq).1
    rw [takeDigits_cons hc hne, ih, List.filter_cons_of_pos hc]
  | @apart c cs hc hcs ih =>
    obtain ⟨d, t, rfl, hd⟩ := hcs.exists_cons
    have hscore : ¬isPlainDigit '_' := by decide
    rw [takeDigits_apart hc hd, ih, List.filter_cons_of_pos hc, List.filter_cons_of_neg hscore]

theorem eq_of_takeDigits_eq_nil {rest : List Char} (h : takeDigits s = ([], rest)) : rest = s := by
  unfold takeDigits at h
  split at h
  · exact (Prod.mk.inj h).2.symm
  · exact (Prod.mk.inj h).2.symm
  · split at h
    · split at h <;> cases (Prod.mk.inj h).1
    · exact (Prod.mk.inj h).2.symm
  · split at h
    · cases (Prod.mk.inj h).1
    · exact (Prod.mk.inj h).2.symm

/-- Nothing else is taken whole. -/
theorem underscored_of_takeDigits {ds : List Char} (h : takeDigits s = (ds, [])) (hne : ds ≠ []) :
    Underscored isPlainDigit s := by
  fun_induction takeDigits s generalizing ds with
  | case1 => cases h; exact absurd rfl hne
  | case2 => cases h
  | case3 c d rest _ hc hd es after htake ih =>
    cases h
    -- the digit behind the underscore is taken, so there is one more
    have hes : es ≠ [] := by
      rintro rfl
      cases eq_of_takeDigits_eq_nil htake
    exact .apart hc (ih htake hes)
  | case4 => cases h
  | case5 => cases h
  | case6 c rest _ _ hc es after htake ih =>
    cases h
    by_cases hes : es = []
    · subst hes
      cases eq_of_takeDigits_eq_nil htake
      exact .one hc
    · exact .next hc (ih htake hes)
  | case7 => cases h

/-! ## Signs and blanks -/

theorem plainChar_ne {d : Char} (hd : isDigit d = false) (h : c ≠ d) : plainChar c ≠ d := fun heq =>
  h ((plainChar_eq_iff hd).1 heq)

/-- What is behind a sign. -/
theorem exists_sign (s : List Char) : ∃ sign body, s = sign ++ body ∧ sign ∈ [[], ['+'], ['-']] ∧
    (takeSign (s.map plainChar)).2 = body.map plainChar := by
  have hminus : plainChar '-' = '-' := (plainChar_eq_iff rfl).2 rfl
  have hplus : plainChar '+' = '+' := (plainChar_eq_iff rfl).2 rfl
  cases s with
  | nil => exact ⟨[], [], rfl, by simp, rfl⟩
  | cons c s =>
    by_cases hc : c = '-'
    · subst hc
      exact ⟨['-'], s, rfl, by simp, by rw [List.map_cons, hminus]; rfl⟩
    · by_cases hc' : c = '+'
      · subst hc'
        exact ⟨['+'], s, rfl, by simp, by rw [List.map_cons, hplus]; rfl⟩
      · refine ⟨[], c :: s, rfl, by simp, ?_⟩
        rw [List.map_cons, takeSign_of_ne (plainChar_ne rfl hc) (plainChar_ne rfl hc')]

theorem isNumberBlank_of_isDigit (h : isDigit c) : isNumberBlank c = false := by
  obtain ⟨d, hd⟩ := Option.isSome_iff_exists.1 h
  exact (digitValue?_spec hd).2.1

theorem filterMap_digitValue?_of_isNumberBlank (h : ∀ c ∈ s, isNumberBlank c) : s.filterMap digitValue? = [] := by
  refine List.filterMap_eq_nil_iff.2 fun c hc => Option.eq_none_iff_forall_ne_some.2 fun d hd => ?_
  have hblank := h c hc
  rw [(digitValue?_spec hd).2.1] at hblank
  cases hblank

namespace IntegerParts

variable (p : IntegerParts)

theorem sign_cases : p.sign = [] ∨ p.sign = ['+'] ∨ p.sign = ['-'] := by
  simpa only [List.mem_cons, List.not_mem_nil, or_false] using p.sign_mem

/-- Nothing but the blanks around an integer is trimmed. -/
theorem trimBy_text : trimBy isNumberBlank p.text = p.sign ++ p.body := by
  have hsign : ∀ c ∈ p.sign, isNumberBlank c = false := by
    rcases p.sign_cases with h | h | h <;> rw [h]
    · exact List.forall_mem_nil _
    all_goals exact List.forall_mem_singleton.2 rfl
  have hbody : ∀ c ∈ p.body, isNumberBlank c = false := fun c hc =>
    (p.underscored.forall_mem c hc).elim isNumberBlank_of_isDigit (by rintro rfl; rfl)
  have hne : p.sign ++ p.body ≠ [] := by
    obtain ⟨c, t, h, -⟩ := p.underscored.exists_cons
    simp [h]
  rw [text, List.append_assoc, trimBy_append_left p.isNumberBlank_before,
    trimBy_append (List.forall_mem_append.2 ⟨hsign, hbody⟩) hne p.isNumberBlank_after]

theorem filterMap_text : p.text.filterMap digitValue? = p.body.filterMap digitValue? := by
  have hsign : p.sign.filterMap digitValue? = [] := by
    rcases p.sign_cases with h | h | h <;> rw [h] <;> rfl
  rw [text, List.filterMap_append, List.filterMap_append, List.filterMap_append,
    filterMap_digitValue?_of_isNumberBlank p.isNumberBlank_before,
    filterMap_digitValue?_of_isNumberBlank p.isNumberBlank_after, hsign, List.nil_append, List.nil_append,
    List.append_nil]

theorem takeSign_map : takeSign ((p.sign ++ p.body).map plainChar) = (p.text.contains '-', p.body.map plainChar) := by
  have hblank : ∀ s : List Char, (∀ c ∈ s, isNumberBlank c) → '-' ∉ s := fun s hs hmem =>
    absurd (hs _ hmem) (by decide +kernel)
  have hbody : '-' ∉ p.body := fun hmem => absurd (p.underscored.forall_mem _ hmem) (by decide +kernel)
  have hminus : p.text.contains '-' = p.sign.contains '-' := by
    have hbefore := hblank _ p.isNumberBlank_before
    have hafter := hblank _ p.isNumberBlank_after
    simp [text, hbefore, hafter, hbody]
  rw [hminus]
  rcases p.sign_cases with h | h | h <;> rw [h]
  · -- without a sign the first digit must not be taken for one
    obtain ⟨c, t, hct, hc⟩ := p.underscored.exists_cons
    have hne : ∀ d, isDigit d = false → c ≠ d := by
      rintro d hd rfl
      rw [hc] at hd
      cases hd
    rw [hct, List.nil_append, List.map_cons,
      takeSign_of_ne (plainChar_ne rfl (hne '-' rfl)) (plainChar_ne rfl (hne '+' rfl))]
    rfl
  · rw [List.singleton_append, List.map_cons, (plainChar_eq_iff rfl).2 rfl]
    rfl
  · rw [List.singleton_append, List.map_cons, (plainChar_eq_iff rfl).2 rfl]
    rfl

end IntegerParts

/-! ## Reading -/

theorem isInteger_of_readInt? {s : String} {n : Int} (h : readInt? s = some n) : IsInteger s := by
  obtain ⟨before, after, hs, hbefore, hafter⟩ := exists_eq_append_trimBy isNumberBlank s.toList
  obtain ⟨sign, body, hmid, hsign, htake⟩ := exists_sign (trimBy isNumberBlank s.toList)
  refine ⟨⟨before, sign, body, after, hbefore, hafter, hsign, ?_⟩, hmid ▸ hs⟩
  rw [← underscored_map isPlainDigit_plainChar fun c => plainChar_eq_iff rfl, ← htake]
  rw [readInt?, plainDigits_eq_map] at h
  dsimp only at h
  split at h
  · cases h
  · next ds hne heq => exact underscored_of_takeDigits heq hne
  · cases h

theorem readInt?_of_isInteger {s : String} (h : IsInteger s) :
    readInt? s = if maxDigits < (digitsIn s).length then none else some (integerIn s) := by
  obtain ⟨p, hs⟩ := h
  have hplain : Underscored isPlainDigit (p.body.map plainChar) :=
    (underscored_map isPlainDigit_plainChar fun c => plainChar_eq_iff rfl).2 p.underscored
  have hdigits : digitsIn s = ((p.body.map plainChar).filter isPlainDigit).map plainDigit := by
    rw [digitsIn, hs, p.filterMap_text, map_plainDigit_filter]
  have hsome : (p.body.map plainChar).filter isPlainDigit ≠ [] := by
    obtain ⟨c, t, hct, hc⟩ := hplain.exists_cons
    rw [hct, List.filter_cons_of_pos hc]
    exact List.cons_ne_nil _ _
  rw [readInt?, integerIn, hdigits, ← digitsValue_eq_ofDigits, List.length_map, hs, p.trimBy_text, plainDigits_eq_map,
    p.takeSign_map]
  dsimp only
  rw [takeDigits_of_underscored hplain]
  obtain ⟨d, ds, hds⟩ := List.exists_cons_of_ne_nil hsome
  rw [hds]

/-- Digits, perhaps behind a sign, are an integer. -/
theorem isInteger_of_forall (sign : List Char) {ds : List Char} (hsign : sign ∈ [[], ['+'], ['-']])
    (hds : ∀ c ∈ ds, isDigit c) (hne : ds ≠ []) : IsInteger (String.ofList (sign ++ ds)) := by
  refine ⟨⟨[], sign, ds, [], List.forall_mem_nil _, List.forall_mem_nil _, hsign, underscored_of_forall hds hne⟩, ?_⟩
  rw [String.toList_ofList, IntegerParts.text, List.nil_append, List.append_nil]

/-- **Reading takes the integers that do not have too many digits, each as the number that it says.** -/
theorem readInt?_eq_some_iff {s : String} {n : Int} :
    readInt? s = some n ↔ IsInteger s ∧ (digitsIn s).length ≤ maxDigits ∧ integerIn s = n := by
  constructor
  · intro h
    have hs := isInteger_of_readInt? h
    rw [readInt?_of_isInteger hs] at h
    split at h
    · cases h
    · next hlength => exact ⟨hs, Nat.not_lt.1 hlength, Option.some.inj h⟩
  · rintro ⟨hs, hlength, rfl⟩
    rw [readInt?_of_isInteger hs, if_neg (Nat.not_lt.2 hlength)]

/-- An integer that has been read has few enough digits to be written. -/
theorem natAbs_lt_of_readInt? {s : String} {n : Int} (h : readInt? s = some n) : n.natAbs < pow10 maxDigits := by
  obtain ⟨-, hlength, rfl⟩ := readInt?_eq_some_iff.1 h
  have hdigits : ∀ d ∈ (digitsIn s).reverse, d < 10 := by
    intro d hd
    obtain ⟨c, -, hc⟩ := List.mem_filterMap.1 (List.mem_reverse.1 hd)
    exact (digitValue?_spec hc).1
  have habs : ∀ neg k, (Binary64.signed neg k).natAbs = k := by
    intro neg k
    cases neg <;> simp [Binary64.signed]
  calc (integerIn s).natAbs = Nat.ofDigits 10 (digitsIn s).reverse := habs _ _
    _ < 10 ^ (digitsIn s).reverse.length := Nat.ofDigits_lt_base_pow_length (by decide) hdigits
    _ ≤ pow10 maxDigits := pow10_le_pow10 ((List.length_reverse).trans_le hlength)

end Stitchwork.Number
