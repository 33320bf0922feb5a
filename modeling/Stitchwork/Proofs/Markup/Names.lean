/- # Stitchwork.Proofs.Markup.Names — names are read as they are written.

A name ends where a character stands that cannot be part of it.  What the scanner takes off the front of a
text is a name, and a name with such a character behind it is taken off whole.
-/
import Stitchwork.Markup.Token
import Stitchwork.Proofs.Text.Pieces
import Stitchwork.Proofs.Work

namespace Stitchwork.Markup

open Stitchwork.Text (inRanges covers)

variable {name rest : List Char} {c : Char}

/-! ## Classes of characters -/

/-- Is every range of the first list inside one of the second?  Both lists are in order. -/
def insideRanges : List (Nat × Nat) → List (Nat × Nat) → Bool
  | rs, [] => rs.isEmpty
  | rs, q :: qs => insideRanges (rs.dropWhile fun r => q.1.ble r.1 && r.2.ble q.2) qs

theorem inRanges_of_insideRanges {rs : List (Nat × Nat)} (qs : List (Nat × Nat)) (h : insideRanges rs qs)
    (hc : inRanges rs c) : inRanges qs c := by
  simp only [inRanges, List.any_eq_true] at hc ⊢
  induction qs generalizing rs with
  | nil =>
    rw [insideRanges, List.isEmpty_iff] at h
    subst h
    obtain ⟨r, hr, -⟩ := hc
    cases hr
  | cons q qs ih =>
    obtain ⟨r, hr, hrc⟩ := hc
    rw [insideRanges] at h
    rw [← List.takeWhile_append_dropWhile (p := fun r => q.1.ble r.1 && r.2.ble q.2) (l := rs),
      List.mem_append] at hr
    rcases hr with hr | hr
    · have hin := List.all_takeWhile (l := rs) (p := fun r => q.1.ble r.1 && r.2.ble q.2)
      have hq := List.all_eq_true.1 hin r hr
      simp only [Bool.and_eq_true, Nat.ble_eq] at hq
      simp only [covers, Bool.and_eq_true, decide_eq_true_eq] at hrc
      refine ⟨q, by simp, ?_⟩
      simp only [covers, Bool.and_eq_true, decide_eq_true_eq]
      omega
    · obtain ⟨q', hq', hcov⟩ := ih h ⟨r, hr, hrc⟩
      exact ⟨q', List.mem_cons_of_mem _ hq', hcov⟩

theorem isNamePart_of_isNameStart (h : isNameStart c) : isNamePart c :=
  inRanges_of_insideRanges _ (by decide +kernel) h

/-- The characters that can stand in a document, as one condition on their codes. -/
theorem isMarkupChar_of_toNat (h : 0x20 ≤ c.toNat ∧ c.toNat < 0xFFFE) : isMarkupChar c := by
  rw [isMarkupChar, if_neg (by omega)]
  simp only [Bool.and_eq_true, bne_iff_ne, ne_eq]
  omega

/-- The codes that characters of names can have. -/
theorem toNat_of_isNamePart (h : isNamePart c) :
    0x2D ≤ c.toNat ∧ c.toNat ≤ 0x2E ∨ 0x30 ≤ c.toNat ∧ c.toNat ≤ 0x39 ∨ 0x41 ≤ c.toNat ∧ c.toNat ≤ 0xFFFD := by
  have hin := inRanges_of_insideRanges [(0x2D, 0x2E), (0x30, 0x39), (0x41, 0xFFFD)] (by decide +kernel) h
  simpa only [inRanges, covers, List.any_cons, List.any_nil, Bool.or_false, Bool.or_eq_true, Bool.and_eq_true,
    decide_eq_true_eq] using hin

/-- Digits and marks begin no name. -/
theorem toNat_of_isNameStart (h : isNameStart c) : 0x41 ≤ c.toNat := by
  have hin := inRanges_of_insideRanges [(0x41, 0x10FFFF)] (by decide +kernel) h
  simp only [inRanges, covers, List.any_cons, List.any_nil, Bool.or_false, Bool.and_eq_true,
    decide_eq_true_eq] at hin
  exact hin.1

theorem ne_of_isNameStart {d : Char} (hc : isNameStart c) (hd : d.toNat < 0x41) : c ≠ d := by
  rintro rfl
  have hcode := toNat_of_isNameStart hc
  omega

theorem isNameStart_of_lower (h : 0x61 ≤ c.toNat ∧ c.toNat ≤ 0x7A) : isNameStart c := by
  have hmem : (0x61, 0x7A) ∈ nameStartRanges := .tail _ (.tail _ (.head _))
  exact List.any_eq_true.2 ⟨_, hmem, by simpa [covers] using h⟩

/-- A character that ends every name. -/
theorem isNamePart_eq_false
    (h : ¬(0x2D ≤ c.toNat ∧ c.toNat ≤ 0x2E ∨ 0x30 ≤ c.toNat ∧ c.toNat ≤ 0x39 ∨ 0x41 ≤ c.toNat ∧ c.toNat ≤ 0xFFFD)) :
    isNamePart c = false := by
  rw [Bool.eq_false_iff]
  exact fun hpart => h (toNat_of_isNamePart hpart)

@[simp] theorem isNamePart_colon : isNamePart ':' = false := isNamePart_eq_false (by decide)

@[simp] theorem isNamePart_equals : isNamePart '=' = false := isNamePart_eq_false (by decide)

@[simp] theorem isNamePart_slash : isNamePart '/' = false := isNamePart_eq_false (by decide)

@[simp] theorem isNamePart_greater : isNamePart '>' = false := isNamePart_eq_false (by decide)

@[simp] theorem isNamePart_semicolon : isNamePart ';' = false := isNamePart_eq_false (by decide)

@[simp] theorem isNamePart_space : isNamePart ' ' = false := isNamePart_eq_false (by decide)

theorem isSpace_eq_false_of_isNamePart (h : isNamePart c) : isSpace c = false := by
  rw [Bool.eq_false_iff]
  intro hs
  simp only [isSpace, Bool.or_eq_true, beq_iff_eq] at hs
  have hlt : c.toNat < 0x2D := by
    rcases hs with ((rfl | rfl) | rfl) | rfl <;> decide
  have hcode := toNat_of_isNamePart h
  omega

/-! ## Names -/

/-- The text does not go on a name. -/
def EndsName (rest : List Char) : Prop := ∀ c s, rest = c :: s → isNamePart c = false

/-- The text is a name without a colon. -/
structure IsName (name : List Char) : Prop where
  start : ∃ c s, name = c :: s ∧ isNameStart c
  parts : ∀ c ∈ name, isNamePart c

theorem isName_of_lower {s : List Char} (h : ∀ d ∈ c :: s, 0x61 ≤ d.toNat ∧ d.toNat ≤ 0x7A) : IsName (c :: s) :=
  ⟨⟨c, s, rfl, isNameStart_of_lower (h c (List.mem_cons_self ..))⟩,
    fun d hd => isNamePart_of_isNameStart (isNameStart_of_lower (h d hd))⟩

theorem takeWhile_append_of_endsName (hname : ∀ c ∈ name, isNamePart c) (hrest : EndsName rest) :
    (name ++ rest).takeWhile isNamePart = name ∧ (name ++ rest).dropWhile isNamePart = rest := by
  refine Text.takeWhile_append hname fun c hc => ?_
  obtain ⟨s, hs⟩ := List.head?_eq_some_iff.1 hc
  exact hrest c s hs

/-- A name is taken off the front of a text that does not go it on. -/
theorem takeName_append (hname : IsName name) (hrest : EndsName rest) : takeName (name ++ rest) = .ok (name, rest) := by
  obtain ⟨c, s, rfl, hc⟩ := hname.start
  obtain ⟨htake, hdrop⟩ := takeWhile_append_of_endsName hname.parts hrest
  rw [List.cons_append] at htake hdrop ⊢
  rw [takeName, if_pos hc, htake, hdrop]

/-- What is taken off as a name is one. -/
theorem takeName_eq_ok {s : List Char} (h : takeName s = .ok (name, rest)) :
    IsName name ∧ s = name ++ rest ∧ EndsName rest := by
  cases s with
  | nil => cases h
  | cons c s =>
    rw [takeName] at h
    split at h
    · next hc =>
      cases h
      refine ⟨⟨?_, ?_⟩, ?_, ?_⟩
      · exact ⟨c, s.takeWhile isNamePart, by simp [isNamePart_of_isNameStart hc], hc⟩
      · exact fun d hd => List.all_eq_true.1 (List.all_takeWhile (l := c :: s)) d hd
      · exact (List.takeWhile_append_dropWhile).symm
      · intro d t hd
        have hhead := List.head_dropWhile_not isNamePart (l := c :: s) (by simp [hd])
        simpa [hd] using hhead
    · cases h

/-- The text is a name with at most one colon inside. -/
inductive IsQName : List Char → Prop
  | plain {name : List Char} (h : IsName name) : IsQName name
  | prefixed {p l : List Char} (hp : IsName p) (hl : IsName l) : IsQName (p ++ ':' :: l)

theorem IsQName.start (h : IsQName name) : ∃ c s, name = c :: s ∧ isNameStart c := by
  cases h with
  | plain h => exact h.start
  | @prefixed p l hp _ =>
    obtain ⟨c, s, rfl, hc⟩ := hp.start
    exact ⟨c, s ++ ':' :: l, rfl, hc⟩

theorem IsQName.parts (h : IsQName name) : ∀ c ∈ name, isNamePart c || c == ':' := by
  intro c hc
  cases h with
  | plain h => simp [h.parts c hc]
  | prefixed hp hl =>
    rcases List.mem_append.1 hc with hc | hc
    · simp [hp.parts c hc]
    · rcases List.mem_cons.1 hc with rfl | hc
      · simp
      · simp [hl.parts c hc]

/-- The text neither goes on a name nor gives it a local part. -/
structure EndsQName (rest : List Char) : Prop where
  name : EndsName rest
  colon : ∀ s, rest ≠ ':' :: s

theorem takeQualifiedName_append (hname : IsQName name) (hrest : EndsQName rest) :
    takeQualifiedName (name ++ rest) = .ok (name, rest) := by
  cases hname with
  | plain h =>
    rw [takeQualifiedName, takeName_append h hrest.name]
    dsimp only [bind, Except.bind]
    split
    · next s => exact absurd rfl (hrest.colon s)
    · rfl
  | @prefixed p l hp hl =>
    have hcolon : EndsName (':' :: (l ++ rest)) := by
      intro c s h
      cases h
      exact isNamePart_colon
    rw [takeQualifiedName, List.append_assoc, List.cons_append, takeName_append hp hcolon]
    change (takeName (l ++ rest) >>= fun x => .ok (p ++ ':' :: x.1, x.2)) = _
    rw [takeName_append hl hrest.name]
    rfl

theorem takeQualifiedName_eq_ok {s : List Char} (h : takeQualifiedName s = .ok (name, rest)) : IsQName name := by
  obtain ⟨⟨p, rest'⟩, hp, h⟩ := bind_eq_ok.1 h
  have hpname := (takeName_eq_ok hp).1
  dsimp only at h
  split at h
  · obtain ⟨⟨l, rest''⟩, hl, h⟩ := bind_eq_ok.1 h
    cases h
    exact .prefixed hpname (takeName_eq_ok hl).1
  · cases h
    exact .plain hpname

end Stitchwork.Markup
