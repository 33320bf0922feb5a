/- # Stitchwork.Proofs.Number.Reread — numbers that are written and read again.

A number is written in plain characters, so reading it has nothing to trim and no other digits to replace.  What is
written of a double is a decimal that belongs to it: it is read as the double and never as an integer.
-/
import Mathlib.Tactic.Ring
import Stitchwork.Number.Read
import Stitchwork.Proofs.Number.Shortest
import Stitchwork.Proofs.Text.Pieces

namespace Stitchwork.Number

open Stitchwork.Text

/-! ## Characters -/

/-- The characters of numbers are no blanks, and no digits of another script. -/
theorem isNumberChar_spec {c : Char} (h : isNumberChar c) : isNumberBlank c = false ∧
    (match digitValue? c with
      | some d => Char.ofNat ('0'.toNat + d)
      | none => c) = c := by
  have hcode : c.toNat < 0x80 := by
    simp only [isNumberChar, Bool.or_eq_true, beq_iff_eq] at h
    rcases h with (((((((h | rfl) | rfl) | rfl) | rfl) | rfl) | rfl) | rfl) | rfl
    · have hdigit := isPlainDigit_iff.1 h
      omega
    all_goals decide
  refine forall_of_lt (P := fun c => isNumberChar c → isNumberBlank c = false ∧
    (match digitValue? c with
      | some d => Char.ofNat ('0'.toNat + d)
      | none => c) = c) ?_ hcode h
  decide +kernel

/-- Reading a number finds the text as it is. -/
theorem plainDigits_trimBy {s : List Char} (h : ∀ c ∈ s, isNumberChar c) :
    plainDigits (trimBy isNumberBlank s) = s := by
  rw [trimBy_of_forall fun c hc => (isNumberChar_spec (h c hc)).1, plainDigits]
  exact (List.map_congr_left fun c hc => (isNumberChar_spec (h c hc)).2).trans (List.map_id _)

/-! ## Digits in front -/

/-- What can stand behind digits. -/
def EndsDigits (rest : List Char) : Prop := ∀ c ∈ rest.head?, isPlainDigit c = false ∧ c ≠ '_'

theorem takeDigits_of_endsDigits {rest : List Char} (h : EndsDigits rest) : takeDigits rest = ([], rest) := by
  cases rest with
  | nil => rfl
  | cons c rest =>
    obtain ⟨hdigit, hne⟩ := h c rfl
    unfold takeDigits
    split <;> simp_all

/-- Digits are taken up to what ends them. -/
theorem takeDigits_append {ds rest : List Char} (hds : ∀ c ∈ ds, isPlainDigit c) (hrest : EndsDigits rest) :
    takeDigits (ds ++ rest) = (ds, rest) := by
  induction ds with
  | nil => exact takeDigits_of_endsDigits hrest
  | cons c ds ih =>
    rw [List.forall_mem_cons] at hds
    have hnext : ∀ d after, ds ++ rest ≠ '_' :: d :: after := by
      intro d after heq
      cases ds with
      | nil =>
        rw [List.nil_append] at heq
        exact (hrest '_' (by rw [heq]; rfl)).2 rfl
      | cons e ds =>
        rw [List.cons_append, List.cons.injEq] at heq
        exact ne_of_isPlainDigit (hds.2 e (by simp)) rfl heq.1
    rw [List.cons_append]
    unfold takeDigits
    split
    · next heq => cases heq
    · next heq =>
      rw [List.cons.injEq] at heq
      exact absurd heq.1 (ne_of_isPlainDigit hds.1 rfl)
    · next heq =>
      rw [List.cons.injEq] at heq
      exact absurd heq.2 (hnext _ _)
    · next heq =>
      rw [List.cons.injEq] at heq
      obtain ⟨rfl, rfl⟩ := heq
      rw [if_pos hds.1, ih hds.2]

theorem takeDigits_of_forall {ds : List Char} (hds : ∀ c ∈ ds, isPlainDigit c) : takeDigits ds = (ds, []) := by
  have h : takeDigits (ds ++ []) = (ds, []) := takeDigits_append hds nofun
  rwa [List.append_nil] at h

/-! ## Signs -/

theorem takeSign_of_ne {c : Char} (hminus : c ≠ '-') (hplus : c ≠ '+') (s : List Char) :
    takeSign (c :: s) = (false, c :: s) := by
  unfold takeSign
  split
  · next heq => exact absurd (List.cons.inj heq).1 hminus
  · next heq => exact absurd (List.cons.inj heq).1 hplus
  · rfl

theorem takeSign_of_isPlainDigit {c : Char} (hc : isPlainDigit c) (s : List Char) : takeSign (c :: s) = (false, c :: s) :=
  takeSign_of_ne (ne_of_isPlainDigit hc rfl) (ne_of_isPlainDigit hc rfl) s

/-! ## Integers -/

theorem readInt?_of_digits {ds : List Char} (hds : ∀ c ∈ ds, isPlainDigit c) (hne : ds ≠ []) (hlength : ds.length ≤ maxDigits)
    (neg : Bool) : readInt? (String.ofList (if neg then '-' :: ds else ds)) = some (Binary64.signed neg (digitsValue ds)) := by
  have hchars : ∀ c ∈ (if neg then '-' :: ds else ds), isNumberChar c := by
    intro c hc
    cases neg with
    | false => exact isNumberChar_of_isPlainDigit (hds c hc)
    | true =>
      rcases List.mem_cons.1 hc with rfl | hc
      · rfl
      · exact isNumberChar_of_isPlainDigit (hds c hc)
  have hsign : takeSign (if neg then '-' :: ds else ds) = (neg, ds) := by
    cases neg with
    | true => rfl
    | false =>
      obtain ⟨c, ds, rfl⟩ := List.exists_cons_of_ne_nil hne
      exact takeSign_of_isPlainDigit (hds c (by simp)) ds
  rw [readInt?, String.toList_ofList, plainDigits_trimBy hchars, hsign]
  dsimp only
  rw [takeDigits_of_forall hds]
  obtain ⟨c, ds, rfl⟩ := List.exists_cons_of_ne_nil hne
  dsimp only
  rw [if_neg (by omega)]

theorem signed_natAbs (n : Int) : Binary64.signed (n < 0) n.natAbs = n := by
  rw [Binary64.signed]
  by_cases hn : n < 0
  · rw [if_pos (by simpa using hn)]
    omega
  · rw [if_neg (by simpa using hn)]
    omega

/-- **Integers come back.** -/
theorem readInt?_intText {n : Int} (h : n.natAbs < pow10 maxDigits) : readInt? (intText n) = some n := by
  have hlength : (Nat.toDigits 10 n.natAbs).length ≤ maxDigits := (digitCount_le_iff (by decide)).2 h
  have hread := readInt?_of_digits (fun _ => isPlainDigit_of_mem_toDigits) Nat.toDigits_ne_nil hlength (n < 0)
  rw [digitsValue_toDigits] at hread
  have htext : intText n = String.ofList (if decide (n < 0) then '-' :: Nat.toDigits 10 n.natAbs else Nat.toDigits 10 n.natAbs) := by
    rw [intText]
    by_cases hn : n < 0
    · simp [hn, natText, String.ofList_cons]
    · simp [hn, natText]
  rw [htext, hread, signed_natAbs]

/-! ## Spellings of decimals -/

/-- The ways in which decimals are spelled: digits on both sides of a point, digits with an exponent, or both. -/
inductive Spelled : List Char → Decimal → Prop
  | point (whole part : List Char) : whole ≠ [] → (∀ c ∈ whole, isPlainDigit c) → (∀ c ∈ part, isPlainDigit c) →
      Spelled (whole ++ '.' :: part) ⟨digitsValue (whole ++ part), -part.length⟩
  | scaled (whole : List Char) (e : Int) : whole ≠ [] → (∀ c ∈ whole, isPlainDigit c) →
      Spelled (whole ++ 'e' :: exponentText e) ⟨digitsValue whole, e⟩
  | both (whole part : List Char) (e : Int) : whole ≠ [] → (∀ c ∈ whole, isPlainDigit c) →
      (∀ c ∈ part, isPlainDigit c) →
      Spelled (whole ++ '.' :: (part ++ 'e' :: exponentText e)) ⟨digitsValue (whole ++ part), e - part.length⟩

theorem digitsValue_zero_cons (ds : List Char) : digitsValue ('0' :: ds) = digitsValue ds := by
  rw [digitsValue_cons]
  show 0 * _ + _ = _
  rw [Nat.zero_mul, Nat.zero_add]

theorem endsDigits_nil : EndsDigits [] := nofun

theorem endsDigits_point (s : List Char) : EndsDigits ('.' :: s) := by
  rintro _ ⟨⟩
  decide

theorem endsDigits_exponent (s : List Char) : EndsDigits ('e' :: s) := by
  rintro _ ⟨⟩
  decide

theorem takeExponent_exponentText (e : Int) : takeExponent ('e' :: exponentText e) = some (e, []) := by
  set ds := Nat.toDigits 10 e.natAbs with hds
  have hdigits : ∀ c ∈ (if ds.length < 2 then '0' :: ds else ds), isPlainDigit c := by
    intro c hc
    split at hc
    · rcases List.mem_cons.1 hc with rfl | hc
      · rfl
      · exact isPlainDigit_of_mem_toDigits hc
    · exact isPlainDigit_of_mem_toDigits hc
  have hvalue : digitsValue (if ds.length < 2 then '0' :: ds else ds) = e.natAbs := by
    split
    · rw [digitsValue_zero_cons, hds, digitsValue_toDigits]
    · rw [hds, digitsValue_toDigits]
  have hne : (if ds.length < 2 then '0' :: ds else ds) ≠ [] := by
    split
    · exact List.cons_ne_nil _ _
    · exact Nat.toDigits_ne_nil
  have hsign : takeSign (exponentText e) = (decide (e < 0), if ds.length < 2 then '0' :: ds else ds) := by
    rw [exponentText]
    by_cases he : e < 0
    · rw [if_pos he, decide_eq_true he]
      rfl
    · rw [if_neg he, decide_eq_false he]
      rfl
  rw [takeExponent, if_pos (by decide), hsign]
  dsimp only
  rw [takeDigits_of_forall hdigits]
  obtain ⟨c, cs, heq⟩ := List.exists_cons_of_ne_nil hne
  rw [heq] at hvalue ⊢
  dsimp only
  rw [hvalue, signed_natAbs]

theorem takeDecimal_point {whole part tail : List Char} (hne : whole ≠ []) (hwhole : ∀ c ∈ whole, isPlainDigit c)
    (hpart : ∀ c ∈ part, isPlainDigit c) (htail : EndsDigits tail) {e : Int} (he : takeExponent tail = some (e, [])) :
    takeDecimal (whole ++ '.' :: (part ++ tail)) = some (digitsValue (whole ++ part), e - part.length, []) := by
  have hsome : whole.isEmpty = false := List.isEmpty_eq_false_iff.2 hne
  simp only [takeDecimal, takeDigits_append hwhole (endsDigits_point _), takeDigits_append hpart htail, hsome, he]
  rfl

namespace Spelled

variable {s : List Char} {d : Decimal}

/-- A decimal in one of its spellings is read as it is. -/
theorem takeDecimal_eq (h : Spelled s d) : takeDecimal s = some (d.digits, d.exp, []) := by
  cases h with
  | point whole part hne hwhole hpart =>
    have hread : takeDecimal (whole ++ '.' :: (part ++ [])) = _ :=
      takeDecimal_point hne hwhole hpart endsDigits_nil rfl
    rwa [List.append_nil, Int.zero_sub] at hread
  | scaled whole e hne hwhole =>
    have hsome : whole.isEmpty = false := List.isEmpty_eq_false_iff.2 hne
    simp [takeDecimal, takeDigits_append hwhole (endsDigits_exponent _), hsome, takeExponent_exponentText]
  | both whole part e hne hwhole hpart =>
    exact takeDecimal_point hne hwhole hpart (endsDigits_exponent _) (takeExponent_exponentText e)

/-- A spelling begins with digits, behind which there is something else. -/
theorem exists_digits (h : Spelled s d) : ∃ whole rest, s = whole ++ rest ∧ whole ≠ [] ∧ rest ≠ [] ∧
    (∀ c ∈ whole, isPlainDigit c) ∧ EndsDigits rest := by
  cases h with
  | point whole part hne hwhole _ => exact ⟨whole, _, rfl, hne, List.cons_ne_nil _ _, hwhole, endsDigits_point _⟩
  | scaled whole e hne hwhole => exact ⟨whole, _, rfl, hne, List.cons_ne_nil _ _, hwhole, endsDigits_exponent _⟩
  | both whole part e hne hwhole _ => exact ⟨whole, _, rfl, hne, List.cons_ne_nil _ _, hwhole, endsDigits_point _⟩

end Spelled

/-! ## Decimals as they are laid out -/

theorem value_mul_pow10 (digits k : ℕ) (e : ℤ) : Decimal.value ⟨digits * pow10 k, e⟩ = Decimal.value ⟨digits, e + k⟩ := by
  rw [Decimal.value, Decimal.value]
  dsimp only
  rw [zpow_add₀ (by norm_num), zpow_natCast]
  show ((digits * 10 ^ k : ℕ) : ℚ) * 10 ^ e = _
  push_cast
  ring

theorem forall_replicate_zero (k : ℕ) : ∀ c ∈ List.replicate k '0', isPlainDigit c := by
  intro c hc
  rw [List.eq_of_mem_replicate hc]
  rfl

theorem digitsValue_zeros_append (k : ℕ) (ds : List Char) : digitsValue (List.replicate k '0' ++ ds) = digitsValue ds := by
  induction k with
  | zero => rfl
  | succ k ih => rw [List.replicate_succ, List.cons_append, digitsValue_zero_cons, ih]

/-- What is laid out is a spelling of the decimal. -/
theorem spelled_layout {ds : List Char} (hne : ds ≠ []) (hds : ∀ c ∈ ds, isPlainDigit c) (point : ℤ) :
    ∃ d, Spelled (layout ds point) d ∧ d.value = Decimal.value ⟨digitsValue ds, point - ds.length⟩ := by
  unfold layout
  split
  · split
    · next hsmall =>
      -- All digits stand behind the point, with zeros in front of them.
      have hpart : ∀ c ∈ List.replicate (-point).toNat '0' ++ ds, isPlainDigit c := by
        rw [List.forall_mem_append]
        exact ⟨forall_replicate_zero _, hds⟩
      refine ⟨_, .point ['0'] _ (List.cons_ne_nil _ _) (List.forall_mem_singleton.2 rfl) hpart, ?_⟩
      rw [List.singleton_append, digitsValue_zero_cons, digitsValue_zeros_append, List.length_append, List.length_replicate]
      congr 2
      omega
    · next hlarge =>
      dsimp only
      split
      · next hfits =>
        -- All digits stand in front of the point, with zeros behind them.
        have hwhole : ∀ c ∈ ds ++ List.replicate (point.toNat - ds.length) '0', isPlainDigit c := by
          rw [List.forall_mem_append]
          exact ⟨hds, forall_replicate_zero _⟩
        refine ⟨_, .point _ ['0'] (List.append_ne_nil_of_left_ne_nil hne _) hwhole (List.forall_mem_singleton.2 rfl), ?_⟩
        rw [List.append_assoc, ← List.replicate_succ', digitsValue_replicate_zero, value_mul_pow10]
        congr 2
        rw [List.length_singleton]
        omega
      · next hcut =>
        refine ⟨_, .point _ _ ?_ (fun c hc => hds c (List.mem_of_mem_take hc)) (fun c hc => hds c (List.mem_of_mem_drop hc)), ?_⟩
        · intro hnil
          have hlength := congrArg List.length hnil
          rw [List.length_take, List.length_nil] at hlength
          omega
        · rw [List.take_append_drop, List.length_drop]
          congr 2
          omega
  · split
    · exact absurd rfl hne
    · next c =>
      exact ⟨_, .scaled [c] (point - 1) (List.cons_ne_nil _ _) hds, rfl⟩
    · next c rest _ =>
      rw [List.forall_mem_cons] at hds
      refine ⟨_, .both [c] rest (point - 1) (List.cons_ne_nil _ _) (by simpa using hds.1) hds.2, ?_⟩
      rw [List.singleton_append, List.length_cons]
      congr 2
      omega

/-! ## Decimals of numbers -/

theorem dropTrailingZeros_spec (ds : List Char) : ∃ k, ds = dropTrailingZeros ds ++ List.replicate k '0' := by
  have hzeros : ∀ c ∈ (ds.reverse.takeWhile (· == '0')).reverse, c = '0' := by
    intro c hc
    exact beq_iff_eq.1 (List.all_eq_true.1 List.all_takeWhile c (List.mem_reverse.1 hc))
  refine ⟨(ds.reverse.takeWhile (· == '0')).reverse.length, ?_⟩
  rw [← List.eq_replicate_of_mem hzeros, dropTrailingZeros, ← List.reverse_append, List.takeWhile_append_dropWhile,
    List.reverse_reverse]

/-- The text of a positive decimal is one of its spellings. -/
theorem spelled_text {d : Decimal} (hd : 0 < d.digits) : ∃ d', Spelled d.text d' ∧ d'.value = d.value := by
  obtain ⟨k, hk⟩ := dropTrailingZeros_spec (Nat.toDigits 10 d.digits)
  set ds := dropTrailingZeros (Nat.toDigits 10 d.digits) with hds
  have hvalue : digitsValue ds * pow10 k = d.digits := by
    rw [← digitsValue_replicate_zero, ← hk, digitsValue_toDigits]
  have hne : ds ≠ [] := by
    rintro hnil
    rw [hnil] at hvalue
    simp [digitsValue] at hvalue
    omega
  have hdigits : ∀ c ∈ ds, isPlainDigit c := fun c hc =>
    isPlainDigit_of_mem_dropTrailingZeros (fun _ => isPlainDigit_of_mem_toDigits) hc
  obtain ⟨d', hspelled, hd'⟩ := spelled_layout hne hdigits (d.exp + (Nat.toDigits 10 d.digits).length)
  refine ⟨d', hspelled, hd'.trans ?_⟩
  have hlength : (Nat.toDigits 10 d.digits).length = ds.length + k := by
    have h := congrArg List.length hk
    rwa [List.length_append, List.length_replicate] at h
  obtain ⟨digits, exp⟩ := d
  dsimp only at hvalue hlength ⊢
  rw [hlength, ← hvalue, value_mul_pow10]
  congr 2
  push_cast
  omega

namespace Binary64

variable {expo : Fin 2047} {frac : Fin fracSize}

theorem scaleOf_le (expo : Fin 2047) : scaleOf expo ≤ 971 := by
  have hexpo := expo.isLt
  rw [scaleOf]
  split <;> omega

/-- The ratios that a number owns are neither too large nor too small to be rounded. -/
theorem Owns.bounds (hmant : 0 < mantOf expo frac) {q : ℚ} (h : Owns expo frac q) :
    (10 : ℚ) ^ (-331 : ℤ) < q ∧ q < 10 ^ (310 : ℤ) := by
  have hlow : (2 : ℚ) ^ (scaleOf expo + -1) ≤ q := by
    have hone : (1 : ℚ) ≤ mantOf expo frac := by exact_mod_cast hmant
    have hreach := reachBelow_le expo frac
    rw [zpow_add_le_iff]
    refine le_trans ?_ h.low
    norm_num
    linarith
  have hhigh : q < 2 ^ (scaleOf expo + 54) := by
    have hmant' : (mantOf expo frac : ℚ) + 1 ≤ 2 * fracSize := by exact_mod_cast mantOf_lt expo frac
    rw [lt_zpow_add_iff]
    refine lt_of_le_of_lt h.high ?_
    norm_num at hmant' ⊢
    linarith
  constructor
  · have hnat : 2 ^ 1075 < 10 ^ 331 := by decide +kernel
    have hinv : (10 : ℚ) ^ (-331 : ℤ) < 2 ^ (-1075 : ℤ) := by
      rw [zpow_neg, zpow_neg, inv_lt_inv₀ (by positivity) (by positivity)]
      exact_mod_cast hnat
    refine hinv.trans_le (le_trans (zpow_le_zpow_right₀ (by norm_num) ?_) hlow)
    have hscale := le_scaleOf expo
    omega
  · have hnat : 2 ^ 1025 < 10 ^ 310 := by decide +kernel
    have hpow : (2 : ℚ) ^ (1025 : ℤ) < 10 ^ (310 : ℤ) := by exact_mod_cast hnat
    refine lt_trans (hhigh.trans_le (zpow_le_zpow_right₀ (by norm_num) ?_)) hpow
    have hscale := scaleOf_le expo
    omega

/-- A decimal, as the ratio that is rounded. -/
theorem ratio_eq_value (d : Decimal) :
    ((d.digits * pow10 d.exp.toNat : ℕ) : ℚ) / (pow10 (-d.exp).toNat : ℕ) = d.value := by
  have hpow : (pow10 (-d.exp).toNat : ℚ) ≠ 0 := Nat.cast_ne_zero.2 (pow10_pos _).ne'
  rw [Decimal.value]
  push_cast
  rw [pow10_toNat d.exp]
  field_simp

/-- A decimal that belongs to a number is rounded to it. -/
theorem ofDecimal_of_owns (neg : Bool) (hmant : 0 < mantOf expo frac) {d : Decimal} (h : Owns expo frac d.value) :
    ofDecimal neg d.digits d.exp = .finite neg expo frac := by
  have hdigits := Decimal.digits_pos (h.pos hmant)
  obtain ⟨hlow, hhigh⟩ := h.bounds hmant
  obtain ⟨hcount, hcount'⟩ := digitCount_bounds hdigits
  have hexp : (0 : ℚ) < 10 ^ d.exp := by positivity
  have hlarge : d.exp + digitCount d.digits ≤ 310 := by
    have hle : (10 : ℚ) ^ ((digitCount d.digits : ℤ) - 1 + d.exp) ≤ d.value := by
      rw [zpow_add₀ (by norm_num)]
      exact mul_le_mul_of_nonneg_right hcount hexp.le
    have hlt := hle.trans_lt hhigh
    rw [zpow_lt_zpow_iff_right₀ (by norm_num)] at hlt
    omega
  have hsmall : -331 < d.exp + digitCount d.digits := by
    have hlt : d.value < (10 : ℚ) ^ ((digitCount d.digits : ℤ) + d.exp) := by
      rw [zpow_add₀ (by norm_num)]
      exact mul_lt_mul_of_pos_right hcount' hexp
    have hlt' := hlow.trans hlt
    rw [zpow_lt_zpow_iff_right₀ (by norm_num)] at hlt'
    omega
  rw [ofDecimal, if_neg hdigits.ne']
  dsimp only
  rw [if_neg (by omega), if_neg (by omega)]
  apply ofRatio_of_owns neg (Nat.mul_pos hdigits (pow10_pos _)) (pow10_pos _)
  rw [ratio_eq_value]
  exact h

/-! ## Numbers as they are written -/

/-- The text of a finite number but zero, without its sign, spells a decimal that belongs to the number. -/
theorem spelled_magnitudeText (neg : Bool) (hmant : 0 < mantOf expo frac) :
    ∃ d, Spelled (magnitudeText (.finite neg expo frac)) d ∧ Owns expo frac d.value := by
  have howns := owns_shortest hmant
  obtain ⟨d, hspelled, hvalue⟩ := spelled_text (Decimal.digits_pos (howns.pos hmant))
  have hnonzero : ¬(expo.val = 0 && frac.val = 0) := by
    intro hzero
    rw [Bool.and_eq_true, decide_eq_true_iff, decide_eq_true_iff] at hzero
    rw [mantOf, if_pos hzero.1, hzero.2] at hmant
    exact Nat.lt_irrefl 0 hmant
  refine ⟨d, ?_, hvalue ▸ howns⟩
  rw [magnitudeText, if_neg hnonzero]
  exact hspelled

/-- A number is a special one, or the rest of its text is spelled behind its sign. -/
theorem text_cases (x : Binary64) :
    (x = .nan ∨ ∃ neg, x = .inf neg ∨ x = zero neg) ∨
    ∃ neg expo frac d, x = .finite neg expo frac ∧ 0 < mantOf expo frac ∧ Owns expo frac d.value ∧
      ∃ body, Spelled body d ∧ x.text = String.ofList (if neg then '-' :: body else body) := by
  cases x with
  | nan => exact .inl (.inl rfl)
  | inf neg => exact .inl (.inr ⟨neg, .inl rfl⟩)
  | finite neg expo frac =>
    rcases Nat.eq_zero_or_pos (mantOf expo frac) with hzero | hmant
    · refine .inl (.inr ⟨neg, .inr ?_⟩)
      rw [mantOf] at hzero
      split at hzero
      · next hexpo =>
        obtain rfl : expo = 0 := Fin.ext hexpo
        obtain rfl : frac = 0 := Fin.ext hzero
        rfl
      · omega
    · obtain ⟨d, hspelled, howns⟩ := spelled_magnitudeText neg hmant
      exact .inr ⟨neg, expo, frac, d, rfl, hmant, howns, _, hspelled, rfl⟩

/-- What reading finds of a number that is no special one: its sign, and the spelling behind it. -/
theorem takeSign_text {x : Binary64} {neg : Bool} {body : List Char} {d : Decimal} (h : Spelled body d)
    (htext : x.text = String.ofList (if neg then '-' :: body else body)) :
    takeSign (plainDigits (trimBy isNumberBlank x.text.toList)) = (neg, body) := by
  rw [plainDigits_trimBy fun c => isNumberChar_of_mem_text, htext, String.toList_ofList]
  cases neg with
  | true => rfl
  | false =>
    obtain ⟨whole, rest, rfl, hne, -, hwhole, -⟩ := h.exists_digits
    obtain ⟨c, cs, rfl⟩ := List.exists_cons_of_ne_nil hne
    exact takeSign_of_isPlainDigit (hwhole c (by simp)) _

/-- **Doubles are not written like integers.** -/
theorem readInt?_text (x : Binary64) : readInt? x.text = none := by
  rcases text_cases x with (rfl | ⟨neg, rfl | rfl⟩) | ⟨neg, expo, frac, d, -, -, -, body, hspelled, htext⟩
  · decide +kernel
  · cases neg <;> decide +kernel
  · cases neg <;> decide +kernel
  · obtain ⟨whole, rest, rfl, hne, hrest, hwhole, hends⟩ := hspelled.exists_digits
    obtain ⟨c, cs, rfl⟩ := List.exists_cons_of_ne_nil hne
    obtain ⟨r, rs, rfl⟩ := List.exists_cons_of_ne_nil hrest
    rw [readInt?, takeSign_text hspelled htext]
    dsimp only
    rw [takeDigits_append hwhole hends]

theorem lowerSimple_of_isPlainDigit {c : Char} (h : isPlainDigit c) : lowerSimple c = c := by
  have hcode := isPlainDigit_iff.1 h
  refine forall_of_lt (P := fun c => isPlainDigit c → lowerSimple c = c) ?_ (by omega) h
  decide +kernel

/-- A spelling is none of the words for special numbers. -/
theorem word_ne {body : List Char} {d : Decimal} (h : Spelled body d) {w : String}
    (hw : w.toList.head?.any isPlainDigit = false) : (String.ofList (body.map lowerSimple) == w) = false := by
  obtain ⟨whole, rest, rfl, hne, -, hwhole, -⟩ := h.exists_digits
  obtain ⟨c, cs, rfl⟩ := List.exists_cons_of_ne_nil hne
  have hc : isPlainDigit c := hwhole c (by simp)
  rw [beq_eq_false_iff_ne]
  rintro rfl
  have hfalse : isPlainDigit (lowerSimple c) = false := by simpa using hw
  rw [lowerSimple_of_isPlainDigit hc, hc] at hfalse
  cases hfalse

/-- **Doubles come back.** -/
theorem readBinary64?_text (x : Binary64) : readBinary64? x.text = some x := by
  rcases text_cases x with (rfl | ⟨neg, rfl | rfl⟩) | ⟨neg, expo, frac, d, hx, hmant, howns, body, hspelled, htext⟩
  · decide +kernel
  · cases neg <;> decide +kernel
  · cases neg <;> decide +kernel
  · rw [readBinary64?, takeSign_text hspelled htext]
    dsimp only
    rw [word_ne hspelled (by decide), word_ne hspelled (by decide), word_ne hspelled (by decide), hspelled.takeDecimal_eq]
    dsimp only
    rw [ofDecimal_of_owns neg hmant howns, hx]
    rfl

end Binary64

end Stitchwork.Number
