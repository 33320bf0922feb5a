/- # Stitchwork.Proofs.Number.Digits — decimal digits and the characters of written numbers.
-/
import Stitchwork.Number.Read

namespace Stitchwork.Number

open Stitchwork.Text

variable {c : Char} {ds : List Char}

/-! ## Digits -/

theorem isPlainDigit_iff : isPlainDigit c ↔ 48 ≤ c.toNat ∧ c.toNat ≤ 57 := by
  simp only [isPlainDigit, Bool.and_eq_true, decide_eq_true_eq, Char.le_def, UInt32.le_iff_toNat_le]
  exact Iff.rfl

theorem ne_of_isPlainDigit {d : Char} (hc : isPlainDigit c) (hd : isPlainDigit d = false) : c ≠ d := by
  rintro rfl
  rw [hd] at hc
  cases hc

theorem isPlainDigit_of_mem_toDigits {n : Nat} (h : c ∈ Nat.toDigits 10 n) : isPlainDigit c :=
  Nat.isDigit_of_mem_toDigits (by decide) (by decide) h

theorem digitsValue_eq_ofDigitChars (ds : List Char) : digitsValue ds = Nat.ofDigitChars 10 ds 0 := by
  rw [Nat.ofDigitChars_eq_foldl]
  rfl

/-- The digits of a number say the number. -/
@[simp] theorem digitsValue_toDigits (n : Nat) : digitsValue (Nat.toDigits 10 n) = n := by
  rw [digitsValue_eq_ofDigitChars, Nat.ofDigitChars_ten_toDigits]

theorem digitsValue_append (ds es : List Char) :
    digitsValue (ds ++ es) = digitsValue ds * pow10 es.length + digitsValue es := by
  rw [digitsValue_eq_ofDigitChars, Nat.ofDigitChars_append, Nat.ofDigitChars_eq_ofDigitChars_zero,
    ← digitsValue_eq_ofDigitChars, ← digitsValue_eq_ofDigitChars, Nat.mul_comm]
  rfl

theorem digitsValue_cons (c : Char) (ds : List Char) :
    digitsValue (c :: ds) = plainDigit c * pow10 ds.length + digitsValue ds := by
  have h := digitsValue_append [c] ds
  rwa [List.singleton_append, show digitsValue [c] = plainDigit c by simp [digitsValue]] at h

theorem pow10_le_pow10 {m n : Nat} (h : m ≤ n) : pow10 m ≤ pow10 n := Nat.pow_le_pow_right (by decide) h

theorem digitsValue_lt (h : ∀ c ∈ ds, isPlainDigit c) : digitsValue ds < pow10 ds.length := by
  induction ds with
  | nil => simp [digitsValue]
  | cons c ds ih =>
    rw [List.forall_mem_cons] at h
    have hdigit : plainDigit c ≤ 9 := by
      have hc := isPlainDigit_iff.1 h.1
      change c.toNat - 48 ≤ 9
      omega
    have hrest := ih h.2
    rw [digitsValue_cons, List.length_cons, pow10_succ]
    calc plainDigit c * pow10 ds.length + digitsValue ds
        < 9 * pow10 ds.length + pow10 ds.length :=
          Nat.add_lt_add_of_le_of_lt (Nat.mul_le_mul_right _ hdigit) hrest
      _ = pow10 ds.length * 10 := by omega

/-- A number has no more digits than it was read from. -/
theorem length_toDigits_digitsValue (hds : ∀ c ∈ ds, isPlainDigit c) {k : Nat} (hk : 0 < k) (h : ds.length ≤ k) :
    (Nat.toDigits 10 (digitsValue ds)).length ≤ k := by
  rw [Nat.length_toDigits_le_iff (by decide) hk]
  exact Nat.lt_of_lt_of_le (digitsValue_lt hds) (Nat.pow_le_pow_right (by decide) h)

theorem digitsValue_replicate_zero (ds : List Char) (k : Nat) :
    digitsValue (ds ++ List.replicate k '0') = digitsValue ds * pow10 k := by
  rw [digitsValue_eq_ofDigitChars, Nat.ofDigitChars_append, Nat.ofDigitChars_replicate_zero,
    ← digitsValue_eq_ofDigitChars, Nat.mul_comm]
  rfl

/-! ## Characters of written numbers -/

/-- The characters that numbers are written with. -/
def isNumberChar (c : Char) : Bool :=
  isPlainDigit c || c == '-' || c == '+' || c == '.' || c == 'e' || c == 'i' || c == 'n' || c == 'f' || c == 'a'

theorem isNumberChar_of_isPlainDigit (h : isPlainDigit c) : isNumberChar c := by
  simp [isNumberChar, h]

theorem isNumberChar_of_mem_natText {n : Nat} (h : c ∈ (natText n).toList) : isNumberChar c := by
  rw [natText, String.toList_ofList] at h
  exact isNumberChar_of_isPlainDigit (isPlainDigit_of_mem_toDigits h)

theorem isNumberChar_of_mem_intText {n : Int} (h : c ∈ (intText n).toList) : isNumberChar c := by
  rw [intText] at h
  split at h
  · rw [String.toList_append, List.mem_append] at h
    rcases h with h | h
    · rw [List.mem_singleton.1 h]
      rfl
    · exact isNumberChar_of_mem_natText h
  · exact isNumberChar_of_mem_natText h

theorem isPlainDigit_of_mem_dropTrailingZeros (hds : ∀ c ∈ ds, isPlainDigit c) (h : c ∈ dropTrailingZeros ds) :
    isPlainDigit c := by
  rw [dropTrailingZeros, List.mem_reverse] at h
  exact hds c (List.mem_reverse.1 ((List.dropWhile_sublist _).subset h))

theorem isNumberChar_of_mem_exponentText {e : Int} (h : c ∈ exponentText e) : isNumberChar c := by
  have hdigit : ∀ d ∈ Nat.toDigits 10 e.natAbs, isNumberChar d := fun d hd =>
    isNumberChar_of_isPlainDigit (isPlainDigit_of_mem_toDigits hd)
  rw [exponentText] at h
  rcases List.mem_cons.1 h with rfl | h
  · split <;> rfl
  · split at h
    · rcases List.mem_cons.1 h with rfl | h
      · rfl
      · exact hdigit c h
    · exact hdigit c h

theorem isNumberChar_of_mem_layout (hds : ∀ c ∈ ds, isPlainDigit c) {point : Int} (h : c ∈ layout ds point) :
    isNumberChar c := by
  have hdigit : ∀ d ∈ ds, isNumberChar d := fun d hd => isNumberChar_of_isPlainDigit (hds d hd)
  have hzero : ∀ n, c ∈ List.replicate n '0' → isNumberChar c := by
    intro n hc
    rw [List.eq_of_mem_replicate hc]
    rfl
  unfold layout at h
  split at h
  · -- the point stands in front of the digits, behind them or among them
    split at h
    · simp only [List.mem_cons, List.mem_append] at h
      rcases h with rfl | rfl | h | h
      · rfl
      · rfl
      · exact hzero _ h
      · exact hdigit c h
    · dsimp only at h
      split at h
      · simp only [List.mem_append, List.mem_cons, List.not_mem_nil, or_false] at h
        rcases h with (h | h) | rfl | rfl
        · exact hdigit c h
        · exact hzero _ h
        · rfl
        · rfl
      · simp only [List.mem_append, List.mem_cons] at h
        rcases h with h | rfl | h
        · exact hdigit c (List.mem_of_mem_take h)
        · rfl
        · exact hdigit c (List.mem_of_mem_drop h)
  · split at h
    · cases h
    · next d =>
      simp only [List.mem_cons] at h
      rcases h with rfl | rfl | h
      · exact hdigit _ (by simp)
      · rfl
      · exact isNumberChar_of_mem_exponentText h
    · next d rest _ =>
      simp only [List.mem_cons, List.mem_append] at h
      rcases h with rfl | rfl | h | rfl | h
      · exact hdigit _ (by simp)
      · rfl
      · exact hdigit c (by simp [h])
      · rfl
      · exact isNumberChar_of_mem_exponentText h

/-- A number is written in a few characters only. -/
theorem isNumberChar_of_mem_text {x : Binary64} (h : c ∈ x.text.toList) : isNumberChar c := by
  have hmagnitude : c ∈ x.magnitudeText → isNumberChar c := by
    intro h
    unfold Binary64.magnitudeText at h
    split at h
    · exact List.all_eq_true.1 (by decide : ['n', 'a', 'n'].all isNumberChar) c h
    · exact List.all_eq_true.1 (by decide : ['i', 'n', 'f'].all isNumberChar) c h
    · split at h
      · exact List.all_eq_true.1 (by decide : ['0', '.', '0'].all isNumberChar) c h
      · rw [Decimal.text] at h
        refine isNumberChar_of_mem_layout (fun d hd => ?_) h
        exact isPlainDigit_of_mem_dropTrailingZeros (fun _ => isPlainDigit_of_mem_toDigits) hd
  rw [Binary64.text, String.toList_ofList] at h
  split at h
  · rcases List.mem_cons.1 h with rfl | h
    · rfl
    · exact hmagnitude h
  · exact hmagnitude h

end Stitchwork.Number
