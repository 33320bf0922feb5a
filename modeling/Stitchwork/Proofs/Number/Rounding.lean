/- # Stitchwork.Proofs.Number.Rounding — which ratios round to a number.

A finite number owns the ratios that lie no further than half a step from it, and at the ends of this range it owns
them only if its mantissa is even.  Below a power of two the steps are half as long, and so is the range.  Rounding
a ratio gives the number that owns it.
-/
import Mathlib.Algebra.Order.Field.Power
import Mathlib.Algebra.Order.Field.Rat
import Mathlib.Tactic.FieldSimp
import Mathlib.Tactic.Linarith
import Mathlib.Tactic.Positivity
import Stitchwork.Number.Shortest

namespace Stitchwork.Number

variable {num den : ℕ} {expo : Fin 2047} {frac : Fin fracSize}

/-! ## Powers with integer exponents -/

/-- A power with an integer exponent, as a ratio of powers with natural exponents. -/
theorem natPow_toNat {b : ℕ} (hb : b ≠ 0) (e : ℤ) :
    ((b ^ e.toNat : ℕ) : ℚ) = (b : ℚ) ^ e * ((b ^ (-e).toNat : ℕ) : ℚ) := by
  have hb' : (b : ℚ) ≠ 0 := Nat.cast_ne_zero.2 hb
  rcases le_total 0 e with h | h
  · obtain ⟨n, rfl⟩ := Int.eq_ofNat_of_zero_le h
    simp
  · obtain ⟨n, hn⟩ := Int.eq_ofNat_of_zero_le (neg_nonneg.2 h)
    obtain rfl : e = -n := by omega
    simp [hb']

theorem pow2_toNat (e : ℤ) : (pow2 e.toNat : ℚ) = 2 ^ e * pow2 (-e).toNat := natPow_toNat two_ne_zero e

theorem pow10_toNat (e : ℤ) : (pow10 e.toNat : ℚ) = 10 ^ e * pow10 (-e).toNat := natPow_toNat (by decide) e

/-- Scaling by a power of two, carried out on the numerator or on the denominator. -/
theorem scaled_ratio (num den : ℕ) (e : ℤ) :
    ((num * pow2 (-e).toNat : ℕ) : ℚ) / (den * pow2 e.toNat : ℕ) = num / den / 2 ^ e := by
  have hpos : (pow2 (-e).toNat : ℚ) ≠ 0 := Nat.cast_ne_zero.2 (pow2_pos _).ne'
  have htwo : (2 : ℚ) ^ e ≠ 0 := by positivity
  push_cast
  rw [pow2_toNat e]
  field_simp

/-- A comparison with a power of two, by cross-multiplication. -/
theorem zpow_le_ratio (hden : 0 < den) (e : ℤ) :
    den * pow2 e.toNat ≤ num * pow2 (-e).toNat ↔ (2 : ℚ) ^ e ≤ num / den := by
  have hden' : (0 : ℚ) < den := Nat.cast_pos.2 hden
  have hpos : (0 : ℚ) < pow2 (-e).toNat := Nat.cast_pos.2 (pow2_pos _)
  rw [le_div_iff₀ hden', ← Nat.cast_le (α := ℚ)]
  push_cast
  rw [pow2_toNat e, ← mul_assoc, mul_le_mul_iff_left₀ hpos, mul_comm]

namespace Binary64

/-! ## The exponent of a ratio -/

theorem log2_bounds {n : ℕ} (hn : 0 < n) : (2 : ℚ) ^ (n.log2 : ℤ) ≤ n ∧ (n : ℚ) < 2 ^ ((n.log2 : ℤ) + 1) := by
  constructor
  · rw [zpow_natCast]
    exact_mod_cast Nat.log2_self_le hn.ne'
  · have hlt : n < 2 ^ (n.log2 + 1) := Nat.lt_log2_self
    exact_mod_cast hlt

/-- The exponent of a ratio says between which powers of two it lies. -/
theorem binaryExponent_spec (hnum : 0 < num) (hden : 0 < den) :
    (2 : ℚ) ^ binaryExponent num den ≤ num / den ∧ (num : ℚ) / den < 2 ^ (binaryExponent num den + 1) := by
  obtain ⟨hnum₁, hnum₂⟩ := log2_bounds hnum
  obtain ⟨hden₁, hden₂⟩ := log2_bounds hden
  have hden' : (0 : ℚ) < den := Nat.cast_pos.2 hden
  set e : ℤ := (num.log2 : ℤ) - den.log2 with he
  have hlow : (2 : ℚ) ^ (e - 1) ≤ num / den := by
    have hsplit : (2 : ℚ) ^ (e - 1) = 2 ^ (num.log2 : ℤ) / 2 ^ ((den.log2 : ℤ) + 1) := by
      rw [← zpow_sub₀ two_ne_zero, he]
      congr 1
      omega
    rw [hsplit]
    exact div_le_div₀ (by positivity) hnum₁ hden' hden₂.le
  have hhigh : (num : ℚ) / den < 2 ^ (e + 1) := by
    have hsplit : (2 : ℚ) ^ (e + 1) = 2 ^ ((num.log2 : ℤ) + 1) / 2 ^ (den.log2 : ℤ) := by
      rw [← zpow_sub₀ two_ne_zero, he]
      congr 1
      omega
    rw [hsplit]
    exact div_lt_div₀ hnum₂ hden₁ (by positivity) (by positivity)
  rw [binaryExponent]
  by_cases h : den * pow2 e.toNat ≤ num * pow2 (-e).toNat
  · rw [if_pos h]
    exact ⟨(zpow_le_ratio hden e).1 h, hhigh⟩
  · rw [if_neg h, sub_add_cancel]
    exact ⟨hlow, not_le.1 fun hle => h ((zpow_le_ratio hden e).2 hle)⟩

/-- The exponent of a ratio that is not below a power of two. -/
theorem le_binaryExponent (hnum : 0 < num) (hden : 0 < den) {e : ℤ} (h : (2 : ℚ) ^ e ≤ num / den) :
    e ≤ binaryExponent num den := by
  have hlt := h.trans_lt (binaryExponent_spec hnum hden).2
  rw [zpow_lt_zpow_iff_right₀ one_lt_two] at hlt
  omega

theorem binaryExponent_lt (hnum : 0 < num) (hden : 0 < den) {e : ℤ} (h : (num : ℚ) / den < 2 ^ e) :
    binaryExponent num den < e := by
  have hlt := (binaryExponent_spec hnum hden).1.trans_lt h
  rwa [zpow_lt_zpow_iff_right₀ one_lt_two] at hlt

/-! ## Rounding to an integer -/

/-- A ratio that lies no further than a half from an integer is rounded to it, from the middle if it is even. -/
theorem divHalfEven_eq {a b m : ℕ} (hb : 0 < b) (hlow : 2 * (m * b) ≤ 2 * a + b) (hhigh : 2 * a ≤ 2 * (m * b) + b)
    (htie : m % 2 = 0 ∨ 2 * (m * b) < 2 * a + b ∧ 2 * a < 2 * (m * b) + b) : divHalfEven a b = m := by
  have hdiv : b * (a / b) + a % b = a := Nat.div_add_mod a b
  have hmod : a % b < b := Nat.mod_lt a hb
  rw [mul_comm] at hdiv
  have hle : a / b ≤ m := by
    by_contra h
    have hmul : (m + 1) * b ≤ a / b * b := Nat.mul_le_mul_right b (by omega)
    rw [Nat.add_mul] at hmul
    omega
  have hge : m ≤ a / b + 1 := by
    by_contra h
    have hmul : (a / b + 2) * b ≤ m * b := Nat.mul_le_mul_right b (by omega)
    rw [Nat.add_mul] at hmul
    omega
  unfold divHalfEven
  obtain rfl | rfl : m = a / b ∨ m = a / b + 1 := by omega
  · dsimp only
    split
    · rfl
    · rw [if_neg (by omega), if_pos (by simp; omega)]
  · rw [Nat.add_mul, Nat.one_mul] at hlow hhigh htie
    dsimp only
    rw [if_neg (by omega)]
    split
    · rfl
    · rw [if_neg (by simp; omega)]

/-- The same, said of the ratio itself. -/
theorem divHalfEven_of_ratio {a b m : ℕ} (hb : 0 < b) (hlow : (m : ℚ) - 1 / 2 ≤ a / b) (hhigh : (a : ℚ) / b ≤ m + 1 / 2)
    (htie : m % 2 = 0 ∨ (m : ℚ) - 1 / 2 < a / b ∧ (a : ℚ) / b < m + 1 / 2) : divHalfEven a b = m := by
  have hb' : (0 : ℚ) < b := Nat.cast_pos.2 hb
  rw [le_div_iff₀ hb'] at hlow
  rw [div_le_iff₀ hb'] at hhigh
  rw [lt_div_iff₀ hb', div_lt_iff₀ hb'] at htie
  apply divHalfEven_eq hb
  · exact_mod_cast (by linarith : (2 : ℚ) * (m * b) ≤ 2 * a + b)
  · exact_mod_cast (by linarith : (2 : ℚ) * a ≤ 2 * (m * b) + b)
  · refine htie.imp_right fun ⟨h₁, h₂⟩ => ⟨?_, ?_⟩
    · exact_mod_cast (by linarith : (2 : ℚ) * (m * b) < 2 * a + b)
    · exact_mod_cast (by linarith : (2 : ℚ) * a < 2 * (m * b) + b)

/-! ## The ratios that a number owns -/

/-- How far the ratios that a number owns go below it, in units of its last place.  From a power of two down, the
steps are half as long. -/
def reachBelow (expo : Fin 2047) (frac : Fin fracSize) : ℚ := if frac.val = 0 ∧ 1 < expo.val then 1 / 4 else 1 / 2

/-- The number owns the ratio: it is the nearest one, and the even one from the middle. -/
structure Owns (expo : Fin 2047) (frac : Fin fracSize) (q : ℚ) : Prop where
  low : mantOf expo frac - reachBelow expo frac ≤ q / 2 ^ scaleOf expo
  high : q / 2 ^ scaleOf expo ≤ mantOf expo frac + 1 / 2
  ends : mantOf expo frac % 2 = 0 ∨
    mantOf expo frac - reachBelow expo frac < q / 2 ^ scaleOf expo ∧ q / 2 ^ scaleOf expo < mantOf expo frac + 1 / 2

theorem mantOf_lt (expo : Fin 2047) (frac : Fin fracSize) : mantOf expo frac < 2 * fracSize := by
  have hfrac := frac.isLt
  rw [mantOf]
  split <;> omega

theorem le_scaleOf (expo : Fin 2047) : -1074 ≤ scaleOf expo := by
  rw [scaleOf]
  split <;> omega

/-- Above the least scale, mantissas have all their digits. -/
theorem le_mantOf (h : -1074 < scaleOf expo) (frac : Fin fracSize) :
    1 < expo.val ∧ mantOf expo frac = fracSize + frac.val := by
  rw [scaleOf] at h
  split at h
  · omega
  · next hexpo => exact ⟨by omega, if_neg hexpo⟩

/-- A number is packed as itself. -/
theorem pack_mantOf (neg : Bool) (expo : Fin 2047) (frac : Fin fracSize) :
    pack neg (mantOf expo frac) (scaleOf expo) = .finite neg expo frac := by
  have hexpo := expo.isLt
  have hfrac := frac.isLt
  rw [pack, mantOf, scaleOf]
  by_cases hzero : expo.val = 0
  · have hself : Fin.ofNat fracSize frac.val = frac := Fin.ext (Nat.mod_eq_of_lt hfrac)
    have hfirst : expo = 0 := Fin.ext hzero
    rw [if_pos hzero, if_pos hfrac, hself, hfirst]
  · rw [if_neg hzero, if_neg hzero, if_neg (by omega)]
    dsimp only
    have hself : Fin.ofNat fracSize (fracSize + frac.val - fracSize) = frac := by
      apply Fin.ext
      show (fracSize + frac.val - fracSize) % fracSize = frac.val
      rw [Nat.add_sub_cancel_left, Nat.mod_eq_of_lt hfrac]
    have hback : Fin.ofNat 2047 ((expo.val : ℤ) - 1075 + 1075).toNat = expo := by
      apply Fin.ext
      show ((expo.val : ℤ) - 1075 + 1075).toNat % 2047 = expo.val
      omega
    rw [if_pos (show fracSize + frac.val < 2 * fracSize by omega), if_pos (by omega), hself, hback]

/-- A power of two is also packed as itself from the scale below. -/
theorem pack_doubled (neg : Bool) (hexpo : 1 < expo.val) (hfrac : frac.val = 0) :
    pack neg (2 * fracSize) (scaleOf expo - 1) = .finite neg expo frac := by
  have hlt := expo.isLt
  have hself : Fin.ofNat fracSize (2 * fracSize - fracSize) = frac := by
    apply Fin.ext
    rw [hfrac]
    rfl
  have hback : Fin.ofNat 2047 ((expo.val : ℤ) - 1075 - 1 + 1076).toNat = expo := by
    apply Fin.ext
    show ((expo.val : ℤ) - 1075 - 1 + 1076).toNat % 2047 = expo.val
    omega
  rw [pack, scaleOf, if_neg (by omega : ¬expo.val = 0), if_neg (by decide)]
  dsimp only
  rw [if_neg (Nat.lt_irrefl _), if_pos (by omega), hself, hback]

/-- Half a step below a number is at most a half. -/
theorem reachBelow_le (expo : Fin 2047) (frac : Fin fracSize) : reachBelow expo frac ≤ 1 / 2 := by
  rw [reachBelow]
  split
  · norm_num
  · exact le_rfl

theorem lt_zpow_add_iff {q : ℚ} {s k : ℤ} : q < 2 ^ (s + k) ↔ q / 2 ^ s < 2 ^ k := by
  rw [zpow_add₀ two_ne_zero, div_lt_iff₀ (by positivity), mul_comm]

theorem zpow_add_le_iff {q : ℚ} {s k : ℤ} : (2 : ℚ) ^ (s + k) ≤ q ↔ 2 ^ k ≤ q / 2 ^ s := by
  rw [zpow_add₀ two_ne_zero, le_div_iff₀ (by positivity), mul_comm]

/-- Rounding at the scale of the number gives its mantissa. -/
theorem divHalfEven_of_owns (hden : 0 < den) (h : Owns expo frac (num / den)) :
    divHalfEven (num * pow2 (-scaleOf expo).toNat) (den * pow2 (scaleOf expo).toNat) = mantOf expo frac := by
  have hreach := reachBelow_le expo frac
  apply divHalfEven_of_ratio (Nat.mul_pos hden (pow2_pos _))
  · rw [scaled_ratio]
    linarith [h.low]
  · rw [scaled_ratio]
    exact h.high
  · rw [scaled_ratio]
    exact h.ends.imp_right fun ⟨hlow, hhigh⟩ => ⟨by linarith, hhigh⟩

/-- Just below a power of two, rounding goes up to it. -/
theorem divHalfEven_doubled (hden : 0 < den) {s : ℤ} (hlow : (fracSize : ℚ) - 1 / 4 ≤ num / den / 2 ^ s)
    (hhigh : (num : ℚ) / den / 2 ^ s < fracSize) :
    divHalfEven (num * pow2 (-(s - 1)).toNat) (den * pow2 (s - 1).toNat) = 2 * fracSize := by
  have hhalf : (num : ℚ) / den / 2 ^ (s - 1) = num / den / 2 ^ s * 2 := by
    rw [zpow_sub₀ two_ne_zero, zpow_one]
    field_simp
  apply divHalfEven_of_ratio (Nat.mul_pos hden (pow2_pos _))
  · rw [scaled_ratio, hhalf]
    push_cast
    linarith
  · rw [scaled_ratio, hhalf]
    push_cast
    linarith
  · exact .inl (by decide)

/-- **Rounding gives the number that owns the ratio.** -/
theorem ofRatio_of_owns (neg : Bool) (hnum : 0 < num) (hden : 0 < den) (h : Owns expo frac (num / den)) :
    ofRatio neg num den = .finite neg expo frac := by
  have hscale := le_scaleOf expo
  have hmant : (mantOf expo frac : ℚ) + 1 ≤ 2 * fracSize := by exact_mod_cast mantOf_lt expo frac
  have habove : binaryExponent num den < scaleOf expo + 53 := by
    apply binaryExponent_lt hnum hden
    rw [lt_zpow_add_iff]
    refine lt_of_le_of_lt h.high ?_
    norm_num at hmant ⊢
    linarith
  rw [ofRatio, if_neg hnum.ne']
  dsimp only
  by_cases hsame : max (binaryExponent num den - 52) (-1074) = scaleOf expo
  · rw [hsame, divHalfEven_of_owns hden h, pack_mantOf]
  · -- The ratio lies just below a power of two, where the steps are half as long.
    have hbelow : (num : ℚ) / den / 2 ^ scaleOf expo < fracSize := by
      by_contra hle
      rw [not_lt] at hle
      have hexponent : scaleOf expo + 52 ≤ binaryExponent num den := by
        apply le_binaryExponent hnum hden
        rw [zpow_add_le_iff]
        norm_num at hle ⊢
        exact hle
      omega
    have hdeep : -1074 < scaleOf expo := by omega
    obtain ⟨hexpo, hfull⟩ := le_mantOf hdeep frac
    have hfrac : frac.val = 0 := by
      have hreach := reachBelow_le expo frac
      have htop := h.low.trans_lt hbelow
      have hlt : (mantOf expo frac : ℚ) < fracSize + 1 := by linarith only [htop, hreach]
      have hlt' : mantOf expo frac < fracSize + 1 := by exact_mod_cast hlt
      omega
    have hlow : (fracSize : ℚ) - 1 / 4 ≤ num / den / 2 ^ scaleOf expo := by
      have hlow := h.low
      rw [hfull, hfrac, reachBelow, if_pos ⟨hfrac, hexpo⟩] at hlow
      exact_mod_cast hlow
    have hexponent : scaleOf expo + 51 ≤ binaryExponent num den := by
      apply le_binaryExponent hnum hden
      rw [zpow_add_le_iff]
      norm_num at hlow ⊢
      linarith
    have hdown : max (binaryExponent num den - 52) (-1074) = scaleOf expo - 1 := by omega
    rw [hdown, divHalfEven_doubled hden hlow hbelow, pack_doubled neg hexpo hfrac]

end Binary64

end Stitchwork.Number
