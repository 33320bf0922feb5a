/- # Stitchwork.Proofs.Number.Shortest — the shortest decimal of a number is rounded to the number.

A decimal is taken from a grid only if it lies in the interval of the number.  The finest grid is tried without a
look at the interval, but its steps are so short that the decimal below the number cannot miss it.
-/
import Mathlib.Tactic.Ring
import Stitchwork.Proofs.Number.Digits
import Stitchwork.Proofs.Number.Rounding

namespace Stitchwork.Number

/-! ## Counting digits -/

theorem digitCount_pos (n : ℕ) : 0 < digitCount n := List.length_pos_iff.2 Nat.toDigits_ne_nil

theorem digitCount_le_iff {n k : ℕ} (hk : 0 < k) : digitCount n ≤ k ↔ n < pow10 k :=
  Nat.length_toDigits_le_iff (by decide) hk

theorem lt_pow10_digitCount (n : ℕ) : n < pow10 (digitCount n) := (digitCount_le_iff (digitCount_pos n)).1 le_rfl

theorem pow10_le_of_digitCount {n : ℕ} (hn : 0 < n) : pow10 (digitCount n - 1) ≤ n := by
  by_contra hlt
  rw [not_le] at hlt
  rcases Nat.eq_zero_or_pos (digitCount n - 1) with hone | hpos
  · rw [hone, pow10_zero] at hlt
    omega
  · have hle := (digitCount_le_iff hpos).2 hlt
    omega

theorem digitCount_bounds {n : ℕ} (hn : 0 < n) :
    (10 : ℚ) ^ ((digitCount n : ℤ) - 1) ≤ n ∧ (n : ℚ) < 10 ^ (digitCount n : ℤ) := by
  have hpos := digitCount_pos n
  constructor
  · have hcast : (digitCount n : ℤ) - 1 = ((digitCount n - 1 : ℕ) : ℤ) := by omega
    rw [hcast, zpow_natCast]
    exact_mod_cast pow10_le_of_digitCount hn
  · rw [zpow_natCast]
    exact_mod_cast lt_pow10_digitCount n

theorem ratio_lt_zpow10 {num den : ℕ} (hden : 0 < den) (p : ℤ) :
    num * pow10 (-p).toNat < den * pow10 p.toNat ↔ (num : ℚ) / den < 10 ^ p := by
  have hden' : (0 : ℚ) < den := Nat.cast_pos.2 hden
  have hpos : (0 : ℚ) < pow10 (-p).toNat := Nat.cast_pos.2 (pow10_pos _)
  rw [div_lt_iff₀ hden', ← Nat.cast_lt (α := ℚ)]
  push_cast
  rw [pow10_toNat p, ← mul_assoc, mul_lt_mul_iff_left₀ hpos, mul_comm (den : ℚ)]

/-- The decimal point of a ratio stands no further to the right than its first digit. -/
theorem zpow10_decimalPoint_le {num den : ℕ} (hnum : 0 < num) (hden : 0 < den) :
    (10 : ℚ) ^ (decimalPoint num den - 1) ≤ num / den := by
  have hden' : (0 : ℚ) < den := Nat.cast_pos.2 hden
  rw [decimalPoint]
  split
  · have hsplit : (10 : ℚ) ^ ((digitCount num : ℤ) - digitCount den - 1) =
        10 ^ ((digitCount num : ℤ) - 1) / 10 ^ (digitCount den : ℤ) := by
      rw [← zpow_sub₀ (by norm_num)]
      congr 1
      omega
    rw [hsplit]
    exact div_le_div₀ (Nat.cast_nonneg _) (digitCount_bounds hnum).1 hden' (digitCount_bounds hden).2.le
  · next h =>
    rw [add_sub_cancel_right]
    exact not_lt.1 fun hlt => h ((ratio_lt_zpow10 hden _).2 hlt)

/-! ## Intervals -/

/-- The value of a decimal. -/
def Decimal.value (d : Decimal) : ℚ := d.digits * 10 ^ d.exp

theorem Decimal.digits_pos {d : Decimal} (h : 0 < d.value) : 0 < d.digits := by
  by_contra hzero
  rw [Decimal.value, Nat.eq_zero_of_not_pos hzero] at h
  simp at h

namespace Interval

open Binary64

variable {expo : Fin 2047} {frac : Fin fracSize}

theorem den_pos : 0 < (Interval.of expo frac).den := Nat.mul_pos (by decide) (pow2_pos _)

/-- The middle of the interval is the number. -/
theorem mid_div_den (expo : Fin 2047) (frac : Fin fracSize) :
    ((Interval.of expo frac).mid : ℚ) / (Interval.of expo frac).den = mantOf expo frac * 2 ^ scaleOf expo := by
  have hdown : (pow2 (-scaleOf expo).toNat : ℚ) ≠ 0 := Nat.cast_ne_zero.2 (pow2_pos _).ne'
  show ((4 * mantOf expo frac * pow2 (scaleOf expo).toNat : ℕ) : ℚ) / (4 * pow2 (-scaleOf expo).toNat : ℕ) = _
  push_cast
  rw [pow2_toNat (scaleOf expo)]
  field_simp

/-- The quarters of the unit in the last place, over the denominator of the interval. -/
theorem quarters_eq (a k : ℕ) : ((a * pow2 (scaleOf expo).toNat * k : ℕ) : ℚ) =
    a / 4 * 2 ^ scaleOf expo * ((Interval.of expo frac).den * k : ℕ) := by
  show _ = (a : ℚ) / 4 * 2 ^ scaleOf expo * (4 * pow2 (-scaleOf expo).toNat * k : ℕ)
  push_cast
  rw [pow2_toNat (scaleOf expo)]
  field_simp

section

variable {k : ℕ} (hk : 0 < k) (a num : ℕ)

include hk

theorem quarters_le : a * pow2 (scaleOf expo).toNat * k ≤ num ↔
    (a : ℚ) / 4 ≤ num / ((Interval.of expo frac).den * k : ℕ) / 2 ^ scaleOf expo := by
  have hpos : (0 : ℚ) < ((Interval.of expo frac).den * k : ℕ) := Nat.cast_pos.2 (Nat.mul_pos den_pos hk)
  rw [le_div_iff₀ (by positivity), le_div_iff₀ hpos, ← quarters_eq, Nat.cast_le]

theorem le_quarters : num ≤ a * pow2 (scaleOf expo).toNat * k ↔
    (num : ℚ) / ((Interval.of expo frac).den * k : ℕ) / 2 ^ scaleOf expo ≤ (a : ℚ) / 4 := by
  have hpos : (0 : ℚ) < ((Interval.of expo frac).den * k : ℕ) := Nat.cast_pos.2 (Nat.mul_pos den_pos hk)
  rw [div_le_iff₀ (by positivity), div_le_iff₀ hpos, ← quarters_eq, Nat.cast_le]

end

/-- The interval of a number holds only ratios that the number owns. -/
theorem owns_of_holds (hmant : 0 < mantOf expo frac) {k num : ℕ} (hk : 0 < k)
    (h : (Interval.of expo frac).holds k num) : Owns expo frac (num / ((Interval.of expo frac).den * k : ℕ)) := by
  set c : ℕ := if frac.val = 0 && 1 < expo.val then 1 else 2 with hc
  have hlow : ((4 * mantOf expo frac - c : ℕ) : ℚ) / 4 = mantOf expo frac - reachBelow expo frac := by
    have hle : c ≤ 4 * mantOf expo frac := by
      rw [hc]
      split <;> omega
    have hreach : reachBelow expo frac = (c : ℚ) / 4 := by
      rw [reachBelow, hc]
      by_cases hpower : frac.val = 0 ∧ 1 < expo.val
      · rw [if_pos hpower, if_pos (by simpa using hpower)]
        norm_num
      · rw [if_neg hpower, if_neg (by simpa using hpower)]
        norm_num
    rw [Nat.cast_sub hle, hreach]
    push_cast
    ring
  have hhigh : ((4 * mantOf expo frac + 2 : ℕ) : ℚ) / 4 = mantOf expo frac + 1 / 2 := by
    push_cast
    ring
  have hle₁ := @quarters_le expo frac k hk (4 * mantOf expo frac - c) num
  have hle₂ := @le_quarters expo frac k hk (4 * mantOf expo frac + 2) num
  have hlt₁ := @le_quarters expo frac k hk (4 * mantOf expo frac - c) num
  have hlt₂ := @quarters_le expo frac k hk (4 * mantOf expo frac + 2) num
  rw [hlow] at hle₁ hlt₁
  rw [hhigh] at hle₂ hlt₂
  rw [Interval.holds] at h
  split at h
  · next heven =>
    rw [Bool.and_eq_true, decide_eq_true_iff, decide_eq_true_iff] at h
    exact ⟨hle₁.1 h.1, hle₂.1 h.2, .inl (beq_iff_eq.1 heven)⟩
  · rw [Bool.and_eq_true, decide_eq_true_iff, decide_eq_true_iff] at h
    have hinside : mantOf expo frac - reachBelow expo frac < num / ((Interval.of expo frac).den * k : ℕ) / 2 ^ scaleOf expo ∧
        (num : ℚ) / ((Interval.of expo frac).den * k : ℕ) / 2 ^ scaleOf expo < mantOf expo frac + 1 / 2 :=
      ⟨not_le.1 fun hle => (Nat.not_le.2 h.1) (hlt₁.2 hle), not_le.1 fun hle => (Nat.not_le.2 h.2) (hlt₂.2 hle)⟩
    exact ⟨hinside.1.le, hinside.2.le, .inr hinside⟩

/-! ## Grids -/

/-- A decimal on a grid, as a ratio over the denominator of the interval. -/
theorem value_eq_ratio (expo : Fin 2047) (frac : Fin fracSize) (digits : ℕ) (unit : ℤ) :
    (digits * ((Interval.of expo frac).den * pow10 unit.toNat) : ℕ) /
      (((Interval.of expo frac).den * pow10 (-unit).toNat : ℕ) : ℚ) = Decimal.value ⟨digits, unit⟩ := by
  have hden : ((Interval.of expo frac).den : ℚ) ≠ 0 := Nat.cast_ne_zero.2 den_pos.ne'
  have hpow : (pow10 (-unit).toNat : ℚ) ≠ 0 := Nat.cast_ne_zero.2 (pow10_pos _).ne'
  rw [Decimal.value]
  push_cast
  rw [pow10_toNat unit]
  field_simp

theorem divHalfEven_cases (a b : ℕ) : divHalfEven a b = a / b ∨ divHalfEven a b = a / b + 1 := by
  rw [divHalfEven]
  grind

/-- What is found on a grid belongs to the number. -/
theorem owns_of_onGrid (hmant : 0 < mantOf expo frac) {point : ℤ} {n : ℕ} {d : Decimal}
    (h : (Interval.of expo frac).onGrid point n = some d) : Owns expo frac d.value := by
  have howns : ∀ digits, (Interval.of expo frac).holds (pow10 (-(point - n)).toNat)
      (digits * ((Interval.of expo frac).den * pow10 (point - n).toNat)) →
      Owns expo frac (Decimal.value ⟨digits, point - n⟩) := by
    intro digits hholds
    rw [← value_eq_ratio expo frac]
    exact owns_of_holds hmant (pow10_pos _) hholds
  rw [Interval.onGrid] at h
  split at h
  · next hbelow habove =>
    cases h
    rcases divHalfEven_cases ((Interval.of expo frac).mid * pow10 (-(point - n)).toNat)
      ((Interval.of expo frac).den * pow10 (point - n).toNat) with heq | heq
    · rw [heq]
      exact howns _ hbelow
    · rw [heq]
      exact howns _ habove
  · next hbelow _ =>
    cases h
    exact howns _ hbelow
  · next _ habove =>
    cases h
    exact howns _ habove
  · cases h

theorem cast_div_bounds (a : ℕ) {b : ℕ} (hb : 0 < b) :
    ((a / b : ℕ) : ℚ) ≤ a / b ∧ (a : ℚ) / b < (a / b : ℕ) + 1 := by
  rw [le_div_iff₀ (Nat.cast_pos.2 hb), div_lt_iff₀ (Nat.cast_pos.2 hb), mul_comm _ (b : ℚ), mul_comm _ (b : ℚ)]
  constructor
  · exact_mod_cast Nat.mul_div_le a b
  · exact_mod_cast Nat.lt_mul_div_succ a hb

theorem quarter_le_reachBelow (expo : Fin 2047) (frac : Fin fracSize) : 1 / 4 ≤ reachBelow expo frac := by
  rw [reachBelow]
  split
  · exact le_rfl
  · norm_num

/-- The finest grid has more than enough digits: the decimal below the number is nearer than a quarter of the unit in
the last place. -/
theorem owns_of_finest {unit : ℤ} (hunit : (10 : ℚ) ^ (unit + 17) ≤ mantOf expo frac * 2 ^ scaleOf expo) :
    Owns expo frac (Decimal.value ⟨(Interval.of expo frac).mid * pow10 (-unit).toNat /
      ((Interval.of expo frac).den * pow10 unit.toNat), unit⟩) := by
  have hstep : (0 : ℚ) < 10 ^ unit := by positivity
  have hlast : (0 : ℚ) < 2 ^ scaleOf expo := by positivity
  have hratio : (((Interval.of expo frac).mid * pow10 (-unit).toNat : ℕ) : ℚ) /
      ((Interval.of expo frac).den * pow10 unit.toNat : ℕ) = mantOf expo frac * 2 ^ scaleOf expo / 10 ^ unit := by
    have hpow : (pow10 (-unit).toNat : ℚ) ≠ 0 := Nat.cast_ne_zero.2 (pow10_pos _).ne'
    rw [← mid_div_den]
    push_cast
    rw [pow10_toNat unit]
    field_simp
  obtain ⟨hle, hlt⟩ := cast_div_bounds ((Interval.of expo frac).mid * pow10 (-unit).toNat)
    (Nat.mul_pos (@den_pos expo frac) (pow10_pos unit.toNat))
  rw [hratio] at hle hlt
  rw [le_div_iff₀ hstep] at hle
  rw [div_lt_iff₀ hstep, add_mul, one_mul] at hlt
  -- A step of the grid is shorter than a quarter of the unit in the last place.
  have hshort : (10 : ℚ) ^ unit / 2 ^ scaleOf expo < 1 / 4 := by
    have hmant : (mantOf expo frac : ℚ) < 2 * fracSize := by exact_mod_cast mantOf_lt expo frac
    rw [zpow_add₀ (by norm_num)] at hunit
    rw [div_lt_iff₀ hlast]
    have hbound : (mantOf expo frac : ℚ) * 2 ^ scaleOf expo < 2 * fracSize * 2 ^ scaleOf expo :=
      mul_lt_mul_of_pos_right hmant hlast
    norm_num at hunit hbound
    linarith
  have hhigh : Decimal.value ⟨(Interval.of expo frac).mid * pow10 (-unit).toNat /
      ((Interval.of expo frac).den * pow10 unit.toNat), unit⟩ / 2 ^ scaleOf expo ≤ mantOf expo frac := by
    rw [div_le_iff₀ hlast]
    exact hle
  have hlow : (mantOf expo frac : ℚ) - 1 / 4 < Decimal.value ⟨(Interval.of expo frac).mid * pow10 (-unit).toNat /
      ((Interval.of expo frac).den * pow10 unit.toNat), unit⟩ / 2 ^ scaleOf expo := by
    rw [lt_div_iff₀ hlast, sub_mul]
    rw [div_lt_iff₀ hlast] at hshort
    exact sub_lt_iff_lt_add.2 (hlt.trans (add_lt_add_right hshort _))
  have hreach := quarter_le_reachBelow expo frac
  exact ⟨by linarith, by linarith, .inr ⟨by linarith, by linarith⟩⟩

/-- Whatever the search ends with belongs to the number. -/
theorem owns_of_search (hmant : 0 < mantOf expo frac) {point : ℤ}
    (hpoint : (10 : ℚ) ^ (point - 1) ≤ mantOf expo frac * 2 ^ scaleOf expo) {n fuel : ℕ} (hn : n + fuel = 18) :
    Owns expo frac ((Interval.of expo frac).search point n fuel).value := by
  induction fuel generalizing n with
  | zero =>
    obtain rfl : n = 18 := hn
    rw [Interval.search, show ((18 : ℕ) : ℤ) - point = -(point - (18 : ℕ)) by omega]
    apply owns_of_finest
    rw [show point - (18 : ℕ) + 17 = point - 1 by omega]
    exact hpoint
  | succ fuel ih =>
    rw [Interval.search]
    cases hgrid : (Interval.of expo frac).onGrid point n with
    | none => exact ih (by omega)
    | some d => exact owns_of_onGrid hmant hgrid

end Interval

namespace Binary64

variable {expo : Fin 2047} {frac : Fin fracSize}

/-- **The shortest decimal of a number belongs to the number.** -/
theorem owns_shortest (hmant : 0 < mantOf expo frac) : Owns expo frac (shortest expo frac).value := by
  have hmid : 0 < (Interval.of expo frac).mid := Nat.mul_pos (Nat.mul_pos (by decide) hmant) (pow2_pos _)
  refine Interval.owns_of_search hmant ?_ rfl
  rw [← Interval.mid_div_den]
  exact zpow10_decimalPoint_le hmid Interval.den_pos

theorem Owns.pos (hmant : 0 < mantOf expo frac) {q : ℚ} (h : Owns expo frac q) : 0 < q := by
  have hone : (1 : ℚ) ≤ mantOf expo frac := by exact_mod_cast hmant
  have hreach := reachBelow_le expo frac
  have hlow : 0 < q / 2 ^ scaleOf expo := by linarith [h.low]
  exact (div_pos_iff_of_pos_right (by positivity)).1 hlow

end Binary64

end Stitchwork.Number
