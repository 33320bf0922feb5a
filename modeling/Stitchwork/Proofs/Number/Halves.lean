/- # Stitchwork.Proofs.Number.Halves — quotients that keep their side of every half.

A quotient is rounded to a double before an integer near it is taken, and a quotient just below an integer or a half
might be rounded onto it.  With dividend and divisor below `2 ^ 52` this does not happen: a quotient that is not on a
half integer is further from it than rounding goes.  So the integers below, above and next to the double are those
below, above and next to the quotient itself.
-/
import Mathlib.Tactic.Ring
import Stitchwork.Proofs.Number.Rounding

namespace Stitchwork.Number

/-! ## The halves -/

/-- No half integer tells the two numbers apart: it is below both or neither, and above both or neither. -/
def SameSide (x y : ℚ) : Prop := ∀ k : ℕ, ((k : ℚ) / 2 ≤ x ↔ (k : ℚ) / 2 ≤ y) ∧ (x ≤ k / 2 ↔ y ≤ k / 2)

theorem half_le_ratio {a b : ℕ} (hb : 0 < b) (k : ℕ) : (k : ℚ) / 2 ≤ a / b ↔ k * b ≤ 2 * a := by
  rw [div_le_div_iff₀ two_pos (Nat.cast_pos.2 hb), mul_comm (a : ℚ)]
  exact_mod_cast Iff.rfl

theorem ratio_le_half {a b : ℕ} (hb : 0 < b) (k : ℕ) : (a : ℚ) / b ≤ k / 2 ↔ 2 * a ≤ k * b := by
  rw [div_le_div_iff₀ (Nat.cast_pos.2 hb) two_pos, mul_comm (a : ℚ)]
  exact_mod_cast Iff.rfl

/-- An integer is the half of its double. -/
theorem double_div_two (u : ℕ) : ((2 * u : ℕ) : ℚ) / 2 = u := by
  push_cast
  ring

theorem SameSide.natCast_le {x y : ℚ} (h : SameSide x y) (u : ℕ) : (u : ℚ) ≤ x ↔ (u : ℚ) ≤ y := by
  rw [← double_div_two]
  exact (h (2 * u)).1

theorem SameSide.le_natCast {x y : ℚ} (h : SameSide x y) (u : ℕ) : x ≤ u ↔ y ≤ u := by
  rw [← double_div_two]
  exact (h (2 * u)).2

/-! ## Integers next to a ratio -/

theorem le_div_iff_le_ratio {a b : ℕ} (hb : 0 < b) (u : ℕ) : u ≤ a / b ↔ (u : ℚ) ≤ a / b := by
  rw [Nat.le_div_iff_mul_le hb, le_div_iff₀ (Nat.cast_pos.2 hb)]
  exact_mod_cast Iff.rfl

theorem divUp_le_iff {a b : ℕ} (hb : 0 < b) (u : ℕ) : Binary64.divUp a b ≤ u ↔ a ≤ u * b := by
  rw [Binary64.divUp, Nat.div_le_iff_le_mul_add_pred hb, mul_comm]
  omega

theorem divUp_le_iff_ratio_le {a b : ℕ} (hb : 0 < b) (u : ℕ) : Binary64.divUp a b ≤ u ↔ (a : ℚ) / b ≤ u := by
  rw [divUp_le_iff hb, div_le_iff₀ (Nat.cast_pos.2 hb)]
  exact_mod_cast Iff.rfl

/-- Rounding goes no further than a half, and from the middle to an even integer. -/
theorem divHalfEven_spec (a : ℕ) {b : ℕ} (hb : 0 < b) :
    2 * (divHalfEven a b * b) ≤ 2 * a + b ∧ 2 * a ≤ 2 * (divHalfEven a b * b) + b ∧
      (divHalfEven a b % 2 = 0 ∨
        2 * (divHalfEven a b * b) < 2 * a + b ∧ 2 * a < 2 * (divHalfEven a b * b) + b) := by
  have hdiv : a / b * b + a % b = a := by rw [mul_comm, Nat.div_add_mod]
  have hmod : a % b < b := Nat.mod_lt a hb
  unfold divHalfEven
  dsimp only
  split
  · omega
  · split
    · rw [Nat.add_mul]
      omega
    · split
      · next heven =>
        rw [beq_iff_eq] at heven
        omega
      · next hodd =>
        rw [beq_iff_eq] at hodd
        rw [Nat.add_mul]
        omega

section

variable {a b c d : ℕ}

theorem SameSide.div_eq (h : SameSide (a / b) (c / d)) (hb : 0 < b) (hd : 0 < d) : a / b = c / d := by
  refine eq_of_forall_le_iff fun u => ?_
  rw [le_div_iff_le_ratio hb, le_div_iff_le_ratio hd]
  exact h.natCast_le u

theorem SameSide.divUp_eq (h : SameSide (a / b) (c / d)) (hb : 0 < b) (hd : 0 < d) :
    Binary64.divUp a b = Binary64.divUp c d := by
  refine eq_of_forall_ge_iff fun u => ?_
  rw [divUp_le_iff_ratio_le hb, divUp_le_iff_ratio_le hd]
  exact h.le_natCast u

/-- Bounds by half integers hold of both ratios or of neither. -/
theorem SameSide.mul_le_iff (h : SameSide (a / b) (c / d)) (hb : 0 < b) (hd : 0 < d) (k : ℕ) :
    (k * b ≤ 2 * a ↔ k * d ≤ 2 * c) ∧ (2 * a ≤ k * b ↔ 2 * c ≤ k * d) := by
  rw [← half_le_ratio hb, ← half_le_ratio hd, ← ratio_le_half hb, ← ratio_le_half hd]
  exact h k

theorem SameSide.divHalfEven_eq (h : SameSide (a / b) (c / d)) (hb : 0 < b) (hd : 0 < d) :
    divHalfEven a b = divHalfEven c d := by
  obtain ⟨hlow, hhigh, htie⟩ := divHalfEven_spec c hd
  generalize divHalfEven c d = m at hlow hhigh htie
  -- the ends of the range that is rounded to `m` are half integers; the lower one is missing if `m` is zero
  obtain ⟨habove, hupper⟩ := h.mul_le_iff hb hd (2 * m + 1)
  have hlower : m = 0 ∨ ∃ j, m = j + 1 ∧
      (((2 * j + 1) * b ≤ 2 * a ↔ (2 * j + 1) * d ≤ 2 * c) ∧ (2 * a ≤ (2 * j + 1) * b ↔ 2 * c ≤ (2 * j + 1) * d)) := by
    cases m with
    | zero => exact .inl rfl
    | succ j => exact .inr ⟨j, rfl, h.mul_le_iff hb hd (2 * j + 1)⟩
  obtain rfl | ⟨j, rfl, hbelow, hlower⟩ := hlower
  · apply Binary64.divHalfEven_eq hb
    · omega
    · have hscaled : 2 * a ≤ (2 * 0 + 1) * b := hupper.2 (by omega)
      omega
    · exact .inl rfl
  · have hsplit : ∀ e : ℕ, 2 * ((j + 1) * e) = (2 * j + 1) * e + e ∧ (2 * (j + 1) + 1) * e = 2 * ((j + 1) * e) + e :=
      fun e => ⟨by ring, by ring⟩
    obtain ⟨hb₁, hb₂⟩ := hsplit b
    obtain ⟨hd₁, hd₂⟩ := hsplit d
    apply Binary64.divHalfEven_eq hb
    · omega
    · omega
    · omega

end

/-! ## Rounding to a grid of halves -/

/-- On a grid that is finer than the divisor, a ratio is rounded to its side of every half integer. -/
theorem sameSide_divHalfEven (a : ℕ) {b t : ℕ} (hb : 0 < b) (ht : 0 < t) (hgrid : b < pow2 t) :
    SameSide (a / b) ((divHalfEven (a * pow2 t) b : ℕ) / (pow2 t : ℕ)) := by
  obtain ⟨hlow, hhigh, -⟩ := divHalfEven_spec (a * pow2 t) hb
  generalize divHalfEven (a * pow2 t) b = m at hlow hhigh
  have hpow := pow2_pos t
  intro k
  rw [half_le_ratio hb, half_le_ratio hpow, ratio_le_half hb, ratio_le_half hpow]
  have hscaled : k * pow2 t * b = k * b * pow2 t := Nat.mul_right_comm ..
  rcases lt_trichotomy (2 * a) (k * b) with hlt | heq | hgt
  · -- below the half there is room for a step of the grid
    have hroom : (2 * a + 1) * pow2 t ≤ k * b * pow2 t := Nat.mul_le_mul_right _ hlt
    have hside : 2 * m * b < k * pow2 t * b := by
      rw [hscaled]
      rw [Nat.add_mul, mul_assoc] at hroom
      rw [mul_assoc]
      omega
    have hless := Nat.lt_of_mul_lt_mul_right hside
    omega
  · -- a half is a point of the grid
    obtain ⟨g, hg⟩ : ∃ g, k * pow2 t = 2 * g := by
      obtain ⟨t, rfl⟩ := Nat.exists_eq_add_of_lt ht
      exact ⟨k * pow2 (0 + t), by rw [pow2_succ]; ring⟩
    have hpoint : 2 * (a * pow2 t) = 2 * g * b := by rw [← hg, hscaled, ← heq, mul_assoc]
    have hsame : m = g := by
      refine le_antisymm ?_ ?_
      · by_contra hne
        have hmul : (g + 1) * b ≤ m * b := Nat.mul_le_mul_right b (by omega)
        rw [Nat.add_mul] at hmul
        rw [mul_assoc] at hpoint
        omega
      · by_contra hne
        have hmul : (m + 1) * b ≤ g * b := Nat.mul_le_mul_right b (by omega)
        rw [Nat.add_mul] at hmul
        rw [mul_assoc] at hpoint
        omega
    omega
  · have hroom : (k * b + 1) * pow2 t ≤ 2 * a * pow2 t := Nat.mul_le_mul_right _ hgt
    have hside : k * pow2 t * b < 2 * m * b := by
      rw [hscaled]
      rw [Nat.add_mul, mul_assoc 2] at hroom
      rw [mul_assoc 2]
      omega
    have hless := Nat.lt_of_mul_lt_mul_right hside
    omega

namespace Binary64

/-! ## Rounded quotients -/

/-- The ratio that the integers near a finite number are taken of. -/
theorem magnitude_ratio (expo : Fin 2047) (frac : Fin fracSize) :
    ((mantOf expo frac * pow2 (scaleOf expo).toNat : ℕ) : ℚ) / (pow2 (-scaleOf expo).toNat : ℕ) =
      mantOf expo frac * 2 ^ scaleOf expo := by
  have hscaled := scaled_ratio (mantOf expo frac) 1 (-scaleOf expo)
  rw [neg_neg, one_mul, Nat.cast_one, div_one, zpow_neg, div_inv_eq_mul] at hscaled
  exact hscaled

/-- A mantissa with all its digits is packed without a loss. -/
theorem exists_pack (neg : Bool) {mant : ℕ} {scale : ℤ} (hlow : fracSize ≤ mant) (hhigh : mant ≤ 2 * fracSize)
    (hbottom : -1074 ≤ scale) (htop : scale < 970) :
    ∃ expo frac, pack neg mant scale = .finite neg expo frac ∧
      (mantOf expo frac : ℚ) * 2 ^ scaleOf expo = mant * 2 ^ scale := by
  rcases hhigh.lt_or_eq with hlt | rfl
  · let expo : Fin 2047 := ⟨(scale + 1075).toNat, by omega⟩
    let frac : Fin fracSize := ⟨mant - fracSize, by omega⟩
    have hexpo : expo.val ≠ 0 := by show (scale + 1075).toNat ≠ 0; omega
    have hmant : mantOf expo frac = mant := by
      rw [mantOf, if_neg hexpo]
      show fracSize + (mant - fracSize) = mant
      omega
    have hscale : scaleOf expo = scale := by
      rw [scaleOf, if_neg hexpo]
      show ((scale + 1075).toNat : ℤ) - 1075 = scale
      omega
    have hpack := pack_mantOf neg expo frac
    rw [hmant, hscale] at hpack
    exact ⟨expo, frac, hpack, by rw [hmant, hscale]⟩
  · -- the next power of two has the scale above
    let expo : Fin 2047 := ⟨(scale + 1076).toNat, by omega⟩
    have hexpo : 1 < expo.val := by show 1 < (scale + 1076).toNat; omega
    have hscale : scaleOf expo = scale + 1 := by
      rw [scaleOf, if_neg (by omega)]
      show ((scale + 1076).toNat : ℤ) - 1075 = scale + 1
      omega
    have hpack : pack neg (2 * fracSize) (scaleOf expo - 1) = .finite neg expo 0 := pack_doubled neg hexpo rfl
    rw [hscale, add_sub_cancel_right] at hpack
    refine ⟨expo, 0, hpack, ?_⟩
    have hmant : mantOf expo 0 = fracSize := if_neg (by omega)
    rw [hmant, hscale, zpow_add_one₀ two_ne_zero]
    push_cast
    ring

/-- The mantissa that a ratio is rounded to, at a scale below one. -/
theorem exists_mantissa {a b : ℕ} (ha : 0 < a) (halt : a < fracSize) (hb : 0 < b) (hblt : b < fracSize) :
    ∃ t : ℕ, 0 < t ∧ t ≤ 104 ∧ max (binaryExponent a b - 52) (-1074) = -t ∧
      fracSize * b ≤ a * pow2 t ∧ a * pow2 t < 2 * fracSize * b := by
  have ha' : (1 : ℚ) ≤ a := Nat.one_le_cast.2 ha
  have hb' : (0 : ℚ) < b := Nat.cast_pos.2 hb
  have hlow : (-52 : ℤ) ≤ binaryExponent a b := by
    apply le_binaryExponent ha hb
    rw [le_div_iff₀ hb']
    have hbound : (b : ℚ) ≤ 2 ^ 52 := by exact_mod_cast hblt.le
    calc (2 : ℚ) ^ (-52 : ℤ) * b ≤ 2 ^ (-52 : ℤ) * 2 ^ 52 := by gcongr
      _ = 1 := by norm_num
      _ ≤ a := ha'
  have hhigh : binaryExponent a b < 52 := by
    apply binaryExponent_lt ha hb
    rw [div_lt_iff₀ hb']
    have hbound : (a : ℚ) < 2 ^ (52 : ℤ) := by exact_mod_cast halt
    have hone : (1 : ℚ) ≤ b := Nat.one_le_cast.2 hb
    nlinarith
  obtain ⟨t, ht⟩ : ∃ t : ℕ, binaryExponent a b - 52 = -t := ⟨(52 - binaryExponent a b).toNat, by omega⟩
  obtain ⟨hfrom, hto⟩ := binaryExponent_spec ha hb
  have hexponent : binaryExponent a b = -t + 52 := by omega
  have hnext : binaryExponent a b + 1 = -t + 53 := by omega
  -- the ratio at this scale
  have hratio : (a : ℚ) / b / 2 ^ (-(t : ℤ)) = a * pow2 t / b := by
    have hscaled := scaled_ratio a b (-t)
    rw [neg_neg, Int.toNat_natCast, Int.toNat_of_nonpos (by omega), pow2_zero, mul_one] at hscaled
    rw [← hscaled]
    push_cast
    rfl
  rw [hexponent, zpow_add_le_iff, hratio, le_div_iff₀ hb'] at hfrom
  rw [hnext, lt_zpow_add_iff, hratio, div_lt_iff₀ hb'] at hto
  refine ⟨t, by omega, by omega, by omega, ?_, ?_⟩
  · exact_mod_cast hfrom
  · exact_mod_cast hto

/-- **Rounding keeps a quotient on its side of every half,** if dividend and divisor are below `2 ^ 52`. -/
theorem ofRatio_sameSide (neg : Bool) {a b : ℕ} (halt : a < fracSize) (hb : 0 < b) (hblt : b < fracSize) :
    ∃ expo frac, ofRatio neg a b = .finite neg expo frac ∧
      SameSide (a / b) ((mantOf expo frac * pow2 (scaleOf expo).toNat : ℕ) / (pow2 (-scaleOf expo).toNat : ℕ)) := by
  rcases Nat.eq_zero_or_pos a with rfl | ha
  · refine ⟨0, 0, rfl, ?_⟩
    have hzero : mantOf 0 0 = 0 := rfl
    rw [hzero, Nat.zero_mul, Nat.cast_zero, zero_div, zero_div]
    exact fun k => ⟨Iff.rfl, Iff.rfl⟩
  · obtain ⟨t, ht, htop, hscale, hfrom, hto⟩ := exists_mantissa ha halt hb hblt
    -- the dividend is shorter than the mantissa, so the grid is finer than the divisor
    have hgrid : b < pow2 t := by
      have hless : fracSize * b < fracSize * pow2 t := hfrom.trans_lt (Nat.mul_lt_mul_of_pos_right halt (pow2_pos t))
      exact Nat.lt_of_mul_lt_mul_left hless
    obtain ⟨hlow, hhigh, -⟩ := divHalfEven_spec (a * pow2 t) hb
    have hfull : fracSize ≤ divHalfEven (a * pow2 t) b := by
      have hmul : 2 * fracSize * b < (2 * divHalfEven (a * pow2 t) b + 2) * b := by
        rw [Nat.add_mul, mul_assoc, mul_assoc]
        omega
      have hless := Nat.lt_of_mul_lt_mul_right hmul
      omega
    have hshort : divHalfEven (a * pow2 t) b ≤ 2 * fracSize := by
      have hmul : 2 * divHalfEven (a * pow2 t) b * b < (2 * (2 * fracSize) + 1) * b := by
        rw [Nat.add_mul, mul_assoc, mul_assoc 2 (2 * fracSize)]
        omega
      have hless := Nat.lt_of_mul_lt_mul_right hmul
      omega
    have hbottom : -1074 ≤ -(t : ℤ) := by omega
    obtain ⟨expo, frac, hpack, hvalue⟩ := exists_pack neg hfull hshort hbottom (by omega)
    refine ⟨expo, frac, ?_, ?_⟩
    · rw [ofRatio, if_neg ha.ne']
      dsimp only
      rw [hscale, neg_neg, Int.toNat_natCast, Int.toNat_of_nonpos (by omega), pow2_zero, mul_one]
      exact hpack
    · have hpow : (2 : ℚ) ^ (-(t : ℤ)) = ((pow2 t : ℕ) : ℚ)⁻¹ := by
        rw [zpow_neg, zpow_natCast]
        exact congrArg _ (Nat.cast_pow 2 t).symm
      rw [magnitude_ratio, hvalue, hpow, ← div_eq_mul_inv]
      exact sameSide_divHalfEven a hb ht hgrid

/-- A rule that cannot tell apart two ratios on the same side of every half. -/
def RespectsHalves (rule : Bool → ℕ → ℕ → ℕ) : Prop :=
  ∀ neg {a b c d : ℕ}, 0 < b → 0 < d → SameSide (a / b) (c / d) → rule neg a b = rule neg c d

/-- The integer near a rounded quotient is the one near the quotient itself. -/
theorem toIntBy_ofRatio {rule : Bool → ℕ → ℕ → ℕ} (hrule : RespectsHalves rule) (neg : Bool) {a b : ℕ}
    (halt : a < fracSize) (hb : 0 < b) (hblt : b < fracSize) :
    (ofRatio neg a b).toIntBy rule = some (signed neg (rule neg a b)) := by
  obtain ⟨expo, frac, hround, hside⟩ := ofRatio_sameSide neg halt hb hblt
  rw [hround, toIntBy, hrule neg hb (pow2_pos _) hside]

theorem respectsHalves_floor : RespectsHalves fun neg a b => if neg then divUp a b else a / b := by
  intro neg a b c d hb hd h
  cases neg with
  | true => exact h.divUp_eq hb hd
  | false => exact h.div_eq hb hd

theorem respectsHalves_ceil : RespectsHalves fun neg a b => if neg then a / b else divUp a b := by
  intro neg a b c d hb hd h
  cases neg with
  | true => exact h.div_eq hb hd
  | false => exact h.divUp_eq hb hd

theorem respectsHalves_round : RespectsHalves fun _ a b => divHalfEven a b :=
  fun _ _ _ _ _ hb hd h => h.divHalfEven_eq hb hd

end Binary64

end Stitchwork.Number
