/- # Stitchwork.Proofs.Formula.Multiples — multiples below, above and next to an integer.

The functions that round to a multiple go through a rounded quotient.  On integers below `2 ^ 52` they are exact all the
same: they give the greatest multiple that is not above, the least that is not below, and one that is nearest, with an
even quotient from the middle.
-/
import Mathlib.Order.Bounds.Basic
import Stitchwork.Formula.Function
import Stitchwork.Proofs.Number.Halves
import Stitchwork.Proofs.Number.Reread

namespace Stitchwork.Number.Binary64

/-! ## Integers next to a quotient, with a sign -/

theorem natCast_divUp (a : ℕ) {b : ℕ} (hb : 0 < b) : (divUp a b : ℤ) = -(-(a : ℤ) / b) := by
  refine eq_of_forall_ge_iff fun w => ?_
  have hle : (divUp a b : ℤ) ≤ w ↔ (a : ℤ) ≤ w * b := by
    rcases le_or_gt 0 w with hw | hw
    · obtain ⟨u, rfl⟩ := Int.eq_ofNat_of_zero_le hw
      exact_mod_cast divUp_le_iff hb u
    · have hneg : w * b < 0 := Int.mul_neg_of_neg_of_pos hw (by omega)
      exact iff_of_false (by omega) (by omega)
  rw [hle, neg_le, Int.le_ediv_iff_mul_le (by omega : (0 : ℤ) < b), neg_mul, neg_le_neg_iff]

section

variable (n : ℤ) {m : ℤ} (hm : 0 < m)

include hm

theorem signed_floor :
    signed (n < 0) (if (n < 0 : Bool) then divUp n.natAbs m.natAbs else n.natAbs / m.natAbs) = n / m := by
  have hb : 0 < m.natAbs := by omega
  have hcast : (m.natAbs : ℤ) = m := by omega
  by_cases hn : n < 0
  · simp only [hn, decide_true, if_true, signed]
    rw [natCast_divUp _ hb, neg_neg, hcast, show -(n.natAbs : ℤ) = n by omega]
  · simp only [hn, decide_false, Bool.false_eq_true, if_false, signed]
    rw [Int.natCast_div, hcast, show (n.natAbs : ℤ) = n by omega]

theorem signed_ceil :
    signed (n < 0) (if (n < 0 : Bool) then n.natAbs / m.natAbs else divUp n.natAbs m.natAbs) = -(-n / m) := by
  have hb : 0 < m.natAbs := by omega
  have hcast : (m.natAbs : ℤ) = m := by omega
  by_cases hn : n < 0
  · simp only [hn, decide_true, if_true, signed]
    rw [Int.natCast_div, hcast, show (n.natAbs : ℤ) = -n by omega]
  · simp only [hn, decide_false, Bool.false_eq_true, if_false, signed]
    rw [natCast_divUp _ hb, hcast, show (n.natAbs : ℤ) = n by omega]

/-- The nearest integer to a quotient, and the even one from the middle. -/
theorem signed_round :
    2 * |m * signed (n < 0) (divHalfEven n.natAbs m.natAbs) - n| ≤ m ∧
      (Even (signed (n < 0) (divHalfEven n.natAbs m.natAbs)) ∨
        2 * |m * signed (n < 0) (divHalfEven n.natAbs m.natAbs) - n| < m) := by
  obtain ⟨hlow, hhigh, htie⟩ := divHalfEven_spec n.natAbs (b := m.natAbs) (by omega)
  generalize divHalfEven n.natAbs m.natAbs = u at hlow hhigh htie ⊢
  -- with the sign of the dividend, the product is as far from it as the magnitudes are apart
  have hdistance : |m * signed (n < 0) u - n| = |((u * m.natAbs : ℕ) : ℤ) - n.natAbs| := by
    have hcast : ((u * m.natAbs : ℕ) : ℤ) = m * u := by
      rw [Nat.cast_mul, Int.natAbs_of_nonneg hm.le, mul_comm]
    rw [hcast]
    by_cases hn : n < 0
    · rw [show (n.natAbs : ℤ) = -n by omega, ← abs_neg]
      simp only [hn, decide_true, signed, if_true]
      congr 1
      ring
    · rw [show (n.natAbs : ℤ) = n by omega]
      simp only [hn, decide_false, signed, Bool.false_eq_true, if_false]
  have heven : u % 2 = 0 → Even (signed (n < 0) u) := by
    intro hu
    rw [Int.even_iff, signed]
    split <;> omega
  rw [hdistance]
  rcases abs_cases (((u * m.natAbs : ℕ) : ℤ) - n.natAbs) with ⟨habs, -⟩ | ⟨habs, -⟩
  · rw [habs]
    exact ⟨by omega, htie.imp heven fun h => by omega⟩
  · rw [habs]
    exact ⟨by omega, htie.imp heven fun h => by omega⟩

end

end Stitchwork.Number.Binary64

namespace Stitchwork.Formula

open Stitchwork.Number

/-! ## The functions -/

/-- A multiple is found by the exact quotient if the integers are small enough. -/
theorem toMultiple_int {rule : Bool → ℕ → ℕ → ℕ} (hrule : Binary64.RespectsHalves rule) {n m : ℤ}
    (hn : |n| < 2 ^ 52) (hm : 1 ≤ m) (hlt : m < 2 ^ 52) :
    Value.toMultiple (·.toIntBy rule) (.int n) (.int m) =
      .ok (.int (m * Binary64.signed (n < 0) (rule (n < 0) n.natAbs m.natAbs))) := by
  have hsmall : n.natAbs < fracSize := by
    rw [← Int.natCast_natAbs] at hn
    show n.natAbs < 4503599627370496
    omega
  have hpos : 0 < m.natAbs := by omega
  have hstep : m.natAbs < fracSize := by
    show m.natAbs < 4503599627370496
    omega
  have hsign : ((n < 0) != (m < 0) : Bool) = (n < 0 : Bool) := by
    rw [decide_eq_false (by omega : ¬m < 0), Bool.bne_false]
  have hnear := Binary64.toIntBy_ofRatio hrule (n < 0) hsmall hpos hstep
  obtain ⟨expo, frac, hround, -⟩ := Binary64.ofRatio_sameSide (n < 0) hsmall hpos hstep
  have hquotient : Value.arithmetic .div (.int n) (.int m) = .ok (.float (.finite (n < 0) expo frac)) := by
    show (Numeric.quotient n m).map Value.ofNumeric = _
    rw [Numeric.quotient, if_neg (by omega)]
    dsimp only
    rw [hsign, hround]
    rfl
  rw [hround] at hnear
  rw [Value.toMultiple, hquotient]
  dsimp only [bind, Except.bind]
  rw [hnear]
  rfl

section

variable {n m : ℤ} (hn : |n| < 2 ^ 52) (hm : 1 ≤ m) (hlt : m < 2 ^ 52)

include hn hm hlt

theorem call_floor : Function.call .floor [.int n, .int m] [] = .ok (.int (m * (n / m))) := by
  have h := toMultiple_int Binary64.respectsHalves_floor hn hm hlt
  rw [Binary64.signed_floor n hm] at h
  exact h

theorem call_ceil : Function.call .ceil [.int n, .int m] [] = .ok (.int (m * -(-n / m))) := by
  have h := toMultiple_int Binary64.respectsHalves_ceil hn hm hlt
  rw [Binary64.signed_ceil n hm] at h
  exact h

theorem call_mround : Function.call .mround [.int n, .int m] [] =
    .ok (.int (m * Binary64.signed (n < 0) (divHalfEven n.natAbs m.natAbs))) :=
  toMultiple_int Binary64.respectsHalves_round hn hm hlt

end

theorem call_mod (n : ℤ) {m : ℤ} (hm : 0 < m) : Function.call .mod [.int n, .int m] [] = .ok (.int (n % m)) := by
  show (if m = 0 then Except.error _ else Except.ok (Numeric.int (n.fmod m))).map Value.ofNumeric = _
  rw [if_neg hm.ne', Int.fmod_eq_emod_of_nonneg _ hm.le]
  rfl

theorem call_multiple (n : ℤ) {m : ℤ} (hm : 0 < m) :
    Function.call .multiple [.int n, .int m] [] = .ok (.bool (n % m = 0)) := by
  have hmod : Value.binary .mod (.int n) (.int m) = .ok (.int (n % m)) := call_mod n hm
  have heq : (Value.int (n % m)).eq (.int 0) = decide (n % m = 0) := by
    show (some (compare (n % m) 0) == some Ordering.eq) = _
    rw [Bool.eq_iff_iff, beq_iff_eq, Option.some_inj, compare_eq_iff_eq, decide_eq_true_iff]
  show ((Value.binary .mod (.int n) (.int m)).map fun r => r.eq (.int 0)).map Value.bool = _
  rw [hmod]
  exact congrArg (fun b => Except.ok (Value.bool b)) heq

/-! ## Exactness -/

section

variable (n : ℤ) {m : ℤ} (hm : 0 < m)

include hm

theorem isGreatest_multiple : IsGreatest {k | m ∣ k ∧ k ≤ n} (m * (n / m)) := by
  refine ⟨⟨dvd_mul_right m _, Int.mul_ediv_self_le hm.ne'⟩, ?_⟩
  rintro _ ⟨⟨j, rfl⟩, hj⟩
  rw [mul_comm] at hj
  exact Int.mul_le_mul_of_nonneg_left ((Int.le_ediv_iff_mul_le hm).2 hj) hm.le

/-- The multiples above an integer are those below its negative, with the other sign. -/
theorem isLeast_multiple : IsLeast {k | m ∣ k ∧ n ≤ k} (m * -(-n / m)) := by
  obtain ⟨⟨hdvd, hle⟩, hbound⟩ := isGreatest_multiple (-n) hm
  rw [mul_neg]
  refine ⟨⟨(dvd_neg).2 hdvd, le_neg.1 hle⟩, ?_⟩
  rintro k ⟨hk, hnk⟩
  exact neg_le.1 (hbound ⟨(dvd_neg).2 hk, neg_le_neg hnk⟩)

/-- From the middle between two multiples, a nearest one with an odd quotient is not taken. -/
theorem even_of_halfway {q : ℤ} (h : Even q ∨ 2 * |m * q - n| < m) {k : ℤ} (hk : 2 * n = m * k + m * (k + 1)) :
    Even q := by
  refine h.resolve_right fun hclose => ?_
  have hodd : 2 * (m * q - n) = m * (2 * q - 2 * k - 1) := by
    rw [mul_sub 2, hk]
    ring
  have hzero : m * (2 * q - 2 * k - 1) = 0 := by
    refine Int.eq_zero_of_abs_lt_dvd (dvd_mul_right m _) ?_
    rwa [← hodd, abs_mul, abs_two]
  have := (mul_eq_zero.1 hzero).resolve_left hm.ne'
  omega

/-- A multiple is its own nearest one. -/
theorem eq_of_dvd_of_near {r : ℤ} (hn : m ∣ n) (hr : m ∣ r) (hnear : 2 * |r - n| ≤ m) : r = n := by
  have hzero := Int.eq_zero_of_abs_lt_dvd (dvd_sub hr hn) (by have := abs_nonneg (r - n); omega)
  omega

end

/-- **The functions that round to a multiple are exact** on integers below `2 ^ 52`, although they go through a rounded
quotient: one gives the greatest multiple that is not above, which is the integer less its remainder, one the least that
is not below, and one a nearest multiple, with an even quotient from the middle.  The three agree with the integer exactly
if it is a multiple. -/
theorem rounding_to_multiples_exact {n m : ℤ} (hn : |n| < 2 ^ 52) (hm : 1 ≤ m) (hlt : m < 2 ^ 52) :
    ∃ (below rest above near : ℤ) (fits : Bool),
      (Function.call .floor [.int n, .int m] [] = .ok (.int below) ∧
        Function.call .mod [.int n, .int m] [] = .ok (.int rest) ∧ below = n - rest ∧
        IsGreatest {k | m ∣ k ∧ k ≤ n} below) ∧
      (Function.call .ceil [.int n, .int m] [] = .ok (.int above) ∧
        Function.call .floor [.int (-n), .int m] [] = .ok (.int (-above)) ∧
        IsLeast {k | m ∣ k ∧ n ≤ k} above) ∧
      (Function.call .mround [.int n, .int m] [] = .ok (.int near) ∧ m ∣ near ∧ 2 * |near - n| ≤ m ∧
        ∀ k, 2 * n = m * k + m * (k + 1) → Even (near / m)) ∧
      Function.call .multiple [.int n, .int m] [] = .ok (.bool fits) ∧
      (fits = true ↔ below = n ∧ above = n ∧ near = n) := by
  have hpos : 0 < m := hm
  have hgreatest := isGreatest_multiple n hpos
  have hleast := isLeast_multiple n hpos
  obtain ⟨hnear, htie⟩ := Binary64.signed_round n hpos
  have hmround := call_mround hn hm hlt
  set q := Binary64.signed (n < 0) (divHalfEven n.natAbs m.natAbs)
  refine ⟨m * (n / m), n % m, m * -(-n / m), m * q, decide (n % m = 0),
    ⟨call_floor hn hm hlt, call_mod n hpos, ?_, hgreatest⟩, ⟨call_ceil hn hm hlt, ?_, hleast⟩,
    ⟨hmround, dvd_mul_right m q, hnear, fun k hk => ?_⟩, call_multiple n hpos, ?_⟩
  · have := Int.mul_ediv_add_emod n m
    omega
  · rw [mul_neg, neg_neg]
    exact call_floor (by rwa [abs_neg]) hm hlt
  · rw [Int.mul_ediv_cancel_left q hpos.ne']
    exact even_of_halfway n hpos htie hk
  · rw [decide_eq_true_iff, ← Int.dvd_iff_emod_eq_zero]
    constructor
    · intro hdvd
      exact ⟨le_antisymm hgreatest.1.2 (hgreatest.2 ⟨hdvd, le_rfl⟩),
        le_antisymm (hleast.2 ⟨hdvd, le_rfl⟩) hleast.1.2, eq_of_dvd_of_near n hpos hdvd (dvd_mul_right m q) hnear⟩
    · rintro ⟨hbelow, -, -⟩
      exact ⟨n / m, hbelow.symm⟩

/-- The greatest odd dividend lies halfway between two even integers, and the one with the even quotient is taken. -/
theorem greatest_odd_rounds_up : |(4503599627370495 : ℤ)| < 2 ^ 52 ∧ (1 : ℤ) ≤ 2 ∧ (2 : ℤ) < 2 ^ 52 ∧
    ∃ near : ℤ, Function.call .mround [.int 4503599627370495, .int 2] [] = .ok (.int near) ∧
      2 * |near - 4503599627370495| ≤ 2 ∧ Even (near / 2) := by
  refine ⟨by decide, by decide, by decide, ?_⟩
  obtain ⟨-, -, -, near, -, -, -, ⟨hcall, -, hnear, heven⟩, -⟩ :=
    rounding_to_multiples_exact (n := 4503599627370495) (m := 2) (by decide) (by decide) (by decide)
  exact ⟨near, hcall, hnear, heven 2251799813685247 (by decide)⟩

end Stitchwork.Formula
