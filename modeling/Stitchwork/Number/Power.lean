/- # Stitchwork.Number.Power — powers.
-/

namespace Stitchwork.Number

/-- The power `2 ^ n`. -/
def pow2 (n : Nat) : Nat := Nat.pow 2 n

/-- The power `10 ^ n`. -/
def pow10 (n : Nat) : Nat := Nat.pow 10 n

/-- The power `a ^ n` of an integer.  Those of zero and one need no multiplication. -/
def powInt (a : Int) (n : Nat) : Int :=
  let p := if a.natAbs ≤ 1 then (if n = 0 then 1 else a.natAbs) else Nat.pow a.natAbs n
  if a < 0 && n % 2 == 1 then -(p : Int) else p

/-- How many fractions there are between two powers of two, `2 ^ 52`. -/
abbrev fracSize : Nat := 4503599627370496

/-- How many words of a machine there are without a sign, `2 ^ 63`. -/
abbrev wordSize : Nat := 9223372036854775808

@[simp] theorem pow2_zero : pow2 0 = 1 := rfl

theorem pow2_succ (n : Nat) : pow2 (n + 1) = pow2 n * 2 := rfl

theorem pow2_pos (n : Nat) : 0 < pow2 n := Nat.pow_pos (by decide)

@[simp] theorem pow10_zero : pow10 0 = 1 := rfl

theorem pow10_succ (n : Nat) : pow10 (n + 1) = pow10 n * 10 := rfl

theorem pow10_pos (n : Nat) : 0 < pow10 n := Nat.pow_pos (by decide)

end Stitchwork.Number
