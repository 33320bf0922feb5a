/- # Stitchwork.Number.Shortest — the fewest decimal digits that name a number.

A finite positive number owns the interval of reals that round to it; its ends belong to it exactly if
its mantissa is even.  On each decimal grid, from the coarsest to the finest, the two neighbours of the
number are tried: the first grid with a neighbour inside the interval gives the digits, and of two
neighbours inside it the nearer one, or the even one if both are equally near.  Everything is compared by
cross-multiplication of naturals.
-/
import Stitchwork.Number.Binary64

namespace Stitchwork.Number

/-- The decimal `digits · 10 ^ exp`. -/
structure Decimal where
  digits : Nat
  exp : Int
deriving DecidableEq, Repr

/-- The interval of reals that round to a number, over a common denominator: the number is `mid / den`,
and the interval goes from `low / den` to `high / den`. -/
structure Interval where
  low : Nat
  mid : Nat
  high : Nat
  den : Nat
  closed : Bool

/-- The interval of the finite number with the given exponent and fraction.  Below a power of two the
numbers lie twice as close, so the lower end is nearer there. -/
def Interval.of (expo : Fin 2047) (frac : Fin fracSize) : Interval :=
  let mant := Binary64.mantOf expo frac
  let scale := Binary64.scaleOf expo
  let up := pow2 scale.toNat
  { low := (4 * mant - (if frac.val = 0 && 1 < expo.val then 1 else 2)) * up
    mid := 4 * mant * up
    high := (4 * mant + 2) * up
    den := 4 * pow2 (-scale).toNat
    closed := mant % 2 == 0 }

/-- Does `num / den` lie in the interval, for the same denominator times `k`?  The ends are scaled by
`k`. -/
def Interval.holds (i : Interval) (k num : Nat) : Bool :=
  if i.closed then i.low * k ≤ num && num ≤ i.high * k
  else i.low * k < num && num < i.high * k

/-- The number of decimal digits of a natural; zero has one. -/
def digitCount (n : Nat) : Nat := (Nat.toDigits 10 n).length

/-- The exponent `p` with `10 ^ (p - 1) ≤ num / den < 10 ^ p`, for positive `num` and `den`. -/
def decimalPoint (num den : Nat) : Int :=
  let p : Int := (digitCount num : Int) - digitCount den
  if num * pow10 (-p).toNat < den * pow10 p.toNat then p else p + 1

/-- The neighbour of the number on the grid of `n` digits that lies in the interval and is nearest, if
there is one. -/
def Interval.onGrid (i : Interval) (point : Int) (n : Nat) : Option Decimal :=
  -- A grid step is `10 ^ (point - n)`; multiplying by `scale / step` makes it one.
  let unit := point - n
  let scale := pow10 (-unit).toNat
  let step := i.den * pow10 unit.toNat
  let below := i.mid * scale / step
  match i.holds scale (below * step), i.holds scale ((below + 1) * step) with
  | true, true => some ⟨divHalfEven (i.mid * scale) step, unit⟩
  | true, false => some ⟨below, unit⟩
  | false, true => some ⟨below + 1, unit⟩
  | false, false => none

/-- The decimal with the fewest digits in the interval, tried for `n` up to `n + fuel` digits. -/
def Interval.search (i : Interval) (point : Int) : Nat → Nat → Decimal
  | n, 0 => ⟨i.mid * pow10 (n - point).toNat / (i.den * pow10 (point - n).toNat), point - n⟩
  | n, fuel + 1 => (i.onGrid point n).getD (i.search point (n + 1) fuel)

/-- The shortest decimal of a positive finite number; seventeen digits are always enough. -/
def shortest (expo : Fin 2047) (frac : Fin fracSize) : Decimal :=
  let i := Interval.of expo frac
  i.search (decimalPoint i.mid i.den) 1 17

end Stitchwork.Number
