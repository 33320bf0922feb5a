/- # Stitchwork.Number.Binary64 — double-precision numbers, exactly.

A finite number is a sign, a biased exponent and a fraction, so that every triple is a number and no
number has two triples.  Its magnitude is `mant · 2 ^ scale`.  Every operation is carried out on exact
integers and rounded once, by `ofRatio`: to the nearest number, to the even neighbour from the middle,
and to infinity from beyond the largest number.
-/
import Stitchwork.Number.Power

namespace Stitchwork.Number

/-- `a / b` to the nearest integer, the even one from the middle. -/
def divHalfEven (a b : Nat) : Nat :=
  let q := a / b
  let r := a % b
  if 2 * r < b then q
  else if b < 2 * r then q + 1
  else if q % 2 == 0 then q else q + 1

/-- A double-precision number: not a number, an infinity, or a finite one. -/
inductive Binary64 where
  | nan
  | inf (neg : Bool)
  | finite (neg : Bool) (expo : Fin 2047) (frac : Fin fracSize)
deriving DecidableEq, Repr

namespace Binary64

/-- The integer part of the magnitude `mant · 2 ^ scale` of a finite number. -/
def mantOf (expo : Fin 2047) (frac : Fin fracSize) : Nat :=
  if expo.val = 0 then frac.val else fracSize + frac.val

/-- The power of two in the magnitude of a finite number. -/
def scaleOf (expo : Fin 2047) : Int :=
  if expo.val = 0 then -1074 else (expo.val : Int) - 1075

/-- Zero with a sign. -/
def zero (neg : Bool) : Binary64 := .finite neg 0 0

/-- The number with magnitude `mant · 2 ^ scale`, for `mant ≤ 2 ^ 53` and a scale of at least `-1074`
that is `-1074` unless `2 ^ 52 ≤ mant`. -/
def pack (neg : Bool) (mant : Nat) (scale : Int) : Binary64 :=
  if mant < fracSize then .finite neg 0 (Fin.ofNat fracSize mant)
  else
    let expo := if mant < 2 * fracSize then scale + 1075 else scale + 1076
    if expo < 2047 then .finite neg (Fin.ofNat 2047 expo.toNat) (Fin.ofNat fracSize (mant - fracSize))
    else .inf neg

/-- The exponent `e` with `2 ^ e ≤ num / den < 2 ^ (e + 1)`, for positive `num` and `den`. -/
def binaryExponent (num den : Nat) : Int :=
  let e : Int := (num.log2 : Int) - den.log2
  if den * pow2 e.toNat ≤ num * pow2 (-e).toNat then e else e - 1

/-- The number nearest to `num / den`, with a sign; `den` is positive. -/
def ofRatio (neg : Bool) (num den : Nat) : Binary64 :=
  if num = 0 then zero neg
  else
    let scale := max (binaryExponent num den - 52) (-1074)
    pack neg (divHalfEven (num * pow2 (-scale).toNat) (den * pow2 scale.toNat)) scale

/-- The number nearest to `mant · 2 ^ scale`. -/
def ofScaled (neg : Bool) (mant : Nat) (scale : Int) : Binary64 :=
  ofRatio neg (mant * pow2 scale.toNat) (pow2 (-scale).toNat)

/-- The number nearest to an integer. -/
def ofInt (n : Int) : Binary64 := ofRatio (n < 0) n.natAbs 1

/-- Is the number neither infinite nor undefined? -/
def isFinite : Binary64 → Bool
  | .finite .. => true
  | _ => false

/-- Is the number a zero of either sign? -/
def isZero : Binary64 → Bool
  | .finite _ expo frac => expo.val = 0 && frac.val = 0
  | _ => false

/-- Is the sign negative?  An undefined number has none. -/
def signBit : Binary64 → Bool
  | .nan => false
  | .inf neg => neg
  | .finite neg _ _ => neg

/-- The same magnitude with the given sign. -/
def withSign (neg : Bool) : Binary64 → Binary64
  | .nan => .nan
  | .inf _ => .inf neg
  | .finite _ expo frac => .finite neg expo frac

/-- The number with the other sign. -/
def neg (x : Binary64) : Binary64 := x.withSign (!x.signBit)

/-- The number without its sign. -/
def abs (x : Binary64) : Binary64 := x.withSign false

/-! ## Exact integers over a common scale -/

/-- A signed integer from a sign and a magnitude. -/
def signed (neg : Bool) (n : Nat) : Int := if neg then -(n : Int) else n

/-- The integer multiple of `2 ^ scale` that a magnitude `mant · 2 ^ own` is, for `scale ≤ own`. -/
def rescale (mant : Nat) (own scale : Int) : Nat := mant * pow2 (own - scale).toNat

/-- The sum of two numbers. -/
def add : Binary64 → Binary64 → Binary64
  | .nan, _ => .nan
  | _, .nan => .nan
  | .inf a, .inf b => if a = b then .inf a else .nan
  | .inf a, _ => .inf a
  | _, .inf b => .inf b
  | .finite na ea fa, .finite nb eb fb =>
    let scale := min (scaleOf ea) (scaleOf eb)
    let sum := signed na (rescale (mantOf ea fa) (scaleOf ea) scale) +
      signed nb (rescale (mantOf eb fb) (scaleOf eb) scale)
    if sum = 0 then zero (na && nb) else ofScaled (sum < 0) sum.natAbs scale

/-- The difference of two numbers. -/
def sub (x y : Binary64) : Binary64 := x.add y.neg

/-- The product of two numbers. -/
def mul : Binary64 → Binary64 → Binary64
  | .nan, _ => .nan
  | _, .nan => .nan
  | .inf a, y => if y.isZero then .nan else .inf (a != y.signBit)
  | x, .inf b => if x.isZero then .nan else .inf (x.signBit != b)
  | .finite na ea fa, .finite nb eb fb =>
    ofScaled (na != nb) (mantOf ea fa * mantOf eb fb) (scaleOf ea + scaleOf eb)

/-- The quotient of two numbers; the quotient by zero is infinite or undefined. -/
def div : Binary64 → Binary64 → Binary64
  | .nan, _ => .nan
  | _, .nan => .nan
  | .inf _, .inf _ => .nan
  | .inf a, y => .inf (a != y.signBit)
  | x, .inf b => zero (x.signBit != b)
  | .finite na ea fa, .finite nb eb fb =>
    if mantOf eb fb = 0 then
      if mantOf ea fa = 0 then .nan else .inf (na != nb)
    else
      let scale := min (scaleOf ea) (scaleOf eb)
      ofRatio (na != nb) (rescale (mantOf ea fa) (scaleOf ea) scale)
        (rescale (mantOf eb fb) (scaleOf eb) scale)

/-- The remainder of the division that cuts the quotient off towards zero; it has the sign of the
dividend and is exact. -/
def truncRem : Binary64 → Binary64 → Binary64
  | .nan, _ => .nan
  | _, .nan => .nan
  | .inf _, _ => .nan
  | x, .inf _ => x
  | .finite na ea fa, .finite _ eb fb =>
    if mantOf eb fb = 0 then .nan
    else
      let scale := min (scaleOf ea) (scaleOf eb)
      ofScaled na
        (rescale (mantOf ea fa) (scaleOf ea) scale % rescale (mantOf eb fb) (scaleOf eb) scale) scale

/-! ## Order -/

/-- Compares two numbers; nothing compares with an undefined one. -/
def compare? : Binary64 → Binary64 → Option Ordering
  | .nan, _ => none
  | _, .nan => none
  | .inf a, .inf b => some (if a = b then .eq else if a then .lt else .gt)
  | .inf a, _ => some (if a then .lt else .gt)
  | _, .inf b => some (if b then .gt else .lt)
  | .finite na ea fa, .finite nb eb fb =>
    let scale := min (scaleOf ea) (scaleOf eb)
    some (Ord.compare (signed na (rescale (mantOf ea fa) (scaleOf ea) scale))
      (signed nb (rescale (mantOf eb fb) (scaleOf eb) scale)))

/-- Compares a number with an integer, exactly. -/
def compareInt? : Binary64 → Int → Option Ordering
  | .nan, _ => none
  | .inf a, _ => some (if a then .lt else .gt)
  | .finite na ea fa, n =>
    some (Ord.compare (signed na (mantOf ea fa * pow2 (scaleOf ea).toNat))
      (n * (pow2 (-scaleOf ea).toNat : Int)))

/-! ## Integers near a number -/

/-- Applies a rule for rounding a fraction of naturals to the magnitude of a finite number. -/
def toIntBy (rule : Bool → Nat → Nat → Nat) : Binary64 → Option Int
  | .finite neg expo frac =>
    some (signed neg (rule neg (mantOf expo frac * pow2 (scaleOf expo).toNat)
      (pow2 (-scaleOf expo).toNat)))
  | _ => none

/-- `a / b` to the next integer above. -/
def divUp (a b : Nat) : Nat := (a + (b - 1)) / b

/-- The integer part, towards zero. -/
def trunc? (x : Binary64) : Option Int := x.toIntBy fun _ a b => a / b

/-- The greatest integer that is not above the number. -/
def floor? (x : Binary64) : Option Int := x.toIntBy fun neg a b => if neg then divUp a b else a / b

/-- The least integer that is not below the number. -/
def ceil? (x : Binary64) : Option Int := x.toIntBy fun neg a b => if neg then a / b else divUp a b

/-- The nearest integer, the even one from the middle. -/
def round? (x : Binary64) : Option Int := x.toIntBy fun _ a b => divHalfEven a b

/-! ## Floored division -/

/-- The number rounded down to an integer, with its sign if it is a zero. -/
def floorKeepingSign (x : Binary64) : Binary64 :=
  match x.floor? with
  | some n => if n = 0 then zero x.signBit else ofInt n
  | none => x

/-- The remainder with the sign of the divisor.  It is the truncated remainder, to which the divisor is
added, with rounding, where the signs differ. -/
def floorRem (x y : Binary64) : Binary64 :=
  let r := x.truncRem y
  if r.isZero then zero y.signBit
  else if r = .nan then r
  else if r.signBit != y.signBit then r.add y else r

/-- The quotient rounded down.  It is found from the remainder, so it is an integer that can be one off
where the exact quotient is not representable. -/
def floorDiv (x y : Binary64) : Binary64 :=
  let r := x.truncRem y
  let q := (x.sub r).div y
  let q := if !r.isZero && r != .nan && r.signBit != y.signBit then q.sub (ofInt 1) else q
  if q.isZero then zero (x.signBit != y.signBit)
  else
    let f := q.floorKeepingSign
    match (q.sub f).compare? (ofRatio false 1 2) with
    | some .gt => f.add (ofInt 1)
    | _ => f

/-! ## Machine numbers -/

/-- The machine's double with this value. -/
def toFloat : Binary64 → Float
  | .nan => Float.ofBits 0x7FF8000000000000
  | .inf neg => Float.ofBits (if neg then 0xFFF0000000000000 else 0x7FF0000000000000)
  | .finite neg expo frac =>
    Float.ofBits (UInt64.ofNat ((if neg then wordSize else 0) + expo.val * fracSize + frac.val))

/-- The value of a machine's double. -/
def ofFloat (x : Float) : Binary64 :=
  let bits := x.toBits.toNat
  let neg := wordSize ≤ bits
  let expo := bits / fracSize % 2048
  if expo = 2047 then
    if bits % fracSize = 0 then .inf neg else .nan
  else .finite neg (Fin.ofNat 2047 expo) (Fin.ofNat fracSize bits)

/-- Is the number an odd integer? -/
def isOddInteger (x : Binary64) : Bool :=
  match x.floor?, x.ceil? with
  | some a, some b => a = b && a % 2 = 1
  | _, _ => false

/-- Is the number an integer? -/
def isInteger (x : Binary64) : Bool := x.isFinite && x.floor? = x.ceil?

/-- A power with a base that is positive and finite and a finite exponent, taken from the machine. -/
def machinePow (x y : Binary64) : Binary64 := ofFloat (Float.pow x.toFloat y.toFloat)

end Binary64

end Stitchwork.Number
