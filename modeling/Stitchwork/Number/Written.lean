/- # Stitchwork.Number.Written — how numbers are written.

Integers are written in decimal.  Other numbers are written with the fewest digits that read back: as a
plain decimal with at least one digit on each side of the point from `10⁻⁴` up to `10¹⁶`, otherwise with an
exponent that has a sign and at least two digits.
-/
import Stitchwork.Number.Shortest

namespace Stitchwork.Number

/-- The longest integer, in digits, that can be written as text or read from it. -/
def maxDigits : Nat := 4300

/-- The decimal text of a natural. -/
def natText (n : Nat) : String := String.ofList (Nat.toDigits 10 n)

/-- The decimal text of an integer. -/
def intText (n : Int) : String := if n < 0 then "-" ++ natText n.natAbs else natText n.natAbs

/-- The decimal text of an integer, unless it has too many digits. -/
def intText? (n : Int) : Option String :=
  if n.natAbs < pow10 maxDigits then some (intText n) else none

/-- Digits without the zeros at their end. -/
def dropTrailingZeros (ds : List Char) : List Char := (ds.reverse.dropWhile (· == '0')).reverse

/-- An exponent with its sign and at least two digits. -/
def exponentText (e : Int) : List Char :=
  let ds := Nat.toDigits 10 e.natAbs
  (if e < 0 then '-' else '+') :: (if ds.length < 2 then '0' :: ds else ds)

/-- The text of the positive decimal `0.ds · 10 ^ point`. -/
def layout (ds : List Char) (point : Int) : List Char :=
  if -4 < point && point ≤ 16 then
    if point ≤ 0 then '0' :: '.' :: (List.replicate (-point).toNat '0' ++ ds)
    else
      let n := point.toNat
      if ds.length ≤ n then ds ++ List.replicate (n - ds.length) '0' ++ ['.', '0']
      else ds.take n ++ '.' :: ds.drop n
  else
    match ds with
    | [] => []
    | [d] => d :: 'e' :: exponentText (point - 1)
    | d :: rest => d :: '.' :: (rest ++ 'e' :: exponentText (point - 1))

/-- The text of a positive decimal. -/
def Decimal.text (d : Decimal) : List Char :=
  let ds := Nat.toDigits 10 d.digits
  layout (dropTrailingZeros ds) (d.exp + ds.length)

namespace Binary64

/-- The text of a number without its sign. -/
def magnitudeText : Binary64 → List Char
  | .nan => ['n', 'a', 'n']
  | .inf _ => ['i', 'n', 'f']
  | .finite _ expo frac =>
    if expo.val = 0 && frac.val = 0 then ['0', '.', '0'] else (shortest expo frac).text

/-- The text of a number. -/
def text (x : Binary64) : String :=
  String.ofList (if x.signBit then '-' :: x.magnitudeText else x.magnitudeText)

end Binary64

end Stitchwork.Number
