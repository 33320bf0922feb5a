/- # Stitchwork.Number.Read — reading numbers from text.

A number may have white space around it and a sign in front.  Its digits may be of any script, and a
single underscore may stand between two of them.  What looks like an integer is one unless it has too
many digits; a text that is no integer may still be a decimal, with a point or an exponent, or one of the
words for infinity and for the undefined number.  A decimal is rounded once, to the nearest number.
-/
import Stitchwork.Number.Written
import Stitchwork.Text.Blank
import Stitchwork.Text.Case
import Stitchwork.Text.Digit

namespace Stitchwork.Number

open Stitchwork.Text

/-- Digits of any script as plain digits; other characters stay. -/
def plainDigits (s : List Char) : List Char :=
  s.map fun c =>
    match digitValue? c with
    | some d => Char.ofNat ('0'.toNat + d)
    | none => c

/-- A sign at the front, and the rest. -/
def takeSign : List Char → Bool × List Char
  | '-' :: rest => (true, rest)
  | '+' :: rest => (false, rest)
  | rest => (false, rest)

/-- The longest run of digits with single underscores between them at the front, without the
underscores, and the rest. -/
def takeDigits : List Char → List Char × List Char
  | [] => ([], [])
  | '_' :: rest => ([], '_' :: rest)
  | c :: '_' :: d :: rest =>
    if isPlainDigit c then
      if isPlainDigit d then
        let (ds, after) := takeDigits (d :: rest)
        (c :: ds, after)
      else ([c], '_' :: d :: rest)
    else ([], c :: '_' :: d :: rest)
  | c :: rest =>
    if isPlainDigit c then
      let (ds, after) := takeDigits rest
      (c :: ds, after)
    else ([], c :: rest)

/-- The value of plain digits. -/
def digitsValue (ds : List Char) : Nat := ds.foldl (fun n c => 10 * n + plainDigit c) 0

/-- Reads an integer. -/
def readInt? (s : String) : Option Int :=
  let (neg, body) := takeSign (plainDigits (trimBy isNumberBlank s.toList))
  match takeDigits body with
  | ([], _) => none
  | (ds, []) =>
    if maxDigits < ds.length then none
    else some (Binary64.signed neg (digitsValue ds))
  | _ => none

/-- The number nearest to `digits · 10 ^ exp`.  A value of `10 ^ 310` or more is infinite and one below
`10 ^ -330` is zero, so the power is never taken of a large exponent. -/
def Binary64.ofDecimal (neg : Bool) (digits : Nat) (exp : Int) : Binary64 :=
  if digits = 0 then zero neg
  else
    let point := exp + digitCount digits
    if 310 < point then .inf neg
    else if point < -330 then zero neg
    else ofRatio neg (digits * pow10 exp.toNat) (pow10 (-exp).toNat)

/-- An exponent at the front, zero if there is none, and the rest. -/
def takeExponent : List Char → Option (Int × List Char)
  | c :: rest =>
    if c == 'e' || c == 'E' then
      let (neg, body) := takeSign rest
      match takeDigits body with
      | ([], _) => none
      | (ds, after) => some (Binary64.signed neg (digitsValue ds), after)
    else some (0, c :: rest)
  | [] => some (0, [])

/-- An unsigned decimal at the front: digits, perhaps with a point among or beside them, and perhaps an
exponent. -/
def takeDecimal (s : List Char) : Option (Nat × Int × List Char) :=
  let (whole, rest) := takeDigits s
  let (part, rest) := match rest with
    | '.' :: after => takeDigits after
    | _ => ([], rest)
  if whole.isEmpty && part.isEmpty then none
  else (takeExponent rest).map fun (e, after) => (digitsValue (whole ++ part), e - part.length, after)

/-- Reads a number that need not be an integer. -/
def readBinary64? (s : String) : Option Binary64 :=
  let (neg, body) := takeSign (plainDigits (trimBy isNumberBlank s.toList))
  let word := String.ofList (body.map lowerSimple)
  if word == "inf" || word == "infinity" then some (.inf neg)
  else if word == "nan" then some .nan
  else match takeDecimal body with
    | some (digits, exp, []) => some (.ofDecimal neg digits exp)
    | _ => none

end Stitchwork.Number
