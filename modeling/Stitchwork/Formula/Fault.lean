/- # Stitchwork.Formula.Fault — why a formula has no value.
-/

namespace Stitchwork.Formula

/-- The operation that met a zero divisor. -/
inductive ZeroDivide where
  | quotient
  | floorQuotient
  | remainder
  | floatQuotient
  | floatFloorQuotient
  | floatRemainder
  | negativePower
deriving DecidableEq, Repr

/-- What the operation reports. -/
def ZeroDivide.message : ZeroDivide → String
  | .quotient => "division by zero"
  | .floorQuotient => "integer division or modulo by zero"
  | .remainder => "integer modulo by zero"
  | .floatQuotient => "float division by zero"
  | .floatFloorQuotient => "float floor division by zero"
  | .floatRemainder => "float modulo"
  | .negativePower => "0.0 cannot be raised to a negative power"

/-- Why a formula has no value. -/
inductive Fault where
  /-- The text is not a formula. -/
  | malformed
  /-- The text holds codes that are no characters. -/
  | notCharacters
  /-- A name that neither the scope nor the functions know. -/
  | unknownName (name : String)
  /-- A zero divisor. -/
  | zeroDivide (how : ZeroDivide)
  /-- A choice with an index below one. -/
  | choiceBelowOne
  /-- A choice with an index beyond the last alternative. -/
  | choiceBeyond (index : String) (count : Nat)
  /-- An operation on values of kinds it does not take, or a call with wrong arguments. -/
  | wrongKind
  /-- A value of the right kind that the operation does not take. -/
  | wrongValue
  /-- A position outside a sequence. -/
  | outOfRange
  /-- A key that a mapping does not have. -/
  | missingKey
  /-- A number that is too large to be converted. -/
  | overflow
  /-- A sequence that is too long to be built. -/
  | tooLong
deriving DecidableEq, Repr

/-- The text of a fault, for those whose text is part of the report. -/
def Fault.reason? : Fault → Option String
  | .unknownName name => some ("name '" ++ name ++ "' is not defined")
  | .zeroDivide how => some how.message
  | .choiceBelowOne => some "Index must be 1 or greater for 'CHOOSE' function"
  | .choiceBeyond index count =>
    some ("Index " ++ index ++ " is out of range. Expected an index between 1 and " ++
      toString count)
  | _ => none

end Stitchwork.Formula
