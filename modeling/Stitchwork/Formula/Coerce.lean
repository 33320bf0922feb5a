/- # Stitchwork.Formula.Coerce — texts that say numbers become numbers.

Parameters and values are written as text.  A text that reads as an integer becomes one, else one that
reads as a number becomes a double, and any other stays a text.
-/
import Stitchwork.Formula.Fill
import Stitchwork.Number.Read

namespace Stitchwork.Formula

open Stitchwork.Number

/-- The number that a text says, or the text itself. -/
def coerce (s : String) : Value :=
  match readInt? s with
  | some n => .int n
  | none =>
    match readBinary64? s with
    | some x => .float x
    | none => .str s

/-- A value as an integer if it can be one: texts are read, numbers are cut off, and the undefined number
stays. -/
def Value.coerced : Value → Except Fault Value
  | .str s => .ok (coerce s)
  | .float .nan => .ok (.float .nan)
  | .undefined name path => .ok (.undefined name path)
  | v =>
    match v.numeric? with
    | some n => n.truncated.map .int
    | none => .error .wrongKind

end Stitchwork.Formula
