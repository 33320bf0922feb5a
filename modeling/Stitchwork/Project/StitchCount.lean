/- # Stitchwork.Project.StitchCount — how many stitches a project works.

An action works as many stitches as its total says, a repeat with a count those of its content as often as
the count says, and everything else none.
-/
import Stitchwork.Error
import Stitchwork.Markup.Node
import Stitchwork.Number.Read

namespace Stitchwork.Project

open Stitchwork.Markup

/-- The integer that an attribute says. -/
def integerOf (s : String) : Except Error Int :=
  match Number.readInt? s with
  | some n => .ok n
  | none => .error .wrongValue

mutual

/-- The stitches of nodes. -/
def countStitches : List Node → Except Error Int
  | [] => .ok 0
  | x :: xs => do
    let m ← countNode x
    let n ← countStitches xs
    .ok (m + n)

/-- The stitches of a node, which must be an element. -/
def countNode : Node → Except Error Int
  | .element name attrs children =>
    if name == "action" then
      match attrs.get? "total" with
      | some s => integerOf s
      | none => .ok 0
    else if name == "repeat" then
      match attrs.get? "count" with
      | some s => do
        let k ← integerOf s
        let n ← countStitches children
        .ok (k * n)
      | none => .ok 0
    else .ok 0
  | .text _ => .error .absent
  | .cdata _ => .error .absent
  | .comment _ => .error .absent
  | .instruction _ _ => .error .absent

end

end Stitchwork.Project
