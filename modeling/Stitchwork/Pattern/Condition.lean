/- # Stitchwork.Pattern.Condition — conditions on definitions and elements.

A condition is a text with formulas.  It holds if it expands to `true`, in any case, and does not if it
expands to `false`; anything else is an error.
-/
import Stitchwork.Error
import Stitchwork.Markup.Node

namespace Stitchwork.Pattern

open Stitchwork.Formula Stitchwork.Markup

/-- A text with its formulas replaced. -/
def expandText (scope : Scope) (s : String) : Except Error String :=
  (expand scope s).mapError .template

/-- Does the condition hold? -/
def holds (scope : Scope) (condition : String) : Except Error Bool := do
  let s ← expandText scope condition
  match saysTruth? s with
  | some b => .ok b
  | none => .error (.undecided condition)

/-- Does a condition hold that need not be given?  One that is empty counts as not given. -/
def holdsIfGiven (scope : Scope) (condition : Option String) : Except Error Bool :=
  match condition with
  | some c => if c.isEmpty then .ok true else holds scope c
  | none => .ok true

/-- Does the condition of an element hold, if it has one? -/
def elementHolds (scope : Scope) (e : Element) : Except Error Bool :=
  holdsIfGiven scope (e.attr? "condition")

end Stitchwork.Pattern
