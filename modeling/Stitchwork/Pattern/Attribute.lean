/- # Stitchwork.Pattern.Attribute — attributes that definitions have in common.
-/
import Stitchwork.Error
import Stitchwork.Markup.Node
import Stitchwork.Text.Blank

namespace Stitchwork.Pattern

open Stitchwork.Markup

/-- Does a text say that something is so? -/
def saysTrue (s : String) : Bool := Text.lower s == "true"

/-- A truth value as text. -/
def boolText (b : Bool) : String := if b then "true" else "false"

/-- The attribute with the given name, unless its text is missing or empty. -/
def attrIfGiven (name : String) (text : Option String) : List (String × String) :=
  match text with
  | some s => if s.isEmpty then [] else [(name, s)]
  | none => []

/-- The identifier that an element gives, or a fresh one. -/
def uniqueIdOf (e : Element) : Work String :=
  match e.attr? "unique_id" with
  | some id => pure id
  | none => freshIdentifier

end Stitchwork.Pattern
