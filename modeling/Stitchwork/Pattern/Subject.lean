/- # Stitchwork.Pattern.Subject — what a definition is read from.
-/
import Stitchwork.Error
import Stitchwork.Markup.Node

namespace Stitchwork.Pattern

open Stitchwork.Markup

/-- What a definition can be read from; only an element will do. -/
inductive Subject where
  | element (e : Element)
  | otherNode
  | notANode
deriving Repr

/-- The element that defines a thing of the given kind. -/
def Subject.expect (kind : Kind) : Subject → Except Error Element
  | .element e =>
    if e.name == kind.tag then .ok e else .error (.unexpectedElement kind.tag e.name)
  | .otherNode => .error .notAnElement
  | .notANode => .error .wrongKind

end Stitchwork.Pattern
