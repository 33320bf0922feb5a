/- # Stitchwork.Pattern.Action — actions: what is done to stitches.

An action has parameters and the elements that a use of it becomes.
-/
import Stitchwork.Pattern.Attribute
import Stitchwork.Pattern.Fragment
import Stitchwork.Pattern.Params

namespace Stitchwork.Pattern

open Stitchwork.Formula Stitchwork.Markup

/-- The definition of an action. -/
structure Action where
  name : String
  custom : Bool
  params : Table Value
  /-- The texts of the elements, if any were given. -/
  elements : Option (List String)
deriving Repr

namespace Action

/-- Reads the definition of an action. -/
def ofElement (e : Element) : Action where
  name := e.attr "name"
  custom := saysTrue (e.attr "custom")
  params := readActionParams (e.attr "params")
  elements := some ((descendants "action" e.children).map Element.write)

/-- The element that defines the action. -/
def toElement (a : Action) : Except Error Element := do
  let params ← writeParams a.params
  match a.elements with
  | none => .error .wrongKind
  | some texts =>
    let es ← restoreAll texts
    let head := element Kind.action.tag
      ([("name", a.name), ("custom", boolText a.custom)] ++
        if a.params.isEmpty then [] else [("params", params)])
    .ok (head.append (es.map Element.toNode))

end Action

end Stitchwork.Pattern
