/- # Stitchwork.Pattern.Component — components: the parts that a pattern is made of.
-/
import Stitchwork.Pattern.Attribute
import Stitchwork.Pattern.Fragment
import Stitchwork.Pattern.Grammar

namespace Stitchwork.Pattern

open Stitchwork.Markup

/-- A component of a pattern. -/
structure Component where
  name : String
  uniqueId : Option String
  /-- The texts of the elements, if any were given. -/
  elements : Option (List String)
  condition : Option String
deriving Repr, DecidableEq

namespace Component

/-- Reads a component; also gives the element as it is afterwards, checked and with the declaration on its
children. -/
def ofElement (e : Element) : Work (Component × Element) := do
  let id ← uniqueIdOf e
  let kept ← liftExcept (prune [] e.children)
  let children := kept.map declareNode
  return (⟨e.attr "name", some id, some (store children), e.attr? "condition"⟩,
    { e with children := children })

/-- The element that defines the component. -/
def toElement (c : Component) : Except Error Element :=
  match c.elements with
  | none => .error .wrongKind
  | some texts => do
    let ns ← restorePlain texts
    let head := element Kind.component.tag
      ([("name", c.name), ("unique_id", c.uniqueId.getD "")] ++
        (c.condition.map ("condition", ·)).toList)
    .ok (head.append ns)

end Component

end Stitchwork.Pattern
