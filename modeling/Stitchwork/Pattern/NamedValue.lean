/- # Stitchwork.Pattern.NamedValue — values that a pattern computes and names.
-/
import Stitchwork.Pattern.Attribute

namespace Stitchwork.Pattern

open Stitchwork.Markup

/-- The definition of a value. -/
structure NamedValue where
  name : String
  value : String
  uniqueId : Option String
  condition : Option String
deriving Repr, DecidableEq

namespace NamedValue

/-- Reads the definition of a value. -/
def ofElement (e : Element) : Work NamedValue := do
  let id ← uniqueIdOf e
  return ⟨e.attr "name", e.attr "value", some id, e.attr? "condition"⟩

/-- The element that defines the value. -/
def toElement (v : NamedValue) : Element :=
  element Kind.value.tag
    ([("unique_id", v.uniqueId.getD ""), ("name", v.name), ("value", v.value)] ++
      attrIfGiven "condition" v.condition)

end NamedValue

end Stitchwork.Pattern
