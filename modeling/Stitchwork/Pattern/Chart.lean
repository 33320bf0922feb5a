/- # Stitchwork.Pattern.Chart — charts: rows of actions.
-/
import Stitchwork.Pattern.Fragment
import Stitchwork.Pattern.Grammar

namespace Stitchwork.Pattern

open Stitchwork.Markup

/-- The definition of a chart. -/
structure Chart where
  name : String
  rows : List String
  condition : Option String
deriving Repr, DecidableEq

namespace Chart

/-- Is the node a row? -/
def isRow : Node → Bool
  | .element name _ _ => localName name == "row"
  | _ => false

/-- Reads the definition of a chart; also gives the element as it is afterwards, checked and with the
declaration on its rows.  Only rows are kept in the chart. -/
def ofElement (e : Element) : Except Error (Chart × Element) := do
  let name := e.attr "name"
  if Text.hasChar name ':' then throw (.chartName name)
  let kept ← prune chartElements e.children
  let children := kept.map fun n => if isRow n then declareNode n else n
  .ok (⟨name, store (children.filter isRow), e.attr? "condition"⟩, { e with children := children })

/-- The element that defines the chart. -/
def toElement (c : Chart) : Except Error Element := do
  let ns ← restorePlain c.rows
  let head := element Kind.chart.tag
    (("name", c.name) :: (c.condition.map ("condition", ·)).toList)
  .ok (head.append ns)

end Chart

end Stitchwork.Pattern
