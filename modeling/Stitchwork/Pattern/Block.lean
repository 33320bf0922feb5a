/- # Stitchwork.Pattern.Block — blocks: parts of a pattern with parameters.
-/
import Stitchwork.Pattern.Fragment
import Stitchwork.Pattern.Grammar
import Stitchwork.Pattern.Params

namespace Stitchwork.Pattern

open Stitchwork.Formula Stitchwork.Markup

/-- The definition of a block. -/
structure Block where
  name : String
  elements : List String
  params : Table Value
deriving Repr

namespace Block

/-- Reads the definition of a block; also gives the element as it is afterwards, checked and with the
declaration on its children. -/
def ofElement (e : Element) : Except Error (Block × Element) := do
  let kept ← prune [] e.children
  let children := kept.map declareNode
  .ok (⟨e.attr "name", store children, readBlockParams (e.attr "params")⟩,
    { e with children := children })

/-- The element that defines the block. -/
def toElement (b : Block) : Except Error Element := do
  let params ← writeParams b.params
  let ns ← restorePlain b.elements
  let head := element Kind.block.tag
    (("name", b.name) :: if b.params.isEmpty then [] else [("params", params)])
  .ok (head.append ns)

end Block

end Stitchwork.Pattern
