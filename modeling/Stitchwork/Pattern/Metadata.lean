/- # Stitchwork.Pattern.Metadata — what a pattern says about itself.
-/
import Stitchwork.Pattern.Fragment
import Stitchwork.Pattern.Grammar

namespace Stitchwork.Pattern

open Stitchwork.Markup

/-- The metadata of a pattern. -/
structure Metadata where
  elements : List String
deriving Repr, DecidableEq

namespace Metadata

/-- Reads metadata; also gives the element as it is afterwards. -/
def ofElement (e : Element) : Except Error (Metadata × Element) := do
  let kept ← pruneMetadata e.children
  .ok (⟨store kept⟩, { e with children := kept })

/-- The element of the metadata. -/
def toElement (m : Metadata) : Except Error Element := do
  let es ← restoreAll m.elements
  .ok ((element Kind.metadata.tag []).append (es.map Element.toNode))

end Metadata

end Stitchwork.Pattern
