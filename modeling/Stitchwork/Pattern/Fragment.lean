/- # Stitchwork.Pattern.Fragment — elements stored as text.

Definitions store the elements in them as text.  An element of a pattern is stored with the declaration of
its prefix, so that the text can be read on its own, and the declaration is taken off when it is used.
-/
import Stitchwork.Address
import Stitchwork.Markup.Reader
import Stitchwork.Markup.Writer

namespace Stitchwork.Pattern

open Stitchwork.Markup

/-- The attribute that declares the prefix of patterns. -/
def declaration : String := "xmlns:opaf"

/-- An element with the declaration on it.  An attribute that has the local name of the declaration gives
way to it. -/
def declare (e : Element) : Element :=
  if e.hasAttr declaration then e.setAttr declaration patternNamespace
  else (e.eraseAttr (localName declaration)).setAttr declaration patternNamespace

/-- A node with the declaration on it, if it is an element. -/
def declareNode (n : Node) : Node :=
  match n.element? with
  | some e => (declare e).toNode
  | none => n

/-- The texts of the elements among nodes. -/
def store (ns : List Node) : List String := (ns.filterMap Node.element?).map Element.write

/-- The element of a stored text. -/
def restore (s : String) : Except Error Element := (Markup.read s).mapError .markup

/-- The elements of stored texts. -/
def restoreAll (ss : List String) : Except Error (List Element) := ss.mapM restore

/-- The elements of stored texts without the declaration. -/
def restorePlain (ss : List String) : Except Error (List Node) := do
  let es ← restoreAll ss
  .ok (es.map fun e => (e.eraseAttr declaration).toNode)

end Stitchwork.Pattern
