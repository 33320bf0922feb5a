/- # Stitchwork.Markup.Node — trees of markup.

An element has a name, attributes in order, and children.  A name may have a prefix in front of a colon;
only its text matters, never what the prefix is bound to.
-/
import Stitchwork.Table
import Stitchwork.Text.Pieces

namespace Stitchwork.Markup

open Stitchwork

/-- A node of a tree. -/
inductive Node where
  | element (name : String) (attrs : Table String) (children : List Node)
  | text (s : String)
  | cdata (s : String)
  | comment (s : String)
  | instruction (target data : String)
deriving Repr, Inhabited

/-- An element, by its parts. -/
structure Element where
  name : String
  attrs : Table String
  children : List Node
deriving Repr, Inhabited

/-- The element that a node is. -/
def Node.element? : Node → Option Element
  | .element name attrs children => some ⟨name, attrs, children⟩
  | _ => none

/-- Is the node an element? -/
def Node.isElement (n : Node) : Bool := n.element?.isSome

namespace Element

/-- An element as a node. -/
def toNode (e : Element) : Node := .element e.name e.attrs e.children

@[simp] theorem element?_toNode (e : Element) : e.toNode.element? = some e := rfl

/-- The text of an attribute; an attribute that is not there has the empty text. -/
def attr (e : Element) (k : String) : String := (e.attrs.get? k).getD ""

/-- The text of an attribute, if it is there. -/
def attr? (e : Element) (k : String) : Option String := e.attrs.get? k

/-- Is the attribute there? -/
def hasAttr (e : Element) (k : String) : Bool := e.attrs.contains k

/-- Sets an attribute. -/
def setAttr (e : Element) (k v : String) : Element := { e with attrs := e.attrs.insert k v }

/-- Removes an attribute. -/
def eraseAttr (e : Element) (k : String) : Element := { e with attrs := e.attrs.erase k }

/-- Puts a node behind the children. -/
def push (e : Element) (n : Node) : Element := { e with children := e.children ++ [n] }

/-- Puts nodes behind the children. -/
def append (e : Element) (ns : List Node) : Element := { e with children := e.children ++ ns }

/-- The children that are elements. -/
def elements (e : Element) : List Element := e.children.filterMap Node.element?

end Element

/-- The name of an element without children and with attributes set in the given order. -/
def element (name : String) (attrs : List (String × String)) : Element :=
  ⟨name, Table.ofList attrs, []⟩

/-! ## Looking below -/

mutual

/-- The elements with the given name among nodes and below them, in document order. -/
def descendants (name : String) : List Node → List Element
  | [] => []
  | n :: ns => selfAndDescendants name n ++ descendants name ns

/-- The node, if it is an element with the given name, and such elements below it. -/
def selfAndDescendants (name : String) : Node → List Element
  | .element tag attrs children =>
    if tag == name then ⟨tag, attrs, children⟩ :: descendants name children
    else descendants name children
  | _ => []

end

/-! ## Names -/

/-- The prefix of a name and its local part. -/
def splitName (name : String) : Option String × String :=
  match Text.cut name ":" with
  | [p, l] => (some p, l)
  | _ => (none, name)

/-- The part of a name in front of the colon. -/
def prefixOf (name : String) : Option String := (splitName name).1

/-- The part of a name behind the colon. -/
def localName (name : String) : String := (splitName name).2

end Stitchwork.Markup
