/- # Stitchwork.Markup.Writer — trees as text.

Four characters are escaped, in texts and in attributes alike; nothing else is, so a line end in an
attribute is written as it is.
-/
import Stitchwork.Markup.Node

namespace Stitchwork.Markup

/-- A character as it is written in texts and attributes. -/
def escapeChar (c : Char) : List Char :=
  if c == '&' then "&amp;".toList
  else if c == '<' then "&lt;".toList
  else if c.toNat == 0x22 then "&quot;".toList
  else if c == '>' then "&gt;".toList
  else [c]

/-- A text with its special characters escaped. -/
def escape (s : List Char) : List Char := s.flatMap escapeChar

/-- An attribute with the blank in front of it. -/
def writeAttr (a : String × String) : List Char :=
  ' ' :: (a.1.toList ++ "=\"".toList ++ escape a.2.toList ++ "\"".toList)

/-- The name of an element with its attributes. -/
def writeHead (name : String) (attrs : Table String) : List Char :=
  '<' :: (name.toList ++ attrs.entries.flatMap writeAttr)

mutual

/-- A node as text. -/
def writeNode : Node → List Char
  | .element name attrs [] => writeHead name attrs ++ "/>".toList
  | .element name attrs (n :: ns) =>
    writeHead name attrs ++ '>' :: (writeNode n ++ writeNodes ns ++ "</".toList ++ name.toList ++ ['>'])
  | .text s => escape s.toList
  | .cdata s => "<![CDATA[".toList ++ s.toList ++ "]]>".toList
  | .comment s => "<!--".toList ++ s.toList ++ "-->".toList
  | .instruction target data => "<?".toList ++ target.toList ++ ' ' :: data.toList ++ "?>".toList

/-- Nodes as text, one behind the other. -/
def writeNodes : List Node → List Char
  | [] => []
  | n :: ns => writeNode n ++ writeNodes ns

end

/-- An element as text. -/
def Element.write (e : Element) : String := String.ofList (writeNode e.toNode)

/-- A document as text: a declaration and the root. -/
def writeDocument (root : Element) : String := "<?xml version=\"1.0\" ?>" ++ root.write

end Stitchwork.Markup
