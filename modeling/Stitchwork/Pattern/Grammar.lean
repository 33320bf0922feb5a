/- # Stitchwork.Pattern.Grammar — which elements may stand in a definition.

Checking a definition removes everything from it that is not an element, at every depth, and refuses
elements that patterns do not have.  Metadata is checked by other rules: it has its own elements, and those
that hold prose are left as they are.
-/
import Stitchwork.Error
import Stitchwork.Markup.Node

namespace Stitchwork.Pattern

open Stitchwork.Markup

/-- The prefix of the elements of a pattern. -/
def patternPrefix : String := "opaf"

/-- The local names of the elements of a pattern. -/
def patternElements : List String :=
  ["define_action", "define_block", "define_chart", "define_color", "define_image", "define_value",
   "action", "block", "component", "image", "instruction", "repeat", "row", "text"]

/-- The local names of the elements of a chart. -/
def chartElements : List String := ["action", "repeat", "row"]

/-- The local names of the elements of metadata. -/
def metadataElements : List String :=
  ["changelog", "color", "copyright", "description", "designer", "element", "gauge", "image", "link",
   "measurement", "needle", "note", "notion", "published", "title", "schematic", "size", "tag",
   "technique", "yarn"]

/-- The local names of the elements of metadata that hold prose. -/
def proseElements : List String :=
  ["changelog", "copyright", "description", "published", "tag", "title"]

/-- Refuses an element by its name; a list of allowed names that is empty allows all. -/
def checkName (allowed : List String) (name : String) : Except Error Unit :=
  if prefixOf name != some patternPrefix || !patternElements.contains (localName name) then
    .error (.unknownElement name)
  else if !allowed.isEmpty && !allowed.contains (localName name) then
    .error (.misplacedElement name)
  else .ok ()

mutual

/-- Checks nodes and keeps the elements among them. -/
def prune (allowed : List String) : List Node → Except Error (List Node)
  | [] => .ok []
  | n :: ns => do
    let kept ← pruneNode allowed n
    let rest ← prune allowed ns
    .ok (kept ++ rest)

/-- Checks a node and what is below it; only an element is kept. -/
def pruneNode (allowed : List String) : Node → Except Error (List Node)
  | .element name attrs children => do
    checkName allowed name
    let kept ← prune allowed children
    .ok [.element name attrs kept]
  | .text _ => .ok []
  | .cdata _ => .ok []
  | .comment _ => .ok []
  | .instruction _ _ => .ok []

end

mutual

/-- Checks nodes of metadata and keeps the elements among them. -/
def pruneMetadata : List Node → Except Error (List Node)
  | [] => .ok []
  | n :: ns => do
    let kept ← pruneMetadataNode n
    let rest ← pruneMetadata ns
    .ok (kept ++ rest)

/-- Checks a node of metadata and, unless it holds prose, what is below it; only an element is kept. -/
def pruneMetadataNode : Node → Except Error (List Node)
  | .element name attrs children =>
    if !metadataElements.contains (localName name) then .error (.unknownElement name)
    else if proseElements.contains (localName name) then .ok [.element name attrs children]
    else do
      let kept ← pruneMetadata children
      .ok [.element name attrs kept]
  | .text _ => .ok []
  | .cdata _ => .ok []
  | .comment _ => .ok []
  | .instruction _ _ => .ok []

end

/-- An element whose content has been checked. -/
def checked (allowed : List String) (e : Element) : Except Error Element := do
  let kept ← prune allowed e.children
  .ok { e with children := kept }

/-- An element of metadata whose content has been checked. -/
def checkedMetadata (e : Element) : Except Error Element := do
  let kept ← pruneMetadata e.children
  .ok { e with children := kept }

end Stitchwork.Pattern
