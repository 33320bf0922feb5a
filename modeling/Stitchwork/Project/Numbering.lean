/- # Stitchwork.Project.Numbering — marking the elements of a project.

Elements with certain names are numbered in document order, and actions are told their place in a chart.
-/
import Stitchwork.Error
import Stitchwork.Markup.Node

namespace Stitchwork.Project

open Stitchwork.Formula Stitchwork.Markup

/-- The identifier with a number; a number that has too many digits has no text. -/
def numberText (n : Int) : Except Error String :=
  match Number.intText? n with
  | some s => .ok s
  | none => .error .wrongValue

mutual

/-- Numbers the elements with the given names among nodes and below them, from the one behind `n`; also
gives the last number.  All nodes must be elements. -/
def numberAll (names : List String) (n : Int) : List Node → Except Error (List Node × Int)
  | [] => .ok ([], n)
  | x :: xs => do
    let (y, m) ← numberNode names n x
    let (ys, k) ← numberAll names m xs
    .ok (y :: ys, k)

/-- Numbers a node and what is below it. -/
def numberNode (names : List String) (n : Int) : Node → Except Error (Node × Int)
  | .element name attrs children => do
    let wanted := names.contains name
    let m := if wanted then n + 1 else n
    let attrs ←
      if wanted then (numberText m).map (attrs.insert "id" ·)
      else .ok attrs
    let (ys, k) ← numberAll names m children
    .ok (.element name attrs ys, k)
  | .text _ => .error .absent
  | .cdata _ => .error .absent
  | .comment _ => .error .absent
  | .instruction _ _ => .error .absent

end

/-- The place of an action in a chart: the name of the chart and the row. -/
def chartPlace (chart : String) (row : Value) : Except Error String :=
  match row.text? with
  | some s => .ok (chart ++ ":" ++ s)
  | none => .error .wrongValue

mutual

/-- Tells the actions among nodes and below them their place in a chart. -/
def placeAll (chart : String) (row : Value) : List Node → Except Error (List Node)
  | [] => .ok []
  | x :: xs => do
    let y ← placeNode chart row x
    let ys ← placeAll chart row xs
    .ok (y :: ys)

/-- Tells a node and what is below it its place in a chart. -/
def placeNode (chart : String) (row : Value) : Node → Except Error Node
  | .element name attrs children => do
    let attrs ←
      if localName name == "action" then
        (chartPlace chart row).map (attrs.insert "chart" ·)
      else .ok attrs
    let ys ← placeAll chart row children
    .ok (.element name attrs ys)
  | .text s => .ok (.text s)
  | .cdata s => .ok (.cdata s)
  | .comment s => .ok (.comment s)
  | .instruction target data => .ok (.instruction target data)

end

end Stitchwork.Project
