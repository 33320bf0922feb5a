/- # Stitchwork.Pattern.Definition — a definition of any kind.
-/
import Stitchwork.Pattern.Action
import Stitchwork.Pattern.Block
import Stitchwork.Pattern.Chart
import Stitchwork.Pattern.Color
import Stitchwork.Pattern.Component
import Stitchwork.Pattern.Config
import Stitchwork.Pattern.Image
import Stitchwork.Pattern.Metadata
import Stitchwork.Pattern.NamedValue
import Stitchwork.Pattern.Subject

namespace Stitchwork.Pattern

open Stitchwork.Markup

/-- A definition of any kind. -/
inductive Definition where
  | action (a : Action)
  | block (b : Block)
  | chart (c : Chart)
  | color (c : Color)
  | component (c : Component)
  | config (c : Config)
  | image (i : Image)
  | metadata (m : Metadata)
  | value (v : NamedValue)
deriving Repr

namespace Definition

/-- Reads the definition that an element is, in a file in the directory `dir`; also gives the element as it
is afterwards. -/
def ofElement (sources : Sources) (dir : String) (kind : Kind) (e : Element) :
    Work (Definition × Element) :=
  match kind with
  | .action => return (.action (.ofElement e), e)
  | .block => do
    let (b, e) ← liftExcept (Block.ofElement e)
    return (.block b, e)
  | .chart => do
    let (c, e) ← liftExcept (Chart.ofElement e)
    return (.chart c, e)
  | .color => do
    let c ← liftExcept (Color.ofElement e)
    return (.color c, e)
  | .component => do
    let (c, e) ← Component.ofElement e
    return (.component c, e)
  | .config => return (.config (.ofElement e), e)
  | .image => do
    let i ← liftExcept (Image.ofElement sources dir e)
    return (.image i, e)
  | .metadata => do
    let (m, e) ← liftExcept (Metadata.ofElement e)
    return (.metadata m, e)
  | .value => do
    let v ← NamedValue.ofElement e
    return (.value v, e)

/-- Reads a definition of the given kind. -/
def read (sources : Sources) (dir : String) (kind : Kind) (s : Subject) :
    Work (Definition × Element) := do
  let e ← liftExcept (s.expect kind)
  ofElement sources dir kind e

/-- The element of a definition, and the definition that is left after it has been written. -/
def toElement : Definition → Except Error Element × Definition
  | .action a => (a.toElement, .action a)
  | .block b => (b.toElement, .block b)
  | .chart c => (c.toElement, .chart c)
  | .color c => (.ok c.toElement, .color c)
  | .component c => (c.toElement, .component c)
  | .config c => (.ok c.toElement.1, .config c.toElement.2)
  | .image i => (.ok i.toElement, .image i)
  | .metadata m => (m.toElement, .metadata m)
  | .value v => (.ok v.toElement, .value v)

end Definition

end Stitchwork.Pattern
