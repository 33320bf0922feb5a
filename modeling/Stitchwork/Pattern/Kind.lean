/- # Stitchwork.Pattern.Kind — the kinds of things a pattern defines.
-/

namespace Stitchwork.Pattern

/-- The kinds of things a pattern defines. -/
inductive Kind where
  | action | block | chart | color | component | config | image | metadata | value
deriving DecidableEq, Repr

namespace Kind

/-- All kinds. -/
def all : List Kind :=
  [.action, .block, .chart, .color, .component, .config, .image, .metadata, .value]

/-- The word for a kind. -/
def word : Kind → String
  | .action => "action"
  | .block => "block"
  | .chart => "chart"
  | .color => "color"
  | .component => "component"
  | .config => "config"
  | .image => "image"
  | .metadata => "metadata"
  | .value => "value"

/-- The word for a kind at the beginning of a report. -/
def title : Kind → String
  | .action => "Action"
  | .block => "Block"
  | .chart => "Chart"
  | .color => "Color"
  | .component => "Component"
  | .config => "Config"
  | .image => "Image"
  | .metadata => "Metadata"
  | .value => "Value"

/-- The kind of a word. -/
def ofWord? (w : String) : Option Kind := all.find? (·.word == w)

/-- The name of the element that defines a thing of this kind. -/
def tag : Kind → String
  | .component => "opaf:component"
  | .metadata => "opaf:metadata"
  | k => "opaf:define_" ++ k.word

end Kind

end Stitchwork.Pattern
