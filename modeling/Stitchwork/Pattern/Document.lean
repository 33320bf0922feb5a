/- # Stitchwork.Pattern.Document — patterns.

A document lists the definitions of a pattern in the order in which they were added.  The names of images,
charts, blocks, actions and colours are unique; configs, values and components are not looked up by name.
-/
import Stitchwork.Pattern.Definition
import Stitchwork.Pattern.Version

namespace Stitchwork.Pattern

/-- A pattern. -/
structure Document where
  name : String
  uniqueId : Option String
  version : Option Version
  specVersion : Option Version
  /-- Who packaged the pattern; a pattern that says nothing here has not been packaged. -/
  pkgVersion : Option String
  namespaceUri : Option String
  configs : List Config
  values : List NamedValue
  colors : List Color
  images : List Image
  charts : List Chart
  blocks : List Block
  actions : List Action
  components : List Component
  metadata : Option Metadata
deriving Repr

/-- Puts a definition behind others, unless its name is taken. -/
def addUnique {α : Type} (kind : Kind) (nameOf : α → String) (xs : List α) (x : α) :
    Except Error (List α) :=
  if xs.any (nameOf · == nameOf x) then .error (.duplicate kind (nameOf x)) else .ok (xs ++ [x])

/-- The definition with the given name. -/
def findNamed {α : Type} (kind : Kind) (nameOf : α → String) (xs : List α) (name : String) :
    Except Error α :=
  match xs.find? (nameOf · == name) with
  | some x => .ok x
  | none => .error (.undefined kind name)

namespace Document

/-- A pattern without definitions. -/
def empty : Document where
  name := ""
  uniqueId := none
  version := none
  specVersion := none
  pkgVersion := none
  namespaceUri := none
  configs := []
  values := []
  colors := []
  images := []
  charts := []
  blocks := []
  actions := []
  components := []
  metadata := none

/-- Sets the name, without the blanks around it. -/
def setName (d : Document) (name : String) : Document := { d with name := Text.trim name }

/-- Adds a definition.  Metadata goes behind the metadata that is there. -/
def add (d : Document) : Definition → Except Error Document
  | .action a => do
    let actions ← addUnique .action Action.name d.actions a
    .ok { d with actions := actions }
  | .block b => do
    let blocks ← addUnique .block Block.name d.blocks b
    .ok { d with blocks := blocks }
  | .chart c => do
    let charts ← addUnique .chart Chart.name d.charts c
    .ok { d with charts := charts }
  | .color c => do
    let colors ← addUnique .color Color.name d.colors c
    .ok { d with colors := colors }
  | .image i => do
    let images ← addUnique .image Image.name d.images i
    .ok { d with images := images }
  | .component c => .ok { d with components := d.components ++ [c] }
  | .config c => .ok { d with configs := d.configs ++ [c] }
  | .value v => .ok { d with values := d.values ++ [v] }
  | .metadata m =>
    match d.metadata with
    | some old => .ok { d with metadata := some ⟨old.elements ++ m.elements⟩ }
    | none => .ok { d with metadata := some m }

/-- The action with the given name. -/
def action (d : Document) (name : String) : Except Error Action :=
  findNamed .action Action.name d.actions name

/-- The block with the given name. -/
def block (d : Document) (name : String) : Except Error Block :=
  findNamed .block Block.name d.blocks name

/-- The image with the given name. -/
def image (d : Document) (name : String) : Except Error Image :=
  findNamed .image Image.name d.images name

/-- The definition with the given kind and name; only definitions with unique names can be looked up. -/
def get (d : Document) (kind : Kind) (name : String) : Except Error Definition :=
  match kind with
  | .action => (d.action name).map .action
  | .block => (d.block name).map .block
  | .chart => (findNamed .chart Chart.name d.charts name).map .chart
  | .color => (findNamed .color Color.name d.colors name).map .color
  | .image => (d.image name).map .image
  | _ => .error .absent

/-- The colours by their names. -/
def colorTable (d : Document) : Table String :=
  Table.ofList (d.colors.map fun c => (c.name, c.value))

end Document

end Stitchwork.Pattern
