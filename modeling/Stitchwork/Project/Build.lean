/- # Stitchwork.Project.Build — projects.

A project is what a packaged pattern becomes when its configs and colours have been chosen: its formulas are
replaced by their values, and its blocks and actions by what they stand for.
-/
import Stitchwork.Pattern.Package
import Stitchwork.Project.Expand
import Stitchwork.Project.Globals

namespace Stitchwork.Project

open Stitchwork.Formula Stitchwork.Markup Stitchwork.Pattern

/-- What is chosen for a project. -/
structure Choices where
  configs : Table String
  colors : Table String
deriving Repr

/-- The images of the project. -/
def imageElements (d : Document) : List Element :=
  d.images.map fun i => element "image" [("name", i.name), ("data", i.data.text)]

/-- The metadata of the pattern, if it has any. -/
def metadataElement (d : Document) : Except Error (List Node) :=
  match d.metadata with
  | none => .ok []
  | some m => do
    let es ← restoreAll m.elements
    .ok [((element "metadata" []).append (es.map Element.toNode)).toNode]

/-- The text of a version that need not be given. -/
def versionText (v : Option Version) : String := (v.map Version.text).getD "None"

/-- What the project says about its pattern. -/
def patternElement (d : Document) : Except Error Element := do
  let metadata ← metadataElement d
  let head := element "pattern"
    [("unique_id", d.uniqueId.getD ""), ("name", d.name), ("version", versionText d.version)]
  .ok (head.append metadata)

/-- A colour of the project: the chosen one or that of the pattern. -/
def colorElement (chosen : Table String) (c : Color) : Except Error Element := do
  let value ← match chosen.get? c.name with
    | some s => normalColor (Text.lower s)
    | none => .ok c.value
  .ok (element "color" [("name", c.name), ("value", value)])

/-- A chart of the project, unless its condition does not hold. -/
def chartExpansion (c : Context) (chart : Chart) : Except Error Expansion := do
  if ← holdsIfGiven c.globals chart.condition then
    let rows ← c.expand chart.rows
    .ok (rows.wrap (element "chart" [("name", chart.name)]))
  else .ok .none

/-- A component of the project, unless its condition does not hold. -/
def componentExpansion (c : Context) (component : Component) : Except Error Expansion := do
  if ← holdsIfGiven c.globals component.condition then
    match component.elements with
    | none => .error .wrongKind
    | some texts =>
      let content ← c.expand texts
      .ok (content.wrap (element "component"
        [("name", component.name), ("unique_id", component.uniqueId.getD "")]))
  else .ok .none

/-- Expansions one behind the other, up to the first that fails. -/
def expandEach {α : Type} (f : α → Except Error Expansion) : List α → Except Error Expansion
  | [] => .ok .none
  | x :: xs => do
    let a ← f x
    let b ← expandEach f xs
    .ok (a.append b)

/-- The charts and components of a project. -/
def parts (c : Context) : Except Error Expansion := do
  let charts ← expandEach (chartExpansion c) c.document.charts
  let components ← expandEach (componentExpansion c) c.document.components
  .ok (charts.append components)

/-- The root of a project, without its content. -/
def projectRoot (name id : String) : Element :=
  element "project" [("name", name), ("unique_id", id), ("spec_version", formatVersion)]

/-- What has become of a pattern: the configs that are left, the global values, and the project with the
news whether it can be written. -/
structure Built where
  left : List Config
  globals : Scope
  tree : Except Error Expansion

/-- Builds the project with the given name and identifier. -/
def build (d : Document) (choices : Choices) (name id : String) : Built :=
  match patternElement d with
  | .error e => ⟨d.configs, Table.empty, .error e⟩
  | .ok pattern =>
    let configured := configure choices.configs Table.empty d.configs
    match configured.elements with
    | .error e => ⟨configured.left, configured.globals, .error e⟩
    | .ok configs =>
      match evaluateValues configured.globals d.values with
      | (globals, .error e) => ⟨configured.left, globals, .error e⟩
      | (globals, .ok ()) =>
        let tree := do
          let colors ← d.colors.mapM (colorElement choices.colors)
          let content ← parts ⟨d, globals⟩
          let head := (projectRoot name id).append
            ((imageElements d ++ [pattern] ++ configs ++ colors).map Element.toNode)
          .ok (content.wrap head)
        ⟨configured.left, globals, tree⟩

/-- The text of a project. -/
def write (project : Expansion) : Except Error String :=
  if project.writable then
    .ok ("<?xml version=\"1.0\" ?>" ++ String.ofList (writeNodes project.nodes))
  else .error .absent

/-- A compilation of a pattern: whether it has been started, and the global values it has found. -/
structure Compilation where
  started : Bool
  globals : Scope

/-- A compilation that has not been started. -/
def Compilation.fresh : Compilation := ⟨false, Table.empty⟩

/-- What compiling gives: the text of the project, the compilation as it is afterwards, and the document
that is left. -/
structure Compiled where
  text : Except Error String
  compilation : Compilation
  document : Document

/-- Compiles a pattern.  Only a packaged pattern can be compiled, and only once in a compilation; an
identifier is drawn for the project as soon as it is known that the pattern has been packaged. -/
def compile (c : Compilation) (choices : Choices) (name : String) (d : Document) :
    StateM Nat Compiled := do
  if (d.pkgVersion.getD "").isEmpty then return ⟨.error .notPackaged, c, d⟩
  let n ← getThe Nat
  set (n + 1)
  if c.started then return ⟨.error .secondRoot, c, d⟩
  let b := build d choices name (identifier (n + 1))
  return ⟨b.tree >>= write, ⟨true, b.globals⟩, { d with configs := b.left }⟩

end Stitchwork.Project
