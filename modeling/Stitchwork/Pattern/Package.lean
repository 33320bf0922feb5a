/- # Stitchwork.Pattern.Package — a pattern in one document.

A package holds all definitions of a pattern, with those of the files it includes.  Packaging gives the
pattern an identifier and a version if it has none, and uses up the allowed values of its configs.
-/
import Stitchwork.Pattern.Document

namespace Stitchwork.Pattern

open Stitchwork.Markup

/-- The version of the format. -/
def formatVersion : String := "1.6"

/-- What packages say about who made them. -/
def packagerVersion : String := "python_0.5.0"

namespace Document

/-- The document with an identifier, a fresh one if it has none. -/
def withUniqueId (d : Document) : StateM Nat Document :=
  if (d.uniqueId.getD "").isEmpty then do
    let n ← getThe Nat
    set (n + 1)
    return { d with uniqueId := some (identifier (n + 1)) }
  else return d

/-- The document with a version, the first one if it has none. -/
def withVersion (d : Document) : Document := { d with version := d.version <|> some Version.first }

/-- The root of the package, without the definitions. -/
def packageRoot (d : Document) : Element :=
  element "pattern"
    [("xmlns:opaf", d.namespaceUri.getD ""), ("spec_version", formatVersion),
     ("pkg_version", packagerVersion), ("name", d.name), ("unique_id", d.uniqueId.getD ""),
     ("version", (d.version.map Version.text).getD "")]

/-- The definitions in front of the configs. -/
def leadingElements (d : Document) : Except Error (List Element) := do
  let metadata ← d.metadata.toList.mapM Metadata.toElement
  let actions ← d.actions.mapM Action.toElement
  .ok (metadata ++ d.colors.map Color.toElement ++ actions)

/-- The definitions behind the configs. -/
def trailingElements (d : Document) : Except Error (List Element) := do
  let charts ← d.charts.mapM Chart.toElement
  let blocks ← d.blocks.mapM Block.toElement
  let components ← d.components.mapM Component.toElement
  .ok (d.values.map NamedValue.toElement ++ charts ++ blocks ++ components ++
    d.images.map Image.toElement)

/-- The package of a document that has an identifier and a version, and the document that is left. -/
def packageTree (d : Document) : Except Error Element × Document :=
  match d.leadingElements with
  | .error e => (.error e, d)
  | .ok leading =>
    let configs := d.configs.map Config.toElement
    let left := { d with configs := configs.map (·.2) }
    match d.trailingElements with
    | .error e => (.error e, left)
    | .ok trailing =>
      (.ok (d.packageRoot.append ((leading ++ configs.map (·.1) ++ trailing).map Element.toNode)), left)

end Document

/-- Packages a document; also gives the document that is left.  A package that has a root already can get
no other, but the document gets its identifier and version all the same. -/
def package (hasRoot : Bool) (d : Document) : StateM Nat (Except Error String × Document) := do
  let d ← d.withUniqueId
  let d := d.withVersion
  if hasRoot then return (.error .secondRoot, d)
  let (tree, left) := d.packageTree
  return (tree.map writeDocument, left)

end Stitchwork.Pattern
