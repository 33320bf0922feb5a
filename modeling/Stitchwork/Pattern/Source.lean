/- # Stitchwork.Pattern.Source — reading a pattern from files.

A pattern stands in a file and may include others.  Included files come first, each with what it includes in
front of its own definitions; then come the definitions of the file itself, kind by kind.  Definitions are
found at any depth.  Reading a definition checks and changes its element, and a definition inside it is read
from the changed element.
-/
import Stitchwork.Pattern.Document

namespace Stitchwork.Pattern

open Stitchwork.Markup

/-! ## Places in a tree -/

mutual

/-- The places of the elements with the given name among nodes and below them, in document order; the
first element among the nodes has the index `i`. -/
def placesAmong (name : String) (i : Nat) : List Node → List (List Nat)
  | [] => []
  | n :: ns => placesFrom name i n ++ placesAmong name (if n.isElement then i + 1 else i) ns

/-- The places of the node with the index `i`, if it has the given name, and of such elements below it. -/
def placesFrom (name : String) (i : Nat) : Node → List (List Nat)
  | .element tag _ children =>
    (if tag == name then [[i]] else []) ++ (placesAmong name 0 children).map (i :: ·)
  | _ => []

end

/-- The places of the elements with the given name below an element.  A place counts, level by level, the
elements only, so that it stays the same when other nodes are removed. -/
def places (name : String) (e : Element) : List (List Nat) := placesAmong name 0 e.children

/-- The element at a place below an element. -/
def elementAt? : List Nat → Element → Option Element
  | [], e => some e
  | i :: place, e => (e.elements[i]?).bind (elementAt? place)

/-- Replaces the element with the index `i` among nodes. -/
def replaceElement (new : Node) : Nat → List Node → List Node
  | _, [] => []
  | i, n :: ns =>
    if n.isElement then
      match i with
      | 0 => new :: ns
      | i + 1 => n :: replaceElement new i ns
    else n :: replaceElement new i ns

/-- Replaces the element at a place below an element. -/
def replaceAt (new : Element) : List Nat → Element → Element
  | [], _ => new
  | i :: place, e =>
    match e.elements[i]? with
    | some c => { e with children := replaceElement (replaceAt new place c).toNode i e.children }
    | none => e

/-! ## Definitions of a file -/

/-- A document that is being read from a file, and the tree of the file as it is now. -/
structure Reading where
  document : Document
  root : Element

/-- Reads the definition at a place. -/
def readAt (sources : Sources) (dir : String) (kind : Kind) (r : Reading) (place : List Nat) :
    Work Reading :=
  match elementAt? place r.root with
  | none => pure r
  | some e => do
    let (d, e) ← Definition.ofElement sources dir kind e
    let document ← liftExcept (r.document.add d)
    return ⟨document, replaceAt e place r.root⟩

/-- Reads all definitions of a kind. -/
def readKind (sources : Sources) (dir : String) (r : Reading) (kind : Kind) : Work Reading :=
  (places kind.tag r.root).foldlM (readAt sources dir kind) r

/-- The kinds of definitions that an included file gives, in the order in which they are read. -/
def includedKinds : List Kind :=
  [.color, .config, .value, .image, .metadata, .action, .chart, .block]

/-- Reads all definitions of the given kinds. -/
def readKinds (sources : Sources) (dir : String) (kinds : List Kind) (d : Document) (root : Element) :
    Work Document := do
  let r ← kinds.foldlM (readKind sources dir) ⟨d, root⟩
  return r.document

/-! ## Includes -/

/-- The element that includes a file. -/
def includeTag : String := "opaf:include"

/-- Reads the files that a file in the directory `dir` includes, one level of inclusion for each unit of
fuel. -/
def readIncludes (sources : Sources) : Nat → String → Document → Element → Work Document
  | 0, _, _, _ => throw .tooDeep
  | fuel + 1, dir, d, root =>
    (descendants includeTag root.children).foldlM (fun d e => do
      let uri := e.attr "uri"
      match sources.files.uri? dir uri with
      | none => throw (.includeNotFound uri)
      | some place => do
        let content ← liftExcept ((sources.files.read place).mapError .file)
        let root ← liftExcept ((Markup.read content.toText).mapError .markup)
        let dir := Files.ofParts place.dropLast
        let d ← readIncludes sources fuel dir d root
        readKinds sources dir includedKinds d root) d

/-! ## Patterns -/

/-- The version that an attribute says. -/
def readVersion (s : String) : Except Error Version :=
  match Version.parse? s with
  | some v => if Version.isTooLong s then .error .wrongValue else .ok v
  | none => .error (.version s)

/-- The root of the tree in the main file. -/
def readMain (files : Files.Tree) (place : List String) : Except Error Element := do
  let content ← (files.read place).mapError fun f => .source (.file f)
  (Markup.read content.toText).mapError fun f => .source (.markup f)

/-- Checks that an element is the root of a pattern. -/
def checkRoot (root : Element) : Except Error Unit :=
  if root.name != "pattern" then .error .notAPattern
  else if !root.hasAttr declaration then .error .undeclaredNamespace
  else .ok ()

/-- The document with what the root of a pattern says. -/
def readRoot (root : Element) : Except Error Document := do
  let version ← (root.attr? "version").mapM readVersion
  let specVersion ← (root.attr? "spec_version").mapM readVersion
  .ok { Document.empty.setName (root.attr "name") with
    version := version
    specVersion := specVersion
    pkgVersion := root.attr? "pkg_version"
    uniqueId := root.attr? "unique_id"
    namespaceUri := some patternNamespace }

/-- Reads the pattern in a file. -/
def readPattern (sources : Sources) (main : String) : Work Document :=
  match Files.normal? sources.files.home main with
  | none => throw (.source (.file .missing))
  | some place => do
    let root ← liftExcept (readMain sources.files place)
    liftExcept (checkRoot root)
    let d ← liftExcept (readRoot root)
    let dir := Files.ofParts place.dropLast
    let d ← readIncludes sources (sources.files.entries.length + 1) dir d root
    readKinds sources dir (includedKinds ++ [.component]) d root

end Stitchwork.Pattern
