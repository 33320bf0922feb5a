/- # Stitchwork.Workbench — working on patterns step by step.

A workbench holds documents, of which one is current, a packager and a compiler for the documents that were
current when they were made, and the last text that was produced.  Steps that fail leave everything as it is
that they did not reach.
-/
import Stitchwork.Pattern.Source
import Stitchwork.Project.Build

namespace Stitchwork

open Stitchwork.Formula Stitchwork.Markup Stitchwork.Pattern Stitchwork.Project

/-- A packager: the number of its document, and whether it has made the root of a package. -/
structure Packager where
  document : Option Nat
  hasRoot : Bool

/-- A compiler: the number of its document, what was chosen, and its compilation. -/
structure Compiler where
  document : Option Nat
  choices : Choices
  compilation : Compilation

/-- A workbench. -/
structure Workbench where
  files : Files.Tree
  encode : Encoder
  documents : List Document
  current : Option Nat
  packager : Option Packager
  compiler : Option Compiler
  output : String
  /-- How many identifiers have been drawn. -/
  drawn : Nat

/-- The fields of a document that can be set. -/
inductive Field where
  | name | version | specVersion | uniqueId | pkgVersion | namespaceUri
deriving DecidableEq, Repr

/-- A step on a workbench. -/
inductive Step where
  | open (main : String)
  | new
  | set (field : Field) (value : Option String)
  | add (kind : Kind) (markup : String)
  /-- Adds a definition that was made from its parts; none if they do not make one. -/
  | addMade (definition : Option Definition)
  | get (kind : Kind) (name : String)
  | colors
  | show
  | makePackager
  | package
  | makeCompiler (choices : Choices)
  | compile (name : String)
  | globals
  | save (path : String)

/-- What a step answers. -/
inductive Reply where
  | done
  | definition (d : Definition)
  | colors (t : Table String)
  | document (d : Document)
  | markup (s : String)
  | globals (s : Scope)

namespace Workbench

/-- A workbench with files and nothing else. -/
def ofFiles (sources : Sources) : Workbench :=
  ⟨sources.files, sources.encode, [], none, none, none, "", 0⟩

/-- What patterns are read from on the workbench. -/
def sources (w : Workbench) : Sources := ⟨w.files, w.encode⟩

/-- The document with the given number. -/
def document? (w : Workbench) (i : Option Nat) : Option Document := i.bind (w.documents[·]?)

/-- Replaces the document with the given number. -/
def setDocument (w : Workbench) (i : Option Nat) (d : Document) : Workbench :=
  match i with
  | some i => { w with documents := w.documents.set i d }
  | none => w

/-- Puts a document behind the others and makes it the current one. -/
def push (w : Workbench) (d : Document) : Workbench :=
  { w with documents := w.documents ++ [d], current := some w.documents.length }

/-- Does work; identifiers that are drawn stay drawn. -/
def work {α : Type} (w : Workbench) (x : Work α) : Except Error α × Workbench :=
  let (r, n) := x.run.run w.drawn
  (r, { w with drawn := n })

/-- The current document with a field set. -/
def setField (d : Document) (field : Field) (value : Option String) : Except Error Document :=
  match field, value with
  | .name, some s => .ok (d.setName s)
  | .name, none => .error .absent
  | .version, v => do
    let v ← v.mapM readVersion
    .ok { d with version := v }
  | .specVersion, v => do
    let v ← v.mapM readVersion
    .ok { d with specVersion := v }
  | .uniqueId, v => .ok { d with uniqueId := v }
  | .pkgVersion, v => .ok { d with pkgVersion := v }
  | .namespaceUri, v => .ok { d with namespaceUri := v }

/-- Adds a definition to the current document. -/
def addDefinition (w : Workbench) (definition : Definition) : Except Error Reply × Workbench :=
  match w.document? w.current with
  | none => (.error .absent, w)
  | some d =>
    match d.add definition with
    | .ok d => (.ok .done, w.setDocument w.current d)
    | .error e => (.error e, w)

/-- Packages the document of the packager. -/
def runPackager (w : Workbench) : Except Error Reply × Workbench :=
  match w.packager with
  | none => (.error .absent, w)
  | some p =>
    match w.document? p.document with
    | none => (.error .absent, w)
    | some d =>
      let ((text, left), n) := (package p.hasRoot d).run w.drawn
      let w := { w.setDocument p.document left with
        drawn := n, packager := some { p with hasRoot := true } }
      match text with
      | .ok s => (.ok (.markup s), { w with output := s })
      | .error e => (.error e, w)

/-- Compiles the document of the compiler. -/
def runCompiler (w : Workbench) (name : String) : Except Error Reply × Workbench :=
  match w.compiler with
  | none => (.error .absent, w)
  | some c =>
    match w.document? c.document with
    | none => (.error .nothingToCompile, w)
    | some d =>
      let (r, n) := (compile c.compilation c.choices name d).run w.drawn
      let w := { w.setDocument c.document r.document with
        drawn := n, compiler := some { c with compilation := r.compilation } }
      match r.text with
      | .ok s => (.ok (.markup s), { w with output := s })
      | .error e => (.error e, w)

/-- Takes a step. -/
def step (w : Workbench) : Step → Except Error Reply × Workbench
  | .open main =>
    match w.work (readPattern w.sources main) with
    | (.ok d, w) => (.ok .done, w.push d)
    | (.error e, w) => (.error e, w)
  | .new => (.ok .done, w.push Document.empty)
  | .set field value =>
    match w.document? w.current with
    | none => (.error .absent, w)
    | some d =>
      match setField d field value with
      | .ok d => (.ok .done, w.setDocument w.current d)
      | .error e => (.error e, w)
  | .add kind markup =>
    match restore markup with
    | .error e => (.error e, w)
    | .ok e =>
      match w.work (Definition.read w.sources "" kind (.element e)) with
      | (.ok (d, _), w) => w.addDefinition d
      | (.error e, w) => (.error e, w)
  | .addMade definition =>
    match definition with
    | some d => w.addDefinition d
    | none => (.error .wrongKind, w)
  | .get kind name =>
    match w.document? w.current with
    | none => (.error .absent, w)
    | some d => ((d.get kind name).map .definition, w)
  | .colors =>
    match w.document? w.current with
    | none => (.error .absent, w)
    | some d => (.ok (.colors d.colorTable), w)
  | .show =>
    match w.document? w.current with
    | none => (.error .absent, w)
    | some d => (.ok (.document d), w)
  | .makePackager => (.ok .done, { w with packager := some ⟨w.current, false⟩ })
  | .package => w.runPackager
  | .makeCompiler choices =>
    (.ok .done, { w with compiler := some ⟨w.current, choices, .fresh⟩ })
  | .compile name => w.runCompiler name
  | .globals =>
    match w.compiler with
    | none => (.error .absent, w)
    | some c => (.ok (.globals c.compilation.globals), w)
  | .save path =>
    let written := !Text.hasSurrogates w.output.toList
    match w.files.write path (.text (if written then w.output else "")) with
    | .ok files => (if written then .ok .done else .error .notCharacters, { w with files := files })
    | .error f => (.error (.file f), w)

/-- Takes steps one after the other, whether they fail or not. -/
def run (w : Workbench) : List Step → List (Except Error Reply) × Workbench
  | [] => ([], w)
  | s :: rest =>
    let (r, w) := w.step s
    let (rs, w) := w.run rest
    (r :: rs, w)

end Workbench

end Stitchwork
