/- # Stitchwork.Command.Run — what the command line does.

A run reads a pattern and then packages it, extracts its images or compiles it, as the arguments say.  It may
be refused, which is its status, or fail, which is logged only.
-/
import Stitchwork.Command.Arguments
import Stitchwork.Pattern.Source
import Stitchwork.Project.Build

namespace Stitchwork.Command

open Stitchwork.Pattern Stitchwork.Project

/-- An entry in the log: a text, or an error. -/
inductive Report where
  | text (s : String)
  | error (e : Error)
deriving DecidableEq, Repr

/-- Why a run ends early. -/
inductive Stop where
  | refused (reason : String)
  | failed (e : Error)
deriving DecidableEq, Repr

/-- What a run changes: files, what is printed, and the identifiers that have been drawn. -/
structure World where
  files : Files.Tree
  printed : String
  drawn : Nat
deriving Repr

/-- Steps of a run.  What has been changed stays changed when a step ends the run. -/
abbrev Run := ExceptT Stop (StateM World)

/-- Ends the run because it is refused. -/
def refuse {α : Type} (reason : String) : Run α := throw (.refused reason)

/-- A result as a step. -/
def attempt {α : Type} (r : Except Error α) : Run α := ExceptT.mk (pure (r.mapError .failed))

/-- A step that draws identifiers. -/
def draw {α : Type} (x : StateM Nat α) : Run α := do
  let w ← getThe World
  let (a, n) := x.run w.drawn
  set { w with drawn := n }
  return a

/-- Writes a file. -/
def writeFile (path : String) (c : Files.Content) : Run Unit := do
  let w ← getThe World
  let files ← attempt ((w.files.write path c).mapError .file)
  set { w with files := files }

/-- Writes a text to a file.  If it holds codes that are no characters, the file is left empty. -/
def writeText (path text : String) : Run Unit := do
  if Text.hasSurrogates text.toList then
    writeFile path (.text "")
    throw (.failed .notCharacters)
  writeFile path (.text text)

/-- Makes a directory, unless it is there. -/
def makeDirectory (path : String) : Run Unit := do
  let w ← getThe World
  let (files, fault) := w.files.makeDirectories path
  set { w with files := files }
  match fault with
  | some f => throw (.failed (.file f))
  | none => pure ()

/-! ## Packaging, extracting, compiling -/

/-- Is a text given that is not empty? -/
def given (s : Option String) : Bool := !(s.getD "").isEmpty

/-- Packages the pattern, and gives the pattern as it is afterwards. -/
def packageStep (input : String) (d : Document) : Run Document := do
  if d.pkgVersion.isSome then refuse "Input file is already packaged"
  let (text, left) ← draw (package false d)
  let text ← attempt text
  let stem := (Files.splitExtension input).1
  writeText (stem ++ "_" ++ versionText left.version ++ ".opafpkg") text
  return left

/-- Extracts an image.  Its data are decoded once more, when the file is there already. -/
def extractImage (output : String) (i : Image) : Run Unit := do
  let path := output ++ "/" ++ i.name ++ ".webp"
  writeFile path (.bytes [])
  match Text.Base64.decodeBytes? i.data.toBytes with
  | some bs => writeFile path (.bytes bs)
  | none => throw (.failed .invalidData)

/-- Extracts images one after the other. -/
def extractEach (output : String) : List Image → Run Unit
  | [] => pure ()
  | i :: rest => do
    extractImage output i
    extractEach output rest

/-- Extracts the images of a package. -/
def extractStep (output : Option String) (d : Document) : Run Unit :=
  if !given d.pkgVersion then refuse "Input file is not an OPAF package file."
  else if !given output then refuse "Output path is not specified."
  else do
    let output := output.getD ""
    makeDirectory output
    extractEach output d.images

/-- The name of the file of a project. -/
def projectFile (output name : String) : String :=
  output ++ "/" ++ Text.lower (Text.join "_" (Text.cut (Text.trim name) " ")) ++ ".opafproj"

/-- Compiles a package. -/
def compileStep (a : Arguments) (name : String) (d : Document) : Run Unit :=
  if !given d.pkgVersion then
    refuse "Input file is not an OPAF package file. Compilation is not possible."
  else do
    let choices : Choices := ⟨readSettings (a.config.getD ""), readSettings (a.colors.getD "")⟩
    let compiled ← draw (compile .fresh choices name d)
    let text ← attempt compiled.text
    if given a.output then
      let output := a.output.getD ""
      makeDirectory output
      writeText (projectFile output name) text
    else modifyThe World fun w => { w with printed := w.printed ++ text ++ "\n" }

/-- Does what the arguments say with the pattern in the input. -/
def steps (encode : Encoder) (a : Arguments) (input : String) : Run Unit := do
  let w ← getThe World
  if (w.files.file? input).isNone then refuse ("File not found '" ++ input ++ "'")
  if !Text.startsWith (Files.splitExtension input).2 ".opaf" then
    refuse "Input file is not an OPAF file or has the wrong extension"
  let read ← draw (readPattern ⟨w.files, encode⟩ input).run
  let d ← attempt read
  let d ← if a.package then packageStep input d else pure d
  if a.extractImages then extractStep a.output d
  if given a.compile then compileStep a (a.compile.getD "") d

/-! ## Runs -/

/-- What a run answers: its status, the log, and the world as it is afterwards. -/
structure Outcome where
  status : Int
  log : List Report
  world : World
deriving Repr

/-- Runs with the given arguments.  Being refused is a status; failing is not. -/
def run (a : Arguments) (sources : Sources) (drawn : Nat) : Outcome :=
  let report (r : Report) : List Report := if a.logsErrors then [r] else []
  match (steps sources.encode a (a.input.getD "")).run.run ⟨sources.files, "", drawn⟩ with
  | (.ok (), w) => ⟨0, [], w⟩
  | (.error (.refused reason), w) => ⟨-2, report (.text reason), w⟩
  | (.error (.failed e), w) => ⟨0, report (.error e), w⟩

end Stitchwork.Command
