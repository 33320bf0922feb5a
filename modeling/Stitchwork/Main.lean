/- # Stitchwork.Main — the command line.

The files that a run looks at are loaded, the run is carried out on them, and what it has changed is written
back.
-/
import Stitchwork.Command.Wanted

namespace Stitchwork.Command

/-- Adds what stands at a path to the tree, if anything does. -/
def load (files : Files.Tree) (path : String) : IO Files.Tree := do
  try
    let bytes ← IO.FS.readBinFile path
    return files.addFile path (.bytes bytes.toList)
  catch
    | .inappropriateType .. => return (files.makeDirectories path).1
    | _ => return files

/-- Loads what a run looks at, step by step. -/
partial def loadAll (a : Arguments) (files : Files.Tree) (seen : List String) : IO Files.Tree := do
  match (wantedPaths a files).find? (!seen.contains ·) with
  | none => return files
  | some path => loadAll a (← load files path) (path :: seen)

/-- Writes back what a run has changed. -/
def store (old new : Files.Tree) : IO Unit := do
  for dir in new.newDirectories old do
    IO.FS.createDirAll dir
  for (path, content) in new.changedFiles old do
    IO.FS.writeBinFile path ⟨content.toBytes.toArray⟩

/-- The text of an entry in the log. -/
def Report.line : Report → String
  | .text s => "ERROR: " ++ s
  | .error e => "ERROR: " ++ e.message

end Stitchwork.Command

open Stitchwork.Command in
/-- Runs the command line. -/
def main (args : List String) : IO UInt32 := do
  match Arguments.read args with
  | .error x =>
    IO.eprintln "usage: --input INPUT [--output OUTPUT] [--package] [--compile COMPILE]"
    IO.eprintln "       [--extract_images] [--config CONFIG] [--colors COLORS] [--log_level LOG_LEVEL]"
    return x.status.toUInt32
  | .ok a =>
    let home := Stitchwork.Files.normal? [] (toString (← IO.currentDir))
    let files ← loadAll a ⟨home.getD [], []⟩ []
    let seed ← IO.rand 1 100000000000
    let outcome := run a files seed
    store files outcome.world.files
    for r in outcome.log do
      IO.eprintln r.line
    IO.print outcome.world.printed
    return if outcome.status < 0 then 254 else 0
