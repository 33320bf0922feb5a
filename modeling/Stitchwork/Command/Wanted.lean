/- # Stitchwork.Command.Wanted — the files that a run looks at.

A run works on a tree of files.  Which files it looks at depends on what other files say, so they are found
step by step: the more files are known, the more are wanted.
-/
import Stitchwork.Command.Run

namespace Stitchwork.Command

open Stitchwork.Markup Stitchwork.Pattern

/-- The paths that the elements of a file in the directory `dir` lead to. -/
def pathsIn (dir : String) (root : Element) : List String :=
  (descendants includeTag root.children ++ descendants Kind.image.tag root.children).filterMap fun e =>
    Files.uriPath? dir (e.attr "uri")

/-- The files that the images of a file would be written to. -/
def imagePaths (output : String) (root : Element) : List String :=
  (descendants Kind.image.tag root.children).map fun e => output ++ "/" ++ e.attr "name" ++ ".webp"

/-- The paths that a known file leads to. -/
def pathsFrom (a : Arguments) (e : List String × Files.Entry) : List String :=
  match e with
  | (place, .file c) =>
    match Markup.read c.toText with
    | .ok root =>
      pathsIn (Files.ofParts place.dropLast) root ++ imagePaths (a.output.getD "") root
    | .error _ => []
  | (_, .directory) => []

/-- The paths that a run leads to, as far as the known files tell. -/
def wanted (a : Arguments) (files : Files.Tree) : List String :=
  a.input.toList ++ a.output.toList ++
    [projectFile (a.output.getD "") (a.compile.getD "")] ++ files.entries.flatMap (pathsFrom a)

/-- The paths on the way along a path, the path itself last. -/
def waypoints (home : List String) (path : String) : List String :=
  match Files.normal? home path with
  | none => []
  | some place => (List.range place.length).map fun n => Files.ofParts (place.take (n + 1))

/-- All paths on the way to what a run looks at. -/
def wantedPaths (a : Arguments) (files : Files.Tree) : List String :=
  (wanted a files).flatMap (waypoints files.home)

end Stitchwork.Command
