/- # Stitchwork.Files.Uri — addresses of files.

An address is `file://` and a path, which is relative to a directory unless it begins with a slash.
-/
import Stitchwork.Files.Tree

namespace Stitchwork.Files

/-- The path of an address, seen from the directory `dir`. -/
def uriPath? (dir uri : String) : Option String :=
  match Text.cut uri "://" with
  | [scheme, path] => if scheme == "file" then some (joinPath dir path) else none
  | _ => none

/-- The place of the file that an address leads to. -/
def Tree.uri? (t : Tree) (dir uri : String) : Option (List String) :=
  (uriPath? dir uri).bind t.file?

end Stitchwork.Files
