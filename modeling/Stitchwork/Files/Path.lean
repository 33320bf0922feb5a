/- # Stitchwork.Files.Path — paths as texts.

A path is a text with slashes between its parts.  It is relative to a directory unless it begins with a slash.
The place that a path leads to is the list of the parts on the way there, with a slash in front if the way
begins at the top.
-/
import Stitchwork.Text.Pieces

namespace Stitchwork.Files

/-- Is the path absolute? -/
def isAbsolute (path : String) : Bool := Text.startsWith path "/"

/-- The path of `name` seen from the directory `dir`. -/
def joinPath (dir name : String) : String :=
  if isAbsolute name || dir.isEmpty then name
  else if dir.toList.getLast? == some '/' then dir ++ name
  else dir ++ "/" ++ name

/-- The part that stands for the top. -/
def top : String := "/"

/-- The directory above a place, both in reverse; nothing is known of what is above the empty place. -/
def above : List String → Option (List String)
  | [] => none
  | [part] => if part == top then some [top] else some []
  | _ :: rest => some rest

/-- Does a part of a path stay where it is? -/
def stays (part : String) : Bool := part == "" || part == "."

/-- Does a part of a path go up? -/
def goesUp (part : String) : Bool := part == ".."

/-- Has a part of a path more than 255 bytes, so that nothing can have it as its name? -/
def isTooLong (part : String) : Bool := 255 < part.utf8ByteSize

/-- Does a path hold the character with number zero, so that it cannot be used at all? -/
def hasNull (path : String) : Bool := Text.hasChar path (Char.ofNat 0)

/-- Follows the parts of a path by their text alone, from the place `here`, which is in reverse. -/
def normalFrom : List String → List String → Option (List String)
  | here, [] => some here.reverse
  | here, part :: rest =>
    if stays part then normalFrom here rest
    else if goesUp part then (above here).bind (normalFrom · rest)
    else normalFrom (part :: here) rest

/-- The place where a path begins, in reverse, if `home` is the working directory. -/
def startOf (home : List String) (path : String) : List String :=
  if isAbsolute path then [top] else home.reverse

/-- The place that a path leads to by its text alone, if `home` is the working directory. -/
def normal? (home : List String) (path : String) : Option (List String) :=
  normalFrom (startOf home path) (Text.cut path "/")

/-- A place as a path. -/
def ofParts : List String → String
  | [] => ""
  | part :: rest => if part == top then top ++ Text.join "/" rest else Text.join "/" (part :: rest)

/-- The stem of a path and its extension, which begins with the last full stop of the name that has
something else than full stops in front of it. -/
def splitExtension (path : String) : String × String :=
  let parts := Text.cut path "/"
  let name := (parts.getLastD "").toList
  let dots := name.takeWhile (· == '.')
  let body := name.dropWhile (· == '.')
  match body.reverse.dropWhile (· != '.') with
  | [] => (path, "")
  | _ :: stem =>
    (Text.join "/" (parts.dropLast ++ [String.ofList (dots ++ stem.reverse)]),
      String.ofList (body.drop stem.length))

end Stitchwork.Files
