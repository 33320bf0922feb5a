/- # Stitchwork.Files.Tree — files and directories.

A tree lists files and directories by their places; the working directory and those above it are always there.
A path is followed part by part, and every part but the last must be a directory.
-/
import Stitchwork.Files.Path

namespace Stitchwork.Files

/-- What a file holds: text, or bytes. -/
inductive Content where
  | text (s : String)
  | bytes (bs : List UInt8)
deriving DecidableEq, Repr

/-- What a path can lead to. -/
inductive Entry where
  | file (c : Content)
  | directory
deriving DecidableEq, Repr

/-- Why a path leads nowhere, or not to what is wanted. -/
inductive Fault where
  | missing
  | notADirectory
  | isADirectory
  | alreadyThere
  | nameTooLong
  | nullInPath
deriving DecidableEq, Repr

/-- What is reported. -/
def Fault.message : Fault → String
  | .missing => "No such file or directory"
  | .notADirectory => "Not a directory"
  | .isADirectory => "Is a directory"
  | .alreadyThere => "File exists"
  | .nameTooLong => "File name too long"
  | .nullInPath => "Path holds a null character"

/-! ## Contents -/

namespace Content

/-- The bytes of a text in UTF-8, or the bytes. -/
def toBytes : Content → List UInt8
  | .text s => s.toUTF8.toList
  | .bytes bs => bs

/-- How many bytes follow the first one of a character, and the bits that the first one gives. -/
def leadByte? (b : Nat) : Option (Nat × Nat) :=
  if b < 0x80 then some (0, b)
  else if 0xC2 ≤ b && b ≤ 0xDF then some (1, b % 32)
  else if 0xE0 ≤ b && b ≤ 0xEF then some (2, b % 16)
  else if 0xF0 ≤ b && b ≤ 0xF4 then some (3, b % 8)
  else none

/-- The code that `n` more bytes complete. -/
def trailBytes? : Nat → Nat → List UInt8 → Option (Nat × List UInt8)
  | 0, acc, bs => some (acc, bs)
  | n + 1, acc, b :: bs =>
    if 0x80 ≤ b.toNat && b.toNat ≤ 0xBF then trailBytes? n (acc * 64 + b.toNat % 64) bs else none
  | _ + 1, _, [] => none

/-- The least code of a character whose first byte has `n` others behind it. -/
def leastCode (n : Nat) : Nat := if n = 3 then 0x10000 else if n = 2 then 0x800 else 0

/-- The first character of bytes in UTF-8. -/
def takeChar? (b : UInt8) (bs : List UInt8) : Option (Char × List UInt8) := do
  let (n, bits) ← leadByte? b.toNat
  let (code, rest) ← trailBytes? n bits bs
  if leastCode n ≤ code && code < 0x110000 && !(0xD800 ≤ code && code ≤ 0xDFFF) then
    some (Char.ofNat code, rest)
  else none

/-- Reads UTF-8, behind the characters `done`, which are in reverse.  A byte that belongs to no character
becomes the character with number one, which no document can hold. -/
def decodeFrom (done : List Char) : Nat → List UInt8 → List Char
  | 0, _ => done.reverse
  | _ + 1, [] => done.reverse
  | fuel + 1, b :: bs =>
    match takeChar? b bs with
    | some (c, rest) => decodeFrom (c :: done) fuel rest
    | none => decodeFrom (Char.ofNat 1 :: done) fuel bs

/-- The text, or the text that the bytes are. -/
def toText : Content → String
  | .text s => s
  | .bytes bs => String.ofList (decodeFrom [] (bs.length + 1) bs)

end Content

/-! ## Trees -/

/-- Files and directories, in the order of their creation, and the place of the working directory. -/
structure Tree where
  home : List String
  entries : List (List String × Entry)
deriving DecidableEq, Repr

namespace Tree

/-- The tree without files. -/
def empty : Tree := ⟨[], []⟩

/-- What stands at a place. -/
def at? (t : Tree) (place : List String) : Option Entry :=
  if place.isPrefixOf t.home then some .directory else t.entries.lookup place

/-- Puts something at a place: in the stead of what is there, or at the end. -/
def set (t : Tree) (place : List String) (e : Entry) : Tree :=
  if (t.entries.lookup place).isSome then
    { t with entries := t.entries.map fun x => if x.1 == place then (place, e) else x }
  else { t with entries := t.entries ++ [(place, e)] }

/-! ### Following paths -/

/-- Follows the parts of a path from the place `here`, which is in reverse. -/
def walk (t : Tree) : List String → List String → Except Fault (List String × Entry)
  | here, [] =>
    match t.at? here.reverse with
    | some e => .ok (here.reverse, e)
    | none => .error .missing
  | here, part :: rest =>
    match t.at? here.reverse with
    | none => .error .missing
    | some (.file _) => .error .notADirectory
    | some .directory =>
      if stays part then t.walk here rest
      else if goesUp part then
        match above here with
        | some up => t.walk up rest
        | none => .error .missing
      else if isTooLong part then .error .nameTooLong
      else t.walk (part :: here) rest

/-- The place and the entry that a path leads to. -/
def find (t : Tree) (path : String) : Except Fault (List String × Entry) :=
  if path.isEmpty then .error .missing else t.walk (startOf t.home path) (Text.cut path "/")

/-- Does the path lead to something? -/
def has (t : Tree) (path : String) : Bool := (t.find path).isOk

/-- The place of the file that a path leads to. -/
def file? (t : Tree) (path : String) : Option (List String) :=
  match t.find path with
  | .ok (place, .file _) => some place
  | _ => none

/-- What the file at a place holds. -/
def read (t : Tree) (place : List String) : Except Fault Content :=
  if place.any hasNull then .error .nullInPath
  else match t.walk [] place with
    | .ok (_, .file c) => .ok c
    | .ok (_, .directory) => .error .isADirectory
    | .error f => .error f

/-! ### Writing -/

/-- The place of a file that is to be written at a path.  Its directory must be there, and it must not be
a directory itself. -/
def target (t : Tree) (path : String) : Except Fault (List String) :=
  if path.isEmpty then .error .missing
  else if hasNull path then .error .nullInPath
  else
    let parts := Text.cut path "/"
    let name := parts.getLastD ""
    match t.walk (startOf t.home path) parts.dropLast with
    | .error f => .error f
    | .ok (_, .file _) => .error .notADirectory
    | .ok (dir, .directory) =>
      if stays name || goesUp name then .error .isADirectory
      else if isTooLong name then .error .nameTooLong
      else match t.at? (dir ++ [name]) with
        | some .directory => .error .isADirectory
        | _ => .ok (dir ++ [name])

/-- Writes a file. -/
def write (t : Tree) (path : String) (c : Content) : Except Fault Tree :=
  (t.target path).map fun place => t.set place (.file c)

/-- Makes the directories on a path that are not there, from the place `here`, which is in reverse.  What
has been made stays when a part of the path cannot be made. -/
def makeFrom (t : Tree) : List String → List String → Tree × Option Fault
  | _, [] => (t, none)
  | here, part :: rest =>
    if stays part then t.makeFrom here rest
    else if goesUp part then
      match above here with
      | none => (t, some .missing)
      | some up => if rest.isEmpty then (t, some .alreadyThere) else t.makeFrom up rest
    else if hasNull part then (t, some .nullInPath)
    else if isTooLong part then (t, some .nameTooLong)
    else
      match t.at? (here.reverse ++ [part]) with
      | some .directory => t.makeFrom (part :: here) rest
      | some (.file _) => (t, some .notADirectory)
      | none => (t.set (here.reverse ++ [part]) .directory).makeFrom (part :: here) rest

/-- Makes a directory with all directories above it, unless it is there. -/
def makeDirectories (t : Tree) (path : String) : Tree × Option Fault :=
  if t.has path then (t, none)
  else if path.isEmpty then (t, some .missing)
  else t.makeFrom (startOf t.home path) (Text.cut path "/")

/-- Puts a file into the tree with all directories above it. -/
def addFile (t : Tree) (path : String) (c : Content) : Tree :=
  match normal? t.home path with
  | none => t
  | some place =>
    match t.makeFrom [] place.dropLast with
    | (u, none) => u.set place (.file c)
    | (_, some _) => t

/-! ### What has changed -/

/-- The files of `t` that are not in `old`, or hold something else there. -/
def changedFiles (t old : Tree) : List (String × Content) :=
  t.entries.filterMap fun (place, e) =>
    match e with
    | .file c => if old.at? place == some e then none else some (ofParts place, c)
    | .directory => none

/-- The directories of `t` that are not in `old`. -/
def newDirectories (t old : Tree) : List String :=
  t.entries.filterMap fun (place, e) =>
    match e with
    | .file _ => none
    | .directory => if old.at? place == some .directory then none else some (ofParts place)

end Tree

end Stitchwork.Files
