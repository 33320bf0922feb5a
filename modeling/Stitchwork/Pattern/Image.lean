/- # Stitchwork.Pattern.Image — images.

The data of an image stand in its definition, or they are a picture in a file.
-/
import Stitchwork.Files.Uri
import Stitchwork.Markup.Node
import Stitchwork.Number.Read
import Stitchwork.Pattern.Picture
import Stitchwork.Text.Base64

namespace Stitchwork.Pattern

open Stitchwork.Markup

/-- The data of an image. -/
inductive ImageData where
  | bytes (bs : List UInt8)
  | picture (p : Picture)
deriving DecidableEq, Repr

/-- The bytes of the data. -/
def ImageData.toBytes : ImageData → List UInt8
  | .bytes bs => bs
  | .picture p => p.bytes

/-- The data as text. -/
def ImageData.text (d : ImageData) : String := Text.Base64.encode d.toBytes

/-- The definition of an image. -/
structure Image where
  name : String
  data : ImageData
deriving DecidableEq, Repr

/-- The size that pictures are scaled to unless another is given. -/
def defaultSize : Int := 1000

namespace Image

/-- The size that an element asks for. -/
def sizeOf (e : Element) : Except Error Int :=
  match e.attr? "size" with
  | none => .ok defaultSize
  | some s =>
    match Number.readInt? s with
    | some n => .ok n
    | none => .error .wrongValue

/-- The bytes that a text says. -/
def decodeData (s : String) : Except Error (List UInt8) :=
  if s.toList.any (128 ≤ ·.toNat) then .error .wrongValue
  else match Text.Base64.decode? s with
    | some bs => .ok bs
    | none => .error .invalidData

/-- Reads the definition of an image that stands in the directory `dir`. -/
def ofElement (sources : Sources) (dir : String) (e : Element) : Except Error Image := do
  let size ← sizeOf e
  match e.attr? "uri" with
  | some uri =>
    match sources.files.uri? dir uri with
    | none => .error (.imageNotFound uri)
    | some place =>
      let content ← (sources.files.read place).mapError .file
      let picture ← (Picture.read sources.encode content.toBytes size).mapError .picture
      .ok ⟨e.attr "name", .picture picture⟩
  | none =>
    let bs ← decodeData (e.attr "data")
    .ok ⟨e.attr "name", .bytes bs⟩

/-- The element that defines the image. -/
def toElement (i : Image) : Element :=
  element Kind.image.tag [("name", i.name), ("data", i.data.text)]

end Image

end Stitchwork.Pattern
