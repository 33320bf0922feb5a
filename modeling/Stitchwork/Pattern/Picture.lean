/- # Stitchwork.Pattern.Picture — the format and the size of pictures.

A picture is read from a PNG file.  It is scaled down, if need be, to fit into a square, and stored as PNG if
it can be transparent and as JPEG otherwise.  Which bytes the stored picture has is up to an encoder, about
which nothing is assumed.
-/
import Stitchwork.Error
import Stitchwork.Number.Binary64

namespace Stitchwork.Pattern

open Stitchwork.Number

/-- The formats that pictures are stored in. -/
inductive PictureFormat where
  | png | jpeg
deriving DecidableEq, Repr

/-- The name of a format. -/
def PictureFormat.name : PictureFormat → String
  | .png => "PNG"
  | .jpeg => "JPEG"

/-- A stored picture. -/
structure Picture where
  format : PictureFormat
  width : Int
  height : Int
  bytes : List UInt8
deriving DecidableEq, Repr

/-- What stores pictures: from the bytes of a file to those of the picture in it, in the given format and
with the given width and height. -/
abbrev Encoder := List UInt8 → PictureFormat → Int → Int → List UInt8

/-- What patterns are read from: files, and the encoder of the pictures in them. -/
structure Sources where
  files : Files.Tree
  encode : Encoder

/-- Files alone are read with an encoder that leaves the bytes of pictures open. -/
instance : Coe Files.Tree Sources := ⟨fun files => ⟨files, fun _ _ _ _ => []⟩⟩

/-! ## PNG files -/

/-- What a PNG file says about its picture. -/
structure PngHeader where
  width : Nat
  height : Nat
  depth : Nat
  colorType : Nat
  /-- Is there a list of transparent colours? -/
  transparent : Bool
deriving DecidableEq, Repr

/-- The number that bytes are, the highest first. -/
def bigEndian (bs : List UInt8) : Nat := bs.foldl (fun n b => 256 * n + b.toNat) 0

/-- The bytes at the beginning of a PNG file. -/
def pngSignature : List UInt8 := [0x89, 0x50, 0x4E, 0x47, 0x0D, 0x0A, 0x1A, 0x0A]

/-- The bytes of a name in the file. -/
def chunkName (s : String) : List UInt8 := s.toList.map fun c => UInt8.ofNat c.toNat

/-- Is there a list of transparent colours among the chunks in front of the image data? -/
def hasTransparency : Nat → List UInt8 → Bool
  | 0, _ => false
  | fuel + 1, bs =>
    let size := bigEndian (bs.take 4)
    let name := (bs.drop 4).take 4
    if name.length < 4 || name == chunkName "IDAT" then false
    else name == chunkName "tRNS" || hasTransparency fuel (bs.drop (12 + size))

/-- Reads the beginning of a PNG file. -/
def PngHeader.read? (bs : List UInt8) : Option PngHeader :=
  let rest := bs.drop 8
  let fields := (rest.drop 8).take 13
  if bs.take 8 == pngSignature && (rest.drop 4).take 4 == chunkName "IHDR" && fields.length == 13 then
    some {
      width := bigEndian (fields.take 4)
      height := bigEndian ((fields.drop 4).take 4)
      depth := ((fields.drop 8).headD 0).toNat
      colorType := ((fields.drop 9).headD 0).toNat
      transparent := hasTransparency bs.length rest }
  else none

/-- Can the picture be transparent? -/
def PngHeader.hasAlpha (h : PngHeader) : Bool :=
  h.colorType == 4 || h.colorType == 6 || h.transparent

/-- Can a picture without transparency be stored?  One with a palette or with long greys cannot. -/
def PngHeader.storable (h : PngHeader) : Bool :=
  h.hasAlpha || !(h.colorType == 3 || (h.colorType == 0 && h.depth == 16))

/-! ## Scaling -/

/-- The neighbour of `x` among the integers with the smaller key, the lower one if they are equal, and at
least one. -/
def nearest (x : Binary64) (key : Int → Binary64) : Int :=
  match x.floor?, x.ceil? with
  | some lo, some hi =>
    let n := if (key hi).compare? (key lo) == some .lt then hi else lo
    max n 1
  | _, _ => 1

/-- The size of a picture that is to fit into a square with the side `s`. -/
def scaledSize (width height s : Int) : Except PictureFault (Int × Int) :=
  if width ≤ s && height ≤ s then .ok (width, height)
  else if s = 0 then .error .zeroSize
  else if s < 0 then .error .negativeSize
  else
    let aspect := (Binary64.ofInt width).div (Binary64.ofInt height)
    let side := Binary64.ofInt s
    if aspect.compare? (Binary64.ofInt 1) != some .gt then
      .ok (nearest (side.mul aspect) fun n => (aspect.sub ((Binary64.ofInt n).div side)).abs, s)
    else
      .ok (s, nearest (side.div aspect) fun n =>
        if n = 0 then .zero false else (aspect.sub (side.div (Binary64.ofInt n))).abs)

/-- The picture in a file, as it is stored. -/
def Picture.read (encode : Encoder) (bs : List UInt8) (s : Int) : Except PictureFault Picture :=
  match PngHeader.read? bs with
  | none => .error .unknownFormat
  | some h => do
    let (width, height) ← scaledSize h.width h.height s
    if !h.storable then .error .unsupportedColors
    else
      let format := if h.hasAlpha then .png else .jpeg
      .ok ⟨format, width, height, encode bs format width height⟩

end Stitchwork.Pattern
