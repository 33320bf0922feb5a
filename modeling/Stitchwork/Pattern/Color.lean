/- # Stitchwork.Pattern.Color — colours.

A colour is written as a number sign and six hexadecimal digits, or as one of a few names; it is kept in
the first form, in lower case.
-/
import Stitchwork.Error
import Stitchwork.Markup.Node
import Stitchwork.Text.Blank

namespace Stitchwork.Pattern

open Stitchwork.Markup

/-- The names of colours. -/
def colorNames : List (String × String) :=
  [("black", "#000000"), ("silver", "#C0C0C0"), ("white", "#FFFFFF"), ("red", "#FF0000"),
   ("purple", "#800080"), ("green", "#008000"), ("yellow", "#FFFF00"), ("blue", "#0000FF")]

/-- Hexadecimal digits. -/
def isHexDigit (c : Char) : Bool :=
  ('0' ≤ c && c ≤ '9') || ('a' ≤ c && c ≤ 'f') || ('A' ≤ c && c ≤ 'F')

/-- Is the text a number sign and six hexadecimal digits, perhaps with a line end behind them? -/
def isHexColor (s : String) : Bool :=
  match s.toList with
  | '#' :: rest =>
    (rest.take 6).length == 6 && (rest.take 6).all isHexDigit &&
      (rest.drop 6 == [] || rest.drop 6 == ['\n'])
  | _ => false

/-- Is the text a colour? -/
def isColor (s : String) : Bool := (colorNames.lookup s).isSome || isHexColor s

/-- The text of a colour in its one form. -/
def normalColor (s : String) : Except Error String :=
  if !isColor s then .error (.invalidColor s)
  else .ok (Text.lower ((colorNames.lookup s).getD s))

/-- The definition of a colour. -/
structure Color where
  name : String
  value : String
  description : String
deriving Repr, DecidableEq

namespace Color

/-- Reads the definition of a colour. -/
def ofElement (e : Element) : Except Error Color := do
  let value ← normalColor (Text.lower (Text.trim (e.attr "value")))
  .ok ⟨e.attr "name", value, e.attr "description"⟩

/-- The element that defines the colour. -/
def toElement (c : Color) : Element :=
  element Kind.color.tag [("name", c.name), ("value", c.value), ("description", c.description)]

end Color

end Stitchwork.Pattern
