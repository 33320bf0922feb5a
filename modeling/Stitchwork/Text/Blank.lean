/- # Stitchwork.Text.Blank — white space and trimming.

There are two classes.  `isBlank` is white space of any script, with the four information separators
U+001C to U+001F among it; it is what trimming removes.  `isNumberBlank` leaves the separators out; it is
what may stand around a number.
-/
import Stitchwork.Text.Range

namespace Stitchwork.Text

/-- The runs of white space. -/
def blankRanges : List (Nat × Nat) :=
  [(0x9, 0xD), (0x1C, 0x20), (0x85, 0x85), (0xA0, 0xA0), (0x1680, 0x1680), (0x2000, 0x200A),
   (0x2028, 0x2029), (0x202F, 0x202F), (0x205F, 0x205F), (0x3000, 0x3000)]

/-- White space of any script, the information separators included. -/
def isBlank (c : Char) : Bool := inRanges blankRanges c

/-- White space that may stand around a number. -/
def isNumberBlank (c : Char) : Bool := isBlank c && !(0x1C ≤ c.toNat && c.toNat ≤ 0x1F)

/-- Removes the characters of a class from both ends. -/
def trimBy (p : Char → Bool) (s : List Char) : List Char :=
  ((s.dropWhile p).reverse.dropWhile p).reverse

/-- Removes white space from both ends. -/
def trim (s : String) : String := String.ofList (trimBy isBlank s.toList)

end Stitchwork.Text
