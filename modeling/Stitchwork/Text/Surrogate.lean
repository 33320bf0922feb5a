/- # Stitchwork.Text.Surrogate — codes that are no characters.

The codes from U+D800 to U+DFFF are halves of pairs and no characters, but a formula can name one in a quoted
text, and it stays in the text as a unit of its own.  A character of plane 13, to which nothing is assigned,
keeps its place: the one with the same last sixteen bits.
-/

namespace Stitchwork.Text

/-- Is the code a surrogate? -/
def isSurrogate (n : Nat) : Bool := 0xD800 ≤ n && n ≤ 0xDFFF

/-- How far a surrogate is from the character that keeps its place. -/
def surrogateShift : Nat := 0xD0000

/-- The character for a code. -/
def charOfCode (n : Nat) : Char := Char.ofNat (if isSurrogate n then n + surrogateShift else n)

/-- Does the character keep the place of a surrogate? -/
def keepsPlace (c : Char) : Bool := surrogateShift ≤ c.toNat && isSurrogate (c.toNat - surrogateShift)

/-- The code of a character. -/
def codeOf (c : Char) : Nat := if keepsPlace c then c.toNat - surrogateShift else c.toNat

/-- Does a text hold surrogates?  Such a text has no encoding in bytes. -/
def hasSurrogates (s : List Char) : Bool := s.any keepsPlace

end Stitchwork.Text
