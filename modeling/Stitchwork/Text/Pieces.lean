/- # Stitchwork.Text.Pieces — cutting a text at separators and joining it again.

Cutting keeps empty pieces: a text with `n` separators has `n + 1` pieces.
-/

namespace Stitchwork.Text

/-- Takes `p` off the front of `s`. -/
def afterStart? (p s : List Char) : Option (List Char) :=
  match p, s with
  | [], s => some s
  | _ :: _, [] => none
  | a :: p, b :: s => if a == b then afterStart? p s else none

/-- Does `s` begin with `p`? -/
def startsWith (s p : String) : Bool := (afterStart? p.toList s.toList).isSome

/-- The pieces of `s` between occurrences of the separator `sep`, found from left to right; `piece`
holds, in reverse, what has been read of the current piece, and `skip` counts the characters of a
separator that are still to be passed over. -/
def cutFrom (sep : List Char) (piece : List Char) (skip : Nat) : List Char → List (List Char)
  | [] => [piece.reverse]
  | c :: rest =>
    match skip with
    | k + 1 => cutFrom sep piece k rest
    | 0 =>
      if sep.isPrefixOf (c :: rest) then piece.reverse :: cutFrom sep [] (sep.length - 1) rest
      else cutFrom sep (c :: piece) 0 rest

/-- Cuts a text at every occurrence of a separator that is not empty. -/
def cut (s sep : String) : List String := (cutFrom sep.toList [] 0 s.toList).map String.ofList

/-- Looks for the first occurrence of `stop` in a text, behind the characters `seen`, which are in
reverse. -/
def cutOnceFrom (stop seen : List Char) : List Char → Option (List Char × List Char)
  | [] => none
  | c :: rest =>
    if stop.isPrefixOf (c :: rest) then some (seen.reverse, (c :: rest).drop stop.length)
    else cutOnceFrom stop (c :: seen) rest

/-- The parts of a text in front of and behind the first occurrence of `stop`. -/
def cutOnce? (stop s : List Char) : Option (List Char × List Char) := cutOnceFrom stop [] s

/-- Turns all line ends into line feeds, behind the characters `seen`, which are in reverse. -/
def unifyFrom (seen : List Char) : List Char → List Char
  | '\r' :: '\n' :: rest => unifyFrom ('\n' :: seen) rest
  | '\r' :: rest => unifyFrom ('\n' :: seen) rest
  | c :: rest => unifyFrom (c :: seen) rest
  | [] => seen.reverse

/-- All line ends as line feeds: a carriage return, with a line feed behind it or not, becomes one. -/
def unifyLineEnds (s : List Char) : List Char := unifyFrom [] s

/-- Puts pieces together with a separator between them. -/
def join (sep : String) (pieces : List String) : String :=
  String.ofList (sep.toList.intercalate (pieces.map String.toList))

/-- Does `c` occur in `s`? -/
def hasChar (s : String) (c : Char) : Bool := s.toList.contains c

end Stitchwork.Text
