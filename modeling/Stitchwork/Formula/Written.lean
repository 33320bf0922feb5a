/- # Stitchwork.Formula.Written — values as text.

A text stands for itself; inside a sequence it is quoted, in single quotes unless it holds one and no
double quote.  An integer with too many digits cannot be written, and neither can a sequence that holds
one.
-/
import Stitchwork.Formula.Value
import Stitchwork.Number.Written
import Stitchwork.Text.Pieces
import Stitchwork.Text.Printable
import Stitchwork.Text.Surrogate

namespace Stitchwork.Formula

open Stitchwork.Number Stitchwork.Text

/-- The name under which a formula calls the function. -/
def Function.name : Function → String
  | .round => "ROUND"
  | .mround => "MROUND"
  | .floor => "FLOOR"
  | .ceil => "CEIL"
  | .lt => "LT"
  | .gt => "GT"
  | .eq => "EQ"
  | .neq => "NEQ"
  | .and => "AND"
  | .or => "OR"
  | .not => "NOT"
  | .abs => "ABS"
  | .choose => "CHOOSE"
  | .isEmpty => "ISEMPTY"
  | .odd => "ODD"
  | .even => "EVEN"
  | .multiple => "MULTIPLE"
  | .max => "MAX"
  | .min => "MIN"
  | .bool => "BOOL"
  | .ite => "IF"
  | .mod => "MOD"
  | .rept => "REPT"

/-- The single quote. -/
def apostrophe : Char := Char.ofNat 0x27

/-- The double quote. -/
def doubleQuote : Char := Char.ofNat 0x22

/-- A natural in hexadecimal, with at least `width` digits. -/
def hexText (width n : Nat) : List Char :=
  let ds := Nat.toDigits 16 n
  List.replicate (width - ds.length) '0' ++ ds

/-- A character inside quotes. -/
def quotedChar (quote c : Char) : List Char :=
  if c == quote || c == '\\' then ['\\', c]
  else if c == '\n' then ['\\', 'n']
  else if c == '\r' then ['\\', 'r']
  else if c == '\t' then ['\\', 't']
  else if isPrintable c then [c]
  else if codeOf c < 0x100 then '\\' :: 'x' :: hexText 2 (codeOf c)
  else if codeOf c < 0x10000 then '\\' :: 'u' :: hexText 4 (codeOf c)
  else '\\' :: 'U' :: hexText 8 (codeOf c)

/-- A text in quotes. -/
def quoted (s : String) : String :=
  let cs := s.toList
  let quote := if cs.contains apostrophe && !cs.contains doubleQuote then doubleQuote else apostrophe
  String.ofList (quote :: (cs.flatMap (quotedChar quote) ++ [quote]))

namespace Value

/-- The text of a value that is no text and no sequence. -/
def atomText? : Value → Option String
  | .nothing => some "None"
  | .bool b => some (if b then "True" else "False")
  | .int n => intText? n
  | .float x => some x.text
  | .undefined .. => some Binary64.nan.text
  | .function f => some ("<function " ++ f.name ++ ">")
  | .emptyMap => some "\x7b\x7d"
  | _ => none

mutual

/-- The text of a value as a member of a sequence. -/
def memberText? : Value → Option String
  | .str s => some (quoted s)
  | .list xs => (memberTexts? xs).map fun ts => "[" ++ join ", " ts ++ "]"
  | .tuple xs => (memberTexts? xs).map fun ts =>
    match ts with
    | [t] => "(" ++ t ++ ",)"
    | ts => "(" ++ join ", " ts ++ ")"
  | v => v.atomText?

/-- The texts of the members of a sequence. -/
def memberTexts? : List Value → Option (List String)
  | [] => some []
  | x :: xs =>
    match memberText? x, memberTexts? xs with
    | some t, some ts => some (t :: ts)
    | _, _ => none

end

/-- The text of a value, unless an integer in it has too many digits. -/
def text? : Value → Option String
  | .str s => some s
  | v => v.memberText?

end Value

end Stitchwork.Formula
