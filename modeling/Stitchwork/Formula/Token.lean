/- # Stitchwork.Formula.Token — the words of a formula.

A line end counts only outside brackets, where it ends the formula; blank lines and lines with a comment
alone do not count.  The first line that counts must not be indented, except that blanks at the very front
are dropped beforehand.
-/
import Stitchwork.Formula.Written
import Stitchwork.Number.Read
import Stitchwork.Text.Word

namespace Stitchwork.Formula

open Stitchwork.Number Stitchwork.Text

/-- A word of a formula. -/
inductive Token where
  | int (n : Nat)
  | float (x : Binary64)
  | text (s : String)
  | word (s : String)
  | sign (s : String)
  | lineEnd
deriving DecidableEq, Repr

/-! ## Numbers -/

/-- The value of a digit in a base up to sixteen. -/
def baseDigit? (base : Nat) (c : Char) : Option Nat :=
  let d :=
    if isPlainDigit c then plainDigit c
    else if 'a' ≤ c && c ≤ 'f' then c.toNat - 'a'.toNat + 10
    else if 'A' ≤ c && c ≤ 'F' then c.toNat - 'A'.toNat + 10
    else 16
  if d < base then some d else none

/-- Digits in a base, a single underscore allowed before each, added to the value read so far. -/
def takeBaseDigits (base acc : Nat) : List Char → Nat × List Char
  | '_' :: c :: rest =>
    match baseDigit? base c with
    | some d => takeBaseDigits base (base * acc + d) rest
    | none => (acc, '_' :: c :: rest)
  | c :: rest =>
    match baseDigit? base c with
    | some d => takeBaseDigits base (base * acc + d) rest
    | none => (acc, c :: rest)
  | [] => (acc, [])

/-- The base that a letter after a leading zero announces. -/
def baseOf? (c : Char) : Option Nat :=
  if c == 'x' || c == 'X' then some 16
  else if c == 'o' || c == 'O' then some 8
  else if c == 'b' || c == 'B' then some 2
  else none

/-- A decimal number at the front.  An integer has not too many digits and no superfluous zeros in front.
Zero may have them, and so may an integer that the word `else` touches, which then counts as a decimal. -/
def takeNumber? (s : List Char) : Option (Token × List Char) :=
  let (whole, rest) := takeDigits s
  let (point, part, rest) := match rest with
    | '.' :: after => (true, takeDigits after)
    | _ => (false, [], rest)
  let (isFloat, exp, rest) := match takeExponent rest with
    | some (e, after) => (point || after.length < rest.length, e, after)
    | none => (point, 0, rest)
  if isFloat then
    if whole.isEmpty && part.isEmpty then none
    else some (.float (.ofDecimal false (digitsValue (whole ++ part)) (exp - part.length)), rest)
  else
    let n := digitsValue whole
    if whole.isEmpty then none
    else if whole.head? == some '0' then
      if n = 0 then some (.int 0, rest)
      else if rest.head? == some 'e' then some (.float (.ofDecimal false n 0), rest)
      else none
    else if maxDigits < whole.length then none
    else some (.int n, rest)

/-- A number in some base at the front. -/
def takeNumeral? (s : List Char) : Option (Token × List Char) :=
  match s with
  | '0' :: c :: rest =>
    match baseOf? c with
    | some base =>
      let (n, after) := takeBaseDigits base 0 rest
      if after.length < rest.length then some (.int n, after) else none
    | none => takeNumber? s
  | _ => takeNumber? s

/-! ## Quoted texts -/

/-- The value of exactly `n` hexadecimal digits at the front. -/
def takeHex? : Nat → Nat → List Char → Option (Nat × List Char)
  | 0, acc, s => some (acc, s)
  | n + 1, acc, c :: rest => (baseDigit? 16 c).bind fun d => takeHex? n (16 * acc + d) rest
  | _ + 1, _, [] => none

/-- The value of up to `n` octal digits at the front. -/
def takeOctal : Nat → Nat → List Char → Nat × List Char
  | 0, acc, s => (acc, s)
  | n + 1, acc, c :: rest =>
    match baseDigit? 8 c with
    | some d => takeOctal n (8 * acc + d) rest
    | none => (acc, c :: rest)
  | _ + 1, acc, [] => (acc, [])

/-- The characters with a letter of their own after a backslash. -/
def simpleEscape? (c : Char) : Option Char :=
  if c == '\\' || c == apostrophe || c == doubleQuote then some c
  else if c == 'a' then some (Char.ofNat 7)
  else if c == 'b' then some (Char.ofNat 8)
  else if c == 'f' then some (Char.ofNat 12)
  else if c == 'n' then some '\n'
  else if c == 'r' then some '\r'
  else if c == 't' then some '\t'
  else if c == 'v' then some (Char.ofNat 11)
  else none

/-- What a backslash in front of `s` stands for, and the rest.  A backslash before any other character
stays. -/
def takeEscape? (s : List Char) : Option (List Char × List Char) :=
  match s with
  | [] => none
  | c :: rest =>
    let code (n : Nat) : Option (List Char × List Char) :=
      (takeHex? n 0 rest).bind fun (k, after) =>
        if k < 0x110000 then some ([charOfCode k], after) else none
    match simpleEscape? c with
    | some d => some ([d], rest)
    | none =>
      if c == '\n' then some ([], rest)
      else if c == 'x' then code 2
      else if c == 'u' then code 4
      else if c == 'U' then code 8
      else if c == 'N' then none
      else if (baseDigit? 8 c).isSome then
        let (k, after) := takeOctal 3 0 s
        some ([Char.ofNat k], after)
      else some (['\\', c], rest)

/-- Reads a quoted text up to the closing quotes.  A text in single quotes stays on one line. -/
def takeQuoted? (raw : Bool) (quote : Char) (long : Bool) :
    Nat → List Char → Option (List Char × List Char)
  | 0, _ => none
  | _ + 1, [] => none
  | fuel + 1, c :: rest =>
    let closing := if long then [quote, quote, quote] else [quote]
    if closing.isPrefixOf (c :: rest) then some ([], (c :: rest).drop closing.length)
    else if c == '\n' && !long then none
    else if c == '\\' then
      if raw then
        match rest with
        | [] => none
        | d :: rest => (takeQuoted? raw quote long fuel rest).map fun (cs, after) => (c :: d :: cs, after)
      else
        (takeEscape? rest).bind fun (ds, rest) =>
          (takeQuoted? raw quote long fuel rest).map fun (cs, after) => (ds ++ cs, after)
    else (takeQuoted? raw quote long fuel rest).map fun (cs, after) => (c :: cs, after)

/-- A quoted text at the front, which begins with `quote`. -/
def takeText? (raw : Bool) (quote : Char) (s : List Char) : Option (Token × List Char) :=
  let long := [quote, quote, quote].isPrefixOf s
  (takeQuoted? raw quote long (s.length + 1) (s.drop (if long then 3 else 1))).map
    fun (cs, after) => (.text (String.ofList cs), after)

/-! ## Words and signs -/

/-- Signs of two characters. -/
def longSigns : List String := ["**", "//", "<<", ">>", "<=", ">=", "==", "!="]

/-- Signs of one character. -/
def shortSigns : List Char :=
  ['+', '-', '*', '/', '%', '&', '|', '^', '~', '<', '>', '(', ')', '[', ']', ',', ':', '=']

/-- A sign at the front. -/
def takeSignToken? (s : List Char) : Option (Token × List Char) :=
  if longSigns.contains (String.ofList (s.take 2)) then
    some (.sign (String.ofList (s.take 2)), s.drop 2)
  else match s with
    | c :: rest => if shortSigns.contains c then some (.sign (String.ofList [c]), rest) else none
    | [] => none

/-- Words that mark the text behind them: as raw, as nothing special, or as something that formulas do not
have. -/
def textMarks : List (String × Option Bool) :=
  [("r", some true), ("u", some false), ("b", none), ("f", none), ("br", none), ("rb", none),
   ("fr", none), ("rf", none)]

/-- A word, or a marked text, at the front. -/
def takeWord? (s : List Char) : Option (Token × List Char) :=
  let word := s.takeWhile isWordPart
  let rest := s.dropWhile isWordPart
  let plain := some (Token.word (String.ofList word), rest)
  match rest with
  | c :: _ =>
    if c == apostrophe || c == doubleQuote then
      match textMarks.lookup (String.ofList (word.map Char.toLower)) with
      | some mark => mark.bind fun raw => takeText? raw c rest
      | none => plain
    else plain
  | [] => plain

/-- The next token that is no line end. -/
def takeToken? (s : List Char) : Option (Token × List Char) :=
  match s with
  | [] => none
  | c :: rest =>
    if isPlainDigit c then takeNumeral? s
    else if c == '.' && (rest.head?.map isPlainDigit).getD false then takeNumeral? s
    else if c == apostrophe || c == doubleQuote then takeText? false c s
    else if isWordStart c then takeWord? s
    else takeSignToken? s

/-! ## Lines -/

/-- Blanks inside a line. -/
def isLineBlank (c : Char) : Bool := c == ' ' || c == '\t' || c == Char.ofNat 12

/-- The column that blanks at the front of a line lead to, and what follows them.  A form feed starts again.
Where a line goes on in the next one, `kept` is the first column above zero at which that happens, and it
counts; a line cannot go on at the very end. -/
def indentation? (col kept : Nat) : List Char → Option (Nat × List Char)
  | ' ' :: rest => indentation? (col + 1) kept rest
  | '\t' :: rest => indentation? ((col / 8 + 1) * 8) kept rest
  | '\\' :: '\n' :: rest =>
    if rest.isEmpty then none else indentation? col (if kept = 0 then col else kept) rest
  | c :: rest =>
    if c == Char.ofNat 12 then indentation? 0 kept rest
    else some (if kept = 0 then col else kept, c :: rest)
  | [] => some (if kept = 0 then col else kept, [])

/-- What follows the blanks at the front of a line, unless the line is indented.  The indentation of a line
that is blank, or has a comment only, does not count, but that of the end does. -/
def lineBody? (s : List Char) : Option (List Char) :=
  (indentation? 0 0 s).bind fun (col, rest) =>
    match rest with
    | '\n' :: _ => some rest
    | '#' :: _ => some rest
    | _ => if col = 0 then some rest else none

/-- The most brackets that can be open at once. -/
def maxNesting : Nat := 200

/-- The number of open brackets behind a token, if brackets allow it. -/
def depthAfter? (depth : Nat) : Token → Option Nat
  | .sign s =>
    if s == "(" || s == "[" then if depth < maxNesting then some (depth + 1) else none
    else if s == ")" || s == "]" then if depth = 0 then none else some (depth - 1)
    else some depth
  | _ => some depth

/-- The tokens of a formula, `depth` brackets deep; `start` says whether a line begins here. -/
def tokensFrom : Nat → Nat → Bool → List Char → Option (List Token)
  | 0, _, _, _ => none
  | fuel + 1, depth, start, s =>
    match if start then lineBody? s else some (s.dropWhile isLineBlank) with
    | none => none
    | some [] => some []
    | some ('#' :: rest) => tokensFrom fuel depth start (rest.dropWhile (· != '\n'))
    | some ('\n' :: rest) =>
      if depth = 0 then
        if start then tokensFrom fuel depth true rest
        else (tokensFrom fuel depth true rest).map (Token.lineEnd :: ·)
      else tokensFrom fuel depth false rest
    | some ('\\' :: '\n' :: rest) => if rest.isEmpty then none else tokensFrom fuel depth false rest
    | some rest =>
      (takeToken? rest).bind fun (token, after) =>
        (depthAfter? depth token).bind fun depth =>
          (tokensFrom fuel depth false after).map (token :: ·)

/-- The tokens of a formula. -/
def tokens? (s : List Char) : Option (List Token) :=
  let s := (unifyLineEnds s).dropWhile fun c => c == ' ' || c == '\t'
  tokensFrom (s.length + 1) 0 true s

end Stitchwork.Formula
