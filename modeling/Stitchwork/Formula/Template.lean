/- # Stitchwork.Formula.Template — texts with formulas in them.

A formula in a text stands between `$` with an opening brace and the next closing brace.  A text is cut
into plain pieces and formulas once, and each formula is replaced by the text of its value; what comes out
is not looked at again.
-/
import Stitchwork.Formula.Grammar

namespace Stitchwork.Formula

/-- A piece of a template. -/
inductive Piece where
  | plain (c : Char)
  | formula (source : List Char)
deriving DecidableEq, Repr

/-- The brace that opens a formula, behind a dollar sign. -/
def openBrace : Char := Char.ofNat 0x7B

/-- The brace that closes a formula. -/
def closeBrace : Char := Char.ofNat 0x7D

/-- The pieces of a template.  Between the two braces `source` holds, in reverse, what has been read of a
formula; a formula that is not closed is plain text. -/
def piecesFrom : Option (List Char) → List Char → List Piece
  | none, [] => []
  | some source, [] => .plain '$' :: .plain openBrace :: source.reverse.map .plain
  | none, [c] => [.plain c]
  | none, c :: d :: rest =>
    if c == '$' && d == openBrace then piecesFrom (some []) rest
    else .plain c :: piecesFrom none (d :: rest)
  | some source, c :: rest =>
    if c == closeBrace then .formula source.reverse :: piecesFrom none rest
    else piecesFrom (some (c :: source)) rest

/-- The pieces of a template. -/
def pieces (s : String) : List Piece := piecesFrom none s.toList

/-- Why a template has no text. -/
inductive TemplateError where
  /-- A formula has no value. -/
  | formula (source : String) (fault : Fault)
  /-- A value is too long to be written. -/
  | unwritable
deriving DecidableEq, Repr

/-- The value of the formula that a text says. -/
def evaluate (scope : Scope) (source : List Char) : Except Fault Value :=
  if Text.hasSurrogates source then .error .notCharacters
  else match parse? source with
    | some e => e.eval scope
    | none => .error .malformed

/-- The text of a piece. -/
def Piece.expand (scope : Scope) : Piece → Except TemplateError (List Char)
  | .plain c => .ok [c]
  | .formula source =>
    match evaluate scope source with
    | .error fault => .error (.formula (String.ofList source) fault)
    | .ok v =>
      match v.text? with
      | some s => .ok s.toList
      | none => .error .unwritable

/-- The text of pieces, one after the other. -/
def expandAll (scope : Scope) : List Piece → Except TemplateError (List Char)
  | [] => .ok []
  | p :: ps => do
    let s ← p.expand scope
    let t ← expandAll scope ps
    .ok (s ++ t)

/-- Replaces every formula in a text by the text of its value. -/
def expand (scope : Scope) (s : String) : Except TemplateError String :=
  (expandAll scope (pieces s)).map String.ofList

/-- The truth value that a text says, in any case. -/
def saysTruth? (s : String) : Option Bool :=
  let t := Text.lower s
  if t == "false" then some false else if t == "true" then some true else none

end Stitchwork.Formula
