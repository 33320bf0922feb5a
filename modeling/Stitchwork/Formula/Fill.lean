/- # Stitchwork.Formula.Fill — filling values into a text with places.

A place is written `%s` for the text of a value, `%r` for its text as a member, `%d` for an integer, and
`%%` stands for the sign itself.  A tuple gives one value for each place; any other value fills a single
place.  Values that are left over are an error, except that a list or a mapping may be left over.
-/
import Stitchwork.Formula.Operator
import Stitchwork.Formula.Written

namespace Stitchwork.Formula

open Stitchwork.Number

/-- A number cut off to an integer. -/
def Numeric.truncated : Numeric → Except Fault Int
  | .int n => .ok n
  | .float .nan => .error .wrongValue
  | .float x =>
    match x.trunc? with
    | some n => .ok n
    | none => .error .overflow

/-- The text of a value, as a fault if it has none. -/
def Value.written (v : Value) : Except Fault String :=
  match v.text? with
  | some s => .ok s
  | none => .error .wrongValue

/-- The text that a value puts into a place of the given kind. -/
def placeText (kind : Char) (v : Value) : Except Fault String :=
  if kind == 's' then v.written
  else if kind == 'r' then
    match v.memberText? with
    | some s => .ok s
    | none => .error .wrongValue
  else if kind == 'd' || kind == 'i' || kind == 'u' then
    match v.numeric? with
    | some n => do (Value.int (← n.truncated)).written
    | none => .error .wrongKind
  else .error .wrongValue

/-- Fills the places from left to right; gives the text and the values that are left. -/
def fillFrom : List Char → List Value → Except Fault (List Char × List Value)
  | [], args => .ok ([], args)
  | '%' :: [], _ => .error .wrongValue
  | '%' :: '%' :: rest, args => do
    let (cs, left) ← fillFrom rest args
    .ok ('%' :: cs, left)
  | '%' :: kind :: rest, args =>
    match args with
    | [] => .error .wrongKind
    | v :: args => do
      let s ← placeText kind v
      let (cs, left) ← fillFrom rest args
      .ok (s.toList ++ cs, left)
  | c :: rest, args => do
    let (cs, left) ← fillFrom rest args
    .ok (c :: cs, left)

/-- Fills a value, or the members of a tuple, into the places of a text. -/
def fill (template : String) (v : Value) : Except Fault String := do
  let args := match v with
    | .tuple xs => xs
    | v => [v]
  let (cs, left) ← fillFrom template.toList args
  match v, left with
  | _, [] => .ok (String.ofList cs)
  | .list _, _ => .ok (String.ofList cs)
  | .emptyMap, _ => .ok (String.ofList cs)
  | _, _ => .error .wrongKind

/-- An operator between two values; the remainder of a text is the text with the value filled in. -/
def Value.binary (op : BinaryOp) (a b : Value) : Except Fault Value :=
  match op, a with
  | .mod, .str s => (fill s b).map .str
  | .shiftLeft, _ => bitOperation op a b
  | .shiftRight, _ => bitOperation op a b
  | .bitAnd, _ => bitOperation op a b
  | .bitOr, _ => bitOperation op a b
  | .bitXor, _ => bitOperation op a b
  | op, a => arithmetic op a b

end Stitchwork.Formula
