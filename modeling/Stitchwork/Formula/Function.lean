/- # Stitchwork.Formula.Function — the functions that formulas call.

Each function has named parameters, some with a value to fall back on; arguments are given by position
or by name.  The rounding functions go through the quotient by the step and multiply back, so a large
integer loses precision on the way.
-/
import Stitchwork.Formula.Fill
import Stitchwork.Text.Blank
import Stitchwork.Text.Case

namespace Stitchwork.Formula

open Stitchwork.Number

namespace Function

/-- All functions, in the order of the manual. -/
def all : List Function :=
  [.round, .mround, .floor, .ceil, .lt, .gt, .eq, .neq, .and, .or, .not, .abs, .choose, .isEmpty,
   .odd, .even, .multiple, .max, .min, .bool, .ite, .mod, .rept]

/-- The function that a formula calls by a name. -/
def ofName? (name : String) : Option Function := all.find? (·.name == name)

/-- The parameters of a function with the values they fall back on. -/
def params : Function → List (String × Option Value)
  | .round => [("num", none)]
  | .mround => [("num", none), ("multiple", some (.int 1))]
  | .floor => [("num", none), ("multiple", some (.int 1))]
  | .ceil => [("num", none), ("multiple", some (.int 1))]
  | .lt => [("num", none), ("test", none)]
  | .gt => [("num", none), ("test", none)]
  | .eq => [("val", none), ("values", none)]
  | .neq => [("val", none), ("values", none)]
  | .and => [("val1", none), ("val2", none)]
  | .or => [("val1", none), ("val2", none)]
  | .not => [("val", none)]
  | .abs => [("num", none)]
  | .choose => [("index", none), ("values", none)]
  | .isEmpty => [("val", none)]
  | .odd => [("val", none)]
  | .even => [("val", none)]
  | .multiple => [("val", none), ("multiple", none)]
  | .max => [("val1", none), ("val2", none)]
  | .min => [("val1", none), ("val2", none)]
  | .bool => [("val", none)]
  | .ite => [("test", none), ("val_t", none), ("val_f", none)]
  | .mod => [("val", none), ("div", none)]
  | .rept => [("val", none), ("num", none), ("sep", none)]

/-- Gives each parameter its argument: first those by position, then those by name, then the values to
fall back on.  `none` if an argument is left over or a parameter has no value. -/
def bind? (params : List (String × Option Value)) (args : List Value) (named : List (String × Value)) :
    Option (List Value) :=
  match params, args with
  | [], [] => if named.isEmpty then some [] else none
  | [], _ :: _ => none
  | (p, _) :: params, v :: args =>
    if (named.lookup p).isSome then none else (bind? params args named).map (v :: ·)
  | (p, fallback) :: params, [] =>
    match (named.lookup p).or fallback with
    | some v => (bind? params [] (named.filter (·.1 != p))).map (v :: ·)
    | none => none

end Function

namespace Value

/-- The nearest integer to a number. -/
def rounded (v : Value) : Except Fault Value :=
  match v.numeric? with
  | some (.int n) => .ok (.int n)
  | some (.float .nan) => .error .wrongValue
  | some (.float x) =>
    match x.round? with
    | some n => .ok (.int n)
    | none => .error .overflow
  | none => .error .wrongKind

/-- The quotient of a value by a step as an integer, found by `rule`, times the step. -/
def toMultiple (rule : Binary64 → Option Int) (v step : Value) : Except Fault Value := do
  match ← arithmetic .div v step with
  | .float .nan => .error .wrongValue
  | .float x =>
    match rule x with
    | some n => arithmetic .mul step (.int n)
    | none => .error .overflow
  | _ => .error .wrongKind

/-- The lower-case form of a text; other values stay. -/
def lowered : Value → Value
  | .str s => .str (Text.lower s)
  | v => v

/-- Is a value equal to another, or to a member of it if that is a list?  Texts are compared in lower
case. -/
def matchesAny (v values : Value) : Bool :=
  let v := v.lowered
  match values with
  | .list xs => xs.any (fun x => v.eq x.lowered) || v.eq (.list xs)
  | values => v.eq values.lowered

/-- The alternative with the given number, counted from one. -/
def chosen (i values : Value) : Except Fault Value := do
  if ← compares .lt i (.int 1) then throw .choiceBelowOne
  match values.length? with
  | none => throw .wrongKind
  | some count =>
    if ← compares .lt (.int count) i then throw (.choiceBeyond (← i.written) count)
    index values (← arithmetic .sub i (.int 1))

/-- Is the remainder by a divisor zero? -/
def divides (divisor v : Value) : Except Fault Bool :=
  (binary .mod v divisor).map fun r => r.eq (.int 0)

/-- A value as a truth value: texts that say yes, and numbers equal to one. -/
def asBool : Value → Bool
  | .bool b => b
  | .str s => ["yes", "true", "1"].contains (Text.lower (Text.trim s))
  | v => v.eq (.int 1)

/-- The text of a value, repeated with a separator between. -/
def repeatedText (v n sep : Value) : Except Fault Value := do
  if ← compares .le n (.int 0) then return .str ""
  if n.eq (.int 1) then return .str (← v.written)
  match n.integer? with
  | none => throw .wrongKind
  | some k =>
    let piece ← v.written
    let between ← sep.written
    .ok (.str (Text.join between (List.replicate k.toNat piece)))

end Value

/-- The result of a function for values of its parameters. -/
def Function.run (f : Function) (args : List Value) : Except Fault Value :=
  match f, args with
  | .round, [v] => v.rounded
  | .mround, [v, step] => v.toMultiple Binary64.round? step
  | .floor, [v, step] => v.toMultiple Binary64.floor? step
  | .ceil, [v, step] => v.toMultiple Binary64.ceil? step
  | .lt, [a, b] => (Value.compares .lt a b).map .bool
  | .gt, [a, b] => (Value.compares .gt a b).map .bool
  | .eq, [v, values] => .ok (.bool (v.matchesAny values))
  | .neq, [v, values] => .ok (.bool !(v.matchesAny values))
  | .and, [a, b] => .ok (if a.truth then b else a)
  | .or, [a, b] => .ok (if a.truth then a else b)
  | .not, [v] => .ok (.bool !v.truth)
  | .abs, [v] =>
    match v.numeric? with
    | some (.int n) => .ok (.int n.natAbs)
    | some (.float x) => .ok (.float x.abs)
    | none => .error .wrongKind
  | .choose, [i, values] => Value.chosen i values
  | .isEmpty, [.nothing] => .ok (.bool true)
  | .isEmpty, [v] => v.written.map fun s => .bool s.isEmpty
  | .odd, [v] => (Value.divides (.int 2) v).map fun b => .bool !b
  | .even, [v] => (Value.divides (.int 2) v).map .bool
  | .multiple, [v, divisor] => (Value.divides divisor v).map .bool
  | .max, [a, b] => do .ok (if ← Value.compares .gt b a then b else a)
  | .min, [a, b] => do .ok (if ← Value.compares .lt b a then b else a)
  | .bool, [v] => .ok (.bool v.asBool)
  | .ite, [test, yes, no] => .ok (if test.truth then yes else no)
  | .mod, [v, divisor] => Value.binary .mod v divisor
  | .rept, [v, n, sep] => Value.repeatedText v n sep
  | _, _ => .error .wrongKind

/-- Calls a function with arguments by position and by name. -/
def Function.call (f : Function) (args : List Value) (named : List (String × Value)) :
    Except Fault Value :=
  match Function.bind? f.params args named with
  | some vs => f.run vs
  | none => .error .wrongKind

end Stitchwork.Formula
