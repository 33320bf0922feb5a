/- # Stitchwork.Formula.Value — the values of formulas.

Formulas are dynamic: a value is nothing, a truth value, an integer of any size, a double-precision
number, a text, a list, a tuple, a function or the empty mapping.  Truth values count as the integers zero
and one wherever a number is wanted.

The undefined number is equal to nothing, not even to itself.  As a member of a sequence it still counts as
the same as itself, so each undefined number of a scope is known by the place at which it stands there.  One
that a formula computes is never met twice and needs no place.
-/
import Stitchwork.Number.Binary64
import Stitchwork.Table

namespace Stitchwork.Formula

open Stitchwork.Number

/-- The functions a formula can call. -/
inductive Function where
  | round | mround | floor | ceil
  | lt | gt | eq | neq
  | and | or | not
  | abs | choose | isEmpty | odd | even | multiple | max | min
  | bool | ite | mod | rept
deriving DecidableEq, Repr

/-- The value of a formula. -/
inductive Value where
  | nothing
  | bool (b : Bool)
  | int (n : Int)
  | float (x : Binary64)
  /-- The undefined number that stands in a scope: under a name, and there at a path of positions, the
  innermost first. -/
  | undefined (name : String) (path : List Nat)
  | str (s : String)
  | list (xs : List Value)
  | tuple (xs : List Value)
  | function (f : Function)
  | emptyMap
deriving Repr, Inhabited

/-- The values that a formula sees, by name. -/
abbrev Scope := Table Value

/-- A number: an integer or a double. -/
inductive Numeric where
  | int (n : Int)
  | float (x : Binary64)
deriving DecidableEq, Repr

namespace Numeric

/-- Compares two numbers exactly, whatever their kinds. -/
def compare? : Numeric → Numeric → Option Ordering
  | .int a, .int b => some (compare a b)
  | .float x, .float y => x.compare? y
  | .float x, .int b => x.compareInt? b
  | .int a, .float y => (y.compareInt? a).map Ordering.swap

/-- Is the number zero? -/
def isZero : Numeric → Bool
  | .int n => n == 0
  | .float x => x.isZero

end Numeric

namespace Value

/-- A value as a number; truth values are zero and one. -/
def numeric? : Value → Option Numeric
  | .bool b => some (.int (if b then 1 else 0))
  | .int n => some (.int n)
  | .float x => some (.float x)
  | .undefined .. => some (.float .nan)
  | _ => none

/-- A value as an integer; doubles are none. -/
def integer? : Value → Option Int
  | .bool b => some (if b then 1 else 0)
  | .int n => some n
  | _ => none

/-- A number as a value. -/
def ofNumeric : Numeric → Value
  | .int n => .int n
  | .float x => .float x

/-- Does the value count as true? -/
def truth : Value → Bool
  | .nothing => false
  | .bool b => b
  | .int n => n != 0
  | .float x => !x.isZero
  | .undefined .. => true
  | .str s => !s.isEmpty
  | .list xs => !xs.isEmpty
  | .tuple xs => !xs.isEmpty
  | .function _ => true
  | .emptyMap => false

/-! ## Equality -/

/-- Are two values that are no sequences equal? -/
def atomEq (a b : Value) : Bool :=
  match a, b with
  | .nothing, .nothing => true
  | .str s, .str t => s == t
  | .function f, .function g => f == g
  | .emptyMap, .emptyMap => true
  | a, b =>
    match a.numeric?, b.numeric? with
    | some m, some n => m.compare? n == some .eq
    | _, _ => false

/-- Are the two values one undefined number, at one place of the scope? -/
def samePlace : Value → Value → Bool
  | .undefined s p, .undefined t q => s == t && p == q
  | _, _ => false

mutual

/-- Are two values equal?  Numbers are equal across kinds, the undefined number is equal to nothing, and
sequences of one kind are equal member by member. -/
def eq : Value → Value → Bool
  | .list xs, .list ys => eqAll xs ys
  | .tuple xs, .tuple ys => eqAll xs ys
  | a, b => atomEq a b

/-- Are two sequences equal member by member?  As a member, the undefined number is the same as
itself. -/
def eqAll : List Value → List Value → Bool
  | [], [] => true
  | x :: xs, y :: ys => (eq x y || samePlace x y) && eqAll xs ys
  | _, _ => false

end

/-- Are two values the same as members of sequences? -/
def sameMember (a b : Value) : Bool := a.eq b || a.samePlace b

/-- Are two values one and the same, of one kind and equal? -/
def identical : Value → Value → Bool
  | .nothing, .nothing => true
  | .bool a, .bool b => a == b
  | .int a, .int b => a == b
  | .float x, .float y => x == y
  | .undefined s p, .undefined t q => s == t && p == q
  | .str s, .str t => s == t
  | .function f, .function g => f == g
  | .emptyMap, .emptyMap => true
  | _, _ => false

/-! ## Places -/

mutual

/-- Gives the undefined numbers in the value of a name their places. -/
def placed (name : String) (path : List Nat) : Value → Value
  | .float .nan => .undefined name path
  | .list xs => .list (placedAll name path 0 xs)
  | .tuple xs => .tuple (placedAll name path 0 xs)
  | v => v

/-- Gives the undefined numbers in the members of a sequence, from position `i` on, their places. -/
def placedAll (name : String) (path : List Nat) (i : Nat) : List Value → List Value
  | [] => []
  | x :: xs => placed name (i :: path) x :: placedAll name path (i + 1) xs

end

end Value

end Stitchwork.Formula
