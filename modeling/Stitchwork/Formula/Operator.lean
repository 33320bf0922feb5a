/- # Stitchwork.Formula.Operator — what the operators compute.

Integers are exact.  Where an integer meets a double it is converted first, which fails if it is too
large; only comparisons are exact across the two kinds.  The quotient of two integers is the nearest
double to the exact quotient.  Rounded-down division and its remainder follow the sign of the divisor.
Texts, lists and tuples can be joined with their own kind and repeated.
-/
import Stitchwork.Formula.Fault
import Stitchwork.Formula.Value
import Stitchwork.Text.Surrogate

namespace Stitchwork.Formula

open Stitchwork.Number

/-- Operators between two values. -/
inductive BinaryOp where
  | add | sub | mul | div | floorDiv | mod | pow
  | shiftLeft | shiftRight | bitAnd | bitOr | bitXor
deriving DecidableEq, Repr

/-- Operators before a value. -/
inductive UnaryOp where
  | plus | minus | invert | not
deriving DecidableEq, Repr

/-- Comparisons. -/
inductive Comparison where
  | lt | le | gt | ge | eq | ne | isIn | notIn | same | notSame
deriving DecidableEq, Repr

/-! ## Arithmetic on numbers -/

/-- The most entries a sequence can have, and the most bits or so an integer, before there is no room for
them. -/
def maxLength : Nat := pow2 32

/-- The number of bits in a limb of an integer. -/
def limbBits : Nat := 30

/-- The most limbs that an integer may be asked to have: each takes four bytes, the head of an integer takes
twenty-four, and their number has to fit into a word. -/
def maxLimbs : Nat := (wordSize - 1 - 24) / 4

/-- The number of limbs of an integer that is not zero. -/
def limbCount (n : Int) : Nat := n.natAbs.log2 / limbBits + 1

/-- The number of limbs that are set aside for an integer shifted by `k` bits. -/
def shiftedLimbs (n : Int) (k : Nat) : Nat :=
  limbCount n + k / limbBits + (if k % limbBits = 0 then 0 else 1)

namespace Numeric

/-- A number as a double; an integer beyond the largest double has none. -/
def toBinary64 : Numeric → Except Fault Binary64
  | .float x => .ok x
  | .int n =>
    let x := Binary64.ofInt n
    if x.isFinite then .ok x else .error .overflow

/-- Applies an operation on integers to two integers and one on doubles to all other pairs. -/
def arith (onInts : Int → Int → Except Fault Numeric)
    (onFloats : Binary64 → Binary64 → Except Fault Numeric) : Numeric → Numeric → Except Fault Numeric
  | .int a, .int b => onInts a b
  | a, b => do
    let x ← a.toBinary64
    let y ← b.toBinary64
    onFloats x y

/-- The double nearest to the quotient of two integers. -/
def quotient (a b : Int) : Except Fault Numeric :=
  if b = 0 then .error (.zeroDivide .quotient)
  else
    let x := Binary64.ofRatio ((a < 0) != (b < 0)) a.natAbs b.natAbs
    if x.isFinite then .ok (.float x) else .error .overflow

/-- A power of doubles.  A negative base needs an integer exponent. -/
def floatPow (x y : Binary64) : Except Fault Numeric :=
  let one := Binary64.ofInt 1
  let above : Bool := x.abs.compare? one == some .gt
  if y.isZero then .ok (.float one)
  else if x = .nan then .ok (.float .nan)
  else if y = .nan then .ok (.float (if x = one then one else .nan))
  else match y with
    | .inf neg =>
      if x.abs = one then .ok (.float one)
      else .ok (.float (if neg != above then .inf false else .zero false))
    | y =>
      let odd := y.isOddInteger
      match x with
      | .inf neg =>
        if y.signBit then .ok (.float (.zero (neg && odd)))
        else .ok (.float (.inf (neg && odd)))
      | x =>
        if x.isZero then
          if y.signBit then .error (.zeroDivide .negativePower)
          else .ok (.float (.zero (x.signBit && odd)))
        else if x.signBit && !y.isInteger then .error .wrongKind
        else
          let p := if x.abs = one then one else x.abs.machinePow y
          if p.isFinite then .ok (.float (p.withSign (x.signBit && odd))) else .error .overflow

/-- A power of integers; a negative exponent gives a double. -/
def intPow (a b : Int) : Except Fault Numeric :=
  if 0 ≤ b then
    if 1 < a.natAbs && maxLength ≤ b.toNat then .error .tooLong else .ok (.int (powInt a b.toNat))
  else do
    let x ← toBinary64 (.int a)
    let y ← toBinary64 (.int b)
    floatPow x y

/-- The arithmetic operators on numbers; the others are no operators on numbers. -/
def binary : BinaryOp → Numeric → Numeric → Except Fault Numeric
  | .add => arith (fun a b => .ok (.int (a + b))) (fun x y => .ok (.float (x.add y)))
  | .sub => arith (fun a b => .ok (.int (a - b))) (fun x y => .ok (.float (x.sub y)))
  | .mul => arith (fun a b => .ok (.int (a * b))) (fun x y => .ok (.float (x.mul y)))
  | .div => arith quotient fun x y =>
    if y.isZero then .error (.zeroDivide .floatQuotient) else .ok (.float (x.div y))
  | .floorDiv => arith
    (fun a b => if b = 0 then .error (.zeroDivide .floorQuotient) else .ok (.int (a.fdiv b)))
    fun x y => if y.isZero then .error (.zeroDivide .floatFloorQuotient) else .ok (.float (x.floorDiv y))
  | .mod => arith
    (fun a b => if b = 0 then .error (.zeroDivide .remainder) else .ok (.int (a.fmod b)))
    fun x y => if y.isZero then .error (.zeroDivide .floatRemainder) else .ok (.float (x.floorRem y))
  | .pow => arith intPow floatPow
  | _ => fun _ _ => .error .wrongKind

end Numeric

/-! ## Bits -/

/-- The complement of an integer: `-n - 1`. -/
def complement (n : Int) : Int := -n - 1

/-- Combines two integers bit by bit, in two's complement of unbounded width.  An operation on bits that
gives one for two zeros gives the complement of a natural. -/
def bitwise (op : Bool → Bool → Bool) (a b : Int) : Int :=
  let na : Bool := a < 0
  let nb : Bool := b < 0
  let x := (if na then complement a else a).toNat
  let y := (if nb then complement b else b).toNat
  let flip := op na nb
  let r := Nat.bitwise (fun p q => (op (p != na) (q != nb)) != flip) x y
  if flip then complement r else r

/-- Operators on the bits of integers. -/
def bitOp : BinaryOp → Int → Int → Except Fault Int
  | .bitAnd, a, b => .ok (bitwise (· && ·) a b)
  | .bitOr, a, b => .ok (bitwise (· || ·) a b)
  | .bitXor, a, b => .ok (bitwise (· != ·) a b)
  | .shiftLeft, a, b =>
    if b < 0 then .error .wrongValue
    else if a = 0 then .ok 0
    else if maxLimbs < shiftedLimbs a b.toNat then .error .overflow
    else if maxLength ≤ b.toNat then .error .tooLong
    else .ok (a * pow2 b.toNat)
  | .shiftRight, a, b =>
    if b < 0 then .error .wrongValue
    else if a.natAbs.log2 < b.toNat then .ok (if a < 0 then -1 else 0)
    else .ok (a.fdiv (pow2 b.toNat))
  | _, _, _ => .error .wrongKind

/-! ## Sequences -/

/-- How often a sequence of a length is repeated by an integer: not at all by a negative one. -/
def repetitions (length : Nat) (n : Int) : Except Fault Nat :=
  if n < -(wordSize : Int) || wordSize ≤ n then .error .overflow
  else if maxLength ≤ length * n.toNat then .error .tooLong
  else .ok n.toNat

/-- A list repeated. -/
def repeatList {α : Type} (xs : List α) (n : Int) : Except Fault (List α) :=
  if xs.isEmpty then
    (repetitions 0 n).map fun _ => []
  else do
    let k ← repetitions xs.length n
    .ok (List.replicate k xs).flatten

namespace Value

/-- A sequence repeated by an integer.  The length of a text has to fit into a word. -/
def repeated (v : Value) (n : Int) : Except Fault Value :=
  match v with
  | .str s =>
    if wordSize ≤ s.length * n.toNat then .error .overflow
    else (repeatList s.toList n).map fun cs => .str (String.ofList cs)
  | .list xs => (repeatList xs n).map .list
  | .tuple xs => (repeatList xs n).map .tuple
  | _ => .error .wrongKind

/-- Arithmetic on values; sequences are joined and repeated. -/
def arithmetic (op : BinaryOp) (a b : Value) : Except Fault Value :=
  match a.numeric?, b.numeric? with
  | some m, some n => (m.binary op n).map ofNumeric
  | _, _ =>
    match op, a, b with
    | .add, .str s, .str t => .ok (.str (s ++ t))
    | .add, .list xs, .list ys => .ok (.list (xs ++ ys))
    | .add, .tuple xs, .tuple ys => .ok (.tuple (xs ++ ys))
    | .mul, a, b =>
      match a.integer?, b.integer? with
      | none, some n => a.repeated n
      | some n, none => b.repeated n
      | _, _ => .error .wrongKind
    | _, _, _ => .error .wrongKind

/-- Operators on bits; two truth values stay truth values unless they are shifted, and two mappings can be
united. -/
def bitOperation (op : BinaryOp) (a b : Value) : Except Fault Value :=
  match a.integer?, b.integer? with
  | some m, some n => do
    let r ← bitOp op m n
    match op, a, b with
    | .shiftLeft, _, _ => .ok (.int r)
    | .shiftRight, _, _ => .ok (.int r)
    | _, .bool _, .bool _ => .ok (.bool (r != 0))
    | _, _, _ => .ok (.int r)
  | _, _ =>
    match op, a, b with
    | .bitOr, .emptyMap, .emptyMap => .ok .emptyMap
    | _, _, _ => .error .wrongKind

/-! ## Operators before a value -/

/-- An operator before a value. -/
def unary (op : UnaryOp) (v : Value) : Except Fault Value :=
  match op with
  | .not => .ok (.bool !v.truth)
  | .invert =>
    match v.integer? with
    | some n => .ok (.int (complement n))
    | none => .error .wrongKind
  | .plus =>
    match v, v.numeric? with
    | .undefined name path, _ => .ok (.undefined name path)
    | _, some n => .ok (ofNumeric n)
    | _, none => .error .wrongKind
  | .minus =>
    match v.numeric? with
    | some (.int n) => .ok (.int (-n))
    | some (.float x) => .ok (.float x.neg)
    | none => .error .wrongKind

/-! ## Order -/

/-- The order of two texts, by the codes of their characters. -/
def compareChars : List Char → List Char → Ordering
  | [], [] => .eq
  | [], _ :: _ => .lt
  | _ :: _, [] => .gt
  | a :: s, b :: t => (compare (Text.codeOf a) (Text.codeOf b)).then (compareChars s t)

mutual

/-- The order of two values: numbers by value, texts by character, sequences of one kind by their first
differing members.  Nothing orders with the undefined number, and other pairs cannot be compared. -/
def order : Value → Value → Except Fault (Option Ordering)
  | .str s, .str t => .ok (some (compareChars s.toList t.toList))
  | .list xs, .list ys => orderAll xs ys
  | .tuple xs, .tuple ys => orderAll xs ys
  | a, b =>
    match a.numeric?, b.numeric? with
    | some m, some n => .ok (m.compare? n)
    | _, _ => .error .wrongKind

/-- The order of two sequences. -/
def orderAll : List Value → List Value → Except Fault (Option Ordering)
  | [], [] => .ok (some .eq)
  | [], _ :: _ => .ok (some .lt)
  | _ :: _, [] => .ok (some .gt)
  | x :: xs, y :: ys => if x.sameMember y then orderAll xs ys else order x y

end

/-- Does an order satisfy a comparison? -/
def orderSatisfies (c : Comparison) (o : Option Ordering) : Bool :=
  match c, o with
  | .lt, some .lt => true
  | .le, some .lt => true
  | .le, some .eq => true
  | .gt, some .gt => true
  | .ge, some .gt => true
  | .ge, some .eq => true
  | _, _ => false

/-- Does one text occur in another? -/
def occursIn (s : List Char) : List Char → Bool
  | [] => s.isEmpty
  | c :: rest => s.isPrefixOf (c :: rest) || occursIn s rest

mutual

/-- Can the value be a key of a mapping?  Lists and mappings cannot, nor can tuples with such members. -/
def canBeKey : Value → Bool
  | .list _ => false
  | .emptyMap => false
  | .tuple xs => canAllBeKeys xs
  | _ => true

/-- Can all the values be keys? -/
def canAllBeKeys : List Value → Bool
  | [] => true
  | x :: xs => canBeKey x && canAllBeKeys xs

end

/-- Is a value a member of a sequence, a key of a mapping, or a part of a text? -/
def memberOf (a b : Value) : Except Fault Bool :=
  match b with
  | .list xs => .ok (xs.any a.sameMember)
  | .tuple xs => .ok (xs.any a.sameMember)
  | .str t =>
    match a with
    | .str s => .ok (occursIn s.toList t.toList)
    | _ => .error .wrongKind
  | .emptyMap => if a.canBeKey then .ok false else .error .wrongKind
  | _ => .error .wrongKind

/-- A comparison of two values. -/
def compares (c : Comparison) (a b : Value) : Except Fault Bool :=
  match c with
  | .eq => .ok (a.eq b)
  | .ne => .ok !(a.eq b)
  | .same => .ok (a.identical b)
  | .notSame => .ok !(a.identical b)
  | .isIn => a.memberOf b
  | .notIn => (a.memberOf b).map (! ·)
  | c => (a.order b).map (orderSatisfies c)

/-! ## Positions in sequences -/

/-- The number of entries of a sequence or a mapping. -/
def length? : Value → Option Nat
  | .str s => some s.length
  | .list xs => some xs.length
  | .tuple xs => some xs.length
  | .emptyMap => some 0
  | _ => none

/-- The entry at a position, counted from the end if it is negative. -/
def entryAt {α : Type} (xs : List α) (i : Int) : Except Fault α :=
  let j := if i < 0 then i + xs.length else i
  match (if j < 0 then none else xs[j.toNat]?) with
  | some x => .ok x
  | none => .error .outOfRange

/-- The entry of a sequence at a position.  The empty mapping has an entry under no key. -/
def index (v i : Value) : Except Fault Value :=
  match v, i.integer? with
  | .emptyMap, _ => if i.canBeKey then .error .missingKey else .error .wrongKind
  | .str s, some n => (entryAt s.toList n).map fun c => .str (String.ofList [c])
  | .list xs, some n => entryAt xs n
  | .tuple xs, some n => entryAt xs n
  | _, _ => .error .wrongKind

/-- The bound of a slice: absent, or an integer. -/
def bound : Value → Except Fault (Option Int)
  | .nothing => .ok none
  | v =>
    match v.integer? with
    | some n => .ok (some n)
    | none => .error .wrongKind

/-- Moves a bound into the range `lo` to `hi`, counting negative ones from the end. -/
def clampBound (length lo hi n : Int) : Int :=
  let m := if n < 0 then n + length else n
  if m < lo then lo else if hi < m then hi else m

/-- The entries of `xs` at `start`, `start + step`, … as long as they lie before `stop`. -/
def sliceList {α : Type} (xs : List α) (start stop : Option Int) (step : Int) : List α :=
  let length : Int := xs.length
  let forward : Bool := 0 < step
  let lo := if forward then 0 else -1
  let hi := if forward then length else length - 1
  let first := (start.map (clampBound length lo hi)).getD (if forward then lo else hi)
  let last := (stop.map (clampBound length lo hi)).getD (if forward then hi else lo)
  let count :=
    if forward then ((last - first + step - 1).fdiv step).toNat
    else ((first - last + (-step) - 1).fdiv (-step)).toNat
  let entries := xs.toArray
  (List.range count).filterMap fun (k : Nat) => entries[(first + (k : Int) * step).toNat]?

/-- Can parts of the value be taken? -/
def isSequence : Value → Bool
  | .str _ => true
  | .list _ => true
  | .tuple _ => true
  | _ => false

/-- The part of a sequence between two bounds, with a step. -/
def slice (v start stop step : Value) : Except Fault Value := do
  if !v.isSequence then throw .wrongKind
  let step := ((← step.bound).getD 1)
  if step = 0 then throw .wrongValue
  let start ← start.bound
  let stop ← stop.bound
  match v with
  | .str s => .ok (.str (String.ofList (sliceList s.toList start stop step)))
  | .list xs => .ok (.list (sliceList xs start stop step))
  | .tuple xs => .ok (.tuple (sliceList xs start stop step))
  | _ => .error .wrongKind

end Value

end Stitchwork.Formula
