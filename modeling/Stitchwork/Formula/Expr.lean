/- # Stitchwork.Formula.Expr — the shape of a formula, and its value.

Operands are evaluated from left to right.  `and`, `or`, a chain of comparisons and a choice evaluate no
more than they need; a call evaluates the function, then all arguments.  A name is looked up in the scope
first and among the functions then, so a value hides a function of the same name.  Nothing is built in
beyond the functions: the name for what is built in stands for the empty mapping.
-/
import Stitchwork.Formula.Function

namespace Stitchwork.Formula

/-- A formula. -/
inductive Expr where
  | literal (v : Value)
  | name (s : String)
  | list (es : List Expr)
  | tuple (es : List Expr)
  | unary (op : UnaryOp) (e : Expr)
  | binary (op : BinaryOp) (a b : Expr)
  | and (a b : Expr)
  | or (a b : Expr)
  | chain (first : Expr) (ops : List Comparison) (rest : List Expr)
  | choice (test yes no : Expr)
  | call (f : Expr) (args : List Expr) (names : List String) (named : List Expr)
  | index (e i : Expr)
  | slice (e start stop step : Expr)
deriving Repr, Inhabited

/-- The name for what is built in. -/
def builtinsName : String := "__builtins__"

/-- The value of a name: from the scope, or else a function. -/
def lookup (scope : Scope) (s : String) : Except Fault Value :=
  match scope.get? s with
  | some v => .ok (v.placed s [])
  | none =>
    match Function.ofName? s with
    | some f => .ok (.function f)
    | none => if s == builtinsName then .ok .emptyMap else .error (.unknownName s)

/-- Calls a value. -/
def Value.call (f : Value) (args : List Value) (named : List (String × Value)) : Except Fault Value :=
  match f with
  | .function f => f.call args named
  | _ => .error .wrongKind

namespace Expr

mutual

/-- The value of a formula in a scope. -/
def eval (scope : Scope) : Expr → Except Fault Value
  | .literal v => .ok v
  | .name s => lookup scope s
  | .list es => (evalAll scope es).map .list
  | .tuple es => (evalAll scope es).map .tuple
  | .unary op e => do (← eval scope e).unary op
  | .binary op a b => do
    let x ← eval scope a
    let y ← eval scope b
    x.binary op y
  | .and a b => do
    let x ← eval scope a
    if x.truth then eval scope b else .ok x
  | .or a b => do
    let x ← eval scope a
    if x.truth then .ok x else eval scope b
  | .chain first ops rest => do
    let x ← eval scope first
    evalChain scope x ops rest
  | .choice test yes no => do
    let t ← eval scope test
    if t.truth then eval scope yes else eval scope no
  | .call f args names named => do
    let g ← eval scope f
    let vs ← evalAll scope args
    let ws ← evalAll scope named
    g.call vs (names.zip ws)
  | .index e i => do
    let v ← eval scope e
    let j ← eval scope i
    v.index j
  | .slice e start stop step => do
    let v ← eval scope e
    let i ← eval scope start
    let j ← eval scope stop
    let k ← eval scope step
    v.slice i j k

/-- The values of formulas, from left to right. -/
def evalAll (scope : Scope) : List Expr → Except Fault (List Value)
  | [] => .ok []
  | e :: es => do
    let v ← eval scope e
    let vs ← evalAll scope es
    .ok (v :: vs)

/-- The value of a chain of comparisons behind the value `x`: each operand is evaluated once, and the
first comparison that fails ends the chain. -/
def evalChain (scope : Scope) (x : Value) : List Comparison → List Expr → Except Fault Value
  | c :: ops, e :: es => do
    let y ← eval scope e
    if ← Value.compares c x y then
      if ops.isEmpty then .ok (.bool true) else evalChain scope y ops es
    else .ok (.bool false)
  | _, _ => .ok (.bool true)

end

end Expr

end Stitchwork.Formula
