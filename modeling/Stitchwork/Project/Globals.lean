/- # Stitchwork.Project.Globals — the values that all parts of a project see.

Configs come first and then values, each in the order of the pattern; each is evaluated with the global
values that stand in front of it.  Choosing a value for a config uses up its allowed values.
-/
import Stitchwork.Pattern.Condition
import Stitchwork.Pattern.Document

namespace Stitchwork.Project

open Stitchwork.Formula Stitchwork.Markup Stitchwork.Pattern

/-- The text of a value. -/
def textOfValue (v : Value) : Except Error String :=
  match v.text? with
  | some s => .ok s
  | none => .error .wrongValue

/-- The value of a config, and the config that is left. -/
def configValue (chosen : Table String) (globals : Scope) (c : Config) : Except Error Value × Config :=
  match chosen.get? c.name with
  | some s =>
    if c.allowed.given then
      let (found, left) := c.allowed.find s
      (if found then .ok (coerce s) else .error (.notAllowed s c.name), { c with allowed := left })
    else (.ok (coerce s), c)
  | none => ((expandText globals c.value).map coerce, c)

/-- The element of a config in a project; a config that is required must not be blank. -/
def configElement (c : Config) (v : Value) : Except Error Element := do
  let s ← textOfValue v
  if c.required && (Text.trim s).isEmpty then throw (.valueRequired c.name)
  .ok (element "config" [("name", c.name), ("value", s)])

/-- What has become of the configs: those that are left, the global values, and the elements. -/
structure Configured where
  left : List Config
  globals : Scope
  elements : Except Error (List Element)

/-- Evaluates configs from left to right, up to the first that fails. -/
def configure (chosen : Table String) : Scope → List Config → Configured
  | globals, [] => ⟨[], globals, .ok []⟩
  | globals, c :: rest =>
    match configValue chosen globals c with
    | (.error e, left) => ⟨left :: rest, globals, .error e⟩
    | (.ok v, left) =>
      let globals := globals.insert c.name v
      match configElement c v with
      | .error e => ⟨left :: rest, globals, .error e⟩
      | .ok element =>
        let r := configure chosen globals rest
        ⟨left :: r.left, r.globals, r.elements.map (element :: ·)⟩

/-- Evaluates a value, unless its condition does not hold. -/
def evaluateValue (globals : Scope) (v : NamedValue) : Except Error Scope := do
  if ← holdsIfGiven globals v.condition then
    let s ← expandText globals v.value
    .ok (globals.insert v.name (coerce s))
  else .ok globals

/-- Evaluates values from left to right, up to the first that fails. -/
def evaluateValues : Scope → List NamedValue → Scope × Except Error Unit
  | globals, [] => (globals, .ok ())
  | globals, v :: rest =>
    match evaluateValue globals v with
    | .error e => (globals, .error e)
    | .ok globals => evaluateValues globals rest

end Stitchwork.Project
