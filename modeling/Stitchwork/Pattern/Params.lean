/- # Stitchwork.Pattern.Params — parameters of actions and blocks.

Parameters are written with spaces between them.  One with an equals sign has a value; what stands behind a
second equals sign is dropped.
-/
import Stitchwork.Error
import Stitchwork.Formula.Coerce

namespace Stitchwork.Pattern

open Stitchwork.Formula

/-- The names and values that a text gives, for a value `unset` of the names without one. -/
def readParam (unset : Value) (piece : String) : String × Value :=
  match Text.cut piece "=" with
  | name :: value :: _ => (name, coerce value)
  | _ => (piece, unset)

/-- The parameters of an action.  A name without a value has nothing as its value; two spaces in a row
give a parameter with the empty name. -/
def readActionParams (s : String) : Table Value :=
  if s.isEmpty then Table.empty
  else Table.ofList ((Text.cut s " ").map (readParam .nothing))

/-- The parameters of a block.  A name without a value has the empty text as its value. -/
def readBlockParams (s : String) : Table Value :=
  Table.ofList (((Text.cut s " ").filter (!·.isEmpty)).map (readParam (.str "")))

/-- A parameter as text. -/
def writeParam (p : String × Value) : Except Error String :=
  match p.2 with
  | .nothing => .ok p.1
  | v =>
    match v.text? with
    | some s => .ok (p.1 ++ "=" ++ s)
    | none => .error .wrongValue

/-- Parameters as text. -/
def writeParams (t : Table Value) : Except Error String := do
  let ps ← t.entries.mapM writeParam
  .ok (Text.join " " ps)

/-- The settings that an argument gives: names and values with an equals sign between them and commas
between the settings.  Pieces without an equals sign are passed over, and what stands behind a second one
is dropped. -/
def readSettings (s : String) : Table String :=
  Table.ofList ((Text.cut s ",").filterMap fun piece =>
    match Text.cut piece "=" with
    | name :: value :: _ => some (Text.trim name, Text.trim value)
    | _ => none)

end Stitchwork.Pattern
